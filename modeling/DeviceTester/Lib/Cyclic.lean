import Mathlib.Data.List.DropRight
import Mathlib.Data.List.Rotate

/-!
# A full list as a ring

The cells of a ring are a list of fixed length, and what it holds is the list read from the
oldest entry around the end. The newest entry is in the cell before the oldest. Writing to the
one or the other is an operation on the end of what the ring holds.
-/
namespace DeviceTester.Lib

variable {α : Type*} {cells l : List α} {p n : Nat}

/-- The entries from `start` around the end, each index checked against the bounds. -/
def readCyclic (cells : List α) (start : Nat) : Option (List α) :=
  (List.range cells.length).mapM fun i => cells[(start + i) % cells.length]?

theorem mapM_eq_some_of_map {β : Type*} {f : β → Option α} {is : List β} {as : List α}
    (h : is.map f = as.map some) : is.mapM f = some as := by
  induction is generalizing as with
  | nil =>
    obtain rfl : as = [] := by simpa using h.symm
    rfl
  | cons i is ih =>
    cases as with
    | nil => simp at h
    | cons a as =>
      obtain ⟨hhead, htail⟩ : f i = some a ∧ is.map f = as.map some := by simpa using h
      simp [hhead, ih htail]

/-- A cyclic read never leaves the bounds, and gives the list rotated. -/
theorem readCyclic_eq (cells : List α) (start : Nat) :
    readCyclic cells start = some (cells.rotate start) := by
  apply mapM_eq_some_of_map
  apply List.ext_getElem
  · simp
  · intro i hi _
    have hlt : i < cells.length := by simpa using hi
    have hmod : (start + i) % cells.length < cells.length :=
      Nat.mod_lt _ (Nat.zero_lt_of_lt hlt)
    simp [List.getElem?_eq_getElem hmod, List.getElem_rotate, Nat.add_comm]

/-! ## The cell before the one read first -/

/-- Reading from behind a cell gives that cell last. -/
theorem rotate_succ_of_split (before after : List α) (a : α) :
    (before ++ a :: after).rotate (before.length + 1) = after ++ before ++ [a] := by
  have hsplit : before ++ a :: after = (before ++ [a]) ++ after := by simp
  have hlength : before.length + 1 = (before ++ [a]).length := by simp
  rw [hsplit, hlength, List.rotate_append_length_eq, List.append_assoc]

theorem exists_split (h : p < cells.length) (a : α) :
    ∃ before b after, cells = before ++ b :: after ∧ before.length = p ∧
      cells[p]? = some b ∧ cells.set p a = before ++ a :: after := by
  refine ⟨cells.take p, cells[p], cells.drop (p + 1), ?_, ?_, ?_, ?_⟩
  · rw [List.getElem_cons_drop h, List.take_append_drop]
  · rw [List.length_take]
    omega
  · exact List.getElem?_eq_getElem h
  · rw [List.set_eq_take_append_cons_drop, if_pos h]

theorem getLast?_rotate_succ (h : p < cells.length) :
    (cells.rotate (p + 1)).getLast? = cells[p]? := by
  obtain ⟨before, b, after, rfl, rfl, hb, -⟩ := exists_split h cells[p]
  rw [hb, rotate_succ_of_split, List.getLast?_concat]

theorem rotate_succ_set (h : p < cells.length) (a : α) :
    (cells.set p a).rotate (p + 1) = (cells.rotate (p + 1)).dropLast ++ [a] := by
  obtain ⟨before, b, after, rfl, rfl, -, hset⟩ := exists_split h a
  rw [hset, rotate_succ_of_split, rotate_succ_of_split, List.dropLast_concat]

/-- Overwriting the cell read first, and reading from behind it. -/
theorem rotate_set_oldest (h : p < cells.length) (a : α) :
    (cells.set p a).rotate (p + 1) = (cells.rotate p).tail ++ [a] := by
  obtain ⟨before, b, after, rfl, rfl, -, hset⟩ := exists_split h a
  rw [hset, rotate_succ_of_split, List.rotate_append_length_eq]
  rfl

/-! ## The last entries of a list -/

theorem rtake_of_length_le (h : l.length ≤ n) : l.rtake n = l := by
  rw [List.rtake, Nat.sub_eq_zero_of_le h, List.drop_zero]

theorem length_rtake (l : List α) (n : Nat) : (l.rtake n).length = min n l.length := by
  rw [List.rtake, List.length_drop]
  omega

theorem map_rtake {β : Type*} (f : α → β) (l : List α) (n : Nat) :
    (l.map f).rtake n = (l.rtake n).map f := by
  rw [List.rtake, List.rtake, List.length_map, List.map_drop]

/-- Of a list with `n` entries, one more entry pushes out the oldest of the last `n`. -/
theorem rtake_concat_of_le (hn : 0 < n) (h : n ≤ l.length) (a : α) :
    (l ++ [a]).rtake n = (l.rtake n).tail ++ [a] := by
  obtain ⟨k, rfl⟩ := Nat.exists_eq_succ_of_ne_zero (Nat.ne_of_gt hn)
  rw [List.rtake_concat_succ, List.rtake, List.rtake, List.tail_drop]
  have hk : l.length - (k + 1) + 1 = l.length - k := by omega
  rw [hk]

theorem rtake_concat_rtake (hn : 0 < n) (l : List α) (a : α) :
    (l.rtake n ++ [a]).rtake n = (l ++ [a]).rtake n := by
  by_cases h : n ≤ l.length
  · have hlength : (l.rtake n).length = n := by
      rw [length_rtake, Nat.min_eq_left h]
    rw [rtake_concat_of_le hn h, rtake_concat_of_le hn (Nat.le_of_eq hlength.symm),
      rtake_of_length_le (Nat.le_of_eq hlength)]
  · rw [rtake_of_length_le (Nat.le_of_not_le h)]

theorem dropLast_concat_rtake (hn : 0 < n) (h : l ≠ []) (a : α) :
    (l.dropLast ++ [a]).rtake n = (l.rtake n).dropLast ++ [a] := by
  obtain ⟨k, rfl⟩ := Nat.exists_eq_succ_of_ne_zero (Nat.ne_of_gt hn)
  obtain ⟨init, b, rfl⟩ := List.eq_nil_or_concat' l |>.resolve_left h
  rw [List.dropLast_concat, List.rtake_concat_succ, List.rtake_concat_succ, List.dropLast_concat]

theorem getLast?_rtake (hn : 0 < n) : (l.rtake n).getLast? = l.getLast? := by
  obtain ⟨k, rfl⟩ := Nat.exists_eq_succ_of_ne_zero (Nat.ne_of_gt hn)
  rcases List.eq_nil_or_concat' l with rfl | ⟨init, b, rfl⟩
  · rw [List.rtake_nil]
  · rw [List.rtake_concat_succ, List.getLast?_concat, List.getLast?_concat]

end DeviceTester.Lib

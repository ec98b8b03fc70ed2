import DeviceTester.Lib.Cyclic
import DeviceTester.Lib.Run
import Mathlib.Algebra.Order.Ring.Nat

/-!
# `gui::ScrollingBuffer`

The buffer of a plot: points are appended until `max_size` of them are held, and from then on
each takes the place of the oldest. `addToHisto` adds to the newest point where the position on
the x axis is the same. Every access to `data` is checked against the bounds.
-/
namespace DeviceTester.Gui

open DeviceTester.Lib

structure Point (E : Type*) where
  x : E
  y : E
  deriving DecidableEq, Repr

/-- `max_size` is an `int` that the constructor has found not to be negative. -/
structure ScrollingBuffer (E : Type*) where
  maxSize : Nat
  maxSize_lt : maxSize < 2 ^ 31
  prevOffset : Int
  offset : Nat
  data : List (Point E)
  deriving DecidableEq

namespace ScrollingBuffer

variable {E : Type*}

/-- The constructor. `data.reserve` throws for a negative `max_size`. -/
def construct (maxSize : Int32) : Option (ScrollingBuffer E) :=
  if 0 ≤ maxSize then
    some
      { maxSize := maxSize.toNatClampNeg
        maxSize_lt := Int32.toNatClampNeg_lt maxSize
        prevOffset := -1
        offset := 0
        data := [] }
  else none

/-- `data[i]`. -/
def at? (b : ScrollingBuffer E) (i : Int) : Option (Point E) :=
  if 0 ≤ i then b.data[i.toNat]? else none

@[simp] theorem at?_natCast (b : ScrollingBuffer E) (i : Nat) : b.at? i = b.data[i]? := by
  simp [at?]

def addPoint (b : ScrollingBuffer E) (x y : E) : Option (ScrollingBuffer E) :=
  if b.data.length < b.maxSize then some { b with data := b.data ++ [⟨x, y⟩] }
  else
    (b.at? b.offset).map fun _ =>
      { b with
        data := b.data.set b.offset ⟨x, y⟩
        prevOffset := b.offset
        offset := (b.offset + 1) % b.maxSize }

variable [DecidableEq E] [Add E]

/-- `addToHisto` once it knows that the newest point is `data[i]`. -/
def addAt (b : ScrollingBuffer E) (i : Int) (x y : E) : Option (Bool × ScrollingBuffer E) :=
  (b.at? i).bind fun p =>
    if p.x = x then some (false, { b with data := b.data.set i.toNat { p with y := p.y + y } })
    else (b.addPoint x y).map fun b' => (true, b')

def addToHisto (b : ScrollingBuffer E) (x y : E) : Option (Bool × ScrollingBuffer E) :=
  if b.prevOffset = -1 then
    if b.data.length = 0 then (b.addPoint x y).map fun b' => (true, b')
    else b.addAt (b.data.length - 1) x y
  else b.addAt b.prevOffset x y

/-- The points in the order in which a plot that is given `offset` reads them. -/
def drawn (b : ScrollingBuffer E) : Option (List (Point E)) := readCyclic b.data b.offset

inductive Call (E : Type*) where
  | addPoint (x y : E)
  | addToHisto (x y : E)
  deriving DecidableEq, Repr

def step (b : ScrollingBuffer E) : Call E → Option (ScrollingBuffer E)
  | .addPoint x y => b.addPoint x y
  | .addToHisto x y => (b.addToHisto x y).map Prod.snd

/-! ## What is to be held -/

/-- A point added to all the points there were before it. -/
def record (points : List (Point E)) : Call E → List (Point E)
  | .addPoint x y => points ++ [⟨x, y⟩]
  | .addToHisto x y =>
      match points.getLast? with
      | some p => if p.x = x then points.dropLast ++ [{ p with y := p.y + y }] else points ++ [⟨x, y⟩]
      | none => points ++ [⟨x, y⟩]

def history (calls : List (Call E)) : List (Point E) := calls.foldl record []

/-- The buffer after `points`: the cell written last is the one before `offset`. -/
structure Follows (b : ScrollingBuffer E) (points : List (Point E)) : Prop where
  length : b.data.length = min b.maxSize points.length
  prevOffset : b.prevOffset =
    if points.length ≤ b.maxSize then (-1 : Int) else ((points.length - 1) % b.maxSize : Nat)
  offset : b.offset = if points.length ≤ b.maxSize then 0 else points.length % b.maxSize
  drawn : b.data.rotate b.offset = points.rtake b.maxSize

/-- `addToHisto` at `x` is to start a new point. -/
def Starts (points : List (Point E)) (x : E) : Prop := ∀ p ∈ points.getLast?, p.x ≠ x

instance (points : List (Point E)) (x : E) : Decidable (Starts points x) :=
  inferInstanceAs (Decidable (∀ p ∈ points.getLast?, p.x ≠ x))

section Steps

omit [DecidableEq E] [Add E]

variable {b : ScrollingBuffer E} {points : List (Point E)}

/-- Where the newest point is, while the buffer fills and after it has wrapped. -/
theorem Follows.newest_lt (h : Follows b points) (hpos : 0 < b.maxSize) (hne : points ≠ []) :
    (points.length - 1) % b.maxSize < b.data.length := by
  have hpoints : 0 < points.length := List.length_pos_of_ne_nil hne
  have hlt : (points.length - 1) % b.maxSize < b.maxSize := Nat.mod_lt _ hpos
  have hle : (points.length - 1) % b.maxSize ≤ points.length - 1 := Nat.mod_le _ _
  rw [h.length]
  omega

/-- To read from `offset` is to read from behind the newest point. -/
theorem Follows.rotate_offset (h : Follows b points) (hne : points ≠ [])
    {cells : List (Point E)} (hcells : cells.length = b.data.length) :
    cells.rotate b.offset = cells.rotate ((points.length - 1) % b.maxSize + 1) := by
  have hpoints : 0 < points.length := List.length_pos_of_ne_nil hne
  have hlength := h.length
  by_cases hfull : points.length ≤ b.maxSize
  · have hlast : (points.length - 1) % b.maxSize + 1 = cells.length := by
      rw [Nat.mod_eq_of_lt (by omega)]
      omega
    rw [h.offset, if_pos hfull, hlast, List.rotate_length, List.rotate_zero]
  · have hsize : cells.length = b.maxSize := by omega
    have hsucc : points.length - 1 + 1 = points.length := by omega
    rw [h.offset, if_neg hfull, ← List.rotate_mod cells (_ + 1), hsize, Nat.mod_add_mod, hsucc]

theorem Follows.newest_getElem? (h : Follows b points) (hpos : 0 < b.maxSize)
    (hne : points ≠ []) : b.data[(points.length - 1) % b.maxSize]? = points.getLast? := by
  rw [← getLast?_rotate_succ (h.newest_lt hpos hne), ← h.rotate_offset hne rfl, h.drawn,
    getLast?_rtake hpos]

theorem Follows.set_newest (h : Follows b points) (hpos : 0 < b.maxSize) (hne : points ≠ [])
    (p : Point E) :
    Follows { b with data := b.data.set ((points.length - 1) % b.maxSize) p }
      (points.dropLast ++ [p]) := by
  have hpoints : 0 < points.length := List.length_pos_of_ne_nil hne
  have hlength : (points.dropLast ++ [p]).length = points.length := by
    rw [List.length_append, List.length_dropLast, List.length_singleton]
    omega
  constructor
  · rw [List.length_set, hlength, h.length]
  · rw [hlength, h.prevOffset]
  · rw [hlength, h.offset]
  · change (b.data.set ((points.length - 1) % b.maxSize) p).rotate b.offset =
      (points.dropLast ++ [p]).rtake b.maxSize
    rw [h.rotate_offset hne List.length_set, rotate_succ_set (h.newest_lt hpos hne),
      ← h.rotate_offset hne rfl, h.drawn, dropLast_concat_rtake hpos hne]

/-- While there is room, the points are the cells. -/
theorem Follows.push (h : Follows b points) (hroom : b.data.length < b.maxSize) (p : Point E) :
    Follows { b with data := b.data ++ [p] } (points ++ [p]) := by
  have hlength := h.length
  have hfill : points.length ≤ b.maxSize := by omega
  have hoffset : b.offset = 0 := by rw [h.offset, if_pos hfill]
  have hdata : b.data = points := by
    have hdrawn := h.drawn
    rwa [hoffset, List.rotate_zero, rtake_of_length_le hfill] at hdrawn
  have hroom' : (points ++ [p]).length ≤ b.maxSize := by
    rw [List.length_append, List.length_singleton, ← hdata]
    omega
  constructor
  · rw [hdata, Nat.min_eq_right hroom']
  · rw [if_pos hroom', h.prevOffset, if_pos hfill]
  · rw [if_pos hroom', hoffset]
  · show (b.data ++ [p]).rotate b.offset = (points ++ [p]).rtake b.maxSize
    rw [hoffset, List.rotate_zero, hdata, rtake_of_length_le hroom']

/-- The oldest point of a full buffer is in the cell at `offset`. -/
theorem Follows.offset_of_full (h : Follows b points) (hpos : 0 < b.maxSize)
    (hfull : ¬ b.data.length < b.maxSize) :
    b.maxSize ≤ points.length ∧ b.data.length = b.maxSize ∧
      b.offset = points.length % b.maxSize ∧ b.offset < b.data.length := by
  have hlength := h.length
  have hle : b.maxSize ≤ points.length := by omega
  have hoffset : b.offset = points.length % b.maxSize := by
    rw [h.offset]
    split
    · have heq : points.length = b.maxSize := by omega
      rw [heq, Nat.mod_self]
    · rfl
  have hmod : points.length % b.maxSize < b.maxSize := Nat.mod_lt _ hpos
  exact ⟨hle, by omega, hoffset, by omega⟩

theorem Follows.overwrite (h : Follows b points) (hpos : 0 < b.maxSize)
    (hfull : ¬ b.data.length < b.maxSize) (p : Point E) :
    Follows
      { b with
        data := b.data.set b.offset p
        prevOffset := b.offset
        offset := (b.offset + 1) % b.maxSize } (points ++ [p]) := by
  obtain ⟨hle, hsize, hoffset, hlt⟩ := h.offset_of_full hpos hfull
  have hlength : (points ++ [p]).length = points.length + 1 := by
    rw [List.length_append, List.length_singleton]
  have hover : ¬ (points ++ [p]).length ≤ b.maxSize := by omega
  constructor
  · rw [List.length_set, hsize, Nat.min_eq_left (Nat.le_of_not_le hover)]
  · rw [if_neg hover, hlength, Nat.add_sub_cancel, hoffset]
  · rw [if_neg hover, hlength, hoffset, Nat.mod_add_mod]
  · show (b.data.set b.offset p).rotate ((b.offset + 1) % b.maxSize) =
      (points ++ [p]).rtake b.maxSize
    have hmod : (b.data.set b.offset p).rotate ((b.offset + 1) % b.maxSize) =
        (b.data.set b.offset p).rotate (b.offset + 1) := by
      rw [← hsize, ← List.length_set, List.rotate_mod]
    rw [hmod, rotate_set_oldest hlt, h.drawn, rtake_concat_of_le hpos hle]

theorem addPoint_follows (h : Follows b points) (hpos : 0 < b.maxSize) (x y : E) :
    ∃ b', b.addPoint x y = some b' ∧ b'.maxSize = b.maxSize ∧
      Follows b' (points ++ [⟨x, y⟩]) := by
  unfold addPoint
  by_cases hroom : b.data.length < b.maxSize
  · rw [if_pos hroom]
    exact ⟨_, rfl, rfl, h.push hroom ⟨x, y⟩⟩
  · have hlt := (h.offset_of_full hpos hroom).2.2.2
    rw [if_neg hroom, at?_natCast, List.getElem?_eq_getElem hlt]
    exact ⟨_, rfl, rfl, h.overwrite hpos hroom ⟨x, y⟩⟩

/-- The value that was added can be read off the buffer. -/
theorem addPoint_injective {x y y' : E} {b' : ScrollingBuffer E} (h : b.addPoint x y = some b')
    (h' : b.addPoint x y' = some b') : y = y' := by
  unfold addPoint at h h'
  by_cases hroom : b.data.length < b.maxSize
  · rw [if_pos hroom] at h h'
    have hdata := congrArg ScrollingBuffer.data (Option.some.inj (h.trans h'.symm))
    have hpoint : (⟨x, y⟩ : Point E) = ⟨x, y'⟩ := by simpa using hdata
    exact congrArg Point.y hpoint
  · rw [if_neg hroom] at h h'
    obtain ⟨old, hold, hb⟩ := Option.map_eq_some_iff.mp h
    obtain ⟨_, -, hb'⟩ := Option.map_eq_some_iff.mp h'
    have hlt : b.offset < b.data.length := by
      rw [at?_natCast] at hold
      exact (List.getElem?_eq_some_iff.mp hold).1
    have hdata := congrArg ScrollingBuffer.data (hb.trans hb'.symm)
    have hpoint := congrArg (fun data => data[b.offset]?) hdata
    simp only [List.getElem?_set_self hlt, Option.some.injEq, Point.mk.injEq] at hpoint
    exact hpoint.2

/-- A buffer for no points has no cell to write to. -/
theorem addPoint_of_no_size (h : Follows b []) (hsize : b.maxSize = 0) (x y : E) :
    b.addPoint x y = none := by
  have hlength : b.data.length = 0 := by
    rw [h.length, List.length_nil, Nat.min_zero]
  have hdata : b.data = [] := List.length_eq_zero_iff.mp hlength
  rw [addPoint, if_neg (by omega), at?_natCast, hdata]
  rfl

end Steps

section Histogram

variable {b : ScrollingBuffer E} {points : List (Point E)} {x : E}

theorem record_of_starts (h : Starts points x) (y : E) :
    record points (.addToHisto x y) = points ++ [⟨x, y⟩] := by
  cases hlast : points.getLast? with
  | none => simp [record, hlast]
  | some p =>
    have hx : p.x ≠ x := h p hlast
    simp [record, hlast, hx]

theorem record_of_same {p : Point E} (hlast : points.getLast? = some p) (hx : p.x = x) (y : E) :
    record points (.addToHisto x y) = points.dropLast ++ [{ p with y := p.y + y }] := by
  simp [record, hlast, hx]

omit [Add E] in
theorem exists_same_of_not_starts (h : ¬ Starts points x) :
    ∃ p, points.getLast? = some p ∧ p.x = x := by
  simpa [Starts] using h

theorem length_record_of_not_starts (h : ¬ Starts points x) (y : E) :
    (record points (.addToHisto x y)).length = points.length := by
  obtain ⟨p, hlast, hx⟩ := exists_same_of_not_starts h
  have hpos : 0 < points.length := List.length_pos_of_mem (List.mem_of_getLast? hlast)
  rw [record_of_same hlast hx, List.length_append, List.length_dropLast, List.length_singleton]
  omega

theorem map_x_record_of_not_starts (h : ¬ Starts points x) (y : E) :
    (record points (.addToHisto x y)).map Point.x = points.map Point.x := by
  obtain ⟨p, hlast, hx⟩ := exists_same_of_not_starts h
  obtain ⟨init, rfl⟩ := List.getLast?_eq_some_iff.mp hlast
  rw [record_of_same hlast hx, List.dropLast_concat, List.map_append, List.map_append]
  rfl

theorem record_eq_append_iff (points : List (Point E)) (x y : E) :
    record points (.addToHisto x y) = points ++ [⟨x, y⟩] ↔ Starts points x := by
  constructor
  · intro happend
    by_contra h
    have hlength := length_record_of_not_starts h y
    rw [happend, List.length_append, List.length_singleton] at hlength
    omega
  · intro h
    exact record_of_starts h y

/-- `addToHisto` finds the newest point, whichever way it looks for it. -/
theorem addToHisto_eq_addAt (h : Follows b points) (hne : points ≠ []) (x y : E) :
    b.addToHisto x y = b.addAt ((points.length - 1) % b.maxSize : Nat) x y := by
  have hpoints : 0 < points.length := List.length_pos_of_ne_nil hne
  have hlength := h.length
  unfold addToHisto
  by_cases hfull : points.length ≤ b.maxSize
  · have hsentinel : b.prevOffset = -1 := by rw [h.prevOffset, if_pos hfull]
    have hdata : b.data.length ≠ 0 := by omega
    have hlast : ((b.data.length : Int) - 1) = ((points.length - 1) % b.maxSize : Nat) := by
      rw [Nat.mod_eq_of_lt (by omega)]
      omega
    rw [if_pos hsentinel, if_neg hdata, hlast]
  · have hprev : b.prevOffset = ((points.length - 1) % b.maxSize : Nat) := by
      rw [h.prevOffset, if_neg hfull]
    have hsentinel : b.prevOffset ≠ -1 := by omega
    rw [if_neg hsentinel, hprev]

theorem addToHisto_nil (h : Follows b []) (x y : E) :
    b.addToHisto x y = (b.addPoint x y).map fun b' => (true, b') := by
  have hsentinel : b.prevOffset = -1 := by
    rw [h.prevOffset]
    exact if_pos (Nat.zero_le _)
  have hdata : b.data.length = 0 := by
    rw [h.length, List.length_nil, Nat.min_zero]
  rw [addToHisto, if_pos hsentinel, if_pos hdata]

/-- `addToHisto` starts a point where one is to be started, and else adds to the newest. -/
theorem addToHisto_follows (h : Follows b points) (hpos : 0 < b.maxSize) (x y : E) :
    ∃ b', b.addToHisto x y = some (decide (Starts points x), b') ∧ b'.maxSize = b.maxSize ∧
      Follows b' (record points (.addToHisto x y)) := by
  obtain ⟨added, hadded, hsize, hfollows⟩ := addPoint_follows h hpos x y
  by_cases hne : points = []
  · subst hne
    rw [addToHisto_nil h, hadded]
    exact ⟨added, rfl, hsize, hfollows⟩
  · have hat : ∀ p, points.getLast? = some p →
        b.at? ((points.length - 1) % b.maxSize : Nat) = some p := by
      intro p hlast
      rw [at?_natCast, h.newest_getElem? hpos hne, hlast]
    rw [addToHisto_eq_addAt h hne, addAt]
    by_cases hstarts : Starts points x
    · obtain ⟨p, hlast⟩ : ∃ p, points.getLast? = some p :=
        ⟨_, List.getLast?_eq_some_getLast hne⟩
      have hx : p.x ≠ x := hstarts p hlast
      rw [hat p hlast, record_of_starts hstarts]
      simp only [Option.bind_some, if_neg hx, hadded, Option.map_some, decide_eq_true hstarts]
      exact ⟨added, rfl, hsize, hfollows⟩
    · obtain ⟨p, hlast, hx⟩ := exists_same_of_not_starts hstarts
      rw [hat p hlast, record_of_same hlast hx]
      simp only [Option.bind_some, if_pos hx, decide_eq_false hstarts]
      exact ⟨_, rfl, rfl, h.set_newest hpos hne _⟩

theorem step_follows (h : Follows b points) (hpos : 0 < b.maxSize) (call : Call E) :
    ∃ b', step b call = some b' ∧ b'.maxSize = b.maxSize ∧ Follows b' (record points call) := by
  cases call with
  | addPoint x y => exact addPoint_follows h hpos x y
  | addToHisto x y =>
    obtain ⟨b', hadd, hsize, hfollows⟩ := addToHisto_follows h hpos x y
    refine ⟨b', ?_, hsize, hfollows⟩
    rw [step, hadd]
    rfl

theorem exec_follows (h : Follows b points) (hpos : 0 < b.maxSize) (calls : List (Call E)) :
    ∃ b', exec step b calls = some b' ∧ b'.maxSize = b.maxSize ∧
      Follows b' (calls.foldl record points) := by
  induction calls generalizing b points with
  | nil => exact ⟨b, rfl, rfl, h⟩
  | cons call calls ih =>
    obtain ⟨c, hstep, hsize, hc⟩ := step_follows h hpos call
    obtain ⟨b', hexec, hsize', hfollows⟩ := ih hc (hsize ▸ hpos)
    refine ⟨b', ?_, hsize'.trans hsize, hfollows⟩
    rw [exec_cons hstep]
    exact hexec

omit [DecidableEq E] [Add E] in
theorem construct_follows {maxSize : Int32} (h : construct maxSize = some b) :
    Follows b [] ∧ b.maxSize = maxSize.toNatClampNeg := by
  unfold construct at h
  split at h
  · obtain rfl := Option.some.inj h
    refine ⟨⟨?_, ?_, ?_, ?_⟩, rfl⟩
    · exact (Nat.min_zero _).symm
    · exact (if_pos (Nat.zero_le _)).symm
    · exact (if_pos (Nat.zero_le _)).symm
    · rw [List.rtake_nil, List.rotate_nil]
  · cases h

omit [DecidableEq E] [Add E] in
theorem exists_construct {maxSize : Int32} (h : 1 ≤ maxSize) :
    0 < maxSize.toNatClampNeg ∧ ∃ fresh : ScrollingBuffer E, construct maxSize = some fresh := by
  have hint : (1 : Int) ≤ maxSize.toInt := Int32.le_iff_toInt_le.mp h
  have hnonneg : 0 ≤ maxSize := by
    apply Int32.le_iff_toInt_le.mpr
    show (0 : Int) ≤ maxSize.toInt
    omega
  constructor
  · rw [← Int32.toNat_toInt]
    omega
  · rw [construct, if_pos hnonneg]
    exact ⟨_, rfl⟩

end Histogram

/-- After any calls on a fresh buffer, a plot reads within the bounds the last points there
were, in their order, and `addToHisto` reports whether it appends one. -/
theorem reads_last_points (maxSize : Int32) (h : 1 ≤ maxSize) (calls : List (Call UInt64)) :
    ∃ fresh b, construct maxSize = some fresh ∧ exec step fresh calls = some b ∧
      b.drawn = some ((history calls).rtake (min (history calls).length maxSize.toNatClampNeg)) ∧
      ∀ x y, ∃ appended b', b.addToHisto x y = some (appended, b') ∧
        (appended = true ↔
          history (calls ++ [.addToHisto x y]) = history calls ++ [⟨x, y⟩]) := by
  obtain ⟨hpos, fresh, hfresh⟩ := exists_construct (E := UInt64) h
  obtain ⟨hnil, hsize⟩ := construct_follows hfresh
  obtain ⟨b, hexec, hsize', hb⟩ := exec_follows hnil (hsize ▸ hpos) calls
  rw [hsize] at hsize'
  have hmin : (history calls).rtake (min (history calls).length maxSize.toNatClampNeg) =
      (history calls).rtake b.maxSize := by
    rw [hsize', List.rtake, List.rtake]
    congr 1
    omega
  refine ⟨fresh, b, hfresh, hexec, ?_, fun x y => ?_⟩
  · rw [drawn, readCyclic_eq, hb.drawn, hmin]
    rfl
  · obtain ⟨b', hadd, -, -⟩ := addToHisto_follows hb (hsize' ▸ hpos) x y
    refine ⟨_, b', hadd, ?_⟩
    have hhistory : history (calls ++ [.addToHisto x y]) =
        record (history calls) (.addToHisto x y) := by
      rw [history, List.foldl_append]
      rfl
    rw [hhistory, record_eq_append_iff, decide_eq_true_iff]
    rfl

/-- Three points in a buffer for two, the first of them added to once. -/
theorem reads_last_two :
    ∃ fresh b, construct 2 = some fresh ∧
      exec step fresh [.addToHisto 7 1, .addToHisto 7 2, .addPoint 8 5, .addToHisto 9 4] = some b ∧
      b.drawn = some [⟨(8 : UInt64), 5⟩, ⟨9, 4⟩] := by
  obtain ⟨fresh, b, hfresh, hexec, hdrawn, -⟩ := reads_last_points 2 (by decide)
    [.addToHisto 7 1, .addToHisto 7 2, .addPoint 8 5, .addToHisto 9 4]
  exact ⟨fresh, b, hfresh, hexec, hdrawn⟩

end ScrollingBuffer

end DeviceTester.Gui

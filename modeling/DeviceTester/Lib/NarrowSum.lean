import Mathlib.Algebra.Order.BigOperators.Group.List
import Mathlib.Algebra.Order.Ring.Nat

/-!
# A 64-bit sum kept in 32 bits

The accumulator is a signed 32-bit number. Each addition widens it with its sign, adds in 64
bits and keeps the low 32 bits of the result. The widened sum is right as long as it stays
below the sign bit, and again at the very end of the 64-bit range.
-/
namespace DeviceTester.Lib

/-- A signed 32-bit number as an operand of 64-bit unsigned arithmetic. -/
def widen (a : Int32) : UInt64 := a.toInt64.toUInt64

/-- The low 32 bits, with the topmost read as the sign. -/
def narrow (n : UInt64) : Int32 := n.toUInt32.toInt32

def narrowSum (ys : List UInt64) : Int32 := ys.foldl (fun a y => narrow (widen a + y)) 0

/-- The sum without any bound. -/
def exactSum (ys : List UInt64) : Nat := (ys.map UInt64.toNat).sum

/-- The quotient of the widened sum by the number of its terms. -/
def narrowAverage (ys : List UInt64) : UInt64 := widen (narrowSum ys) / UInt64.ofNat ys.length

theorem toNat_widen (a : Int32) :
    (widen a).toNat =
      if a.toUInt32.toNat < 2 ^ 31 then a.toUInt32.toNat
      else a.toUInt32.toNat + (2 ^ 64 - 2 ^ 32) := by
  have hlt : a.toBitVec.toNat < 2 ^ 32 := a.toBitVec.isLt
  show (a.toBitVec.signExtend 64).toNat =
    if a.toBitVec.toNat < 2 ^ 31 then a.toBitVec.toNat else a.toBitVec.toNat + (2 ^ 64 - 2 ^ 32)
  rw [BitVec.toNat_signExtend, BitVec.msb_eq_decide, BitVec.toNat_setWidth,
    Nat.mod_eq_of_lt (by omega)]
  simp only [decide_eq_true_eq]
  split <;> split <;> omega

/-- Widening keeps the low 32 bits. -/
theorem toUInt32_widen (a : Int32) : (widen a).toUInt32 = a.toUInt32 := by
  have hlt : a.toUInt32.toNat < 2 ^ 32 := a.toUInt32.toNat_lt
  apply UInt32.toNat.inj
  rw [UInt64.toNat_toUInt32, toNat_widen]
  split <;> omega

theorem toNat_narrow_widen_add (a : Int32) (y : UInt64) :
    (narrow (widen a + y)).toUInt32.toNat = (a.toUInt32.toNat + y.toNat) % 2 ^ 32 := by
  show (widen a + y).toUInt32.toNat = _
  rw [UInt64.toUInt32_add, toUInt32_widen, UInt32.toNat_add, UInt64.toNat_toUInt32,
    Nat.add_mod_mod]

theorem toNat_foldl_narrow (ys : List UInt64) (a : Int32) :
    (ys.foldl (fun a y => narrow (widen a + y)) a).toUInt32.toNat =
      (a.toUInt32.toNat + exactSum ys) % 2 ^ 32 := by
  induction ys generalizing a with
  | nil => simp [exactSum]
  | cons y ys ih =>
    have hsum : exactSum (y :: ys) = y.toNat + exactSum ys := by
      rw [exactSum, List.map_cons, List.sum_cons, exactSum]
    rw [List.foldl_cons, ih, toNat_narrow_widen_add, hsum, Nat.mod_add_mod, Nat.add_assoc]

/-- The low 32 bits of the sum are right whatever it is. -/
theorem toNat_narrowSum (ys : List UInt64) :
    (narrowSum ys).toUInt32.toNat = exactSum ys % 2 ^ 32 := by
  rw [narrowSum, toNat_foldl_narrow]
  show (0 + exactSum ys) % 2 ^ 32 = exactSum ys % 2 ^ 32
  rw [Nat.zero_add]

/-- What the widened sum is, by the bit that became its sign. -/
theorem toNat_widen_narrowSum (ys : List UInt64) :
    (widen (narrowSum ys)).toNat =
      if exactSum ys % 2 ^ 32 < 2 ^ 31 then exactSum ys % 2 ^ 32
      else exactSum ys % 2 ^ 32 + (2 ^ 64 - 2 ^ 32) := by
  rw [toNat_widen, toNat_narrowSum]

theorem widen_narrowSum_eq_iff {ys : List UInt64} (hfit : exactSum ys < 2 ^ 64) :
    (widen (narrowSum ys)).toNat = exactSum ys ↔
      exactSum ys < 2 ^ 31 ∨ 2 ^ 64 - 2 ^ 31 ≤ exactSum ys := by
  rw [toNat_widen_narrowSum]
  split <;> omega

/-- Where the widened sum is wrong, it is wrong by at least `2 ^ 32`. -/
theorem widen_narrowSum_far {ys : List UInt64}
    (hne : (widen (narrowSum ys)).toNat ≠ exactSum ys) :
    (widen (narrowSum ys)).toNat + 2 ^ 32 ≤ exactSum ys ∨
      exactSum ys + 2 ^ 32 ≤ (widen (narrowSum ys)).toNat := by
  rw [toNat_widen_narrowSum] at hne ⊢
  split at hne <;> rename_i hsign
  · rw [if_pos hsign]
    omega
  · rw [if_neg hsign]
    omega

theorem div_ne_of_far {a b n d : Nat} (hn : 0 < n) (hd : n ≤ d) (h : a + d ≤ b) :
    a / n ≠ b / n := by
  have hstep : a / n + 1 ≤ b / n := by
    rw [← Nat.add_div_right a hn]
    exact Nat.div_le_div_right (by omega)
  omega

theorem toNat_narrowAverage {ys : List UInt64} (hlength : ys.length < 2 ^ 32) :
    (narrowAverage ys).toNat = (widen (narrowSum ys)).toNat / ys.length := by
  rw [narrowAverage, UInt64.toNat_div, UInt64.toNat_ofNat', Nat.mod_eq_of_lt (by omega)]

/-- The average is the rounded one exactly where the sum stays below the sign bit, or within
`2 ^ 31` of the end of the 64-bit range. -/
theorem narrowAverage_eq_iff {ys : List UInt64} (hpos : 0 < ys.length)
    (hlength : ys.length < 2 ^ 32) (hfit : exactSum ys < 2 ^ 64) :
    (narrowAverage ys).toNat = exactSum ys / ys.length ↔
      exactSum ys < 2 ^ 31 ∨ 2 ^ 64 - 2 ^ 31 ≤ exactSum ys := by
  rw [toNat_narrowAverage hlength, ← widen_narrowSum_eq_iff hfit]
  constructor
  · intro hquotient
    by_contra hne
    rcases widen_narrowSum_far hne with hbelow | habove
    · exact div_ne_of_far hpos (Nat.le_of_lt hlength) hbelow hquotient
    · exact div_ne_of_far hpos (Nat.le_of_lt hlength) habove hquotient.symm
  · intro hsum
    rw [hsum]

/-! ## The rounded average -/

theorem exists_le_average {ys : List UInt64} (hne : ys ≠ []) :
    ∃ y ∈ ys, y.toNat ≤ exactSum ys / ys.length := by
  by_contra hall
  have hpos : 0 < ys.length := List.length_pos_of_ne_nil hne
  have hsum : ys.length * (exactSum ys / ys.length + 1) ≤ exactSum ys := by
    have hcard := List.card_nsmul_le_sum (ys.map UInt64.toNat) (exactSum ys / ys.length + 1) <| by
      intro n hn
      obtain ⟨y, hy, rfl⟩ := List.mem_map.mp hn
      by_contra hlt
      exact hall ⟨y, hy, by omega⟩
    rwa [List.length_map] at hcard
  have hlt := Nat.lt_mul_div_succ (exactSum ys) hpos
  omega

theorem exists_average_le {ys : List UInt64} (hne : ys ≠ []) :
    ∃ y ∈ ys, exactSum ys / ys.length ≤ y.toNat := by
  by_contra hall
  have hpos : 0 < ys.length := List.length_pos_of_ne_nil hne
  obtain ⟨k, hk⟩ : ∃ k, exactSum ys / ys.length = k + 1 := by
    obtain ⟨y, hy⟩ := List.exists_mem_of_ne_nil ys hne
    apply Nat.exists_eq_succ_of_ne_zero
    intro hzero
    exact hall ⟨y, hy, by omega⟩
  have hsum : exactSum ys ≤ ys.length * k := by
    have hcard := List.sum_le_card_nsmul (ys.map UInt64.toNat) k <| by
      intro n hn
      obtain ⟨y, hy, rfl⟩ := List.mem_map.mp hn
      by_contra hlt
      exact hall ⟨y, hy, by omega⟩
    rwa [List.length_map] at hcard
  have hle := Nat.div_mul_le_self (exactSum ys) ys.length
  rw [hk, Nat.mul_comm] at hle
  have hstep : ys.length * k + ys.length = ys.length * (k + 1) := Nat.mul_succ _ _
  omega

theorem exactSum_perm {ys zs : List UInt64} (h : ys.Perm zs) : exactSum ys = exactSum zs :=
  (h.map UInt64.toNat).sum_eq

end DeviceTester.Lib

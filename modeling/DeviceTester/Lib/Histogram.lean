import Mathlib.Algebra.BigOperators.Group.List.Basic
import Mathlib.Data.List.Induction

/-!
# Histograms made on the way

Samples come with their keys in order, and each is added to the newest group or begins a new one.
No other group has to be looked at: the groups are the sums of all samples under each key.
-/
namespace DeviceTester.Lib

section Groups

variable {κ ν : Type*} [DecidableEq κ] [AddCommMonoid ν]

/-- The sum of the samples under a key. -/
def totalAt (samples : List (κ × ν)) (k : κ) : ν :=
  ((samples.filter fun s => decide (s.1 = k)).map Prod.snd).sum

/-- A sample goes to the newest group where that has its key, and to a group of its own
otherwise. -/
def tally (groups : List (κ × ν)) (s : κ × ν) : List (κ × ν) :=
  match groups.getLast? with
  | some g => if g.1 = s.1 then groups.dropLast ++ [(g.1, g.2 + s.2)] else groups ++ [s]
  | none => groups ++ [s]

variable {samples groups : List (κ × ν)} {s g : κ × ν} {k : κ}

theorem totalAt_concat (samples : List (κ × ν)) (s : κ × ν) (k : κ) :
    totalAt (samples ++ [s]) k = totalAt samples k + if s.1 = k then s.2 else 0 := by
  by_cases h : s.1 = k
  · simp [totalAt, List.filter_append, h]
  · simp [totalAt, List.filter_append, h]

theorem totalAt_of_ne (h : ∀ s ∈ samples, s.1 ≠ k) : totalAt samples k = 0 := by
  have hnone : (samples.filter fun s => decide (s.1 = k)) = [] := by
    rw [List.filter_eq_nil_iff]
    intro s hs
    simp [h s hs]
  rw [totalAt, hnone]
  rfl

theorem tally_of_same (h : groups.getLast? = some g) (hk : g.1 = s.1) :
    tally groups s = groups.dropLast ++ [(s.1, g.2 + s.2)] := by
  unfold tally
  rw [h]
  dsimp only
  rw [if_pos hk, hk]

theorem tally_of_new (h : ∀ g ∈ groups.getLast?, g.1 ≠ s.1) : tally groups s = groups ++ [s] := by
  unfold tally
  split
  · rename_i g hlast
    rw [if_neg (h g hlast)]
  · rfl

/-- Nothing is lost between the samples and the groups. -/
theorem sum_tally (groups : List (κ × ν)) (s : κ × ν) :
    ((tally groups s).map Prod.snd).sum = (groups.map Prod.snd).sum + s.2 := by
  unfold tally
  split
  · rename_i g hlast
    split
    · have hgroups := List.dropLast_append_getLast? g hlast
      conv_rhs => rw [← hgroups]
      simp [add_assoc]
    · simp
  · simp

theorem sum_foldl_tally (samples groups : List (κ × ν)) :
    ((samples.foldl tally groups).map Prod.snd).sum =
      (groups.map Prod.snd).sum + (samples.map Prod.snd).sum := by
  induction samples generalizing groups with
  | nil => simp
  | cons s samples ih => rw [List.foldl_cons, ih, sum_tally, List.map_cons, List.sum_cons, add_assoc]

end Groups

variable {κ ν : Type*} [DecidableEq κ] [AddCommMonoid ν] [LT κ]

/-- One group for each key of the samples, in increasing order, with the sum of all its samples. -/
structure IsHistogram (samples groups : List (κ × ν)) : Prop where
  increasing : groups.Pairwise fun g h => g.1 < h.1
  keys : ∀ k, k ∈ groups.map Prod.fst ↔ k ∈ samples.map Prod.fst
  totals : ∀ g ∈ groups, g.2 = totalAt samples g.1

theorem isHistogram_nil : IsHistogram ([] : List (κ × ν)) [] where
  increasing := .nil
  keys _ := Iff.rfl
  totals _ h := by cases h

variable [LE κ] [Std.LawfulOrderLT κ] {samples groups : List (κ × ν)} {s g : κ × ν}

namespace IsHistogram

/-- The sample has the key of the newest group. -/
theorem tally_same (h : IsHistogram samples groups) (hlast : groups.getLast? = some g)
    (hk : g.1 = s.1) : IsHistogram (samples ++ [s]) (tally groups s) := by
  have hgroups : groups.dropLast ++ [g] = groups := List.dropLast_append_getLast? g hlast
  have hincreasing := h.increasing
  rw [← hgroups, List.pairwise_append] at hincreasing
  obtain ⟨holder, -, hbelow⟩ := hincreasing
  have hlt : ∀ older ∈ groups.dropLast, older.1 < s.1 := fun older holder =>
    hk ▸ hbelow older holder g (List.mem_singleton_self g)
  have hmem : g ∈ groups := List.mem_of_getLast? hlast
  rw [tally_of_same hlast hk]
  refine ⟨?_, fun k => ?_, fun group hgroup => ?_⟩
  · rw [List.pairwise_append]
    refine ⟨holder, List.pairwise_singleton _ _, fun older hold new hnew => ?_⟩
    rw [List.mem_singleton.mp hnew]
    exact hlt older hold
  · have hkeys := h.keys k
    rw [← hgroups, List.map_append, List.mem_append, List.map_singleton, List.mem_singleton, hk]
      at hkeys
    rw [List.map_append, List.mem_append, List.map_singleton, List.mem_singleton, List.map_append,
      List.mem_append, List.map_singleton, List.mem_singleton, ← hkeys]
    tauto
  · rw [totalAt_concat]
    rcases List.mem_append.mp hgroup with hold | hnew
    · have hne : s.1 ≠ group.1 := fun heq => Std.lt_irrefl (heq ▸ hlt group hold)
      rw [if_neg hne, add_zero]
      exact h.totals group (List.dropLast_subset _ hold)
    · obtain rfl := List.mem_singleton.mp hnew
      rw [if_pos rfl, h.totals g hmem, hk]

/-- The sample has a key beyond all others. -/
theorem tally_new (h : IsHistogram samples groups) (hbeyond : ∀ g ∈ groups, g.1 < s.1) :
    IsHistogram (samples ++ [s]) (tally groups s) := by
  have hnew : ∀ g ∈ groups, g.1 ≠ s.1 := fun g hg heq => Std.lt_irrefl (heq ▸ hbeyond g hg)
  have hnone : ∀ sample ∈ samples, sample.1 ≠ s.1 := by
    intro sample hsample heq
    have hkey := (h.keys s.1).mpr (heq ▸ List.mem_map_of_mem hsample)
    obtain ⟨g, hg, hgk⟩ := List.mem_map.mp hkey
    exact hnew g hg hgk
  rw [tally_of_new fun g hg => hnew g (List.mem_of_getLast? hg)]
  refine ⟨?_, fun k => ?_, fun group hgroup => ?_⟩
  · rw [List.pairwise_append]
    refine ⟨h.increasing, List.pairwise_singleton _ _, fun older hold new hnew => ?_⟩
    rw [List.mem_singleton.mp hnew]
    exact hbeyond older hold
  · rw [List.map_append, List.mem_append, h.keys, List.map_append, List.mem_append]
  · rw [totalAt_concat]
    rcases List.mem_append.mp hgroup with hold | hlast
    · rw [if_neg (hnew group hold).symm, add_zero]
      exact h.totals group hold
    · obtain rfl := List.mem_singleton.mp hlast
      rw [if_pos rfl, totalAt_of_ne hnone, zero_add]

variable [Std.IsPartialOrder κ]

/-- The newest group has the largest key. -/
theorem le_newest (h : IsHistogram samples groups) (hlast : groups.getLast? = some g)
    {older : κ × ν} (hmem : older ∈ groups) : older.1 ≤ g.1 := by
  have hgroups : groups.dropLast ++ [g] = groups := List.dropLast_append_getLast? g hlast
  have hincreasing := h.increasing
  rw [← hgroups, List.pairwise_append] at hincreasing
  rw [← hgroups] at hmem
  rcases List.mem_append.mp hmem with hold | hnew
  · exact Std.le_of_lt (hincreasing.2.2 older hold g (List.mem_singleton_self g))
  · rw [List.mem_singleton.mp hnew]
    exact Std.le_refl _

theorem tally (h : IsHistogram samples groups) (hle : ∀ sample ∈ samples, sample.1 ≤ s.1) :
    IsHistogram (samples ++ [s]) (tally groups s) := by
  have hbelow : ∀ g ∈ groups, g.1 ≤ s.1 := by
    intro g hg
    obtain ⟨sample, hsample, heq⟩ := List.mem_map.mp ((h.keys g.1).mp (List.mem_map_of_mem hg))
    exact heq ▸ hle sample hsample
  cases hlast : groups.getLast? with
  | none =>
    obtain rfl := List.getLast?_eq_none_iff.mp hlast
    exact h.tally_new fun g hg => by cases hg
  | some g =>
    by_cases hk : g.1 = s.1
    · exact h.tally_same hlast hk
    · have hmem : g ∈ groups := List.mem_of_getLast? hlast
      have hlt : g.1 < s.1 := Std.lt_of_le_of_ne (hbelow g hmem) hk
      exact h.tally_new fun older hold => Std.lt_of_le_of_lt (h.le_newest hlast hold) hlt

end IsHistogram

variable [Std.IsPartialOrder κ]

/-- Where the keys come in order, the groups are the histogram of all samples. The induction is
on the samples from their end. -/
theorem isHistogram_foldl_tally (h : samples.Pairwise fun s t => s.1 ≤ t.1) :
    IsHistogram samples (samples.foldl tally []) := by
  induction samples using List.reverseRecOn with
  | nil => exact isHistogram_nil
  | append_singleton samples s ih =>
    rw [List.pairwise_append] at h
    obtain ⟨hsamples, -, hle⟩ := h
    rw [List.foldl_append]
    exact (ih hsamples).tally fun sample hsample => hle sample hsample s (List.mem_singleton_self s)

end DeviceTester.Lib

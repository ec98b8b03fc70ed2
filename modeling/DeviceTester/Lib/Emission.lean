import Mathlib.Data.List.Basic

/-!
# Reductions that emit

Each step of a reduction emits a label. When a state allows at most one step, the
labels emitted down to a normal form are determined by where the reduction starts.
-/
namespace DeviceTester.Lib

variable {α β : Type*}

/-- `s` reduces to `t` and emits the labels on the way. -/
inductive Emits (next : β → α → β → Prop) : β → List α → β → Prop where
  | refl (s : β) : Emits next s [] s
  | head {s t u : β} {a : α} {as : List α} (h : next s a t) (htail : Emits next t as u) :
      Emits next s (a :: as) u

/-- No step leads on from `s`. -/
def Normal (next : β → α → β → Prop) (s : β) : Prop := ∀ a t, ¬ next s a t

variable {next : β → α → β → Prop} {s t u : β} {as bs : List α}

theorem Emits.trans (h : Emits next s as t) (h' : Emits next t bs u) :
    Emits next s (as ++ bs) u := by
  induction h with
  | refl s => exact h'
  | head hfirst _ ih => exact .head hfirst (ih h')

theorem Emits.snoc {a : α} (h : Emits next s as t) (hlast : next t a u) :
    Emits next s (as ++ [a]) u :=
  h.trans (.head hlast (.refl u))

/-- What maps steps to steps maps reductions to reductions. -/
theorem Emits.map {γ : Type*} {next' : γ → α → γ → Prop} (f : β → γ)
    (hf : ∀ s a t, next s a t → next' (f s) a (f t)) (h : Emits next s as t) :
    Emits next' (f s) as (f t) := by
  induction h with
  | refl s => exact .refl (f s)
  | head hfirst _ ih => exact .head (hf _ _ _ hfirst) ih

/-- Two reductions of one state to normal forms emit the same and end in the same state. -/
theorem Emits.unique (hdet : ∀ s a b t u, next s a t → next s b u → a = b ∧ t = u)
    (h : Emits next s as t) (ht : Normal next t) (h' : Emits next s bs u) (hu : Normal next u) :
    as = bs ∧ t = u := by
  induction h generalizing bs with
  | refl s =>
    cases h' with
    | refl => exact ⟨rfl, rfl⟩
    | head hfirst _ => exact absurd hfirst (ht _ _)
  | head hfirst _ ih =>
    cases h' with
    | refl => exact absurd hfirst (hu _ _)
    | head hfirst' htail' =>
      obtain ⟨rfl, rfl⟩ := hdet _ _ _ _ _ hfirst hfirst'
      obtain ⟨rfl, rfl⟩ := ih ht htail'
      exact ⟨rfl, rfl⟩

end DeviceTester.Lib

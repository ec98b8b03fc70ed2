import Mathlib.Data.Option.Basic

/-!
# Calls that return, throw or run on

A call that ends leaves a state, whether it returns or throws. A recursive call
is a family `f : Nat → Option α` indexed by the depth of recursion it may use:
it ends when some depth is enough, and runs on for ever when none is.
-/
namespace DeviceTester.Lib

/-- How a call that ends has ended, with the state it leaves. -/
inductive Outcome (ξ σ : Type*) where
  | returned (s : σ)
  | threw (s : σ) (what : ξ)
  deriving DecidableEq, Repr

namespace Outcome

variable {ξ σ τ : Type*}

def state : Outcome ξ σ → σ
  | returned s => s
  | threw s _ => s

/-- Sequencing: what follows runs only after a normal return. -/
def andThen : Outcome ξ σ → (σ → Outcome ξ σ) → Outcome ξ σ
  | returned s, f => f s
  | threw s what, _ => threw s what

@[simp] theorem state_returned (s : σ) : (returned s : Outcome ξ σ).state = s := rfl
@[simp] theorem state_threw (s : σ) (what : ξ) : (threw s what).state = s := rfl
@[simp] theorem andThen_returned (s : σ) (f : σ → Outcome ξ σ) :
    (returned s).andThen f = f s := rfl
@[simp] theorem andThen_threw (s : σ) (what : ξ) (f : σ → Outcome ξ σ) :
    (threw s what).andThen f = threw s what := rfl

/-- What the first call leaves as it was and the second one keeps is kept by both in sequence. -/
theorem andThen_keeps {β : Type*} (g : σ → β) {o : Outcome ξ σ} {f : σ → Outcome ξ σ} {b : β}
    (ho : g o.state = b) (hf : ∀ s, g (f s).state = g s) : g (o.andThen f).state = b := by
  cases o with
  | returned s => exact (hf s).trans ho
  | threw s what => exact ho

end Outcome

section Depth

variable {α : Type*} {f : Nat → Option α}

/-- The call ends with `a`: some depth of recursion is enough. -/
def EndsWith (f : Nat → Option α) (a : α) : Prop := ∃ depth, f depth = some a

def Ends (f : Nat → Option α) : Prop := ∃ a, EndsWith f a

/-- A depth that is enough stays enough when it grows. -/
def Deepens (f : Nat → Option α) : Prop := ∀ depth a, f depth = some a → f (depth + 1) = some a

theorem Deepens.le (h : Deepens f) {m n : Nat} (hmn : m ≤ n) {a : α} (hm : f m = some a) :
    f n = some a := by
  induction hmn with
  | refl => exact hm
  | step _ ih => exact h _ _ ih

/-- The depth allowed does not change how a call ends. -/
theorem Deepens.unique (h : Deepens f) {a b : α} (ha : EndsWith f a) (hb : EndsWith f b) :
    a = b := by
  obtain ⟨m, hm⟩ := ha
  obtain ⟨n, hn⟩ := hb
  have ha' := h.le (Nat.le_max_left m n) hm
  have hb' := h.le (Nat.le_max_right m n) hn
  exact Option.some.inj (ha'.symm.trans hb')

theorem not_ends_of_none (h : ∀ depth, f depth = none) : ¬ Ends f := by
  intro hends
  obtain ⟨a, depth, ha⟩ := hends
  rw [h depth] at ha
  cases ha

end Depth

end DeviceTester.Lib

import Mathlib.Data.List.Count
import Mathlib.Data.List.Basic

/-!
# Outstanding asynchronous operations

The proactor pattern: an operation is started, at some later time it finishes
with a result, and later still its completion handler runs. `List (Operation κ)`
holds, in the order of their start, the operations whose handler has not run.
Closing a descriptor cancels what is in flight on it. An operation that had
already finished keeps its result.
-/
namespace DeviceTester.Lib

inductive ErrorCode where
  | operationAborted
  | eof
  | badDescriptor
  | failed
  deriving DecidableEq, Repr

/-- What an operation reports to its handler: success with a number of bytes, or an error. -/
inductive Result where
  | ok (n : Nat)
  | error (code : ErrorCode)
  deriving DecidableEq, Repr

def Result.isOk : Result → Bool
  | .ok _ => true
  | .error _ => false

/-- A started operation. `stamp` is what its owner's clock read at the start,
and `result` is `none` while the operation is in flight. -/
structure Operation (κ : Type*) where
  kind : κ
  stamp : Nat
  result : Option Result
  deriving DecidableEq, Repr

/-- What the operating system and the thread of the event loop do to the
outstanding operations, which are named by their position. -/
inductive IoEvent where
  /-- Data arrives for a read in flight. -/
  | receive (i : Nat) (data : List UInt8)
  /-- An operation in flight finishes. -/
  | finish (i : Nat) (r : Result)
  /-- The completion handler of a finished operation runs. -/
  | run (i : Nat)
  deriving DecidableEq, Repr

/-- The data that an event brings. -/
def IoEvent.arrived : IoEvent → List UInt8
  | .receive _ data => data
  | _ => []

variable {κ : Type*}

namespace Operation

/-- Starting an operation: on a closed descriptor it finishes at once with an error. -/
def begin (isOpen : Bool) (kind : κ) (stamp : Nat) : Operation κ :=
  ⟨kind, stamp, if isOpen then none else some (.error .badDescriptor)⟩

/-- Cancelling reaches only an operation that has not finished. -/
def cancel (op : Operation κ) : Operation κ :=
  { op with result := some (op.result.getD (.error .operationAborted)) }

/-- It has finished with an error. -/
def failed (op : Operation κ) : Bool := op.result.any fun r => !r.isOk

@[simp] theorem kind_begin (b : Bool) (k : κ) (n : Nat) : (begin b k n).kind = k := rfl

end Operation

/-- Whether all operations of a kind that were started before the `i`-th have finished. -/
def earlierFinished (q : κ → Bool) (ops : List (Operation κ)) (i : Nat) : Bool :=
  (ops.take i).all fun op => !q op.kind || op.result.isSome

/-- The number of operations whose kind and stamp satisfy `p`, finished or in flight. -/
def outstanding (p : κ → Nat → Bool) (ops : List (Operation κ)) : Nat :=
  ops.countP fun op => p op.kind op.stamp

variable {p : κ → Nat → Bool} {ops : List (Operation κ)} {op : Operation κ} {i : Nat}

/-- An index splits the list, and the updates at that index act on the middle. -/
theorem split_getElem? {α : Type*} {l : List α} {a : α} {i : Nat} (h : l[i]? = some a) :
    ∃ before after, l = before ++ a :: after ∧ before.length = i ∧
      l.eraseIdx i = before ++ after ∧ ∀ b, l.set i b = before ++ b :: after := by
  obtain ⟨hi, rfl⟩ := List.getElem?_eq_some_iff.mp h
  refine ⟨l.take i, l.drop (i + 1), ?_, ?_, ?_, ?_⟩
  · rw [List.getElem_cons_drop hi, List.take_append_drop]
  · rw [List.length_take]
    omega
  · exact List.eraseIdx_eq_take_drop_succ l i
  · intro b
    rw [List.set_eq_take_append_cons_drop, if_pos hi]

@[simp] theorem outstanding_nil : outstanding p [] = 0 := rfl

@[simp] theorem outstanding_cons :
    outstanding p (op :: ops) = outstanding p ops + if p op.kind op.stamp then 1 else 0 :=
  List.countP_cons

@[simp] theorem outstanding_append (l r : List (Operation κ)) :
    outstanding p (l ++ r) = outstanding p l + outstanding p r :=
  List.countP_append

@[simp] theorem outstanding_cancel : outstanding p (ops.map Operation.cancel) = outstanding p ops := by
  rw [outstanding, List.countP_map]
  rfl

theorem outstanding_set {op' : Operation κ} (h : ops[i]? = some op) (hk : op'.kind = op.kind)
    (hs : op'.stamp = op.stamp) : outstanding p (ops.set i op') = outstanding p ops := by
  obtain ⟨l, r, hl, _, _, hset⟩ := split_getElem? h
  rw [hset, hl]
  simp [hk, hs]

theorem outstanding_eraseIdx (h : ops[i]? = some op) :
    outstanding p ops =
      outstanding p (ops.eraseIdx i) + if p op.kind op.stamp then 1 else 0 := by
  obtain ⟨l, r, hl, _, herase, _⟩ := split_getElem? h
  rw [herase, hl]
  simp only [outstanding_append, outstanding_cons]
  omega

theorem outstanding_eq_zero : outstanding p ops = 0 ↔ ∀ op ∈ ops, p op.kind op.stamp = false := by
  simp [outstanding, List.countP_eq_zero]

/-- The kinds that satisfy `q` of the operations outstanding, in the order of their start. -/
def kindsOf (q : κ → Bool) (ops : List (Operation κ)) : List κ :=
  (ops.map Operation.kind).filter q

theorem kindsOf_cancel {q : κ → Bool} : kindsOf q (ops.map Operation.cancel) = kindsOf q ops := by
  rw [kindsOf, List.map_map]
  rfl

theorem kindsOf_append_of_not {q : κ → Bool} (h : q op.kind = false) :
    kindsOf q (ops ++ [op]) = kindsOf q ops := by
  simp [kindsOf, h]

theorem kindsOf_set {q : κ → Bool} {op' : Operation κ} (h : ops[i]? = some op)
    (hk : op'.kind = op.kind) : kindsOf q (ops.set i op') = kindsOf q ops := by
  obtain ⟨before, after, hl, -, -, hset⟩ := split_getElem? h
  rw [hset, hl]
  simp [kindsOf, hk]

end DeviceTester.Lib

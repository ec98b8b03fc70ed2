import DeviceTester.Lib.Operation

/-!
# Writes that are transferred in part

Outstanding writes transfer in the order they were started, each as many of its
bytes as the descriptor takes. What a finished write has not sent is left for its
handler to start again, behind whatever has been started in between. The backlog
is what is still to be sent, in the order of the queue.
-/
namespace DeviceTester.Lib

variable {κ α : Type*} {buffer : κ → Option (List α)} {ops : List (Operation κ)}
  {op : Operation κ} {i : Nat}

/-- The bytes of a write that have not been sent. `buffer` tells the writes among the kinds. -/
def unsent (buffer : κ → Option (List α)) (op : Operation κ) : List α :=
  match buffer op.kind, op.result with
  | none, _ => []
  | some b, some (.ok n) => b.drop n
  | some b, _ => b

def backlog (buffer : κ → Option (List α)) (ops : List (Operation κ)) : List α :=
  (ops.map (unsent buffer)).flatten

/-- Nothing overtakes an unsent rest: an operation that transfers has no unsent
bytes before it, and one whose rest is started again has none behind it. -/
def KeepsOrder (buffer : κ → Option (List α)) (ops : List (Operation κ)) : IoEvent → Prop
  | .receive _ _ => True
  | .finish i _ =>
      ∀ op ∈ ops[i]?, unsent buffer op ≠ [] → ∀ earlier ∈ ops.take i, unsent buffer earlier = []
  | .run i =>
      ∀ op ∈ ops[i]?, unsent buffer op ≠ [] → ∀ later ∈ ops.drop (i + 1), unsent buffer later = []

instance [DecidableEq α] : DecidablePred (KeepsOrder buffer ops)
  | .receive _ _ => isTrue trivial
  | .finish i _ => inferInstanceAs (Decidable (∀ op ∈ ops[i]?, unsent buffer op ≠ [] →
      ∀ earlier ∈ ops.take i, unsent buffer earlier = []))
  | .run i => inferInstanceAs (Decidable (∀ op ∈ ops[i]?, unsent buffer op ≠ [] →
      ∀ later ∈ ops.drop (i + 1), unsent buffer later = []))

/-- Nothing fails: operations finish without error, and handlers of such ones run. -/
def Succeeds (ops : List (Operation κ)) : IoEvent → Prop
  | .receive _ _ => True
  | .finish _ r => r.isOk = true
  | .run i => ∀ op ∈ ops[i]?, op.result.any Result.isOk = true

instance : DecidablePred (Succeeds ops)
  | .receive _ _ => isTrue trivial
  | .finish _ r => inferInstanceAs (Decidable (r.isOk = true))
  | .run i => inferInstanceAs (Decidable (∀ op ∈ ops[i]?, op.result.any Result.isOk = true))

@[simp] theorem backlog_nil : backlog buffer [] = [] := rfl

@[simp] theorem backlog_cons :
    backlog buffer (op :: ops) = unsent buffer op ++ backlog buffer ops := rfl

@[simp] theorem backlog_append (l r : List (Operation κ)) :
    backlog buffer (l ++ r) = backlog buffer l ++ backlog buffer r := by
  simp [backlog]

theorem backlog_eq_nil (h : ∀ op ∈ ops, unsent buffer op = []) : backlog buffer ops = [] := by
  rw [backlog, List.flatten_eq_nil_iff]
  intro l hl
  obtain ⟨op, hop, rfl⟩ := List.mem_map.mp hl
  exact h op hop

theorem unsent_begin (isOpen : Bool) (kind : κ) (stamp : Nat) :
    unsent buffer (.begin isOpen kind stamp) = (buffer kind).getD [] := by
  unfold unsent Operation.begin
  cases buffer kind <;> cases isOpen <;> rfl

/-- Where no write is outstanding nothing is left to send. -/
theorem backlog_of_no_write {isWrite : κ → Bool}
    (hw : ∀ kind, isWrite kind = false → buffer kind = none)
    (h : outstanding (fun kind _ => isWrite kind) ops = 0) : backlog buffer ops = [] := by
  refine backlog_eq_nil fun op hop => ?_
  have hnone := hw op.kind (outstanding_eq_zero.mp h op hop)
  simp [unsent, hnone]

theorem backlog_set_of_not_write {kind : κ} {stamp : Nat} {x y : Option Result}
    (h : buffer kind = none) (hop : ops[i]? = some ⟨kind, stamp, x⟩) :
    backlog buffer (ops.set i ⟨kind, stamp, y⟩) = backlog buffer ops := by
  obtain ⟨before, after, hl, -, -, hset⟩ := split_getElem? hop
  rw [hset, hl]
  simp [unsent, h]

/-- What an operation sends when it finishes. -/
def sent (buffer : κ → Option (List α)) (kind : κ) : Result → List α
  | .ok n => ((buffer kind).getD []).take n
  | .error _ => []

theorem sent_unsent (kind : κ) (stamp : Nat) (r : Result) :
    sent buffer kind r ++ unsent buffer ⟨kind, stamp, some r⟩ =
      unsent buffer ⟨kind, stamp, none⟩ := by
  unfold sent unsent
  cases buffer kind with
  | none => cases r <;> simp
  | some b => cases r <;> simp

/-- A transfer moves bytes from the head of the backlog to the wire. -/
theorem backlog_finish {kind : κ} {stamp : Nat} {r : Result}
    (hop : ops[i]? = some ⟨kind, stamp, none⟩) (hk : KeepsOrder buffer ops (.finish i r)) :
    sent buffer kind r ++ backlog buffer (ops.set i ⟨kind, stamp, some r⟩) =
      backlog buffer ops := by
  obtain ⟨before, after, hl, hlen, -, hset⟩ := split_getElem? hop
  have hsum : sent buffer kind r ++ unsent buffer ⟨kind, stamp, some r⟩ =
      unsent buffer ⟨kind, stamp, none⟩ := sent_unsent kind stamp r
  rw [hset, hl, backlog_append, backlog_append, backlog_cons, backlog_cons, ← hsum]
  by_cases hnil : unsent buffer ⟨kind, stamp, none⟩ = []
  · obtain ⟨hs, hu⟩ := List.append_eq_nil_iff.mp (hsum.trans hnil)
    simp only [hs, hu, List.nil_append]
  · have hbefore : backlog buffer before = [] := by
      refine backlog_eq_nil fun earlier he => hk _ hop hnil earlier ?_
      rw [hl, ← hlen, List.take_left]
      exact he
    rw [hbefore, List.nil_append, List.nil_append, List.append_assoc]

/-- A handler that starts its rest again keeps the backlog as it is. -/
theorem backlog_run (hop : ops[i]? = some op) (hk : KeepsOrder buffer ops (.run i)) :
    backlog buffer (ops.eraseIdx i) ++ unsent buffer op = backlog buffer ops := by
  obtain ⟨before, after, hl, hlen, herase, -⟩ := split_getElem? hop
  rw [herase, hl, backlog_append, backlog_append, backlog_cons, List.append_assoc]
  by_cases hnil : unsent buffer op = []
  · rw [hnil, List.append_nil, List.nil_append]
  · have hafter : backlog buffer after = [] := by
      refine backlog_eq_nil fun later hm => hk _ hop hnil later ?_
      rw [hl, ← hlen, List.drop_length_add_append]
      exact hm
    rw [hafter, List.append_nil, List.nil_append]

end DeviceTester.Lib

import DeviceTester.Protocols.Dispatcher

/-!
# Pure protocols

Consuming a message may change the state of a protocol. The protocols are pure when
none of these changes has an effect on what any of them consumes: the range returned
for a buffer, and whether the protocol is active, stay as in the first state.
-/
namespace DeviceTester.Protocols

open DeviceTester.Lib

variable {σ : Type*}

def Protocol.range (p : Protocol σ) (world : σ) (data : ProtoData) : Nat × Nat :=
  (p.consumeOneMessage world data).1

theorem Protocol.range_le (p : Protocol σ) (world : σ) (data : ProtoData) :
    (p.range world data).1 ≤ (p.range world data).2 ∧ (p.range world data).2 ≤ data.length :=
  p.inRange world data

/-- The bytes in the range. -/
def Protocol.taken (p : Protocol σ) (world : σ) (data : ProtoData) : ProtoData :=
  (data.take (p.range world data).2).drop (p.range world data).1

theorem Protocol.take_append_taken (p : Protocol σ) (world : σ) (data : ProtoData) :
    data.take (p.range world data).1 ++ p.taken world data =
      data.take (p.range world data).2 := by
  have hle := (p.range_le world data).1
  have htake : data.take (p.range world data).1 =
      (data.take (p.range world data).2).take (p.range world data).1 := by
    rw [List.take_take, Nat.min_eq_left hle]
  rw [htake, taken, List.take_append_drop]

/-- The states to which consulting the active ones of `protocols` leads. -/
inductive Visits (protocols : List (Protocol σ)) (world : σ) : σ → Prop where
  | start : Visits protocols world world
  | consult {w : σ} {p : Protocol σ} (h : Visits protocols world w) (hp : p ∈ protocols)
      (ha : p.isActive w = true) (data : ProtoData) :
      Visits protocols world (p.consumeOneMessage w data).2

structure PureProtocols (protocols : List (Protocol σ)) (world : σ) : Prop where
  active : ∀ w, Visits protocols world w → ∀ p ∈ protocols, p.isActive w = p.isActive world
  range : ∀ w, Visits protocols world w → ∀ p ∈ protocols, p.isActive world = true →
    ∀ data, p.range w data = p.range world data

theorem PureProtocols.perm {protocols protocols' : List (Protocol σ)} {world : σ}
    (h : PureProtocols protocols world) (horder : protocols.Perm protocols') :
    PureProtocols protocols' world := by
  have hvisits : ∀ w, Visits protocols' world w → Visits protocols world w := by
    intro w hw
    induction hw with
    | start => exact .start
    | consult _ hp ha data ih => exact ih.consult (horder.mem_iff.mpr hp) ha data
  constructor
  · intro w hw p hp
    exact h.active w (hvisits w hw) p (horder.mem_iff.mpr hp)
  · intro w hw p hp
    exact h.range w (hvisits w hw) p (horder.mem_iff.mpr hp)

/-- The protocol consulted and the message consumed, when one was. -/
def Consultation.message? (c : Consultation σ) : Option (Protocol σ × ProtoData) :=
  let consumed := (c.protocol.consumeOneMessage c.world c.offered).1
  if consumed.2 ≠ 0 then some (c.protocol, (c.offered.take consumed.2).drop consumed.1) else none

namespace Dispatcher

/-- The messages consumed so far, each with the protocol that consumed it. -/
def messages (d : Dispatcher σ) : List (Protocol σ × ProtoData) :=
  d.consulted.filterMap Consultation.message?

variable {protocols : List (Protocol σ)} {world : σ} {d e : Dispatcher σ} {p : Protocol σ}

/-- What a turn of the pure protocol `p` does to the buffer and to the messages. -/
inductive Turn (world : σ) (p : Protocol σ) (d e : Dispatcher σ) : Prop where
  | nothing (hnone : p.isActive world = true → (p.range world d.data_).2 = 0)
      (hdata : e.data_ = d.data_) (herased : e.erased = d.erased)
      (hmessages : e.messages = d.messages)
  | message (ha : p.isActive world = true) (hsome : (p.range world d.data_).2 ≠ 0)
      (hdata : e.data_ = d.data_.drop (p.range world d.data_).2)
      (herased : e.erased = d.erased ++ d.data_.take (p.range world d.data_).2)
      (hmessages : e.messages = d.messages ++ [(p, p.taken world d.data_)])

theorem turn_processProtocol (h : PureProtocols protocols world) (hv : Visits protocols world d.world)
    (hp : p ∈ protocols) :
    Visits protocols world (d.processProtocol p).world ∧ Turn world p d (d.processProtocol p) := by
  have hactive := h.active _ hv p hp
  cases ha : p.isActive world with
  | false =>
    rw [processProtocol_of_inactive (hactive.trans ha)]
    refine ⟨hv, .nothing (fun ha' => ?_) rfl rfl rfl⟩
    rw [ha] at ha'
    cases ha'
  | true =>
    have hrange : (p.consumeOneMessage d.world d.data_).1 = p.range world d.data_ :=
      h.range _ hv p hp ha _
    rw [processProtocol_of_active (hactive.trans ha), hrange]
    refine ⟨hv.consult hp (hactive.trans ha) d.data_, ?_⟩
    by_cases hnone : (p.range world d.data_).2 = 0
    · refine .nothing (fun _ => hnone) ?_ ?_ ?_
      · simp [eraseFront, consult, hnone]
      · simp [eraseFront, consult, hnone]
      · simp [messages, eraseFront, consult, Consultation.message?, hrange, hnone]
    · refine .message ha hnone rfl rfl ?_
      simp [messages, eraseFront, consult, Consultation.message?, hrange, hnone, Protocol.taken]

/-- What every turn of one of the pure protocols preserves, the turns of some of
them in sequence preserve. -/
theorem offer_rec_of_pure (h : PureProtocols protocols world) {P : Dispatcher σ → Prop}
    (hturn : ∀ d e p, p ∈ protocols → Turn world p d e → P d → P e)
    {ps : List (Protocol σ)} (hps : ∀ p ∈ ps, p ∈ protocols)
    (hv : Visits protocols world d.world) (hd : P d) :
    Visits protocols world (d.offer ps).world ∧ P (d.offer ps) := by
  induction ps generalizing d with
  | nil => exact ⟨hv, hd⟩
  | cons p ps ih =>
    have hp : p ∈ protocols := hps p List.mem_cons_self
    obtain ⟨hv', hstep⟩ := turn_processProtocol h hv hp
    exact ih (fun q hq => hps q (List.mem_cons_of_mem _ hq)) hv' (hturn _ _ p hp hstep hd)

theorem pass_iterate_rec_of_pure (h : PureProtocols protocols world) {P : Dispatcher σ → Prop}
    (hturn : ∀ d e p, p ∈ protocols → Turn world p d e → P d → P e)
    (hprotocols : d.protocols_ = protocols) (hv : Visits protocols world d.world) (hd : P d)
    (k : Nat) : Visits protocols world (pass^[k] d).world ∧ P (pass^[k] d) := by
  induction k with
  | zero => exact ⟨hv, hd⟩
  | succ k ih =>
    rw [pass_iterate_succ, hprotocols]
    exact offer_rec_of_pure h hturn (fun _ hp => hp) ih.1 ih.2

/-- None of the active protocols consumes anything from the buffer. -/
def Exhausted (protocols : List (Protocol σ)) (world : σ) (data : ProtoData) : Prop :=
  ∀ p ∈ protocols, p.isActive world = true → (p.range world data).2 = 0

theorem exhausted_nil : Exhausted protocols world [] := by
  intro p _ _
  exact Nat.le_zero.mp (p.inRange world []).2

theorem exhausted_of_quiet (h : PureProtocols protocols world) (hv : Visits protocols world d.world)
    (hquiet : d.Quiet protocols) : Exhausted protocols world d.data_ := by
  intro p hp ha
  obtain ⟨before, after, rfl⟩ := List.append_of_mem hp
  have hbefore : ∀ q ∈ before, q ∈ before ++ p :: after := fun q hq => List.mem_append_left _ hq
  have hvisit := (offer_rec_of_pure h (P := fun _ => True) (fun _ _ _ _ _ _ => trivial)
    hbefore hv trivial).1
  rw [← h.range _ hvisit p hp ha]
  exact (hquiet before p after rfl).2 ((h.active _ hvisit p hp).trans ha)

/-- What a call of `appendData` returns, for pure protocols: some number of passes have
been made, and none of the active protocols consumes any more. -/
theorem passes_of_appendData (h : PureProtocols protocols world) (hprotocols : d.protocols_ = protocols)
    (hv : Visits protocols world d.world) {data : ProtoData}
    (he : EndsWith (fun fuel => appendData fuel data d) e) :
    ∃ k, e = pass^[k] (d.insert data) ∧ Exhausted protocols world e.data_ := by
  obtain ⟨k, hk, hend⟩ := appendData_ends data d
  obtain rfl := (appendData_deepens data d).unique hk he
  refine ⟨k, rfl, ?_⟩
  rcases hend with hempty | ⟨j, rfl, hlen⟩
  · rw [hempty]
    exact exhausted_nil
  · have hvisit := (pass_iterate_rec_of_pure h (P := fun _ => True) (d := d.insert data)
      (fun _ _ _ _ _ _ => trivial) hprotocols hv trivial j).1
    rw [pass_iterate_succ, show (d.insert data).protocols_ = protocols from hprotocols] at hlen ⊢
    rw [offer_suffix.eq_of_length hlen]
    exact exhausted_of_quiet h hvisit (quiet_of_length hlen)

end Dispatcher

end DeviceTester.Protocols

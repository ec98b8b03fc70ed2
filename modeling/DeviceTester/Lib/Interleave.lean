import DeviceTester.Lib.Backlog
import DeviceTester.Lib.Run
import Mathlib.Data.List.Forall2
import Mathlib.Data.List.Induction
import Mathlib.Data.List.Perm.Basic

/-!
# Lists mixed into one

Several sources put their items into one list, each in its own order. Buffers that are
transferred in part and started again behind others are mixed in this way: whatever overtakes
whatever, no item is lost, repeated or taken out of the order of its buffer.
-/
namespace DeviceTester.Lib

open scoped List

variable {α κ : Type*}

/-- What the source `i` has put into a list of labelled items. -/
def strand (i : Nat) (items : List (Nat × α)) : List α :=
  (items.filter fun item => item.1 == i).map Prod.snd

/-- `whole` is made of the lists in `parts`, each in its own order, mixed in any way. -/
def Interleaves (parts : List (List α)) (whole : List α) : Prop :=
  ∃ items : List (Nat × α), items.map Prod.snd = whole ∧
    (∀ item ∈ items, item.1 < parts.length) ∧
    ∀ i part, parts[i]? = some part → strand i items = part

section Interleaves

variable {parts : List (List α)} {whole part : List α} {i j : Nat}

theorem strand_append (i : Nat) (l r : List (Nat × α)) :
    strand i (l ++ r) = strand i l ++ strand i r := by
  simp [strand]

theorem strand_label_self (i : Nat) (chunk : List α) :
    strand i (chunk.map fun a => (i, a)) = chunk := by
  simp [strand, List.filter_map, Function.comp_def]

theorem strand_label_ne (h : j ≠ i) (chunk : List α) :
    strand i (chunk.map fun a => (j, a)) = [] := by
  simp [strand, List.filter_map, Function.comp_def, h]

theorem strand_of_lt {items : List (Nat × α)} (h : ∀ item ∈ items, item.1 < i) :
    strand i items = [] := by
  rw [strand, List.map_eq_nil_iff, List.filter_eq_nil_iff]
  intro item hitem
  have hlt := h item hitem
  simp only [beq_iff_eq]
  omega

theorem interleaves_nil : Interleaves ([] : List (List α)) [] := by
  refine ⟨[], rfl, ?_, ?_⟩
  · intro item hitem
    cases hitem
  · intro i part hpart
    cases hpart

/-- A source that has put in nothing yet. -/
theorem Interleaves.source (h : Interleaves parts whole) : Interleaves (parts ++ [[]]) whole := by
  obtain ⟨items, hwhole, hlt, hstrand⟩ := h
  refine ⟨items, hwhole, fun item hitem => ?_, fun i part hpart => ?_⟩
  · have hitem' := hlt item hitem
    rw [List.length_append]
    omega
  · rcases Nat.lt_or_ge i parts.length with hi | hi
    · rw [List.getElem?_append_left hi] at hpart
      exact hstrand i part hpart
    · have hnil : part = [] := by
        rw [List.getElem?_append_right hi] at hpart
        have hmem := List.mem_of_getElem? hpart
        simpa using hmem
      rw [hnil]
      exact strand_of_lt fun item hitem => Nat.lt_of_lt_of_le (hlt item hitem) hi

/-- One source puts in a chunk behind all that is there. -/
theorem Interleaves.append (h : Interleaves parts whole) (hi : parts[i]? = some part)
    (chunk : List α) : Interleaves (parts.set i (part ++ chunk)) (whole ++ chunk) := by
  obtain ⟨items, hwhole, hlt, hstrand⟩ := h
  have hlen : i < parts.length := (List.getElem?_eq_some_iff.mp hi).1
  refine ⟨items ++ chunk.map fun a => (i, a), ?_, ?_, ?_⟩
  · simp [hwhole, Function.comp_def]
  · intro item hitem
    rw [List.length_set]
    rcases List.mem_append.mp hitem with hitem | hitem
    · exact hlt item hitem
    · obtain ⟨a, -, rfl⟩ := List.mem_map.mp hitem
      exact hlen
  · intro k part' hpart'
    rw [strand_append]
    by_cases hk : i = k
    · subst hk
      rw [List.getElem?_set_self hlen] at hpart'
      rw [← Option.some.inj hpart', hstrand i part hi, strand_label_self]
    · rw [List.getElem?_set_ne hk] at hpart'
      rw [strand_label_ne hk, List.append_nil]
      exact hstrand k part' hpart'

end Interleaves

/-! ## Buffers sent in parts -/

/-- A buffer that has been written: what has been sent of it, and what has not. -/
structure Parcel (α : Type*) where
  sent : List α
  rest : List α

def Parcel.whole (p : Parcel α) : List α := p.sent ++ p.rest

/-- The lists that are not empty. -/
def full (lists : List (List α)) : List (List α) := lists.filter fun l => !l.isEmpty

/-- The unsent rests in a queue. -/
def rests (buffer : κ → Option (List α)) (ops : List (Operation κ)) : List (List α) :=
  full (ops.map (unsent buffer))

/-- The buffers that a step takes in, the bytes that it sends, and the rests that it drops. -/
structure Transfer (α : Type*) where
  written : List (List α)
  sent : List α
  lost : List (List α)

/-- What a step can do to the rests in a queue. -/
inductive Moves : List (List α) → Transfer α → List (List α) → Prop where
  | keep {before after : List (List α)} (h : after.Perm before) : Moves before ⟨[], [], []⟩ after
  | write {before after : List (List α)} (data : List α) (h : after.Perm (before ++ full [data])) :
      Moves before ⟨[data], [], []⟩ after
  | refuse {before : List (List α)} (data : List α) : Moves before ⟨[data], [], [data]⟩ before
  | send {before others after : List (List α)} {rest : List α} (n : Nat)
      (h : before.Perm (rest :: others)) (h' : after.Perm (full [rest.drop n] ++ others)) :
      Moves before ⟨[], rest.take n, []⟩ after
  | lose {before after : List (List α)} {rest : List α} (h : before.Perm (rest :: after)) :
      Moves before ⟨[], [], [rest]⟩ after

/-- All that has been sent is made of the sent parts of the buffers written, and a part that
has not been sent is in the queue or lost. -/
def Accounts (t : Transfer α) (queue : List (List α)) : Prop :=
  ∃ parcels : List (Parcel α), parcels.map Parcel.whole = t.written ∧
    Interleaves (parcels.map Parcel.sent) t.sent ∧
    (full (parcels.map Parcel.rest)).Perm (queue ++ full t.lost)

/-- Two transfers, one after the other. -/
def Transfer.andThen (t u : Transfer α) : Transfer α :=
  ⟨t.written ++ u.written, t.sent ++ u.sent, t.lost ++ u.lost⟩

@[simp] theorem Transfer.written_andThen (t u : Transfer α) :
    (t.andThen u).written = t.written ++ u.written := rfl
@[simp] theorem Transfer.sent_andThen (t u : Transfer α) :
    (t.andThen u).sent = t.sent ++ u.sent := rfl
@[simp] theorem Transfer.lost_andThen (t u : Transfer α) :
    (t.andThen u).lost = t.lost ++ u.lost := rfl

section Accounts

variable {t u : Transfer α} {queue queue' : List (List α)} {ops : List (Operation κ)}
  {buffer : κ → Option (List α)} {op : Operation κ} {i : Nat}

@[simp] theorem full_nil : full ([] : List (List α)) = [] := rfl

@[simp] theorem full_append (l r : List (List α)) : full (l ++ r) = full l ++ full r :=
  List.filter_append ..

theorem full_cons (l : List α) (rest : List (List α)) : full (l :: rest) = full [l] ++ full rest :=
  full_append [l] rest

theorem full_of_ne_nil {l : List α} (h : l ≠ []) : full [l] = [l] := by
  simp [full, h]

theorem mem_full {l : List α} {lists : List (List α)} : l ∈ full lists ↔ l ∈ lists ∧ l ≠ [] := by
  simp [full]

theorem accounts_nil : Accounts (⟨[], [], []⟩ : Transfer α) [] :=
  ⟨[], rfl, interleaves_nil, List.Perm.nil⟩

theorem Accounts.write (h : Accounts t queue) (data : List α)
    (hq : queue'.Perm (queue ++ full [data])) :
    Accounts (t.andThen ⟨[data], [], []⟩) queue' := by
  obtain ⟨parcels, hwhole, hmix, hrest⟩ := h
  refine ⟨parcels ++ [⟨[], data⟩], ?_, ?_, ?_⟩
  · simp [hwhole, Parcel.whole]
  · simpa using hmix.source
  · simp only [List.map_append, List.map_cons, List.map_nil, full_append, Transfer.lost_andThen,
      List.append_nil]
    calc full (parcels.map Parcel.rest) ++ full [data]
      _ ~ queue ++ full t.lost ++ full [data] := hrest.append_right _
      _ = queue ++ (full t.lost ++ full [data]) := List.append_assoc ..
      _ ~ queue ++ (full [data] ++ full t.lost) := List.perm_append_comm.append_left _
      _ = queue ++ full [data] ++ full t.lost := (List.append_assoc ..).symm
      _ ~ queue' ++ full t.lost := hq.symm.append_right _

theorem Accounts.refuse (h : Accounts t queue) (data : List α) :
    Accounts (t.andThen ⟨[data], [], [data]⟩) queue := by
  obtain ⟨parcels, hwhole, hmix, hrest⟩ := h
  refine ⟨parcels ++ [⟨[], data⟩], ?_, ?_, ?_⟩
  · simp [hwhole, Parcel.whole]
  · simpa using hmix.source
  · simp only [List.map_append, List.map_cons, List.map_nil, full_append, Transfer.lost_andThen]
    rw [← List.append_assoc]
    exact hrest.append_right _

/-- The bytes sent are the next ones of one of the buffers. -/
theorem Accounts.send (h : Accounts t queue) {others : List (List α)} {rest : List α} (n : Nat)
    (hne : rest ≠ []) (hq : queue.Perm (rest :: others))
    (hq' : queue'.Perm (full [rest.drop n] ++ others)) :
    Accounts (t.andThen ⟨[], rest.take n, []⟩) queue' := by
  obtain ⟨parcels, hwhole, hmix, hrest⟩ := h
  have hmem : rest ∈ full (parcels.map Parcel.rest) := by
    rw [hrest.mem_iff, List.mem_append, hq.mem_iff]
    exact .inl List.mem_cons_self
  obtain ⟨p, hp, rfl⟩ := List.mem_map.mp (mem_full.mp hmem).1
  obtain ⟨before, after, rfl⟩ := List.append_of_mem hp
  have hat : ((before ++ p :: after).map Parcel.sent)[before.length]? = some p.sent := by simp
  refine ⟨before ++ ⟨p.sent ++ p.rest.take n, p.rest.drop n⟩ :: after, ?_, ?_, ?_⟩
  · simp only [Transfer.written_andThen, List.append_nil]
    rw [← hwhole]
    simp [Parcel.whole]
  · have hchunk := hmix.append hat (p.rest.take n)
    simpa using hchunk
  · -- what is in the queue beside this rest is what the other buffers have left
    have hothers : full (before.map Parcel.rest) ++ full (after.map Parcel.rest) ~
        others ++ full t.lost := by
      have hall := hrest.trans (hq.append_right (full t.lost))
      rw [List.map_append, List.map_cons, full_append, full_cons, full_of_ne_nil hne] at hall
      exact (List.perm_middle.symm.trans hall).cons_inv
    rw [List.map_append, List.map_cons, full_append, full_cons]
    simp only [Transfer.lost_andThen, List.append_nil]
    calc full (before.map Parcel.rest) ++ (full [p.rest.drop n] ++ full (after.map Parcel.rest))
      _ ~ full [p.rest.drop n] ++
          (full (before.map Parcel.rest) ++ full (after.map Parcel.rest)) :=
        List.perm_append_comm_assoc ..
      _ ~ full [p.rest.drop n] ++ (others ++ full t.lost) := hothers.append_left _
      _ = full [p.rest.drop n] ++ others ++ full t.lost := (List.append_assoc ..).symm
      _ ~ queue' ++ full t.lost := hq'.symm.append_right _

theorem Accounts.lose (h : Accounts t queue) {rest : List α} (hne : rest ≠ [])
    (hq : queue.Perm (rest :: queue')) : Accounts (t.andThen ⟨[], [], [rest]⟩) queue' := by
  obtain ⟨parcels, hwhole, hmix, hrest⟩ := h
  refine ⟨parcels, ?_, ?_, ?_⟩
  · simpa using hwhole
  · simpa using hmix
  · rw [Transfer.lost_andThen, full_append, full_of_ne_nil hne]
    calc full (parcels.map Parcel.rest)
      _ ~ queue ++ full t.lost := hrest
      _ ~ rest :: queue' ++ full t.lost := hq.append_right _
      _ ~ queue' ++ full t.lost ++ [rest] := (List.perm_append_singleton rest _).symm
      _ = queue' ++ (full t.lost ++ [rest]) := List.append_assoc ..

/-- A queue holds no empty rests. -/
def Filled (queue : List (List α)) : Prop := ∀ rest ∈ queue, rest ≠ []

theorem filled_rests (ops : List (Operation κ)) : Filled (rests buffer ops) :=
  fun _ hrest => (mem_full.mp hrest).2

theorem Accounts.moves (h : Accounts t queue) (hf : Filled queue) (hm : Moves queue u queue') :
    Accounts (t.andThen u) queue' := by
  cases hm with
  | keep hq =>
    obtain ⟨parcels, hwhole, hmix, hrest⟩ := h
    refine ⟨parcels, ?_, ?_, ?_⟩
    · simpa using hwhole
    · simpa using hmix
    · rw [Transfer.lost_andThen, List.append_nil]
      exact hrest.trans (hq.symm.append_right _)
  | write data hq => exact h.write data hq
  | refuse data => exact h.refuse data
  | send n hq hq' => exact h.send n (hf _ (hq.mem_iff.mpr List.mem_cons_self)) hq hq'
  | lose hq => exact h.lose (hf _ (hq.mem_iff.mpr List.mem_cons_self)) hq

/-- What has been sent is mixed of what has been sent of each buffer. -/
theorem Accounts.prefixes (h : Accounts t queue) :
    ∃ parts, List.Forall₂ (· <+: ·) parts t.written ∧ Interleaves parts t.sent := by
  obtain ⟨parcels, hwhole, hmix, -⟩ := h
  refine ⟨parcels.map Parcel.sent, ?_, hmix⟩
  rw [← hwhole, List.forall₂_map_left_iff, List.forall₂_map_right_iff]
  exact List.forall₂_same.mpr fun p _ => List.prefix_append p.sent p.rest

/-- Where nothing is left in the queue and nothing has been lost, it is mixed of the buffers. -/
theorem Accounts.complete (h : Accounts t []) (hlost : t.lost = []) :
    Interleaves t.written t.sent := by
  obtain ⟨parcels, hwhole, hmix, hrest⟩ := h
  rw [hlost] at hrest
  have hnone : ∀ p ∈ parcels, p.rest = [] := by
    intro p hp
    by_contra hne
    have hmem : p.rest ∈ full (parcels.map Parcel.rest) :=
      mem_full.mpr ⟨List.mem_map_of_mem hp, hne⟩
    rw [hrest.mem_iff] at hmem
    cases hmem
  have hall : parcels.map Parcel.whole = parcels.map Parcel.sent :=
    List.map_congr_left fun p hp => by rw [Parcel.whole, hnone p hp, List.append_nil]
  have hwritten : t.written = parcels.map Parcel.sent := hwhole.symm.trans hall
  rw [hwritten]
  exact hmix

/-! ## The rests in a queue of operations -/

theorem rests_append (l r : List (Operation κ)) :
    rests buffer (l ++ r) = rests buffer l ++ rests buffer r := by
  simp [rests]

theorem rests_cons (op : Operation κ) (ops : List (Operation κ)) :
    rests buffer (op :: ops) = full [unsent buffer op] ++ rests buffer ops :=
  rests_append [op] ops

theorem rests_begin (isOpen : Bool) (kind : κ) (stamp : Nat) :
    rests buffer [.begin isOpen kind stamp] = full [(buffer kind).getD []] := by
  rw [rests, List.map_singleton, unsent_begin]

theorem unsent_cancel (op : Operation κ) : unsent buffer op.cancel = unsent buffer op := by
  obtain ⟨kind, stamp, result⟩ := op
  unfold unsent Operation.cancel
  cases buffer kind with
  | none => rfl
  | some b => cases result <;> rfl

theorem rests_cancel (ops : List (Operation κ)) :
    rests buffer (ops.map Operation.cancel) = rests buffer ops := by
  rw [rests, rests, List.map_map]
  exact congrArg full (List.map_congr_left fun op _ => unsent_cancel op)

/-- A rest that is written out leaves the queue with its operation. -/
theorem rests_eraseIdx (hop : ops[i]? = some op) :
    rests buffer ops ~ full [unsent buffer op] ++ rests buffer (ops.eraseIdx i) := by
  obtain ⟨before, after, hl, -, herase, -⟩ := split_getElem? hop
  rw [herase, hl, rests_append, rests_append, rests_cons]
  exact List.perm_append_comm_assoc ..

theorem moves_finish {kind : κ} {stamp : Nat} {r : Result}
    (hop : ops[i]? = some ⟨kind, stamp, none⟩) :
    Moves (rests buffer ops) ⟨[], sent buffer kind r, []⟩
      (rests buffer (ops.set i ⟨kind, stamp, some r⟩)) := by
  obtain ⟨before, after, hl, -, -, hset⟩ := split_getElem? hop
  rw [hset, hl, rests_append, rests_append, rests_cons, rests_cons]
  have hothers (l : List (List α)) : rests buffer before ++ (l ++ rests buffer after) ~
      l ++ (rests buffer before ++ rests buffer after) :=
    List.perm_append_comm_assoc ..
  cases hb : buffer kind with
  | none =>
    have hnil : sent buffer kind r = [] := by cases r <;> simp [sent, hb]
    rw [hnil]
    exact .keep (by simp [unsent, hb])
  | some b =>
    cases r with
    | error code => exact .keep (by simp [unsent, hb])
    | ok n =>
      have hsent : sent buffer kind (.ok n) = b.take n := by simp [sent, hb]
      have hunsent : unsent buffer ⟨kind, stamp, none⟩ = b := by simp [unsent, hb]
      have hleft : unsent buffer ⟨kind, stamp, some (.ok n)⟩ = b.drop n := by simp [unsent, hb]
      rw [hsent, hunsent, hleft]
      by_cases hne : b = []
      · subst hne
        rw [List.take_nil, List.drop_nil]
        exact .keep (List.Perm.refl _)
      · have hbefore := hothers (full [b])
        rw [full_of_ne_nil hne] at hbefore ⊢
        exact .send n hbefore (hothers (full [b.drop n]))

/-- What every step does to the rests in a queue and to what has been sent accumulates over a
run. Where every step is `Lossless`, nothing is lost. -/
theorem exec_accounts {σ ε : Type*} {step : σ → ε → Option σ} {Lossless : σ → ε → σ → Prop}
    (queue : σ → List (List α)) (wire : σ → List α) (writes : ε → List (List α))
    (hfilled : ∀ s, Filled (queue s))
    (hstep : ∀ s e t, step s e = some t → ∃ sent lost, Moves (queue s) ⟨writes e, sent, lost⟩ (queue t) ∧
      wire t = wire s ++ sent ∧ (Lossless s e t → lost = []))
    {s t : σ} {es : List ε} {before : Transfer α} (h : Accounts before (queue s))
    (he : exec step s es = some t) :
    ∃ sent lost, Accounts (before.andThen ⟨(es.map writes).flatten, sent, lost⟩) (queue t) ∧
      wire t = wire s ++ sent ∧ (Along step Lossless s es → lost = []) := by
  induction es generalizing s before with
  | nil =>
    obtain rfl := Option.some.inj he
    refine ⟨[], [], ?_, (List.append_nil _).symm, fun _ => rfl⟩
    simpa [Transfer.andThen] using h
  | cons e es ih =>
    obtain ⟨u, hu, htail⟩ := exec_cons_some he
    obtain ⟨sent, lost, hmoves, hwire, hlossless⟩ := hstep s e u hu
    obtain ⟨sent', lost', haccounts, hwire', hlossless'⟩ := ih (h.moves (hfilled s) hmoves) htail
    refine ⟨sent ++ sent', lost ++ lost', ?_, ?_, fun ha => ?_⟩
    · simpa [Transfer.andThen, List.append_assoc] using haccounts
    · rw [hwire', hwire, List.append_assoc]
    · obtain ⟨hl, htail'⟩ := ha.cons hu
      rw [hlossless hl, hlossless' htail', List.append_nil]

/-- A run that begins with nothing left to send sends parts of what is written in it, and all of
it where nothing is lost and nothing left in the end. -/
theorem exec_interleaves {σ ε : Type*} {step : σ → ε → Option σ} {Lossless : σ → ε → σ → Prop}
    (queue : σ → List (List α)) (wire : σ → List α) (writes : ε → List (List α))
    (hfilled : ∀ s, Filled (queue s))
    (hstep : ∀ s e t, step s e = some t → ∃ sent lost, Moves (queue s) ⟨writes e, sent, lost⟩ (queue t) ∧
      wire t = wire s ++ sent ∧ (Lossless s e t → lost = []))
    {s t : σ} {es : List ε} (hs : queue s = []) (he : exec step s es = some t) :
    ∃ sent, wire t = wire s ++ sent ∧
      (∃ parts, List.Forall₂ (· <+: ·) parts (es.map writes).flatten ∧ Interleaves parts sent) ∧
      (Along step Lossless s es → queue t = [] → Interleaves (es.map writes).flatten sent) := by
  have hempty : Accounts ⟨[], [], []⟩ (queue s) := by
    rw [hs]
    exact accounts_nil
  obtain ⟨sent, lost, haccounts, hwire, hlossless⟩ :=
    exec_accounts queue wire writes hfilled hstep hempty he
  refine ⟨sent, hwire, haccounts.prefixes, fun ha ht => ?_⟩
  rw [ht] at haccounts
  exact haccounts.complete (hlossless ha)

end Accounts

end DeviceTester.Lib

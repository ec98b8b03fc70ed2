import DeviceTester.Lib.RoundRobin
import DeviceTester.Protocols.Pure

/-!
# Which messages of a stream reach their protocols

A protocol that skips bytes has them erased for every protocol. So a message is lost when
the protocol of a later one has its turn first.
-/
namespace DeviceTester.Protocols

open DeviceTester.Lib

variable {σ : Type*}

/-- `message` stands in `data` after the bytes `before`. -/
def Occurs (isMessage : ProtoData → Prop) (data before message : ProtoData) : Prop :=
  before ++ message <+: data ∧ isMessage message

/-- `p` consumes the message of its own that comes first in the buffer, with the bytes
before it, and nothing when no message of its own is complete. -/
structure FindsFirst (p : Protocol σ) (world : σ) (isMessage : ProtoData → Prop) : Prop where
  nothing : ∀ data, (∀ before message, ¬ Occurs isMessage data before message) →
    (p.range world data).2 = 0
  first : ∀ data before message, Occurs isMessage data before message →
    Occurs isMessage data (data.take (p.range world data).1) (p.taken world data) ∧
      ((p.range world data).1 < before.length ∨ (p.range world data).1 = before.length ∧
        (p.range world data).2 ≤ before.length + message.length)

/-- The bytes of messages sent one after the other. -/
def bytes (sent : List (Protocol σ × ProtoData)) : ProtoData := (sent.map Prod.snd).flatten

/-- What is sent are messages of the protocols, each of exactly one of them, and the stream
has no other messages of these protocols in it. -/
structure Composed (protocols : List (Protocol σ)) (isMessage : Protocol σ → ProtoData → Prop)
    (sent : List (Protocol σ × ProtoData)) : Prop where
  owner : ∀ m ∈ sent, m.1 ∈ protocols ∧ isMessage m.1 m.2
  one : protocols.Pairwise fun p q => ∀ m ∈ sent, ¬ (isMessage p m.2 ∧ isMessage q m.2)
  only : ∀ p ∈ protocols, ∀ before message, Occurs (isMessage p) (bytes sent) before message →
    ∃ l r, sent = l ++ (p, message) :: r ∧ bytes l = before

/-- The messages that are complete in the first `n` bytes. -/
def completed : Nat → List (Protocol σ × ProtoData) → List (Protocol σ × ProtoData)
  | _, [] => []
  | n, m :: sent => if m.2.length ≤ n then m :: completed (n - m.2.length) sent else []

/-- In every call, the protocols of the messages that the call completes come in turn. -/
def EachInTurn (protocols : List (Protocol σ)) (sent : List (Protocol σ × ProtoData))
    (chunks : List ProtoData) : Prop :=
  ∀ before data after, chunks = before ++ data :: after →
    InTurn protocols (((completed (before.flatten ++ data).length sent).drop
      (completed before.flatten.length sent).length).map Prod.fst)

variable {protocols : List (Protocol σ)} {world : σ} {isMessage : Protocol σ → ProtoData → Prop}
  {sent l r : List (Protocol σ × ProtoData)} {p : Protocol σ} {n : Nat}

@[simp] theorem bytes_nil : bytes ([] : List (Protocol σ × ProtoData)) = [] := rfl

@[simp] theorem bytes_cons (m : Protocol σ × ProtoData) : bytes (m :: sent) = m.2 ++ bytes sent :=
  rfl

@[simp] theorem bytes_append : bytes (l ++ r) = bytes l ++ bytes r := by
  simp [bytes]

theorem length_bytes_completed (n : Nat) (sent : List (Protocol σ × ProtoData)) :
    (bytes (completed n sent)).length ≤ n := by
  induction sent generalizing n with
  | nil => exact Nat.zero_le n
  | cons m sent ih =>
    rw [completed]
    split
    · have htail := ih (n - m.2.length)
      rw [bytes_cons, List.length_append]
      omega
    · exact Nat.zero_le n

theorem isPrefix_completed (n : Nat) (sent : List (Protocol σ × ProtoData)) :
    completed n sent <+: sent := by
  induction sent generalizing n with
  | nil => exact List.prefix_rfl
  | cons m sent ih =>
    rw [completed]
    split
    · exact List.prefix_cons_inj m |>.mpr (ih _)
    · exact List.nil_prefix

theorem completed_append (h : (bytes l).length ≤ n) :
    completed n (l ++ r) = l ++ completed (n - (bytes l).length) r := by
  induction l generalizing n with
  | nil => rfl
  | cons m l ih =>
    rw [bytes_cons, List.length_append] at h
    have hm : m.2.length ≤ n := by omega
    rw [List.cons_append, completed, if_pos hm, ih (by omega), bytes_cons, List.length_append,
      Nat.sub_add_eq]
    rfl

theorem completed_all : completed (bytes sent).length sent = sent := by
  have h := completed_append (r := []) (le_refl (bytes sent).length)
  rwa [List.append_nil, completed, List.append_nil] at h

/-- A message that is complete in a part of the stream occurs there. -/
theorem occurs_of_completed {data : ProtoData} {before after : List (Protocol σ × ProtoData)}
    {message : ProtoData} (hdata : data <+: bytes sent)
    (hm : completed data.length sent = before ++ (p, message) :: after)
    (hp : isMessage p message) : Occurs (isMessage p) data (bytes before) message := by
  refine ⟨?_, hp⟩
  have hlength := length_bytes_completed data.length sent
  have hsent := isPrefix_completed data.length sent
  rw [hm] at hlength hsent
  obtain ⟨rest, rfl⟩ := hsent
  simp only [bytes_append, bytes_cons, List.length_append] at hlength
  refine List.prefix_of_prefix_length_le ?_ hdata (by rw [List.length_append]; omega)
  simp only [bytes_append, bytes_cons, List.append_assoc]
  rw [← List.append_assoc]
  exact List.prefix_append _ _

theorem FindsFirst.range_ne_zero (h : FindsFirst p world (isMessage p))
    (hempty : ¬ isMessage p []) {data before message : ProtoData}
    (ho : Occurs (isMessage p) data before message) : (p.range world data).2 ≠ 0 := by
  intro hnone
  have hfound := (h.first data before message ho).1.2
  rw [Protocol.taken, hnone, List.take_zero, List.drop_nil] at hfound
  exact hempty hfound

/-- A place in the stream that is not before the end of `l` is the end of `l` or comes after it. -/
theorem split_after {l₁ r₁ : List (Protocol σ × ProtoData)} {m : Protocol σ × ProtoData}
    (hnonempty : ∀ m ∈ l ++ r, m.2 ≠ []) (h : l ++ r = l₁ ++ m :: r₁)
    (hle : (bytes l).length ≤ (bytes l₁).length) :
    ∃ skipped, l₁ = l ++ skipped ∧ r = skipped ++ m :: r₁ := by
  rcases List.append_eq_append_iff.mp h with ⟨skipped, hl₁, hr⟩ | ⟨excess, hl, hr₁⟩
  · exact ⟨skipped, hl₁, hr⟩
  · cases excess with
    | nil => exact ⟨[], by rw [hl, List.append_nil, List.append_nil], hr₁.symm⟩
    | cons m' excess =>
      have hm' : m'.2 ≠ [] := hnonempty m' (by rw [hl]; simp)
      rw [hl, bytes_append, bytes_cons, List.length_append, List.length_append] at hle
      exact absurd (List.eq_nil_of_length_eq_zero (by omega)) hm'

namespace Dispatcher

/-- The stream as the dispatcher sees it: the messages `l` are erased, of which it has
delivered all but `k`, and its buffer is the beginning of the messages `r`. -/
structure View (sent : List (Protocol σ × ProtoData)) (d : Dispatcher σ)
    (l r : List (Protocol σ × ProtoData)) (k : Nat) : Prop where
  split : l ++ r = sent
  erased : d.erased = bytes l
  data : d.data_ <+: bytes r
  got : d.messages.Sublist l
  missing : l.length = d.messages.length + k

/-- The protocols of the messages that are complete in the buffer. -/
def asked (d : Dispatcher σ) (r : List (Protocol σ × ProtoData)) : List (Protocol σ) :=
  (completed d.data_.length r).map Prod.fst

variable {d e : Dispatcher σ} {k : Nat}

/-- A protocol that consumes a message has found it at the front of `r`, after messages
of other protocols. -/
theorem View.found (h : View sent d l r k) (hp : p ∈ protocols)
    (hfinds : FindsFirst p world (isMessage p)) (hempty : ∀ q ∈ protocols, ¬ isMessage q [])
    (hsent : Composed protocols isMessage sent) (hsome : (p.range world d.data_).2 ≠ 0) :
    ∃ skipped rest, p ∉ skipped.map Prod.fst ∧
      r = skipped ++ (p, p.taken world d.data_) :: rest ∧
      bytes skipped = d.data_.take (p.range world d.data_).1 := by
  have hocc : ∃ before message, Occurs (isMessage p) d.data_ before message := by
    by_contra hnone
    push Not at hnone
    exact hsome (hfinds.nothing _ hnone)
  obtain ⟨before, message, hocc⟩ := hocc
  obtain ⟨⟨hbegin, hmessage⟩, -⟩ := hfinds.first _ _ _ hocc
  have hstream : Occurs (isMessage p) (bytes sent)
      (bytes l ++ d.data_.take (p.range world d.data_).1) (p.taken world d.data_) := by
    refine ⟨?_, hmessage⟩
    rw [← h.split, bytes_append, List.append_assoc]
    exact (List.prefix_append_right_inj _).mpr (hbegin.trans h.data)
  obtain ⟨l₁, r₁, hsplit, hbytes⟩ := hsent.only p hp _ _ hstream
  have hnonempty : ∀ m ∈ l ++ r, m.2 ≠ [] := by
    intro m hm hnil
    rw [h.split] at hm
    obtain ⟨hmem, hown⟩ := hsent.owner m hm
    rw [hnil] at hown
    exact hempty _ hmem hown
  obtain ⟨skipped, rfl, hr⟩ := split_after hnonempty (h.split.trans hsplit) (by
    rw [hbytes, List.length_append]
    omega)
  rw [bytes_append] at hbytes
  have hskipped := List.append_cancel_left hbytes
  refine ⟨skipped, r₁, fun hmem => ?_, hr, hskipped⟩
  -- an earlier message of `p` would have been the one it finds
  obtain ⟨m, hm, rfl⟩ := List.mem_map.mp hmem
  obtain ⟨s₁, s₂, rfl⟩ := List.append_of_mem hm
  have hm' : m ∈ l ++ r := by simp [hr]
  have hown : isMessage m.1 m.2 := (hsent.owner m (h.split ▸ hm')).2
  have hearlier : Occurs (isMessage m.1) d.data_ (bytes s₁) m.2 := by
    refine ⟨List.IsPrefix.trans ?_ (List.take_prefix (m.1.range world d.data_).1 d.data_), hown⟩
    rw [← hskipped, bytes_append, bytes_cons, ← List.append_assoc]
    exact List.prefix_append _ _
  have hlength := congrArg List.length hskipped
  have hpos := List.length_pos_iff.mpr (hnonempty m hm')
  have hin := m.1.range_le world d.data_
  rw [List.length_take, bytes_append, bytes_cons, List.length_append, List.length_append] at hlength
  have hfirst := (hfinds.first _ _ _ hearlier).2
  omega

/-- A protocol that consumes nothing has no complete message in the queue. -/
theorem View.idle (h : View sent d l r k) (hp : p ∈ protocols)
    (hfinds : FindsFirst p world (isMessage p)) (hempty : ∀ q ∈ protocols, ¬ isMessage q [])
    (hsent : Composed protocols isMessage sent) (hnone : (p.range world d.data_).2 = 0) :
    Serves p (d.asked r) [] (d.asked r) := by
  refine .idle fun hasked => ?_
  obtain ⟨m, hm, rfl⟩ := List.mem_map.mp hasked
  obtain ⟨before, after, hsplit⟩ := List.append_of_mem hm
  have hmem : m ∈ sent := h.split ▸ List.mem_append_right _ ((isPrefix_completed _ _).subset hm)
  have hocc := occurs_of_completed h.data hsplit (hsent.owner m hmem).2
  exact hfinds.range_ne_zero (hempty m.1 hp) hocc hnone

/-- A protocol that consumes a message is served, and the messages before it are lost. -/
theorem View.consume (h : View sent d l r k) (hp : p ∈ protocols)
    (hfinds : FindsFirst p world (isMessage p)) (hempty : ∀ q ∈ protocols, ¬ isMessage q [])
    (hsent : Composed protocols isMessage sent) (hsome : (p.range world d.data_).2 ≠ 0)
    (hdata : e.data_ = d.data_.drop (p.range world d.data_).2)
    (herased : e.erased = d.erased ++ d.data_.take (p.range world d.data_).2)
    (hmessages : e.messages = d.messages ++ [(p, p.taken world d.data_)]) :
    ∃ l' r' lost, View sent e l' r' (k + lost.length) ∧ Serves p (d.asked r) lost (e.asked r') := by
  obtain ⟨skipped, rest, hskipped, hr, hbytes⟩ := h.found hp hfinds hempty hsent hsome
  have hle := (p.range_le world d.data_).2
  have htaken : bytes (skipped ++ [(p, p.taken world d.data_)]) =
      d.data_.take (p.range world d.data_).2 := by
    rw [bytes_append, hbytes, ← p.take_append_taken]
    simp
  have hlength : (bytes (skipped ++ [(p, p.taken world d.data_)])).length =
      (p.range world d.data_).2 := by
    rw [htaken, List.length_take, Nat.min_eq_left hle]
  have hsplit : r = (skipped ++ [(p, p.taken world d.data_)]) ++ rest := by
    rw [hr, List.append_assoc]
    rfl
  refine ⟨l ++ (skipped ++ [(p, p.taken world d.data_)]), rest, skipped.map Prod.fst,
    ⟨?_, ?_, ?_, ?_, ?_⟩, ?_⟩
  · rw [List.append_assoc, ← hsplit, h.split]
  · rw [herased, h.erased, bytes_append, htaken]
  · have hdata' := h.data
    rw [hsplit, bytes_append, htaken] at hdata'
    nth_rewrite 1 [← List.take_append_drop (p.range world d.data_).2 d.data_] at hdata'
    rw [hdata]
    exact (List.prefix_append_right_inj _).mp hdata'
  · rw [hmessages]
    exact h.got.append (List.sublist_append_right _ _)
  · have hmissing := h.missing
    rw [hmessages]
    simp only [List.length_append, List.length_map, List.length_singleton]
    omega
  · have hqueue : d.asked r = skipped.map Prod.fst ++ p :: e.asked rest := by
      rw [asked, asked, hsplit, completed_append (hlength.trans_le hle), hlength, hdata,
        List.length_drop]
      simp
    rw [hqueue]
    exact .serve hskipped

/-- A turn serves the queue of messages that are complete, and what it loses is not delivered. -/
theorem View.turn (h : View sent d l r k) (hp : p ∈ protocols) (ha : p.isActive world = true)
    (hfinds : FindsFirst p world (isMessage p)) (hempty : ∀ q ∈ protocols, ¬ isMessage q [])
    (hsent : Composed protocols isMessage sent) (ht : Turn world p d e) :
    ∃ l' r' lost, View sent e l' r' (k + lost.length) ∧ Serves p (d.asked r) lost (e.asked r') := by
  cases ht with
  | nothing hnone hdata herased hmessages =>
    refine ⟨l, r, [], ⟨h.split, herased.trans h.erased, ?_, ?_, ?_⟩, ?_⟩
    · rw [hdata]
      exact h.data
    · rw [hmessages]
      exact h.got
    · rw [hmessages]
      exact h.missing
    · have hasked : e.asked r = d.asked r := by rw [asked, asked, hdata]
      rw [hasked]
      exact h.idle hp hfinds hempty hsent (hnone ha)
  | message _ hsome hdata herased hmessages =>
    exact h.consume hp hfinds hempty hsent hsome hdata herased hmessages

/-- When no protocol consumes anything, no message is complete. -/
theorem View.completed_of_exhausted (hactive : ∀ p ∈ protocols, p.isActive world = true)
    (hfinds : ∀ p ∈ protocols, FindsFirst p world (isMessage p))
    (hempty : ∀ p ∈ protocols, ¬ isMessage p []) (hsent : Composed protocols isMessage sent)
    (h : View sent d l r k) (hend : Exhausted protocols world d.data_) : completed d.data_.length r = [] := by
  cases hc : completed d.data_.length r with
  | nil => rfl
  | cons m after =>
    have hr : m ∈ r := (isPrefix_completed d.data_.length r).subset (hc ▸ List.mem_cons_self)
    obtain ⟨hmem, hown⟩ := hsent.owner m (h.split ▸ List.mem_append_right _ hr)
    have hocc := occurs_of_completed h.data (hc.trans (List.nil_append _).symm) hown
    exact absurd (hend m.1 hmem (hactive m.1 hmem))
      ((hfinds m.1 hmem).range_ne_zero (hempty m.1 hmem) hocc)

/-- The messages that are complete in the stream so far are those gone by and those that are
complete in the buffer. -/
theorem View.completed_eq {stream : ProtoData} (h : View sent d l r k)
    (hstream : d.erased ++ d.data_ = stream) :
    completed stream.length sent = l ++ completed d.data_.length r := by
  have hlength : stream.length = (bytes l).length + d.data_.length := by
    rw [← hstream, List.length_append, h.erased]
  rw [← h.split, completed_append (by omega), hlength, Nat.add_sub_cancel_left]

theorem View.insert {stream data : ProtoData} (h : View sent d l r k)
    (hstream : d.erased ++ d.data_ = stream) (hdata : stream ++ data <+: bytes sent) :
    View sent (d.insert data) l r k := by
  have hbytes : bytes sent = d.erased ++ bytes r := by rw [h.erased, ← bytes_append, h.split]
  rw [hbytes, ← hstream, List.append_assoc] at hdata
  exact ⟨h.split, h.erased, (List.prefix_append_right_inj _).mp hdata, h.got, h.missing⟩

theorem eachInTurn_concat {chunks : List ProtoData} {data : ProtoData} :
    EachInTurn protocols sent (chunks ++ [data]) ↔ EachInTurn protocols sent chunks ∧
      InTurn protocols (((completed (chunks.flatten ++ data).length sent).drop
        (completed chunks.flatten.length sent).length).map Prod.fst) := by
  constructor
  · intro h
    refine ⟨fun before last after hchunks => ?_, h chunks data [] rfl⟩
    refine h before last (after ++ [data]) ?_
    rw [hchunks, List.append_assoc]
    rfl
  · intro ⟨h, hlast⟩ before last after hchunks
    rcases List.eq_nil_or_concat after with rfl | ⟨init, final, rfl⟩
    · obtain ⟨rfl, hdata⟩ := List.append_inj' hchunks rfl
      obtain rfl := List.singleton_inj.mp hdata
      exact hlast
    · rw [List.concat_eq_append, ← List.cons_append, ← List.append_assoc] at hchunks
      exact h before last init (List.append_inj' hchunks rfl).1

section Passes

variable (hpure : PureProtocols protocols world)
  (hactive : ∀ p ∈ protocols, p.isActive world = true)
  (hfinds : ∀ p ∈ protocols, FindsFirst p world (isMessage p))
  (hempty : ∀ p ∈ protocols, ¬ isMessage p []) (hsent : Composed protocols isMessage sent)

include hpure hactive hfinds hempty hsent

theorem View.offer {ps : List (Protocol σ)} (hps : ∀ p ∈ ps, p ∈ protocols)
    (hv : Visits protocols world d.world) (h : View sent d l r k) :
    Visits protocols world (d.offer ps).world ∧ ∃ l' r' lost,
      View sent (d.offer ps) l' r' (k + lost.length) ∧
        Round ps (d.asked r) lost ((d.offer ps).asked r') := by
  induction ps generalizing d l r k with
  | nil => exact ⟨hv, l, r, [], h, .nil _⟩
  | cons p ps ih =>
    have hp : p ∈ protocols := hps p List.mem_cons_self
    obtain ⟨hv', hturn⟩ := turn_processProtocol hpure hv hp
    obtain ⟨l₁, r₁, lost, hview, hserves⟩ :=
      h.turn hp (hactive p hp) (hfinds p hp) hempty hsent hturn
    obtain ⟨hv'', l₂, r₂, lost', hview', hround⟩ :=
      ih (fun q hq => hps q (List.mem_cons_of_mem _ hq)) hv' hview
    refine ⟨hv'', l₂, r₂, lost ++ lost', ?_, .cons hserves hround⟩
    rw [List.length_append, ← Nat.add_assoc]
    exact hview'

theorem View.passes (hprotocols : d.protocols_ = protocols) (hv : Visits protocols world d.world)
    (h : View sent d l r k) (n : Nat) :
    Visits protocols world (pass^[n] d).world ∧ ∃ l' r' lost,
      View sent (pass^[n] d) l' r' (k + lost.length) ∧
        Rounds protocols (d.asked r) lost ((pass^[n] d).asked r') := by
  induction n generalizing d l r k with
  | zero => exact ⟨hv, l, r, [], h, .nil _⟩
  | succ n ih =>
    have hpass : d.pass = d.offer protocols := by rw [pass, hprotocols]
    obtain ⟨hv', l₁, r₁, lost, hview, hround⟩ :=
      View.offer hpure hactive hfinds hempty hsent (fun _ hp => hp) hv h
    rw [← hpass] at hv' hview hround
    obtain ⟨hv'', l₂, r₂, lost', hview', hrounds⟩ :=
      ih ((protocols_pass_iterate d 1).trans hprotocols) hv' hview
    refine ⟨hv'', l₂, r₂, lost ++ lost', ?_, .cons hround hrounds⟩
    rw [List.length_append, ← Nat.add_assoc]
    exact hview'

/-- A call of `appendData` that starts with no complete message in the buffer completes some
messages. All have been delivered after it exactly when all were before and the protocols
of these come in turn. -/
theorem View.appendData {stream data : ProtoData} (hsound : d.Sound stream)
    (hprotocols : d.protocols_ = protocols) (hv : Visits protocols world d.world)
    (h : View sent d (completed stream.length sent) r k)
    (hdata : stream ++ data <+: bytes sent)
    (he : EndsWith (fun fuel => appendData fuel data d) e) :
    Visits protocols world e.world ∧ ∃ r' k',
      View sent e (completed (stream ++ data).length sent) r' k' ∧
        (k' = 0 ↔ k = 0 ∧ InTurn protocols (((completed (stream ++ data).length sent).drop
          (completed stream.length sent).length).map Prod.fst)) := by
  obtain ⟨n, rfl, hend⟩ := passes_of_appendData hpure hprotocols hv he
  have hinsert := h.insert hsound.conserved hdata
  obtain ⟨hv', l', r', lost, hview, hrounds⟩ :=
    View.passes hpure hactive hfinds hempty hsent (d := d.insert data) hprotocols hv hinsert n
  have hnone := hview.completed_of_exhausted hactive hfinds hempty hsent hend
  have hl' : completed (stream ++ data).length sent = l' := by
    rw [hview.completed_eq (hsound.appendData he).1.conserved, hnone, List.append_nil]
  have hstream : (d.insert data).erased ++ (d.insert data).data_ = stream ++ data := by
    rw [← hsound.conserved, List.append_assoc]
    rfl
  have hqueue : (d.insert data).asked r =
      ((completed (stream ++ data).length sent).drop
        (completed stream.length sent).length).map Prod.fst := by
    rw [asked, hinsert.completed_eq hstream, List.drop_left]
  rw [hl'] at hqueue ⊢
  refine ⟨hv', r', k + lost.length, hview, ?_⟩
  rw [← hqueue, Nat.add_eq_zero_iff, List.length_eq_zero_iff]
  have hasked : ∀ p ∈ (d.insert data).asked r, ∃ m ∈ sent, m.1 = p := by
    intro p hp
    obtain ⟨m, hm, rfl⟩ := List.mem_map.mp hp
    exact ⟨m, h.split ▸ List.mem_append_right _ ((isPrefix_completed _ _).subset hm), rfl⟩
  refine and_congr_right fun _ => hrounds.lost_eq_nil_iff ?_ ?_ ?_
  · rw [asked, hnone]
    rfl
  · intro p hp
    obtain ⟨m, hm, rfl⟩ := hasked p hp
    exact (hsent.owner m hm).1
  · refine hsent.one.imp fun hone heq hp => ?_
    obtain ⟨m, hm, rfl⟩ := hasked _ hp
    exact hone m hm ⟨(hsent.owner m hm).2, heq ▸ (hsent.owner m hm).2⟩

theorem Appends.view {chunks : List ProtoData} (h : Appends chunks (fresh protocols world) e)
    (hchunks : chunks.flatten <+: bytes sent) :
    Visits protocols world e.world ∧ ∃ r k,
      View sent e (completed chunks.flatten.length sent) r k ∧
        (k = 0 ↔ EachInTurn protocols sent chunks) := by
  generalize hd : fresh protocols world = d at h
  induction h with
  | nil =>
    have hview : View sent (fresh protocols world) [] sent 0 :=
      ⟨rfl, rfl, List.nil_prefix, List.Sublist.refl [], rfl⟩
    have hnone := hview.completed_of_exhausted hactive hfinds hempty hsent exhausted_nil
    rw [← hd]
    refine ⟨.start, sent, 0, ?_, iff_of_true rfl ?_⟩
    · rw [List.flatten_nil]
      exact hnone ▸ hview
    · intro before last after hchunks
      simp at hchunks
  | @snoc chunks data _ e f h hlast ih =>
    rw [List.flatten_append, List.flatten_singleton] at hchunks ⊢
    obtain ⟨hv, r, k, hview, hk⟩ := ih ((List.prefix_append _ _).trans hchunks) hd
    obtain ⟨hsound, hprotocols⟩ := (hd ▸ h).sound (sound_fresh protocols world)
    obtain ⟨hv', r', k', hview', hk'⟩ := View.appendData hpure hactive hfinds hempty hsent hsound
      hprotocols hv hview hchunks hlast
    refine ⟨hv', r', k', hview', ?_⟩
    rw [eachInTurn_concat, hk', hk]

/-- The messages consumed are among those sent, in the order in which they were sent. All
are consumed exactly when in every call the protocols of the messages that the call
completes come in turn. -/
theorem delivered_iff_in_turn {chunks : List ProtoData} (hstream : chunks.flatten = bytes sent) :
    (∃ d, Appends chunks (fresh protocols world) d) ∧
      ∀ d, Appends chunks (fresh protocols world) d →
        d.messages.Sublist sent ∧ (d.messages = sent ↔ EachInTurn protocols sent chunks) := by
  refine ⟨exists_appends protocols world chunks, fun d hd => ?_⟩
  obtain ⟨-, r, k, hview, hk⟩ := Appends.view hpure hactive hfinds hempty hsent hd
    (hstream ▸ List.prefix_rfl)
  rw [hstream, completed_all] at hview
  refine ⟨hview.got, ?_⟩
  have hmissing := hview.missing
  rw [← hk]
  constructor
  · intro heq
    rw [heq] at hmissing
    omega
  · intro hzero
    exact hview.got.eq_of_length (by omega)

end Passes

/-- A protocol whose messages are the single byte `b`, wherever it stands in the buffer. -/
def findByte (b : UInt8) : Protocol Unit where
  isActive _ := true
  consumeOneMessage _ data := (if b ∈ data then (data.idxOf b, data.idxOf b + 1) else (0, 0), ())
  inRange _ data := by
    split
    · rename_i hb
      exact ⟨Nat.le_succ _, List.idxOf_lt_length_of_mem hb⟩
    · exact ⟨le_rfl, Nat.zero_le _⟩

def isOneByte (p : Protocol Unit) (message : ProtoData) : Prop :=
  message.length = 1 ∧ (p.range () message).2 ≠ 0

theorem isOneByte_findByte {b : UInt8} {message : ProtoData} :
    isOneByte (findByte b) message ↔ message = [b] := by
  constructor
  · intro ⟨hlength, hsome⟩
    obtain ⟨c, rfl⟩ := List.length_eq_one_iff.mp hlength
    by_cases hb : b ∈ [c]
    · rw [List.mem_singleton.mp hb]
    · simp [Protocol.range, findByte, hb] at hsome
  · intro h
    subst h
    simp [isOneByte, Protocol.range, findByte]

theorem findsFirst_findByte (b : UInt8) : FindsFirst (findByte b) () (isOneByte (findByte b)) := by
  constructor
  · intro data hnone
    by_cases hb : b ∈ data
    · obtain ⟨before, after, hdata⟩ := List.append_of_mem hb
      refine absurd ⟨⟨after, ?_⟩, isOneByte_findByte.mpr rfl⟩ (hnone before [b])
      rw [hdata, List.append_assoc]
      rfl
    · simp [Protocol.range, findByte, hb]
  · intro data before message hocc
    obtain ⟨⟨after, hdata⟩, hmessage⟩ := hocc
    obtain rfl := isOneByte_findByte.mp hmessage
    have hb : b ∈ data := by
      rw [← hdata]
      simp
    have hrange : (findByte b).range () data = (data.idxOf b, data.idxOf b + 1) := by
      simp [Protocol.range, findByte, hb]
    have hlt := List.idxOf_lt_length_of_mem hb
    have htaken : (findByte b).taken () data = [b] := by
      rw [Protocol.taken, hrange]
      simp [List.take_add_one, hlt, Nat.min_eq_left hlt.le]
    have hle : data.idxOf b ≤ before.length := by
      rw [← hdata, List.append_assoc, List.idxOf_append]
      split
      · rename_i hmem
        exact (List.idxOf_lt_length_of_mem hmem).le
      · simp
    refine ⟨⟨?_, ?_⟩, ?_⟩
    · rw [Protocol.take_append_taken]
      exact List.take_prefix _ _
    · rw [htaken]
      exact isOneByte_findByte.mpr rfl
    · rw [hrange, List.length_singleton]
      omega

theorem composed_findByte {bs sent : List UInt8} (hbs : bs.Nodup) (hsent : ∀ b ∈ sent, b ∈ bs) :
    Composed (bs.map findByte) isOneByte (sent.map fun b => (findByte b, [b])) := by
  have hbytes : ∀ l : List UInt8, bytes (l.map fun b => (findByte b, [b])) = l := by
    intro l
    induction l with
    | nil => rfl
    | cons b l ih => exact congrArg _ ih
  constructor
  · intro m hm
    obtain ⟨b, hb, rfl⟩ := List.mem_map.mp hm
    exact ⟨List.mem_map_of_mem (hsent b hb), isOneByte_findByte.mpr rfl⟩
  · refine List.Pairwise.map _ (fun b c hne m _ hboth => ?_) hbs
    have hb := isOneByte_findByte.mp hboth.1
    have hc := isOneByte_findByte.mp hboth.2
    exact hne (List.singleton_inj.mp (hb.symm.trans hc))
  · intro p hp before message hocc
    obtain ⟨b, -, rfl⟩ := List.mem_map.mp hp
    obtain ⟨⟨after, hafter⟩, hmessage⟩ := hocc
    obtain rfl := isOneByte_findByte.mp hmessage
    rw [hbytes] at hafter
    refine ⟨before.map fun b => (findByte b, [b]), after.map fun b => (findByte b, [b]), ?_,
      hbytes before⟩
    rw [← hafter]
    simp

theorem findBytes_delivered :
    ∃ d, Appends [[1, 3], [2]] (fresh ([1, 2, 3].map findByte) ()) d ∧
      d.messages = [(findByte 1, [1]), (findByte 3, [3]), (findByte 2, [2])] := by
  have hfinds : ∀ p ∈ [1, 2, 3].map findByte, FindsFirst p () (isOneByte p) := by
    intro p hp
    obtain ⟨b, -, rfl⟩ := List.mem_map.mp hp
    exact findsFirst_findByte b
  have hcomposed : Composed ([1, 2, 3].map findByte) isOneByte
      ([1, 3, 2].map fun b => (findByte b, [b])) :=
    composed_findByte (by decide) (by simp)
  have hround : InTurn ([1, 2, 3].map findByte) ([findByte 1, findByte 3] ++ []) := by
    refine .round (List.cons_ne_nil _ _) ?_ (by simp) .nil
    exact .cons_cons _ (.cons _ (.cons_cons _ .slnil))
  have hround' : InTurn ([1, 2, 3].map findByte) ([findByte 2] ++ []) := by
    refine .round (List.cons_ne_nil _ _) ?_ (by simp) .nil
    exact .cons _ (.cons_cons _ (.cons _ .slnil))
  have hinTurn : EachInTurn ([1, 2, 3].map findByte) ([1, 3, 2].map fun b => (findByte b, [b]))
      ([[1, 3]] ++ [[2]]) := by
    refine eachInTurn_concat.mpr ⟨fun before data after hchunks => ?_, hround'⟩
    cases before with
    | nil =>
      obtain ⟨rfl, -⟩ := List.cons.inj hchunks
      exact hround
    | cons _ before => simp at hchunks
  obtain ⟨⟨d, hd⟩, hall⟩ := delivered_iff_in_turn ⟨fun _ _ _ _ => rfl, fun _ _ _ _ _ _ => rfl⟩
    (by simp [findByte]) hfinds (fun _ _ hmessage => absurd hmessage.1 (by decide))
    hcomposed (show [[1, 3], [2]].flatten = _ from rfl)
  exact ⟨d, hd, (hall d hd).2.mpr hinTurn⟩

/-- The message of the second protocol comes first and is skipped. -/
theorem skipped_message_lost :
    (∀ p ∈ [1, 2].map findByte, p.isActive () = true) ∧
      PureProtocols ([1, 2].map findByte) () ∧
      (∀ p ∈ [1, 2].map findByte, FindsFirst p () (isOneByte p) ∧ ¬ isOneByte p []) ∧
      Composed ([1, 2].map findByte) isOneByte [(findByte 2, [2]), (findByte 1, [1])] ∧
      ∃ d, Appends [[2, 1]] (fresh ([1, 2].map findByte) ()) d ∧
        d.messages = [(findByte 1, [1])] ∧
        d.messages ≠ [(findByte 2, [2]), (findByte 1, [1])] := by
  refine ⟨by simp [findByte], ⟨fun _ _ _ _ => rfl, fun _ _ _ _ _ _ => rfl⟩, ?_, ?_, ?_⟩
  · intro p hp
    obtain ⟨b, -, rfl⟩ := List.mem_map.mp hp
    exact ⟨findsFirst_findByte b, fun hmessage => absurd hmessage.1 (by decide)⟩
  · have hsent : ∀ b ∈ [2, 1], b ∈ [1, (2 : UInt8)] := by simp
    exact composed_findByte (by decide) hsent
  · have hcall : EndsWith (fun fuel => appendData fuel [2, 1] (fresh ([1, 2].map findByte) ()))
        (pass (insert (fresh ([1, 2].map findByte) ()) [2, 1])) := ⟨2, rfl⟩
    have hmessages : (pass (insert (fresh ([1, 2].map findByte) ()) [2, 1])).messages =
        [(findByte 1, [1])] := rfl
    refine ⟨_, .snoc (.nil _) hcall, hmessages, ?_⟩
    rw [hmessages]
    simp

end Dispatcher

end DeviceTester.Protocols

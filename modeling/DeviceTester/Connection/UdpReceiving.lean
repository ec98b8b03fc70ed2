import DeviceTester.Connection.UdpStale

/-!
# When `isConnected()` means that a `Udp` receives

`isConnected()` reads the socket, which `write()` opens as well as `connect()`, and which
`connect()` leaves open when `bind` throws. A completion of a receive on a socket closed
since is outstanding next to the receive on the open one: receives are counted both with
these and without.
-/
namespace DeviceTester.Connection.Udp

open DeviceTester.Lib

variable {u v : Udp} {e : Event} {calls : SocketCalls} {i : Nat}

/-- Whether a receive counts, from the generation of the socket and its own stamp. -/
abbrev Counted := Nat → Nat → Bool

def everyReceive : Counted := fun _ _ => true

def onOpenSocket : Counted := fun generation stamp => stamp == generation

variable {w : Counted}

/-- The receives outstanding that count on a socket of some generation. -/
def receivesOn (w : Counted) (generation : Nat) (u : Udp) : Nat :=
  outstanding (fun op stamp => op.isReceive && w generation stamp) u.pending

/-- `should_receive_` is up, the socket is bound to the listen endpoint, and exactly one
receive is outstanding, in flight or with its completion waiting. -/
structure Receiving (w : Counted) (u : Udp) : Prop where
  should : u.shouldReceive_ = true
  bound : u.socket_.bound = some u.listenEndpoint_
  one : u.receivesOn w u.socket_.generation = 1

/-- The object is connected only if it receives. -/
def Hears (w : Counted) (u : Udp) : Prop := u.isConnected = true → Receiving w u

/-- What a step must do: `isConnected()` means receiving after it, and `connect()` on an
object that is not receiving leaves one that is, when the port can be bound. -/
structure ConnectsToReceive (w : Counted) (u : Udp) (e : Event) (v : Udp) : Prop where
  hears : Hears w v
  listens : ∀ calls, e = .connect calls → u.options_.listenProtocol ≠ .none → ¬ Receiving w u →
    calls.openError = none → calls.bindError = none → Receiving w v

/-- `connect()` finds the socket closed. When it or `applyOptions()` can open the socket, it
can also bind it, and no other receive counts on the new socket. `write()` finds the socket
open or cannot open it. A receive that succeeds while more are to be started counts. -/
def Listens (w : Counted) (u : Udp) : Event → Udp → Prop
  | .connect calls, _ => u.options_.listenProtocol ≠ .none → u.socket_.isOpen = false ∧
      (calls.openError = none →
        calls.bindError = none ∧ u.receivesOn w (u.socket_.generation + 1) = 0)
  | .applyOptions calls _, _ => u.socket_.isOpen = true → u.options_.listenProtocol ≠ .none →
      calls.openError = none →
        calls.bindError = none ∧ u.receivesOn w (u.socket_.generation + 1) = 0
  | .write answer _, _ => u.socket_.isOpen = true ∨ answer ≠ none
  | .io (.run i), _ => u.socket_.isOpen = true → ∀ stamp n,
      u.pending[i]? = some ⟨.receive, stamp, some (.ok n)⟩ →
        w u.socket_.generation stamp = true
  | _, _ => True

/-- What `connect()` can do. -/
inductive Connects (calls : SocketCalls) (u : Udp) : Udp → Prop where
  | idle (hp : u.options_.listenProtocol = .none) : Connects calls u u
  | failed (endpoint : Endpoint) (hp : u.options_.listenProtocol ≠ .none)
      (ho : u.socket_.isOpen = true ∨ calls.openError ≠ none) :
      Connects calls u { u with shouldReceive_ := false, listenEndpoint_ := endpoint }
  | unbound (endpoint : Endpoint) (hp : u.options_.listenProtocol ≠ .none)
      (hc : u.socket_.isOpen = false) (ho : calls.openError = none) (hb : calls.bindError ≠ none) :
      Connects calls u { u with
        shouldReceive_ := false
        listenEndpoint_ := endpoint
        socket_ := ⟨true, u.socket_.generation + 1, none⟩ }
  | accepted (endpoint : Endpoint) (hp : u.options_.listenProtocol ≠ .none)
      (hc : u.socket_.isOpen = false) (ho : calls.openError = none) (hb : calls.bindError = none) :
      Connects calls u { u with
        shouldReceive_ := true
        listenEndpoint_ := endpoint
        socket_ := ⟨true, u.socket_.generation + 1, some endpoint⟩ }.startRead

theorem connect_cases (calls : SocketCalls) (u : Udp) : Connects calls u (u.connect calls) := by
  by_cases hp : u.options_.listenProtocol = .none
  · rw [connect, if_neg (not_not_intro hp)]
    exact .idle hp
  cases hc : u.socket_.isOpen with
  | true =>
    simp only [connect, ne_eq, hp, not_false_eq_true, if_true, socketOpen, hc]
    exact .failed _ hp (.inl hc)
  | false =>
    cases ho : calls.openError with
    | some what =>
      simp only [connect, ne_eq, hp, not_false_eq_true, if_true, socketOpen, hc, ho]
      exact .failed _ hp (.inr (by simp [ho]))
    | none =>
      cases hb : calls.bindError with
      | some what =>
        simp only [connect, ne_eq, hp, not_false_eq_true, if_true, socketOpen, hc, ho, hb]
        exact .unbound _ hp hc ho (by simp [hb])
      | none =>
        obtain ⟨endpoint, h⟩ := connect_accepted hp hc ho hb
        rw [h]
        exact .accepted endpoint hp hc ho hb

theorem hears_of_closed (h : u.socket_.isOpen = false) : Hears w u := by
  intro ho
  rw [isConnected, h] at ho
  cases ho

/-- Nothing but the socket, the flag, the listen endpoint and the receives has a say. -/
theorem Hears.congr (h : Hears w u) (hs : v.socket_ = u.socket_)
    (hr : v.shouldReceive_ = u.shouldReceive_) (hl : v.listenEndpoint_ = u.listenEndpoint_)
    (hn : v.receivesOn w u.socket_.generation = u.receivesOn w u.socket_.generation) :
    Hears w v := by
  intro ho
  rw [isConnected, hs] at ho
  obtain ⟨hshould, hbound, hone⟩ := h ho
  exact ⟨hr.trans hshould, by rw [hs, hl, hbound], by rw [hs, hn, hone]⟩

theorem receivesOn_start (hw : ∀ g, w g g = true) (g : Nat) (hg : g = u.socket_.generation) :
    u.startRead.receivesOn w g = u.receivesOn w g + 1 := by
  subst hg
  simp [receivesOn, startRead, start, Operation.begin, UdpOp.isReceive, hw]

theorem hears_connect_iff (hw : ∀ g, w g g = true) (hu : Hears w u) :
    Hears w (u.connect calls) ↔ (u.options_.listenProtocol ≠ .none → u.socket_.isOpen = false ∧
      (calls.openError = none →
        calls.bindError = none ∧ u.receivesOn w (u.socket_.generation + 1) = 0)) := by
  generalize hv : u.connect calls = v
  have hconnects : Connects calls u v := hv ▸ connect_cases calls u
  cases hconnects with
  | idle hp => exact iff_of_true hu fun hne => absurd hp hne
  | failed endpoint hp ho =>
    cases hc : u.socket_.isOpen with
    | true =>
      refine iff_of_false (fun h => ?_) fun h => by cases (h hp).1
      cases (h hc).should
    | false =>
      refine iff_of_true (hears_of_closed hc) fun _ => ⟨rfl, fun hopen => ?_⟩
      rcases ho with ho | ho
      · rw [hc] at ho
        cases ho
      · exact absurd hopen ho
  | unbound endpoint hp hc ho hb =>
    refine iff_of_false (fun h => ?_) fun h => hb ((h hp).2 ho).1
    cases (h rfl).should
  | accepted endpoint hp hc ho hb =>
    have hcount := receivesOn_start hw (u := { u with
      shouldReceive_ := true
      listenEndpoint_ := endpoint
      socket_ := ⟨true, u.socket_.generation + 1, some endpoint⟩ }) (u.socket_.generation + 1) rfl
    constructor
    · intro h _
      refine ⟨hc, fun _ => ⟨hb, ?_⟩⟩
      have hone := (h rfl).one
      exact Nat.succ.inj (hcount.symm.trans hone)
    · intro h _
      have hnone := ((h hp).2 ho).2
      exact ⟨rfl, rfl, hcount.trans (congrArg Nat.succ hnone)⟩

/-- Apart from the write endpoint, `applyOptions()` reconnects an object that is connected. -/
theorem applyOptions_state (u : Udp) (calls : SocketCalls) (fromString : FromString) :
    ∃ endpoint, (u.applyOptions calls fromString).state =
      { (if u.isConnected then u.disconnect.connect calls else u) with
        writeEndpoint_ := endpoint } := by
  unfold applyOptions
  dsimp only
  generalize (if u.isConnected then u.disconnect.connect calls else u) = t
  split
  · split
    · exact ⟨_, rfl⟩
    · exact ⟨t.writeEndpoint_, rfl⟩
  · exact ⟨t.writeEndpoint_, rfl⟩

theorem hears_applyOptions_iff (hw : ∀ g, w g g = true) (fromString : FromString) :
    Hears w (u.applyOptions calls fromString).state ↔
      (u.socket_.isOpen = true → u.options_.listenProtocol ≠ .none → calls.openError = none →
        calls.bindError = none ∧ u.receivesOn w (u.socket_.generation + 1) = 0) := by
  obtain ⟨endpoint, hstate⟩ := applyOptions_state u calls fromString
  have hwrite : ∀ t : Udp, Hears w { t with writeEndpoint_ := endpoint } ↔ Hears w t :=
    fun t => ⟨fun h => h.congr rfl rfl rfl rfl, fun h => h.congr rfl rfl rfl rfl⟩
  rw [hstate, hwrite, isConnected]
  cases hc : u.socket_.isOpen with
  | false =>
    refine iff_of_true (hears_of_closed ?_) fun h => by cases h
    rwa [if_neg Bool.false_ne_true]
  | true =>
    have hclosed : Hears w u.disconnect := hears_of_closed rfl
    have hcount : u.disconnect.receivesOn w (u.socket_.generation + 1) =
        u.receivesOn w (u.socket_.generation + 1) := outstanding_cancel
    rw [if_pos rfl, hears_connect_iff hw hclosed]
    constructor
    · intro h _ hp ho
      rw [← hcount]
      exact (h hp).2 ho
    · intro h hp
      refine ⟨rfl, fun ho => ?_⟩
      rw [show u.disconnect.socket_.generation = u.socket_.generation from rfl, hcount]
      exact h rfl hp ho

theorem hears_write_iff (hu : Hears w u) (answer : Option Bytes) (data : Bytes) :
    Hears w (u.write answer data).state ↔ (u.socket_.isOpen = true ∨ answer ≠ none) := by
  have hsend : ∀ t : Udp, Hears w t → Hears w (t.start (.send data t.writeEndpoint_)) := by
    intro t ht
    refine ht.congr rfl rfl rfl ?_
    simp [receivesOn, start, UdpOp.isReceive]
  cases hc : u.socket_.isOpen with
  | true =>
    refine iff_of_true ?_ (.inl rfl)
    simp only [write, hc]
    exact hsend u hu
  | false =>
    cases answer with
    | some what =>
      refine iff_of_true ?_ (.inr (by simp))
      simp only [write, hc, socketOpen]
      exact hu
    | none =>
      refine iff_of_false (fun h => ?_) (by simp)
      simp only [write, hc, socketOpen] at h
      cases (h rfl).bound

/-- A datagram handled on the open socket: the receive that is started counts in place of the
one that was handled if that one counted, and else besides the one outstanding. -/
theorem hears_received_iff {stamp n : Nat} (hw : ∀ g, w g g = true) (hu : Hears w u)
    (hc : u.socket_.isOpen = true) (hop : u.pending[i]? = some ⟨.receive, stamp, some (.ok n)⟩) :
    Hears w ({ u with pending := u.pending.eraseIdx i }.handle (.ok n) .receive) ↔
      w u.socket_.generation stamp = true := by
  have herase := outstanding_eraseIdx
    (p := fun op stamp => UdpOp.isReceive op && w u.socket_.generation stamp) hop
  obtain ⟨hshould, hbound, hone⟩ := hu hc
  have hrec : ({ u with pending := u.pending.eraseIdx i } : Udp).shouldReceive_ = true := hshould
  rw [handle, handleRead_ok_of_receiving hrec]
  have hcount := receivesOn_start hw (u := { u with
    pending := u.pending.eraseIdx i
    delivered := u.delivered ++ [u.bufferRx_.take n]
    bufferRx_ := .replicate kBufferSize 0 }) u.socket_.generation rfl
  constructor
  · intro hv
    have hone' := (hv hc).one
    have hzero := Nat.succ.inj (hcount.symm.trans hone')
    by_contra hnot
    simp only [receivesOn, UdpOp.isReceive, Bool.true_and, if_neg hnot] at herase hone hzero
    omega
  · intro hcounted _
    refine ⟨hshould, hbound, hcount.trans ?_⟩
    simp only [receivesOn, UdpOp.isReceive, Bool.true_and, hcounted, if_true] at herase hone ⊢
    omega

theorem hears_run_iff (hw : ∀ g, w g g = true) (hu : Hears w u)
    (h : u.io (.run i) = some v) : Hears w v ↔ Listens w u (.io (.run i)) v := by
  obtain ⟨kind, stamp, r, hop, rfl⟩ := io_run h
  cases kind with
  | send buffer endpoint =>
    have herase := outstanding_eraseIdx
      (p := fun op stamp => UdpOp.isReceive op && w u.socket_.generation stamp) hop
    refine iff_of_true (hu.congr rfl rfl rfl herase.symm) fun _ stamp' n hop' => ?_
    cases hop.symm.trans hop'
  | receive =>
    cases r with
    | error code =>
      refine iff_of_true (hears_of_closed rfl) fun _ stamp' n hop' => ?_
      cases hop.symm.trans hop'
    | ok n =>
      cases hc : u.socket_.isOpen with
      | false =>
        refine iff_of_true (hears_of_closed ?_) fun ho => ?_
        · simp only [handle, handleRead]
          split <;> exact hc
        · rw [hc] at ho
          cases ho
      | true =>
        rw [hears_received_iff hw hu hc hop]
        constructor
        · intro hcounted ho stamp' n' hop'
          obtain ⟨-, rfl, -⟩ := Operation.mk.inj (Option.some.inj (hop.symm.trans hop'))
          exact hcounted
        · intro hlistens
          exact hlistens hc stamp n hop

theorem hears_step_iff (hw : ∀ g, w g g = true) (hu : Hears w u) (h : step u e = some v) :
    Hears w v ↔ Listens w u e v := by
  cases e with
  | connect calls =>
    obtain rfl := Option.some.inj h
    exact hears_connect_iff hw hu
  | disconnect =>
    obtain rfl := Option.some.inj h
    exact iff_of_true (hears_of_closed rfl) trivial
  | applyOptions calls fromString =>
    obtain rfl := Option.some.inj h
    exact hears_applyOptions_iff hw fromString
  | setOptions options =>
    obtain rfl := Option.some.inj h
    exact iff_of_true (hu.congr rfl rfl rfl rfl) trivial
  | write answer data =>
    obtain rfl := Option.some.inj h
    exact hears_write_iff hu answer data
  | io x =>
    cases x with
    | receive i data =>
      obtain ⟨stamp, hop, rfl⟩ := io_receive h
      exact iff_of_true (hu.congr rfl rfl rfl (outstanding_set hop rfl rfl)) trivial
    | finish i r =>
      obtain ⟨kind, stamp, hop, rfl⟩ := io_finish h
      exact iff_of_true (hu.congr rfl rfl rfl (outstanding_set hop rfl rfl)) trivial
    | run i => exact hears_run_iff hw hu h

/-- An object that is connected only if it receives is closed when it does not receive, and
a closed socket that can be opened and bound ends up open. -/
theorem connectsToReceive_iff (hu : Hears w u) (h : step u e = some v) :
    ConnectsToReceive w u e v ↔ Hears w v := by
  refine ⟨fun hc => hc.hears, fun hv => ⟨hv, ?_⟩⟩
  intro calls he hp hnot ho hb
  subst he
  obtain rfl := Option.some.inj h
  cases hc : u.socket_.isOpen with
  | true => exact absurd (hu hc) hnot
  | false =>
    apply hv
    obtain ⟨endpoint, heq⟩ := connect_accepted hp hc ho hb
    rw [heq]
    rfl

theorem along_connectsToReceive_iff (hw : ∀ g, w g g = true) (hu : Hears w u) (es : List Event) :
    Along step (ConnectsToReceive w) u es ↔ Along step (Listens w) u es := by
  refine along_iff_of_first (I := Hears w) ?_ ?_ hu es
  · intro s e t hs h hp
    exact hp.hears
  · intro s e t hs h
    exact (connectsToReceive_iff hs h).trans (hears_step_iff hw hs h)

/-- `isConnected()` means receiving all along a run, and `connect()` leads there, exactly when
every step of the run keeps the object listening. This is so whether the receives on
closed sockets whose completions wait are counted or not. -/
theorem connects_to_receive_iff (identifier rx : Bytes) (receive : Bool) (es : List Event) :
    (Along step (ConnectsToReceive everyReceive) (initial identifier rx receive) es ↔
      Along step (Listens everyReceive) (initial identifier rx receive) es) ∧
    (Along step (ConnectsToReceive onOpenSocket) (initial identifier rx receive) es ↔
      Along step (Listens onOpenSocket) (initial identifier rx receive) es) := by
  have hinitial : ∀ w, Hears w (initial identifier rx receive) := fun _ => hears_of_closed rfl
  have hown : ∀ g, onOpenSocket g g = true := fun g => beq_self_eq_true g
  constructor
  · exact along_connectsToReceive_iff (fun _ => rfl) (hinitial _) es
  · exact along_connectsToReceive_iff hown (hinitial _) es

/-- `write()` opens the socket, and `connect()` after it does not receive. -/
def writeFirstRun : List Event :=
  [.setOptions kListenOptions, .write none [1], .connect kAccepted]

/-- The port of the first `connect()` is in use. -/
def portInUseRun : List Event :=
  [.setOptions kListenOptions, .connect ⟨none, some (text "bind: Address already in use")⟩]

theorem writeFirstRun_deaf :
    (¬ Along step (ConnectsToReceive everyReceive) (initial [] [] false) writeFirstRun ∧
      ¬ Along step (ConnectsToReceive onOpenSocket) (initial [] [] false) writeFirstRun) ∧
    ∃ u, exec step (initial [] [] false) writeFirstRun = some u ∧ u.isConnected = true ∧
      u.shouldReceive_ = false := by
  refine ⟨⟨fun h => ?_, fun h => ?_⟩, _, rfl, rfl, rfl⟩
  · cases (((h.cons rfl).2.cons rfl).1.hears rfl).bound
  · cases (((h.cons rfl).2.cons rfl).1.hears rfl).bound

example : ¬ Along step (ConnectsToReceive onOpenSocket) (initial [] [] false) portInUseRun :=
  fun h => by cases (((h.cons rfl).2.cons rfl).1.hears rfl).should

end DeviceTester.Connection.Udp

import DeviceTester.Connection.TcpConnect

/-!
# A connection that is connected once

What an object on which `connect()` has been called a single time, and `disconnect()` at most
later, has outstanding: a connect attempt or a read, and never both. It falls silent when that
operation can no longer succeed.
-/
namespace DeviceTester.Connection.Tcp

open DeviceTester.Lib

variable {t u : Tcp} {i : Nat}

/-- At most one operation is outstanding. -/
inductive Probing (t : Tcp) : Prop where
  | idle (hp : t.pending = [])
  | connecting (endpointIter : List Endpoint) (stamp : Nat) (result : Option Result)
      (hp : t.pending = [⟨.connect endpointIter, stamp, result⟩])
      (hcon : t.isConnected_ = false) (hopen : t.socket_.isOpen = true)
  | reading (delimiter : UInt8) (stamp : Nat) (result : Option Result)
      (hp : t.pending = [⟨.read delimiter, stamp, result⟩])
      (hbuf : ∀ n, result = some (.ok n) → t.bufferRx_ ≠ [])

/-- An operation that may still lead to a read that succeeds. -/
def mayDeliver (t : Tcp) (op : Operation TcpOp) : Bool :=
  !op.failed && (op.kind.isRead || (op.kind.isConnect && t.shouldRun_))

def Spent (t : Tcp) : Prop := ∀ op ∈ t.pending, t.mayDeliver op = false

instance (t : Tcp) : Decidable (Spent t) :=
  inferInstanceAs (Decidable (∀ op ∈ t.pending, t.mayDeliver op = false))

/-- Whatever becomes of the operations outstanding, nothing more is handed over. -/
def Silent (t : Tcp) : Prop :=
  ∀ es u, exec io t es = some u → u.delivered.flatten = t.delivered.flatten

theorem spent_of_nil (h : t.pending = []) : Spent t := by
  intro op hop
  rw [h] at hop
  cases hop

theorem spent_singleton {op : Operation TcpOp} (h : t.pending = [op]) :
    Spent t ↔ t.mayDeliver op = false := by
  rw [Spent, h]
  exact List.forall_mem_singleton

theorem io_of_idle (h : t.pending = []) (e : IoEvent) : t.io e = none := by
  cases e <;> simp [io, h]

/-! ## The calls -/

theorem probing_beginConnect (hp : t.pending = []) (hcon : t.isConnected_ = false)
    (endpointIter : List Endpoint) : Probing (t.beginConnect endpointIter) := by
  unfold beginConnect
  split
  · refine .connecting endpointIter t.calls none ?_ hcon rfl
    simp [asyncConnect, start, hp, Operation.begin]
  · exact .idle (pending_disconnect_of_nil hp)

/-- The attempt begun after a failed one is ignored when it completes. -/
theorem spent_disconnect_beginConnect (hp : t.pending = []) (endpointIter : List Endpoint) :
    Spent (t.disconnect.beginConnect endpointIter) := by
  have hd : t.disconnect.pending = [] := pending_disconnect_of_nil hp
  unfold beginConnect
  split
  · intro op hop
    have hrun : (t.disconnect.asyncConnect endpointIter).shouldRun_ = false := shouldRun_disconnect
    obtain rfl : op = _ := by simpa [asyncConnect, start, hd] using hop
    simp [mayDeliver, hrun, TcpOp.isRead]
  · exact spent_of_nil (pending_disconnect_of_nil hd)

theorem flag_disconnect (h : t.isConnected_ = false) : t.disconnect.isConnected_ = false := by
  rw [disconnect_of_not_connected (isConnected_of_flag h)]
  exact h

theorem probing_connect (hp : t.pending = []) (hcon : t.isConnected_ = false) (resolve : Resolver) :
    Probing (t.connect resolve).state := by
  have hd : t.disconnect.pending = [] := pending_disconnect_of_nil hp
  rcases connect_cases t resolve with ⟨what, h⟩ | ⟨endpoints, -, h⟩
  · rw [h]
    exact .idle hd
  · rw [h, Outcome.state_returned]
    apply probing_beginConnect
    · exact hd
    · exact flag_disconnect hcon

theorem Probing.disconnect (h : Probing t) : Probing t.disconnect := by
  cases h with
  | idle hp => exact .idle (pending_disconnect_of_nil hp)
  | connecting endpointIter stamp result hp hcon hopen =>
    rw [disconnect_of_not_connected (isConnected_of_flag hcon)]
    exact .connecting endpointIter stamp result hp hcon hopen
  | reading delimiter stamp result hp hbuf =>
    cases hc : t.isConnected with
    | false =>
      rw [disconnect_of_not_connected hc]
      exact .reading delimiter stamp result hp hbuf
    | true =>
      rw [disconnect_of_connected hc]
      refine .reading delimiter stamp (some (result.getD (.error .operationAborted))) ?_ ?_
      · rw [hp]
        rfl
      · intro n hn
        cases result with
        | none => cases hn
        | some r => exact hbuf n hn

/-! ## The handlers, once their operation has been taken off -/

theorem probing_handleConnect (hp : t.pending = []) (hcon : t.isConnected_ = false)
    (hopen : t.socket_.isOpen = true) (r : Result) (endpointIter : List Endpoint) :
    Probing (t.handleConnect r endpointIter) ∧
      (r.isOk = false ∨ t.shouldRun_ = false → Spent (t.handleConnect r endpointIter)) := by
  cases hrun : t.shouldRun_ with
  | false =>
    have heq : t.handleConnect r endpointIter = t := by simp [handleConnect, hrun]
    rw [heq]
    exact ⟨.idle hp, fun _ => spent_of_nil hp⟩
  | true =>
    cases r with
    | error code =>
      have heq : t.handleConnect (.error code) endpointIter =
          t.disconnect.beginConnect endpointIter.tail := by
        simp [handleConnect, hrun, hopen]
      rw [heq]
      constructor
      · exact probing_beginConnect (pending_disconnect_of_nil hp) (flag_disconnect hcon) _
      · intro _
        exact spent_disconnect_beginConnect hp _
    | ok n =>
      have heq : t.handleConnect (.ok n) endpointIter = { t with isConnected_ := true }.startRead := by
        simp [handleConnect, hrun, hopen]
      rw [heq]
      constructor
      · refine .reading t.options_.packetEnd t.calls none ?_ fun n hn => by cases hn
        simp [startRead, start, hp, hopen, Operation.begin]
      · intro h
        rcases h with h | h <;> cases h

theorem probing_handleRead (hp : t.pending = []) (r : Result) :
    Probing (t.handleRead r) ∧ (r.isOk = false → Spent (t.handleRead r)) := by
  cases r with
  | error code =>
    have hnil : t.disconnect.pending = [] := pending_disconnect_of_nil hp
    exact ⟨.idle hnil, fun _ => spent_of_nil hnil⟩
  | ok n =>
    refine ⟨?_, fun h => by cases h⟩
    cases hrun : t.shouldRun_ with
    | false =>
      rw [handleRead_ok_of_stopped hrun]
      exact .idle hp
    | true =>
      rw [handleRead_ok_of_running hrun]
      refine .reading t.options_.packetEnd t.calls
        (if t.socket_.isOpen then none else some (.error .badDescriptor)) ?_ ?_
      · simp [startRead, start, hp, Operation.begin]
      · intro n hn
        split at hn <;> cases hn

/-! ## The steps of the operating system and of the io thread -/

theorem Probing.receive {data : Bytes} (h : Probing t) (hs : t.io (.receive i data) = some u) :
    Probing u ∧ ¬ Spent t := by
  obtain ⟨delimiter, stamp, hop, hdata, -, rfl⟩ := io_receive hs
  cases h with
  | idle hp =>
    rw [hp] at hop
    cases hop
  | connecting endpointIter stamp' result hp hcon hopen =>
    rw [hp] at hop
    obtain ⟨-, he⟩ := singleton_getElem? hop
    cases he
  | reading delimiter' stamp' result hp hbuf =>
    have hop' := hop
    rw [hp] at hop'
    obtain ⟨-, he⟩ := singleton_getElem? hop'
    cases he
    constructor
    · exact .reading delimiter stamp none hp fun n hn => by cases hn
    · rw [spent_singleton hp]
      simp [mayDeliver, Operation.failed, TcpOp.isRead]

theorem Probing.finish {r : Result} (h : Probing t) (hs : t.io (.finish i r) = some u) :
    Probing u ∧ (Spent t → Spent u) := by
  obtain ⟨kind, stamp, hop, hmay, rfl⟩ := io_finish hs
  cases h with
  | idle hp =>
    rw [hp] at hop
    cases hop
  | connecting endpointIter stamp' result hp hcon hopen =>
    rw [hp] at hop
    obtain ⟨rfl, he⟩ := singleton_getElem? hop
    cases he
    rw [spent_singleton hp, hp]
    cases r with
    | error code =>
      refine ⟨.connecting endpointIter stamp (some (.error code)) rfl hcon hopen, fun _ => ?_⟩
      exact (spent_singleton rfl).mpr rfl
    | ok n =>
      refine ⟨.connecting endpointIter stamp (some (.ok n)) rfl hcon hopen, fun hq => ?_⟩
      refine (spent_singleton rfl).mpr ?_
      have hrun : t.shouldRun_ = false := by
        simpa [mayDeliver, Operation.failed, TcpOp.isRead, TcpOp.isConnect] using hq
      show t.mayDeliver ⟨.connect endpointIter, stamp, some (.ok n)⟩ = false
      simp [mayDeliver, hrun, TcpOp.isRead]
  | reading delimiter stamp' result hp hbuf =>
    rw [hp] at hop
    obtain ⟨rfl, he⟩ := singleton_getElem? hop
    cases he
    rw [spent_singleton hp, hp]
    refine ⟨.reading delimiter stamp (some r) ?_ ?_, fun hq => ?_⟩
    · cases r <;> rfl
    · intro n hn
      obtain rfl := Option.some.inj hn
      show t.bufferRx_ ≠ []
      intro hnil
      rw [mayFinish, hnil] at hmay
      cases hmay
    · simp [mayDeliver, Operation.failed, TcpOp.isRead] at hq

theorem Probing.run (h : Probing t) (hs : t.io (.run i) = some u) :
    Probing u ∧ (Spent t → Spent u ∧ t.handed (.io (.run i)) = []) := by
  obtain ⟨kind, stamp, r, hop, rfl⟩ := io_run hs
  rw [handed, hop]
  cases h with
  | idle hp =>
    rw [hp] at hop
    cases hop
  | connecting endpointIter stamp' result hp hcon hopen =>
    rw [hp] at hop
    obtain ⟨rfl, he⟩ := singleton_getElem? hop
    cases he
    obtain ⟨hprobe, hspent⟩ := probing_handleConnect
      (t := { t with pending := t.pending.eraseIdx 0 }) (by rw [hp]; rfl) hcon hopen r endpointIter
    refine ⟨hprobe, fun hq => ⟨hspent ?_, rfl⟩⟩
    rw [spent_singleton hp] at hq
    simpa [mayDeliver, Operation.failed, TcpOp.isRead, TcpOp.isConnect, or_iff_not_imp_left] using hq
  | reading delimiter stamp' result hp hbuf =>
    rw [hp] at hop
    obtain ⟨rfl, he⟩ := singleton_getElem? hop
    cases he
    obtain ⟨hprobe, hspent⟩ := probing_handleRead
      (t := { t with pending := t.pending.eraseIdx 0 }) (by rw [hp]; rfl) r
    refine ⟨hprobe, fun hq => ?_⟩
    rw [spent_singleton hp] at hq
    have hfail : r.isOk = false := by
      simpa [mayDeliver, Operation.failed, TcpOp.isRead] using hq
    refine ⟨hspent hfail, ?_⟩
    cases r with
    | error code => rfl
    | ok n => cases hfail

theorem Probing.io {e : IoEvent} (h : Probing t) (hs : t.io e = some u) : Probing u := by
  cases e with
  | receive i data => exact (h.receive hs).1
  | finish i r => exact (h.finish hs).1
  | run i => exact (h.run hs).1

/-- A spent object stays spent and hands nothing over. -/
theorem Probing.spent_io {e : IoEvent} (h : Probing t) (hq : Spent t) (hs : t.io e = some u) :
    Spent u ∧ t.handed (.io e) = [] := by
  cases e with
  | receive i data => exact absurd hq (h.receive hs).2
  | finish i r => exact ⟨(h.finish hs).2 hq, rfl⟩
  | run i => exact (h.run hs).2 hq

/-! ## A spent object is silent -/

theorem Probing.silent (h : Probing t) (hq : Spent t) : Silent t := by
  intro es u he
  have hkeeps : Keeps Tcp.io anyStep fun v =>
      Probing v ∧ Spent v ∧ v.delivered.flatten = t.delivered.flatten := by
    intro v e w hv _ hs
    obtain ⟨hprobe, hspent, hdel⟩ := hv
    obtain ⟨hspent', hhanded⟩ := hprobe.spent_io hspent hs
    refine ⟨hprobe.io hs, hspent', ?_⟩
    rw [delivered_step (e := .io e) hs, hhanded, List.append_nil]
    exact hdel
  exact (hkeeps.exec ⟨h, hq, rfl⟩ (along_anyStep t es) he).2.2

theorem Silent.step {e : IoEvent} (h : Silent t) (hs : t.io e = some u) :
    u.delivered.flatten = t.delivered.flatten ∧ Silent u := by
  have hu : u.delivered.flatten = t.delivered.flatten := h [e] u (exec_cons hs [])
  refine ⟨hu, fun es v he => ?_⟩
  rw [hu]
  exact h (e :: es) v ((exec_cons hs es).trans he)

/-- The handler of a read that has succeeded hands over what is in the buffer. -/
theorem not_silent_of_read {delimiter : UInt8} {stamp n : Nat}
    (hp : t.pending = [⟨.read delimiter, stamp, some (.ok n)⟩]) (hbuf : t.bufferRx_ ≠ []) :
    ¬ Silent t := by
  intro h
  have hs : t.io (.run 0) = some ({ t with pending := [] }.handle (.ok n) (.read delimiter)) := by
    simp [Tcp.io, hp]
  have hdel := (h.step hs).1
  rw [delivered_handle] at hdel
  simp at hdel
  exact hbuf hdel

theorem not_silent_of_complete {delimiter : UInt8} {stamp : Nat}
    (hp : t.pending = [⟨.read delimiter, stamp, none⟩]) (hd : delimiter ∈ t.bufferRx_) :
    ¬ Silent t := by
  intro h
  have hs : t.io (.finish 0 (.ok 0)) =
      some { t with pending := [⟨.read delimiter, stamp, some (.ok 0)⟩] } := by
    simp [Tcp.io, hp, mayFinish, hd, finished]
  exact absurd (h.step hs).2 (not_silent_of_read rfl (List.ne_nil_of_mem hd))

/-- The packet end that a read waits for may still arrive. -/
theorem not_silent_of_reading {delimiter : UInt8} {stamp : Nat}
    (hp : t.pending = [⟨.read delimiter, stamp, none⟩]) : ¬ Silent t := by
  intro h
  by_cases hd : delimiter ∈ t.bufferRx_
  · exact not_silent_of_complete hp hd h
  · have hs : t.io (.receive 0 [delimiter]) =
        some { t with bufferRx_ := t.bufferRx_ ++ [delimiter] } := by
      simp [Tcp.io, hp, hd]
    refine absurd (h.step hs).2 (not_silent_of_complete hp ?_)
    exact List.mem_append_right _ (List.mem_singleton_self delimiter)

theorem not_silent_of_connected {endpointIter : List Endpoint} {stamp n : Nat}
    (hp : t.pending = [⟨.connect endpointIter, stamp, some (.ok n)⟩])
    (hrun : t.shouldRun_ = true) (hopen : t.socket_.isOpen = true) : ¬ Silent t := by
  intro h
  have hs : t.io (.run 0) =
      some ({ t with pending := [], isConnected_ := true } : Tcp).startRead := by
    simp [Tcp.io, hp, handle, handleConnect, hrun, hopen]
  have hread : ({ t with pending := [], isConnected_ := true } : Tcp).startRead.pending =
      [⟨.read t.options_.packetEnd, t.calls, none⟩] := by
    simp [startRead, start, Operation.begin, hopen]
  exact absurd (h.step hs).2 (not_silent_of_reading hread)

theorem not_silent_of_connecting {endpointIter : List Endpoint} {stamp : Nat}
    (hp : t.pending = [⟨.connect endpointIter, stamp, none⟩])
    (hrun : t.shouldRun_ = true) (hopen : t.socket_.isOpen = true) : ¬ Silent t := by
  intro h
  have hs : t.io (.finish 0 (.ok 0)) =
      some ({ t with pending := [⟨.connect endpointIter, stamp, some (.ok 0)⟩] }.finished
        (.connect endpointIter) (.ok 0)) := by
    simp [Tcp.io, hp, mayFinish]
  exact absurd (h.step hs).2 (not_silent_of_connected rfl hrun hopen)

/-- An operation that may still deliver does, when all goes well. -/
theorem silent_iff_spent (h : Probing t) : Silent t ↔ Spent t := by
  refine ⟨fun hsilent => ?_, h.silent⟩
  cases h with
  | idle hp => exact spent_of_nil hp
  | connecting endpointIter stamp result hp hcon hopen =>
    rw [spent_singleton hp]
    cases hrun : t.shouldRun_ with
    | false => simp [mayDeliver, hrun, TcpOp.isRead]
    | true =>
      cases result with
      | none => exact absurd hsilent (not_silent_of_connecting hp hrun hopen)
      | some r =>
        cases r with
        | ok n => exact absurd hsilent (not_silent_of_connected hp hrun hopen)
        | error code => rfl
  | reading delimiter stamp result hp hbuf =>
    rw [spent_singleton hp]
    cases result with
    | none => exact absurd hsilent (not_silent_of_reading hp)
    | some r =>
      cases r with
      | ok n => exact absurd hsilent (not_silent_of_read hp (hbuf n rfl))
      | error code => rfl

/-! ## The bytes received -/

/-- What has been handed over, and then what is in the buffer. -/
def held (t : Tcp) : Bytes := t.delivered.flatten ++ t.bufferRx_

theorem held_disconnect : t.disconnect.held = t.held := by
  rw [held, delivered_disconnect, bufferRx_disconnect]
  rfl

theorem held_beginConnect (t : Tcp) (endpointIter : List Endpoint) :
    (t.beginConnect endpointIter).held = t.held := by
  obtain ⟨hbuf, hdel, -⟩ := beginConnect_frame t endpointIter
  rw [held, hbuf, hdel]
  rfl

theorem held_connect (t : Tcp) (resolve : Resolver) : (t.connect resolve).state.held = t.held := by
  obtain ⟨hbuf, hdel, -⟩ := connect_frame t resolve
  rw [held, hbuf, hdel]
  rfl

theorem held_handle (t : Tcp) (r : Result) (kind : TcpOp) : (t.handle r kind).held = t.held := by
  cases kind with
  | connect endpointIter =>
    simp only [handle, handleConnect]
    split
    · rfl
    · split
      · exact held_beginConnect t _
      · cases r with
        | ok n => rfl
        | error code => exact (held_beginConnect t.disconnect _).trans held_disconnect
  | read delimiter =>
    cases r with
    | ok n =>
      simp only [handle, handleRead]
      split <;> simp [held, processData, startRead, start]
    | error code => exact held_disconnect
  | write bufferTx =>
    cases r with
    | ok n =>
      simp only [handle, handleWrite]
      split <;> rfl
    | error code => rfl

/-- Nothing that arrives is lost. -/
theorem held_io {e : IoEvent} (hs : t.io e = some u) : u.held = t.held ++ e.arrived := by
  cases e with
  | receive i data =>
    obtain ⟨_, _, _, _, _, rfl⟩ := io_receive hs
    exact (List.append_assoc _ _ _).symm
  | finish i r =>
    obtain ⟨kind, stamp, _, _, rfl⟩ := io_finish hs
    refine Eq.trans ?_ (List.append_nil _).symm
    cases kind <;> cases r <;> rfl
  | run i =>
    obtain ⟨kind, stamp, r, _, rfl⟩ := io_run hs
    exact (held_handle _ r kind).trans (List.append_nil _).symm

end DeviceTester.Connection.Tcp

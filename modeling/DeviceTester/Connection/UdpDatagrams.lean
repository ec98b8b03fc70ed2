import DeviceTester.Connection.UdpReceiving

/-!
# The datagrams that come in and go out

All receives of a `Udp` are given one buffer. What does not fit into it is lost, and a datagram
that arrives while another one waits for its handler takes its place there. A datagram that is
sent goes to the endpoint that `applyOptions()` set last, whatever `setOptions` has been given
since.
-/
namespace DeviceTester.Connection.Udp

open DeviceTester.Lib

variable {u v : Udp} {e : Event} {i : Nat}

/-! ## Datagrams that come in -/

/-- A receive that has its datagram, and whose handler has not run. -/
def hasArrived (op : Operation UdpOp) : Bool := op.kind.isReceive && op.result.any Result.isOk

/-- The number of bytes that a receive reports. -/
def bytesReceived (op : Operation UdpOp) : Nat :=
  match op.result with
  | some (.ok n) => n
  | _ => 0

/-- The datagrams that wait for their handlers, as the buffer has them. -/
def waiting (u : Udp) : List Bytes :=
  (u.pending.filter hasArrived).map fun op => u.bufferRx_.take (bytesReceived op)

/-- What the buffer takes of the datagram that an event brings. -/
def arrivals : Event → List Bytes
  | .io (.receive _ data) => [received data]
  | _ => []

/-- A datagram that arrives finds no other one waiting. -/
def FindsRoom (u : Udp) (e : Event) (_ : Udp) : Prop :=
  match e with
  | .io (.receive _ _) => u.waiting = []
  | _ => True

instance (u : Udp) (e : Event) (v : Udp) : Decidable (FindsRoom u e v) := by
  unfold FindsRoom
  split <;> infer_instance

/-- One receive is outstanding at most. -/
def ReceivesOne (_ : Udp) (_ : Event) (v : Udp) : Prop := v.receives ≤ 1

/-- Neither the receives that have a datagram nor the buffer are touched, and nothing is
handed over. -/
structure SameArrivals (u v : Udp) : Prop where
  arrived : v.pending.filter hasArrived = u.pending.filter hasArrived
  buffer : v.bufferRx_ = u.bufferRx_
  delivered : v.delivered = u.delivered

theorem SameArrivals.trans {w : Udp} (h : SameArrivals u v) (h' : SameArrivals v w) :
    SameArrivals u w :=
  ⟨h'.arrived.trans h.arrived, h'.buffer.trans h.buffer, h'.delivered.trans h.delivered⟩

theorem SameArrivals.waiting_eq (h : SameArrivals u v) : v.waiting = u.waiting := by
  rw [waiting, waiting, h.arrived, h.buffer]

theorem hasArrived_begin (isOpen : Bool) (op : UdpOp) (stamp : Nat) :
    hasArrived (.begin isOpen op stamp) = false := by
  cases isOpen <;> simp [hasArrived, Operation.begin, Result.isOk]

theorem sameArrivals_start (u : Udp) (op : UdpOp) : SameArrivals u (u.start op) := by
  refine ⟨?_, rfl, rfl⟩
  simp [start, hasArrived_begin]

theorem filter_hasArrived_cancel (ops : List (Operation UdpOp)) :
    (ops.map Operation.cancel).filter hasArrived = ops.filter hasArrived := by
  induction ops with
  | nil => rfl
  | cons op ops ih =>
    obtain ⟨kind, stamp, result⟩ := op
    rw [List.map_cons, List.filter_cons, List.filter_cons, ih]
    cases result with
    | none => simp [hasArrived, Operation.cancel, Result.isOk]
    | some r => simp [hasArrived, Operation.cancel]

theorem sameArrivals_disconnect (u : Udp) : SameArrivals u u.disconnect :=
  ⟨filter_hasArrived_cancel u.pending, rfl, rfl⟩

theorem sameArrivals_connect (u : Udp) (calls : SocketCalls) :
    SameArrivals u (u.connect calls) := by
  generalize hv : u.connect calls = v
  have hconnects : Connects calls u v := hv ▸ connect_cases calls u
  cases hconnects with
  | idle hp => exact ⟨rfl, rfl, rfl⟩
  | failed endpoint hp ho => exact ⟨rfl, rfl, rfl⟩
  | unbound endpoint hp hc ho hb => exact ⟨rfl, rfl, rfl⟩
  | accepted endpoint hp hc ho hb =>
    have hopened : SameArrivals u { u with
        shouldReceive_ := true
        listenEndpoint_ := endpoint
        socket_ := ⟨true, u.socket_.generation + 1, some endpoint⟩ } := ⟨rfl, rfl, rfl⟩
    exact hopened.trans (sameArrivals_start _ .receive)

theorem sameArrivals_applyOptions (u : Udp) (calls : SocketCalls) (fromString : FromString) :
    SameArrivals u (u.applyOptions calls fromString).state := by
  obtain ⟨endpoint, hstate⟩ := applyOptions_state u calls fromString
  have hreopen : SameArrivals u (if u.isConnected then u.disconnect.connect calls else u) := by
    split
    · exact (sameArrivals_disconnect u).trans (sameArrivals_connect _ calls)
    · exact ⟨rfl, rfl, rfl⟩
  rw [hstate]
  exact ⟨hreopen.arrived, hreopen.buffer, hreopen.delivered⟩

theorem sameArrivals_write (u : Udp) (answer : Option Bytes) (data : Bytes) :
    SameArrivals u (u.write answer data).state := by
  unfold write
  split
  · unfold socketOpen
    split
    · exact ⟨rfl, rfl, rfl⟩
    · split
      · have hopened : SameArrivals u { u with socket_ := ⟨true, u.socket_.generation + 1, none⟩ } :=
          ⟨rfl, rfl, rfl⟩
        exact hopened.trans (sameArrivals_start _ _)
      · exact ⟨rfl, rfl, rfl⟩
  · exact sameArrivals_start u _

def WaitsOne (u : Udp) : Prop := u.waiting.length ≤ 1

/-- What has been handed over and what waits for it. -/
def accounted (u : Udp) : List Bytes := u.delivered ++ u.waiting

/-- One datagram waits at most, and those handed over and waiting are those that have arrived. -/
def Accounted (u v : Udp) (arrived : List Bytes) : Prop :=
  WaitsOne v ∧ v.accounted = u.accounted ++ arrived

theorem SameArrivals.accounted (h : SameArrivals u v) (hu : WaitsOne u) : Accounted u v [] := by
  rw [Accounted, WaitsOne, Udp.accounted, h.waiting_eq, h.delivered, List.append_nil]
  exact ⟨hu, rfl⟩

theorem accounted_receive {data : Bytes} (hroom : u.waiting = [])
    (h : u.io (.receive i data) = some v) : Accounted u v [received data] := by
  obtain ⟨stamp, hop, rfl⟩ := io_receive h
  obtain ⟨before, after, hl, -, -, hset⟩ := split_getElem? hop
  rw [waiting, List.map_eq_nil_iff, hl, List.filter_append, List.filter_cons] at hroom
  simp only [hasArrived, Option.any_none, Bool.and_false, Bool.false_eq_true, if_false,
    List.append_eq_nil_iff] at hroom
  have hwaiting : ({ u with
      bufferRx_ := received data ++ u.bufferRx_.drop (received data).length
      pending := u.pending.set i ⟨.receive, stamp, some (.ok (received data).length)⟩ } :
        Udp).waiting = [received data] := by
    rw [waiting, hset, List.filter_append, List.filter_cons]
    simp [hroom.1, hroom.2, hasArrived, UdpOp.isReceive, Result.isOk, bytesReceived]
  have hnone : u.waiting = [] := by
    rw [waiting, hl, List.filter_append, List.filter_cons]
    simp [hroom.1, hroom.2, hasArrived]
  rw [Accounted, WaitsOne, accounted, accounted, hwaiting, hnone, List.append_nil]
  exact ⟨Nat.le_refl 1, rfl⟩

theorem accounted_finish {r : Result} (hu : WaitsOne u)
    (h : u.io (.finish i r) = some v) : Accounted u v [] := by
  refine SameArrivals.accounted ?_ hu
  simp only [io] at h
  split at h
  · rename_i kind stamp hop
    split at h
    · cases h
    · rename_i hr
      obtain rfl := Option.some.inj h
      obtain ⟨before, after, hl, -, -, hset⟩ := split_getElem? hop
      refine ⟨?_, rfl, rfl⟩
      have hnot : hasArrived ⟨kind, stamp, some r⟩ = false := by
        rw [Bool.and_comm] at hr
        exact Bool.eq_false_iff.mpr hr
      have hflight : hasArrived ⟨kind, stamp, none⟩ = false := Bool.and_false _
      show (u.pending.set i ⟨kind, stamp, some r⟩).filter hasArrived = _
      rw [hset, hl, List.filter_append, List.filter_append, List.filter_cons, List.filter_cons, hnot,
        hflight]
      rfl
  · cases h

theorem accounted_run (hu : WaitsOne u) (h : u.io (.run i) = some v) :
    Accounted u v [] := by
  obtain ⟨kind, stamp, r, hop, rfl⟩ := io_run h
  obtain ⟨before, after, hl, -, herase, -⟩ := split_getElem? hop
  by_cases harrived : hasArrived ⟨kind, stamp, some r⟩ = true
  · -- the one datagram that waits is handed over
    obtain ⟨hkind, hok⟩ := Bool.and_eq_true_iff.mp harrived
    cases kind with
    | send buffer endpoint => cases hkind
    | receive =>
      cases r with
      | error code => cases hok
      | ok n =>
        have hwaiting : u.waiting.length =
            (before.filter hasArrived).length + ((after.filter hasArrived).length + 1) := by
          rw [waiting, List.length_map, hl, List.filter_append, List.filter_cons, if_pos harrived,
            List.length_append, List.length_cons]
        have hle : u.waiting.length ≤ 1 := hu
        have hbefore : before.filter hasArrived = [] := List.eq_nil_of_length_eq_zero (by omega)
        have hafter : after.filter hasArrived = [] := List.eq_nil_of_length_eq_zero (by omega)
        have hone : u.waiting = [u.bufferRx_.take n] := by
          rw [waiting, hl, List.filter_append, List.filter_cons, if_pos harrived, hbefore, hafter]
          rfl
        have hrest : (u.pending.eraseIdx i).filter hasArrived = [] := by
          rw [herase, List.filter_append, hbefore, hafter]
          rfl
        have hhandled : ({ u with pending := u.pending.eraseIdx i }.handle (.ok n) .receive).waiting
            = [] := by
          rw [waiting, List.map_eq_nil_iff]
          simp only [handle, handleRead]
          split
          · exact (sameArrivals_start _ .receive).arrived.trans hrest
          · exact hrest
        rw [Accounted, WaitsOne, accounted, accounted, hhandled, delivered_handle, hone,
          List.append_nil]
        exact ⟨Nat.zero_le 1, rfl⟩
  · -- a completion without a datagram
    refine SameArrivals.accounted ?_ hu
    have hrest : (u.pending.eraseIdx i).filter hasArrived = u.pending.filter hasArrived := by
      rw [herase, hl, List.filter_append, List.filter_append, List.filter_cons, if_neg harrived]
    cases kind with
    | send buffer endpoint => exact ⟨hrest, rfl, rfl⟩
    | receive =>
      cases r with
      | ok n => exact absurd rfl harrived
      | error code =>
        have herased : SameArrivals u { u with pending := u.pending.eraseIdx i } :=
          ⟨hrest, rfl, rfl⟩
        exact herased.trans (sameArrivals_disconnect _)

theorem accounted_step (hu : WaitsOne u) (hroom : FindsRoom u e v)
    (h : step u e = some v) : Accounted u v (arrivals e) := by
  cases e with
  | connect calls => exact Option.some.inj h ▸ (sameArrivals_connect u calls).accounted hu
  | disconnect => exact Option.some.inj h ▸ (sameArrivals_disconnect u).accounted hu
  | applyOptions calls fromString =>
    exact Option.some.inj h ▸ (sameArrivals_applyOptions u calls fromString).accounted hu
  | setOptions options =>
    obtain rfl := Option.some.inj h
    exact SameArrivals.accounted ⟨rfl, rfl, rfl⟩ hu
  | write answer data => exact Option.some.inj h ▸ (sameArrivals_write u answer data).accounted hu
  | io x =>
    cases x with
    | receive i data => exact accounted_receive hroom h
    | finish i r => exact accounted_finish hu h
    | run i => exact accounted_run hu h

/-- A receive that is in flight and alone leaves no other datagram waiting. -/
theorem findsRoom_of_one (hu : u.receives ≤ 1) (h : step u e = some v) : FindsRoom u e v := by
  unfold FindsRoom
  split
  · rename_i i data
    obtain ⟨stamp, hop, -⟩ := io_receive h
    have herase : u.receives =
        outstanding (fun op _ => UdpOp.isReceive op) (u.pending.eraseIdx i) + 1 :=
      outstanding_eraseIdx hop
    obtain ⟨before, after, hl, -, hrest, -⟩ := split_getElem? hop
    have hnone : outstanding (fun op _ => UdpOp.isReceive op) (u.pending.eraseIdx i) = 0 := by
      omega
    rw [outstanding_eq_zero, hrest] at hnone
    rw [waiting, List.map_eq_nil_iff, List.filter_eq_nil_iff, hl]
    intro op hmem harrived
    obtain ⟨hkind, hok⟩ := Bool.and_eq_true_iff.mp harrived
    rcases List.mem_append.mp hmem with hmem | hmem
    · cases (hnone op (List.mem_append_left _ hmem)).symm.trans hkind
    · rcases List.mem_cons.mp hmem with rfl | hmem
      · cases hok
      · cases (hnone op (List.mem_append_right _ hmem)).symm.trans hkind
  · trivial

theorem along_findsRoom_of_one {es : List Event} (hu : u.receives ≤ 1)
    (h : Along step ReceivesOne u es) : Along step FindsRoom u es := by
  induction es generalizing u with
  | nil => trivial
  | cons e es ih =>
    intro v hv
    obtain ⟨hone, htail⟩ := h.cons hv
    exact ⟨findsRoom_of_one hu hv, ih hone htail⟩

/-- Where each datagram finds no other one waiting, the datagrams that have arrived are handed
over one by one and in their order, up to one that still waits: each as it is, or its first
`kBufferSize` bytes where it is longer. This is so in every run with one receive outstanding at
most. -/
theorem datagrams_delivered (identifier rx : Bytes) (receive : Bool) (es : List Event) (u : Udp)
    (he : exec step (initial identifier rx receive) es = some u) :
    (Along step FindsRoom (initial identifier rx receive) es →
      u.accounted = (es.map arrivals).flatten ∧ WaitsOne u) ∧
    (Along step ReceivesOne (initial identifier rx receive) es →
      Along step FindsRoom (initial identifier rx receive) es) := by
  have hinitial : WaitsOne (initial identifier rx receive) := Nat.zero_le 1
  constructor
  · intro ha
    exact (exec_appends accounted arrivals hinitial ha he
      fun _ _ _ hs hroom h => accounted_step hs hroom h).symm
  · exact along_findsRoom_of_one (Nat.zero_le 1)

/-- A listening object is sent two datagrams, the second one empty. -/
def twoDatagramsRun : List Event :=
  [.setOptions kListenOptions, .connect kAccepted, .io (.receive 0 (text "ab")), .io (.run 0),
    .io (.receive 0 []), .io (.run 0)]

theorem two_datagrams_delivered :
    ∃ u, exec step (initial [] [] false) twoDatagramsRun = some u ∧
      u.accounted = [text "ab", []] := by
  refine ⟨_, rfl, ?_⟩
  have hboth := datagrams_delivered [] [] false twoDatagramsRun _ rfl
  exact (hboth.1 (by decide)).1

/-! ## Datagrams that go out -/

/-- Where datagrams go, and the address that the options hold for the next `applyOptions()`. -/
structure Target where
  writeAddress : Bytes
  writePort : UInt16
  endpoint : Endpoint

/-- `setOptions` changes the address, `applyOptions()` makes it the endpoint where there is one
that can be read, and nothing else has a say. -/
def Target.next (o : Target) : Event → Target
  | .setOptions options =>
      { o with writeAddress := options.writeAddress, writePort := options.writePort }
  | .applyOptions _ fromString =>
      if o.writeAddress ≠ [] ∧ 0 < o.writePort then
        match fromString o.writeAddress with
        | .ok address => { o with endpoint := ⟨address, o.writePort⟩ }
        | .error _ => o
      else o
  | _ => o

def Target.initial : Target := ⟨[], 0, ⟨text "0.0.0.0", 0⟩⟩

/-- The target after a run. -/
def targetAfter (es : List Event) : Target := es.foldl Target.next .initial

def target (u : Udp) : Target :=
  ⟨u.options_.writeAddress, u.options_.writePort, u.writeEndpoint_⟩

def isSend (op : UdpOp) : Bool := !op.isReceive

/-- The datagrams outstanding. -/
def sends (u : Udp) : List UdpOp := kindsOf isSend u.pending

/-- Neither the target nor the datagrams outstanding are touched. -/
structure SameSends (u v : Udp) : Prop where
  endpoint : v.writeEndpoint_ = u.writeEndpoint_
  sends : v.sends = u.sends

theorem SameSends.trans {w : Udp} (h : SameSends u v) (h' : SameSends v w) : SameSends u w :=
  ⟨h'.endpoint.trans h.endpoint, h'.sends.trans h.sends⟩

theorem sameSends_startRead (u : Udp) : SameSends u u.startRead := by
  refine ⟨rfl, ?_⟩
  exact kindsOf_append_of_not rfl

theorem sameSends_disconnect (u : Udp) : SameSends u u.disconnect :=
  ⟨rfl, kindsOf_cancel⟩

theorem sameSends_connect (u : Udp) (calls : SocketCalls) : SameSends u (u.connect calls) := by
  generalize hv : u.connect calls = v
  have hconnects : Connects calls u v := hv ▸ connect_cases calls u
  cases hconnects with
  | idle hp => exact ⟨rfl, rfl⟩
  | failed endpoint hp ho => exact ⟨rfl, rfl⟩
  | unbound endpoint hp hc ho hb => exact ⟨rfl, rfl⟩
  | accepted endpoint hp hc ho hb =>
    have hopened : SameSends u { u with
        shouldReceive_ := true
        listenEndpoint_ := endpoint
        socket_ := ⟨true, u.socket_.generation + 1, some endpoint⟩ } := ⟨rfl, rfl⟩
    exact hopened.trans (sameSends_startRead _)

/-- The object as `applyOptions()` has reopened it. -/
def reopened (calls : SocketCalls) (u : Udp) : Udp :=
  if u.isConnected then u.disconnect.connect calls else u

theorem sameSends_reopened (u : Udp) (calls : SocketCalls) : SameSends u (u.reopened calls) := by
  unfold reopened
  split
  · exact (sameSends_disconnect u).trans (sameSends_connect _ calls)
  · exact ⟨rfl, rfl⟩

theorem options_reopened (u : Udp) (calls : SocketCalls) :
    (u.reopened calls).options_ = u.options_ := by
  unfold reopened
  split
  · exact connect_keeps ignores_options calls u.disconnect
  · rfl

theorem sends_applyOptions (u : Udp) (calls : SocketCalls) (fromString : FromString) :
    (u.applyOptions calls fromString).state.sends = u.sends := by
  obtain ⟨endpoint, hstate⟩ := applyOptions_state u calls fromString
  rw [hstate]
  exact (sameSends_reopened u calls).sends

theorem target_applyOptions (u : Udp) (calls : SocketCalls) (fromString : FromString) :
    (u.applyOptions calls fromString).state.target =
      u.target.next (.applyOptions calls fromString) := by
  have hoptions := options_reopened u calls
  have hendpoint := (sameSends_reopened u calls).endpoint
  have hunfold : u.applyOptions calls fromString =
      if (u.reopened calls).options_.writeAddress ≠ [] ∧
          0 < (u.reopened calls).options_.writePort then
        match fromString (u.reopened calls).options_.writeAddress with
        | .ok address => .returned { u.reopened calls with
            writeEndpoint_ := ⟨address, (u.reopened calls).options_.writePort⟩ }
        | .error what => .threw (u.reopened calls) what
      else .returned (u.reopened calls) := rfl
  have hnext : u.target.next (.applyOptions calls fromString) =
      if u.options_.writeAddress ≠ [] ∧ 0 < u.options_.writePort then
        match fromString u.options_.writeAddress with
        | .ok address => { u.target with endpoint := ⟨address, u.options_.writePort⟩ }
        | .error _ => u.target
      else u.target := rfl
  rw [hunfold, hoptions, hnext]
  by_cases h : u.options_.writeAddress ≠ [] ∧ 0 < u.options_.writePort
  · rw [if_pos h, if_pos h]
    cases fromString u.options_.writeAddress with
    | ok address =>
      simp only [Outcome.state_returned, target]
      rw [hoptions]
    | error what =>
      simp only [Outcome.state_threw, target]
      rw [hoptions, hendpoint]
  · rw [if_neg h, if_neg h, Outcome.state_returned, target, hoptions, hendpoint, target]

theorem handle_target (u : Udp) (r : Result) (kind : UdpOp) :
    (u.handle r kind).target = u.target ∧ (u.handle r kind).sends = u.sends := by
  cases kind with
  | send buffer endpoint => exact ⟨rfl, rfl⟩
  | receive =>
    cases r with
    | error code => exact ⟨rfl, (sameSends_disconnect u).sends⟩
    | ok n =>
      simp only [handle, handleRead]
      split
      · exact ⟨rfl, (sameSends_startRead _).sends⟩
      · exact ⟨rfl, rfl⟩

/-- The datagram that a call hands to the socket. -/
def sentBy (u : Udp) : Event → List UdpOp
  | .write _ data => [.send data u.writeEndpoint_]
  | _ => []

theorem write_sends (u : Udp) (answer : Option Bytes) (data : Bytes) :
    (u.write answer data).state.target = u.target ∧
      (u.write answer data).state.sends.Sublist (u.sends ++ [.send data u.writeEndpoint_]) := by
  have hstart : ∀ socket : UdpSocket, ({ u with socket_ := socket }.start
      (.send data u.writeEndpoint_)).sends = u.sends ++ [.send data u.writeEndpoint_] := by
    intro socket
    simp [sends, kindsOf, start, isSend, UdpOp.isReceive]
  have hkeep := List.sublist_append_left u.sends [.send data u.writeEndpoint_]
  unfold write
  split
  · unfold socketOpen
    split
    · exact ⟨rfl, hkeep⟩
    · split
      · exact ⟨rfl, (hstart _).subst (List.Sublist.refl _)⟩
      · exact ⟨rfl, hkeep⟩
  · exact ⟨rfl, (hstart u.socket_).subst (List.Sublist.refl _)⟩

/-- The target goes on as it should, and the datagrams outstanding are some of those that were
so before and the one being written, in order. -/
theorem target_step (h : step u e = some v) :
    v.target = u.target.next e ∧ v.sends.Sublist (u.sends ++ sentBy u e) := by
  have hsame {w : Udp} (hw : w.sends = u.sends) : w.sends.Sublist (u.sends ++ sentBy u e) :=
    hw.symm ▸ List.sublist_append_left u.sends (sentBy u e)
  cases e with
  | connect calls =>
    obtain rfl := Option.some.inj h
    have hconnect := sameSends_connect u calls
    refine ⟨?_, hsame hconnect.sends⟩
    simp only [target, Target.next]
    rw [hconnect.endpoint, connect_keeps ignores_options calls u]
  | disconnect =>
    obtain rfl := Option.some.inj h
    exact ⟨rfl, hsame (sameSends_disconnect u).sends⟩
  | applyOptions calls fromString =>
    obtain rfl := Option.some.inj h
    exact ⟨target_applyOptions u calls fromString, hsame (sends_applyOptions u calls fromString)⟩
  | setOptions options =>
    obtain rfl := Option.some.inj h
    exact ⟨rfl, hsame rfl⟩
  | write answer data =>
    obtain rfl := Option.some.inj h
    exact write_sends u answer data
  | io x =>
    cases x with
    | receive i data =>
      obtain ⟨stamp, hop, rfl⟩ := io_receive h
      exact ⟨rfl, hsame (kindsOf_set hop rfl)⟩
    | finish i r =>
      obtain ⟨kind, stamp, hop, rfl⟩ := io_finish h
      exact ⟨rfl, hsame (kindsOf_set hop rfl)⟩
    | run i =>
      obtain ⟨kind, stamp, r, hop, rfl⟩ := io_run h
      obtain ⟨htarget, hsends⟩ := handle_target { u with pending := u.pending.eraseIdx i } r kind
      refine ⟨htarget, ?_⟩
      rw [hsends]
      show (kindsOf isSend (u.pending.eraseIdx i)).Sublist (u.sends ++ [])
      rw [List.append_nil]
      exact ((List.eraseIdx_sublist u.pending i).map Operation.kind).filter isSend

/-- In every run, each datagram that is outstanding has been handed to `write()`, whole, and goes
to the endpoint that the last `applyOptions()` before that call left: options set later do not
redirect it, nor do those that have been set and not applied. -/
theorem datagrams_go_to_target (identifier rx : Bytes) (receive : Bool) (es : List Event) (u : Udp)
    (he : exec step (initial identifier rx receive) es = some u) :
    u.target = targetAfter es ∧ ∀ op ∈ u.sends, ∃ before answer data after,
      es = before ++ .write answer data :: after ∧
        op = .send data (targetAfter before).endpoint := by
  induction es using List.reverseRecOn generalizing u with
  | nil =>
    obtain rfl := Option.some.inj he
    exact ⟨rfl, fun op hop => by cases hop⟩
  | append_singleton es e ih =>
    rw [exec_append, Option.bind_eq_some_iff] at he
    obtain ⟨v, hv, hlast⟩ := he
    obtain ⟨w, hstep, hw⟩ := exec_cons_some hlast
    obtain rfl := Option.some.inj hw
    obtain ⟨htarget, hsent⟩ := ih v hv
    obtain ⟨hnext, hsends⟩ := target_step hstep
    refine ⟨?_, fun op hop => ?_⟩
    · rw [hnext, htarget, targetAfter, targetAfter, List.foldl_append]
      rfl
    · rcases List.mem_append.mp (hsends.subset hop) with hold | hnew
      · obtain ⟨before, answer, data, after, rfl, rfl⟩ := hsent op hold
        exact ⟨before, answer, data, after ++ [e], by simp, rfl⟩
      · cases e with
        | write answer data =>
          obtain rfl := List.mem_singleton.mp hnew
          refine ⟨es, answer, data, [], rfl, ?_⟩
          rw [← htarget]
          rfl
        | _ => cases hnew

def kTargetOptions (address : String) (port : UInt16) : UdpOptions :=
  { UdpOptions.withIdentifier [] with writeAddress := text address, writePort := port }

/-- A datagram is written after new options have been set, and before they are applied. -/
def redirectedRun : List Event :=
  [.setOptions (kTargetOptions "10.0.0.1" 7), .applyOptions kAccepted .ok,
    .setOptions (kTargetOptions "10.0.0.2" 9), .write none (text "ab")]

theorem redirected_goes_to_applied :
    ∃ u, exec step (initial [] [] false) redirectedRun = some u ∧
      u.target = targetAfter redirectedRun ∧
      u.sends = [.send (text "ab") ⟨text "10.0.0.1", 7⟩] :=
  ⟨_, rfl, (datagrams_go_to_target [] [] false redirectedRun _ rfl).1, rfl⟩

end DeviceTester.Connection.Udp

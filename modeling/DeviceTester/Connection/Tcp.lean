import DeviceTester.Connection.Options
import DeviceTester.Lib.Call
import DeviceTester.Lib.Operation
import DeviceTester.Lib.Run

/-!
# `connection::Tcp`

The object, the operations it has outstanding on its socket and the steps of its
system: the public calls on one side, the operating system and the io thread on
the other. An endpoint iterator is the list of the endpoints from its position
on. The end iterator is the empty list.
-/
namespace DeviceTester.Connection

open DeviceTester.Lib

/-- `tcp::socket`. `peer` is the endpoint it was last connected to since it was opened. -/
structure TcpSocket where
  isOpen : Bool
  peer : Option Endpoint
  deriving DecidableEq, Repr

inductive TcpOp where
  | connect (endpointIter : List Endpoint)
  | read (delimiter : UInt8)
  | write (buffer : Bytes)
  deriving DecidableEq, Repr

namespace TcpOp

def isConnect : TcpOp → Bool
  | connect _ => true
  | _ => false

def isRead : TcpOp → Bool
  | read _ => true
  | _ => false

def isWrite : TcpOp → Bool
  | write _ => true
  | _ => false

end TcpOp

/-- The object, then what it has started, handed to `handle_` and transferred. `wire` has the
bytes of all transfers in their order, over all connections that the object has been through:
it is what one peer is sent only as long as the socket is not closed. `calls` counts the calls
of `disconnect()`, which `connect()` makes too: an operation with a smaller stamp was started
before the last of them. -/
structure Tcp where
  bufferRx_ : Bytes
  options_ : TcpOptions
  socket_ : TcpSocket
  endpoints_ : List Endpoint
  shouldRun_ : Bool
  isConnected_ : Bool
  pending : List (Operation TcpOp)
  delivered : List Bytes
  wire : Bytes
  calls : Nat
  deriving DecidableEq, Repr

/-- `tcp::resolver::resolve(host, service)`: the endpoints, or the text of what is thrown. -/
abbrev Resolver := Bytes → Bytes → Except Bytes (List Endpoint)

namespace Tcp

def initial (identifier : Bytes) : Tcp where
  bufferRx_ := []
  options_ := .withIdentifier identifier
  socket_ := ⟨false, none⟩
  endpoints_ := []
  shouldRun_ := true
  isConnected_ := false
  pending := []
  delivered := []
  wire := []
  calls := 0

def start (t : Tcp) (op : TcpOp) : Tcp :=
  { t with pending := t.pending ++ [.begin t.socket_.isOpen op t.calls] }

/-- `socket_.async_connect`, which opens a closed socket first. -/
def asyncConnect (t : Tcp) (endpointIter : List Endpoint) : Tcp :=
  { t with socket_ := { t.socket_ with isOpen := true } }.start (.connect endpointIter)

/-- `socket_.close`, which is taken not to throw. -/
def closeSocket (t : Tcp) : Tcp :=
  { t with socket_ := ⟨false, none⟩, pending := t.pending.map Operation.cancel }

/-- `handle_.processData`. -/
def processData (t : Tcp) (data : Bytes) : Tcp :=
  { t with delivered := t.delivered ++ [data] }

def isConnected (t : Tcp) : Bool := t.isConnected_ && t.socket_.isOpen

def disconnect (t : Tcp) : Tcp :=
  if !t.isConnected then { t with shouldRun_ := false, calls := t.calls + 1 }
  else { t with isConnected_ := false, shouldRun_ := false, calls := t.calls + 1 }.closeSocket

def beginConnect (t : Tcp) (endpointIter : List Endpoint) : Tcp :=
  if endpointIter ≠ [] then t.asyncConnect endpointIter else t.disconnect

/-- The host and the service that `Tcp::connect` asks the resolver for. -/
def resolverQuery (o : TcpOptions) : Bytes × Bytes :=
  if o.service = [] then (o.server, decimal o.serverPort.toNat)
  else
    let networkTarget :=
      if o.serverPort = 0 then o.server
      else o.server ++ text ":" ++ decimal o.serverPort.toNat
    (networkTarget, o.service)

def connect (resolve : Resolver) (t : Tcp) : Outcome Bytes Tcp :=
  let t := t.disconnect
  match resolve (resolverQuery t.options_).1 (resolverQuery t.options_).2 with
  | .error what => .threw t what
  | .ok endpoints =>
      .returned ({ t with endpoints_ := endpoints, shouldRun_ := true }.beginConnect endpoints)

def applyOptions (resolve : Resolver) (t : Tcp) : Outcome Bytes Tcp :=
  if t.isConnected then t.connect resolve else .returned t

def write (t : Tcp) (data : Bytes) : Tcp := t.start (.write data)

/-- `Tcp::setOptions`: one `setOption` for the target, one for the delimiter. -/
def setOptions (t : Tcp) (opts : TcpOptions) : Tcp :=
  { t with options_ := { opts with identifier := t.options_.identifier } }

def setOptionTarget (t : Tcp) (server : Bytes) (serverPort : UInt16) (service : Bytes) : Tcp :=
  { t with options_ := { t.options_ with server, serverPort, service } }

def setOptionPacketEnd (t : Tcp) (packetEnd : UInt8) : Tcp :=
  { t with options_ := { t.options_ with packetEnd } }

/-- The overloads of `setOption` that `setOptions` calls. -/
theorem setOptions_eq (t : Tcp) (opts : TcpOptions) :
    t.setOptions opts =
      (t.setOptionTarget opts.server opts.serverPort opts.service).setOptionPacketEnd
        opts.packetEnd := rfl

def startRead (t : Tcp) : Tcp := t.start (.read t.options_.packetEnd)

def handleConnect (t : Tcp) (r : Result) (endpointIter : List Endpoint) : Tcp :=
  if !t.shouldRun_ then t
  else if !t.socket_.isOpen then t.beginConnect endpointIter.tail
  else
    match r with
    | .error _ => t.disconnect.beginConnect endpointIter.tail
    | .ok _ => { t with isConnected_ := true }.startRead

def handleRead (t : Tcp) : Result → Tcp
  | .ok _ =>
      let t := { t.processData t.bufferRx_ with bufferRx_ := [] }
      if t.shouldRun_ then t.startRead else t
  | .error _ => t.disconnect

def handleWrite (t : Tcp) (bufferTx : Bytes) : Result → Tcp
  | .ok n => if bufferTx.length ≠ n then t.start (.write (bufferTx.drop n)) else t
  | .error _ => t

/-- The completion handler of an operation that finished with `r`. -/
def handle (t : Tcp) (r : Result) : TcpOp → Tcp
  | .connect endpointIter => t.handleConnect r endpointIter
  | .read _ => t.handleRead r
  | .write bufferTx => t.handleWrite bufferTx r

/-- Whether an operation in flight may finish with `r`. `async_read_until` ends
without error once the buffer holds the delimiter, and not before. A write
transfers after the writes started before it, and at least one byte when it was
given any. -/
def mayFinish (t : Tcp) (i : Nat) : TcpOp → Result → Bool
  | .connect _, _ => true
  | .read delimiter, .ok _ => t.bufferRx_.contains delimiter
  | .read delimiter, .error _ => !t.bufferRx_.contains delimiter
  | .write buffer, .ok n =>
      earlierFinished TcpOp.isWrite t.pending i && decide (n ≤ buffer.length) &&
        (buffer.isEmpty || decide (0 < n))
  | .write _, .error _ => true

/-- What the operating system does when an operation finishes. -/
def finished (t : Tcp) : TcpOp → Result → Tcp
  | .connect endpointIter, .ok _ =>
      { t with socket_ := { t.socket_ with peer := endpointIter.head? } }
  | .write buffer, .ok n => { t with wire := t.wire ++ buffer.take n }
  | _, _ => t

def io (t : Tcp) : IoEvent → Option Tcp
  | .receive i data =>
      match t.pending[i]? with
      | some ⟨.read delimiter, _, none⟩ =>
          if data ≠ [] ∧ delimiter ∉ t.bufferRx_ then
            some { t with bufferRx_ := t.bufferRx_ ++ data }
          else none
      | _ => none
  | .finish i r =>
      match t.pending[i]? with
      | some ⟨kind, stamp, none⟩ =>
          if t.mayFinish i kind r then
            some ({ t with pending := t.pending.set i ⟨kind, stamp, some r⟩ }.finished kind r)
          else none
      | _ => none
  | .run i =>
      match t.pending[i]? with
      | some ⟨kind, _, some r⟩ => some ({ t with pending := t.pending.eraseIdx i }.handle r kind)
      | _ => none

inductive Event where
  | connect (resolve : Resolver)
  | disconnect
  | applyOptions (resolve : Resolver)
  | setOptions (opts : TcpOptions)
  | write (data : Bytes)
  | io (e : IoEvent)

def step (t : Tcp) : Event → Option Tcp
  | .connect resolve => some (t.connect resolve).state
  | .disconnect => some t.disconnect
  | .applyOptions resolve => some (t.applyOptions resolve).state
  | .setOptions opts => some (t.setOptions opts)
  | .write data => some (t.write data)
  | .io e => t.io e

/-! ## What a step can do -/

section Steps

variable {t u : Tcp} {i : Nat}

theorem io_receive {data : Bytes} (h : t.io (.receive i data) = some u) :
    ∃ delimiter stamp, t.pending[i]? = some ⟨.read delimiter, stamp, none⟩ ∧ data ≠ [] ∧
      delimiter ∉ t.bufferRx_ ∧ u = { t with bufferRx_ := t.bufferRx_ ++ data } := by
  simp only [io] at h
  split at h
  · rename_i delimiter stamp hop
    split at h
    · rename_i hd
      exact ⟨delimiter, stamp, hop, hd.1, hd.2, (Option.some.inj h).symm⟩
    · cases h
  · cases h

theorem io_finish {r : Result} (h : t.io (.finish i r) = some u) :
    ∃ kind stamp, t.pending[i]? = some ⟨kind, stamp, none⟩ ∧ t.mayFinish i kind r = true ∧
      u = { t with pending := t.pending.set i ⟨kind, stamp, some r⟩ }.finished kind r := by
  simp only [io] at h
  split at h
  · rename_i kind stamp hop
    split at h
    · rename_i hm
      exact ⟨kind, stamp, hop, hm, (Option.some.inj h).symm⟩
    · cases h
  · cases h

theorem io_run (h : t.io (.run i) = some u) :
    ∃ kind stamp r, t.pending[i]? = some ⟨kind, stamp, some r⟩ ∧
      u = { t with pending := t.pending.eraseIdx i }.handle r kind := by
  simp only [io] at h
  split at h
  · rename_i kind stamp r hop
    exact ⟨kind, stamp, r, hop, (Option.some.inj h).symm⟩
  · cases h

theorem disconnect_of_not_connected (h : t.isConnected = false) :
    t.disconnect = { t with shouldRun_ := false, calls := t.calls + 1 } := by
  simp [disconnect, h]

theorem disconnect_of_connected (h : t.isConnected = true) :
    t.disconnect = { t with
      isConnected_ := false, shouldRun_ := false, calls := t.calls + 1
      socket_ := ⟨false, none⟩, pending := t.pending.map Operation.cancel } := by
  simp [disconnect, h, closeSocket]

@[simp] theorem shouldRun_disconnect : t.disconnect.shouldRun_ = false := by
  unfold disconnect
  split <;> rfl

@[simp] theorem bufferRx_disconnect : t.disconnect.bufferRx_ = t.bufferRx_ := by
  unfold disconnect
  split <;> rfl

@[simp] theorem delivered_disconnect : t.disconnect.delivered = t.delivered := by
  unfold disconnect
  split <;> rfl

@[simp] theorem options_disconnect : t.disconnect.options_ = t.options_ := by
  unfold disconnect
  split <;> rfl

theorem pending_disconnect_of_nil (h : t.pending = []) : t.disconnect.pending = [] := by
  unfold disconnect closeSocket
  split <;> simp [h]

theorem handleRead_ok_of_running (h : t.shouldRun_ = true) (n : Nat) :
    t.handleRead (.ok n) =
      { t with delivered := t.delivered ++ [t.bufferRx_], bufferRx_ := [] }.startRead := by
  simp [handleRead, processData, h]

theorem handleRead_ok_of_stopped (h : t.shouldRun_ = false) (n : Nat) :
    t.handleRead (.ok n) = { t with delivered := t.delivered ++ [t.bufferRx_], bufferRx_ := [] } := by
  simp [handleRead, processData, h]

/-- `connect()` ends with the exception of the resolver or with the first attempt. -/
theorem connect_cases (t : Tcp) (resolve : Resolver) :
    (∃ what, t.connect resolve = .threw t.disconnect what) ∨
      ∃ endpoints,
        resolve (resolverQuery t.options_).1 (resolverQuery t.options_).2 = .ok endpoints ∧
        t.connect resolve = .returned
          ({ t.disconnect with endpoints_ := endpoints, shouldRun_ := true }.beginConnect endpoints) := by
  unfold connect
  cases hr : resolve (resolverQuery t.options_).1 (resolverQuery t.options_).2 with
  | error what => exact .inl ⟨what, by simp [hr]⟩
  | ok endpoints => exact .inr ⟨endpoints, rfl, by simp [hr]⟩

theorem beginConnect_frame (t : Tcp) (endpointIter : List Endpoint) :
    (t.beginConnect endpointIter).bufferRx_ = t.bufferRx_ ∧
      (t.beginConnect endpointIter).delivered = t.delivered ∧
      (t.beginConnect endpointIter).options_ = t.options_ := by
  unfold beginConnect
  split
  · exact ⟨rfl, rfl, rfl⟩
  · exact ⟨bufferRx_disconnect, delivered_disconnect, options_disconnect⟩

theorem connect_frame (t : Tcp) (resolve : Resolver) :
    (t.connect resolve).state.bufferRx_ = t.bufferRx_ ∧
      (t.connect resolve).state.delivered = t.delivered ∧
      (t.connect resolve).state.options_ = t.options_ := by
  rcases connect_cases t resolve with ⟨what, h⟩ | ⟨endpoints, -, h⟩
  · rw [h]
    exact ⟨bufferRx_disconnect, delivered_disconnect, options_disconnect⟩
  · rw [h, Outcome.state_returned]
    obtain ⟨hb, hd, ho⟩ := beginConnect_frame
      { t.disconnect with endpoints_ := endpoints, shouldRun_ := true } endpoints
    exact ⟨hb.trans bufferRx_disconnect, hd.trans delivered_disconnect, ho.trans options_disconnect⟩

end Steps

/-! ## What a step hands over -/

section Handed

variable {t u : Tcp}

/-- What a step hands to `handle_`: a read that has succeeded does when its handler runs. -/
def handed (t : Tcp) : Event → List Bytes
  | .io (.run i) =>
      match t.pending[i]? with
      | some ⟨.read _, _, some (.ok _)⟩ => [t.bufferRx_]
      | _ => []
  | _ => []

theorem delivered_beginConnect (t : Tcp) (endpointIter : List Endpoint) :
    (t.beginConnect endpointIter).delivered = t.delivered :=
  (beginConnect_frame t endpointIter).2.1

theorem delivered_connect (t : Tcp) (resolve : Resolver) :
    (t.connect resolve).state.delivered = t.delivered :=
  (connect_frame t resolve).2.1

theorem delivered_handle (t : Tcp) (r : Result) (kind : TcpOp) :
    (t.handle r kind).delivered = t.delivered ++
      (match kind, r with
        | .read _, .ok _ => [t.bufferRx_]
        | _, _ => []) := by
  cases kind with
  | connect endpointIter =>
    rw [List.append_nil]
    simp only [handle, handleConnect]
    split
    · rfl
    · split
      · exact delivered_beginConnect t _
      · cases r with
        | ok n => rfl
        | error code => exact (delivered_beginConnect t.disconnect _).trans delivered_disconnect
  | read delimiter =>
    cases r with
    | ok n =>
      simp only [handle, handleRead]
      split <;> rfl
    | error code => exact delivered_disconnect.trans (List.append_nil _).symm
  | write bufferTx =>
    rw [List.append_nil]
    cases r with
    | ok n =>
      simp only [handle, handleWrite]
      split <;> rfl
    | error code => rfl

theorem delivered_step {e : Event} (h : step t e = some u) :
    u.delivered = t.delivered ++ t.handed e := by
  cases e with
  | connect resolve =>
    obtain rfl := Option.some.inj h
    exact (delivered_connect t resolve).trans (List.append_nil _).symm
  | disconnect =>
    obtain rfl := Option.some.inj h
    exact delivered_disconnect.trans (List.append_nil _).symm
  | applyOptions resolve =>
    obtain rfl := Option.some.inj h
    refine Eq.trans ?_ (List.append_nil _).symm
    unfold applyOptions
    split
    · exact delivered_connect t resolve
    · rfl
  | setOptions opts =>
    obtain rfl := Option.some.inj h
    exact (List.append_nil _).symm
  | write data =>
    obtain rfl := Option.some.inj h
    exact (List.append_nil _).symm
  | io e =>
    cases e with
    | receive i data =>
      obtain ⟨_, _, _, _, _, rfl⟩ := io_receive h
      exact (List.append_nil _).symm
    | finish i r =>
      obtain ⟨kind, stamp, hop, hm, rfl⟩ := io_finish h
      refine Eq.trans ?_ (List.append_nil _).symm
      cases kind <;> cases r <;> rfl
    | run i =>
      obtain ⟨kind, stamp, r, hop, rfl⟩ := io_run h
      rw [delivered_handle, handed, hop]
      cases kind <;> cases r <;> rfl

end Handed

/-! ## The options -/

section OptionsKept

variable {t u : Tcp}

theorem options_beginConnect (t : Tcp) (endpointIter : List Endpoint) :
    (t.beginConnect endpointIter).options_ = t.options_ :=
  (beginConnect_frame t endpointIter).2.2

theorem options_applyOptions (t : Tcp) (resolve : Resolver) :
    (t.applyOptions resolve).state.options_ = t.options_ := by
  unfold applyOptions
  split
  · exact (connect_frame t resolve).2.2
  · rfl

theorem options_handle (t : Tcp) (r : Result) (kind : TcpOp) :
    (t.handle r kind).options_ = t.options_ := by
  cases kind with
  | connect endpointIter =>
    simp only [handle, handleConnect]
    split
    · rfl
    · split
      · exact options_beginConnect t _
      · cases r with
        | ok n => rfl
        | error code => exact (options_beginConnect t.disconnect _).trans options_disconnect
  | read delimiter =>
    cases r with
    | ok n =>
      simp only [handle, handleRead]
      split <;> rfl
    | error code => exact options_disconnect
  | write bufferTx =>
    cases r with
    | ok n =>
      simp only [handle, handleWrite]
      split <;> rfl
    | error code => rfl

def Event.isSetOptions : Event → Bool
  | .setOptions _ => true
  | _ => false

/-- Only `setOptions` changes the options. -/
theorem options_step {e : Event} (hne : e.isSetOptions = false) (h : step t e = some u) :
    u.options_ = t.options_ := by
  cases e with
  | connect resolve =>
    obtain rfl := Option.some.inj h
    exact (connect_frame t resolve).2.2
  | disconnect =>
    obtain rfl := Option.some.inj h
    exact options_disconnect
  | applyOptions resolve =>
    obtain rfl := Option.some.inj h
    exact options_applyOptions t resolve
  | setOptions opts => cases hne
  | write data =>
    obtain rfl := Option.some.inj h
    rfl
  | io e =>
    cases e with
    | receive i data =>
      obtain ⟨_, _, _, _, _, rfl⟩ := io_receive h
      rfl
    | finish i r =>
      obtain ⟨kind, stamp, hop, hm, rfl⟩ := io_finish h
      cases kind <;> cases r <;> rfl
    | run i =>
      obtain ⟨kind, stamp, r, hop, rfl⟩ := io_run h
      exact options_handle _ r kind

end OptionsKept

/-! ## The flags agree with the socket -/

/-- A connected object should run and has its socket open. -/
def Coherent (t : Tcp) : Prop :=
  t.isConnected_ = true → t.shouldRun_ = true ∧ t.socket_.isOpen = true

theorem coherent_initial (identifier : Bytes) : Coherent (initial identifier) := by
  intro h
  cases h

variable {t u : Tcp}

theorem Coherent.isConnected_eq (h : Coherent t) : t.isConnected = t.isConnected_ := by
  unfold isConnected
  cases hc : t.isConnected_ with
  | false => rfl
  | true => simp [(h hc).2]

theorem Coherent.isConnected_disconnect (h : Coherent t) : t.disconnect.isConnected_ = false := by
  cases hc : t.isConnected with
  | true => rw [disconnect_of_connected hc]
  | false =>
    rw [disconnect_of_not_connected hc]
    exact h.isConnected_eq.symm.trans hc

theorem Coherent.of_isConnected_false (h : t.isConnected_ = false) : Coherent t := by
  intro hc
  rw [h] at hc
  cases hc

theorem Coherent.disconnect (h : Coherent t) : Coherent t.disconnect :=
  .of_isConnected_false h.isConnected_disconnect

theorem Coherent.beginConnect (h : Coherent t) (endpointIter : List Endpoint) :
    Coherent (t.beginConnect endpointIter) := by
  unfold Tcp.beginConnect
  split
  · exact fun hc => ⟨(h hc).1, rfl⟩
  · exact h.disconnect

theorem Coherent.connect (h : Coherent t) (resolve : Resolver) :
    Coherent (t.connect resolve).state := by
  rcases connect_cases t resolve with ⟨what, hc⟩ | ⟨endpoints, _, hc⟩
  · rw [hc]
    exact h.disconnect
  · rw [hc]
    apply Coherent.beginConnect
    exact .of_isConnected_false h.isConnected_disconnect

theorem Coherent.handle (h : Coherent t) (r : Result) (kind : TcpOp) :
    Coherent (t.handle r kind) := by
  cases kind with
  | connect endpointIter =>
    simp only [Tcp.handle, handleConnect]
    split
    · exact h
    · split
      · exact h.beginConnect _
      · rename_i hrun hopen
        cases r with
        | error code => exact h.disconnect.beginConnect _
        | ok n =>
          simp only [Bool.not_eq_true', Bool.not_eq_false] at hrun hopen
          exact fun _ => ⟨hrun, hopen⟩
  | read delimiter =>
    cases r with
    | error code => exact h.disconnect
    | ok n =>
      simp only [Tcp.handle, handleRead]
      split
      · exact h
      · exact h
  | write bufferTx =>
    cases r with
    | error code => exact h
    | ok n =>
      simp only [Tcp.handle, handleWrite]
      split
      · exact h
      · exact h

theorem Coherent.finished (h : Coherent t) (kind : TcpOp) (r : Result) :
    Coherent (t.finished kind r) := by
  cases kind <;> cases r <;> exact h

theorem coherent_step : Keeps step anyStep Coherent := by
  intro t e u h _ hs
  cases e with
  | connect resolve => exact Option.some.inj hs ▸ h.connect resolve
  | disconnect => exact Option.some.inj hs ▸ h.disconnect
  | applyOptions resolve =>
    obtain rfl := Option.some.inj hs
    unfold applyOptions
    split
    · exact h.connect resolve
    · exact h
  | setOptions opts => exact Option.some.inj hs ▸ h
  | write data => exact Option.some.inj hs ▸ h
  | io e =>
    cases e with
    | receive i data =>
      obtain ⟨_, _, _, _, _, rfl⟩ := io_receive hs
      exact h
    | finish i r =>
      obtain ⟨kind, stamp, _, _, rfl⟩ := io_finish hs
      have hp : Coherent { t with pending := t.pending.set i ⟨kind, stamp, some r⟩ } := h
      exact hp.finished kind r
    | run i =>
      obtain ⟨kind, stamp, r, _, rfl⟩ := io_run hs
      have hp : Coherent { t with pending := t.pending.eraseIdx i } := h
      exact hp.handle r kind

theorem coherent_of_reaches {identifier : Bytes}
    (h : Reaches step anyStep (initial identifier) t) : Coherent t :=
  coherent_step.reaches (coherent_initial identifier) h

end Tcp

end DeviceTester.Connection

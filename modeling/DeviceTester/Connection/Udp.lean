import DeviceTester.Connection.Options
import DeviceTester.Lib.Call
import DeviceTester.Lib.Operation
import DeviceTester.Lib.Run

/-!
# `connection::Udp`

The object, the operations it has outstanding on its socket and the steps of its
system. An operation is stamped with the generation of the socket it was started
on: `socket_` is one object, opened and closed over and over.
-/
namespace DeviceTester.Connection

open DeviceTester.Lib

/-- `udp::socket`. `generation` counts how often it was opened. -/
structure UdpSocket where
  isOpen : Bool
  generation : Nat
  bound : Option Endpoint
  deriving DecidableEq, Repr

inductive UdpOp where
  | receive
  | send (buffer : Bytes) (endpoint : Endpoint)
  deriving DecidableEq, Repr

def UdpOp.isReceive : UdpOp → Bool
  | receive => true
  | send _ _ => false

/-- The object, then what it has started and handed to `handle_`. -/
structure Udp where
  options_ : UdpOptions
  socket_ : UdpSocket
  bufferRx_ : Bytes
  listenEndpoint_ : Endpoint
  writeEndpoint_ : Endpoint
  shouldReceive_ : Bool
  pending : List (Operation UdpOp)
  delivered : List Bytes
  deriving DecidableEq, Repr

/-- How `open` and `bind` of a closed socket go: `none`, or the text of what is thrown. -/
structure SocketCalls where
  openError : Option Bytes
  bindError : Option Bytes

/-- `address::from_string`: the address, or the text of what is thrown. -/
abbrev FromString := Bytes → Except Bytes Bytes

namespace Udp

def kBufferSize : Nat := 1024

/-- The constructor. `rx` and `receive` are what the members that it leaves
uninitialised happen to hold. -/
def initial (identifier rx : Bytes) (receive : Bool) : Udp where
  options_ := .withIdentifier identifier
  socket_ := ⟨false, 0, none⟩
  bufferRx_ := rx
  listenEndpoint_ := ⟨text "0.0.0.0", 0⟩
  writeEndpoint_ := ⟨text "0.0.0.0", 0⟩
  shouldReceive_ := receive
  pending := []
  delivered := []

def start (u : Udp) (op : UdpOp) : Udp :=
  { u with pending := u.pending ++ [.begin u.socket_.isOpen op u.socket_.generation] }

/-- `handle_.processData`. -/
def processData (u : Udp) (data : Bytes) : Udp :=
  { u with delivered := u.delivered ++ [data] }

/-- `socket_.open`, which throws on an open socket. -/
def socketOpen (answer : Option Bytes) (u : Udp) : Outcome Bytes Udp :=
  if u.socket_.isOpen then .threw u (text "open: Already open")
  else
    match answer with
    | none => .returned { u with socket_ := ⟨true, u.socket_.generation + 1, none⟩ }
    | some what => .threw u what

/-- `socket_.bind(listen_endpoint_)`. -/
def socketBind (answer : Option Bytes) (u : Udp) : Outcome Bytes Udp :=
  match answer with
  | none => .returned { u with socket_ := { u.socket_ with bound := some u.listenEndpoint_ } }
  | some what => .threw u what

def isConnected (u : Udp) : Bool := u.socket_.isOpen

def startRead (u : Udp) : Udp := u.start .receive

/-- The address that `udp::endpoint(protocol, port)` stands for. -/
def anyAddress (protocol : UdpOptions.Protocol) : Bytes :=
  if protocol = .ipv4 then text "0.0.0.0" else text "::"

def connect (calls : SocketCalls) (u : Udp) : Udp :=
  if u.options_.listenProtocol ≠ .none then
    let u := { u with
      shouldReceive_ := true
      listenEndpoint_ := ⟨anyAddress u.options_.listenProtocol, u.options_.listenPort⟩ }
    match (u.socketOpen calls.openError).andThen (socketBind calls.bindError) with
    | .returned u => u.startRead
    | .threw u _ => { u with shouldReceive_ := false }
  else u

/-- `socket_.close()` is taken not to throw. -/
def disconnect (u : Udp) : Udp :=
  { u with
    shouldReceive_ := false
    socket_ := { u.socket_ with isOpen := false, bound := none }
    pending := u.pending.map Operation.cancel }

def write (answer : Option Bytes) (data : Bytes) (u : Udp) : Outcome Bytes Udp :=
  (if !u.socket_.isOpen then u.socketOpen answer else .returned u).andThen fun u =>
    .returned (u.start (.send data u.writeEndpoint_))

def applyOptions (calls : SocketCalls) (fromString : FromString) (u : Udp) : Outcome Bytes Udp :=
  let u := if u.isConnected then u.disconnect.connect calls else u
  if u.options_.writeAddress ≠ [] ∧ 0 < u.options_.writePort then
    match fromString u.options_.writeAddress with
    | .ok address => .returned { u with writeEndpoint_ := ⟨address, u.options_.writePort⟩ }
    | .error what => .threw u what
  else .returned u

/-- `Udp::setOptions`: every member but the identifier. -/
def setOptions (u : Udp) (options : UdpOptions) : Udp :=
  { u with options_ := { options with identifier := u.options_.identifier } }

def setOptionWrite (u : Udp) (writeAddress : Bytes) (writePort : UInt16) : Udp :=
  { u with options_ := { u.options_ with writeAddress, writePort } }

def setOptionListen (u : Udp) (listenPort : UInt16) (listenProtocol : UdpOptions.Protocol) : Udp :=
  { u with options_ := { u.options_ with listenPort, listenProtocol } }

/-- The overloads of `setOption` that `setOptions` calls. -/
theorem setOptions_eq (u : Udp) (options : UdpOptions) :
    u.setOptions options =
      (u.setOptionListen options.listenPort options.listenProtocol).setOptionWrite
        options.writeAddress options.writePort := rfl

def handleRead (u : Udp) : Result → Udp
  | .ok n =>
      let u := { u.processData (u.bufferRx_.take n) with bufferRx_ := .replicate kBufferSize 0 }
      if u.shouldReceive_ then u.startRead else u
  | .error _ => u.disconnect

/-- The completion handler of an operation that finished with `r`. `handleWrite` only logs. -/
def handle (u : Udp) (r : Result) : UdpOp → Udp
  | .receive => u.handleRead r
  | .send _ _ => u

/-- What `buffer_rx_` takes of a datagram. -/
def received (data : Bytes) : Bytes := data.take kBufferSize

/-- A datagram goes to the first receive in flight. One that is longer than the buffer
is cut, without an error. An operation in flight may end with any error at any time, and
a send also without one. -/
def io (u : Udp) : IoEvent → Option Udp
  | .receive i data =>
      match u.pending[i]? with
      | some ⟨.receive, stamp, none⟩ =>
          if earlierFinished UdpOp.isReceive u.pending i then
            some { u with
              bufferRx_ := received data ++ u.bufferRx_.drop (received data).length
              pending := u.pending.set i ⟨.receive, stamp, some (.ok (received data).length)⟩ }
          else none
      | _ => none
  | .finish i r =>
      match u.pending[i]? with
      | some ⟨kind, stamp, none⟩ =>
          if r.isOk && kind.isReceive then none
          else some { u with pending := u.pending.set i ⟨kind, stamp, some r⟩ }
      | _ => none
  | .run i =>
      match u.pending[i]? with
      | some ⟨kind, _, some r⟩ => some ({ u with pending := u.pending.eraseIdx i }.handle r kind)
      | _ => none

inductive Event where
  | connect (calls : SocketCalls)
  | disconnect
  | applyOptions (calls : SocketCalls) (fromString : FromString)
  | setOptions (options : UdpOptions)
  | write (answer : Option Bytes) (data : Bytes)
  | io (e : IoEvent)

def step (u : Udp) : Event → Option Udp
  | .connect calls => some (u.connect calls)
  | .disconnect => some u.disconnect
  | .applyOptions calls fromString => some (u.applyOptions calls fromString).state
  | .setOptions options => some (u.setOptions options)
  | .write answer data => some (u.write answer data).state
  | .io e => u.io e

/-! ## What a step can do -/

section Steps

variable {u v : Udp} {i : Nat}

theorem io_receive {data : Bytes} (h : u.io (.receive i data) = some v) :
    ∃ stamp, u.pending[i]? = some ⟨.receive, stamp, none⟩ ∧
      v = { u with
        bufferRx_ := received data ++ u.bufferRx_.drop (received data).length
        pending := u.pending.set i ⟨.receive, stamp, some (.ok (received data).length)⟩ } := by
  simp only [io] at h
  split at h
  · rename_i stamp hop
    split at h
    · exact ⟨stamp, hop, (Option.some.inj h).symm⟩
    · cases h
  · cases h

theorem io_finish {r : Result} (h : u.io (.finish i r) = some v) :
    ∃ kind stamp, u.pending[i]? = some ⟨kind, stamp, none⟩ ∧
      v = { u with pending := u.pending.set i ⟨kind, stamp, some r⟩ } := by
  simp only [io] at h
  split at h
  · rename_i kind stamp hop
    split at h
    · cases h
    · exact ⟨kind, stamp, hop, (Option.some.inj h).symm⟩
  · cases h

theorem io_run (h : u.io (.run i) = some v) :
    ∃ kind stamp r, u.pending[i]? = some ⟨kind, stamp, some r⟩ ∧
      v = { u with pending := u.pending.eraseIdx i }.handle r kind := by
  simp only [io] at h
  split at h
  · rename_i kind stamp r hop
    exact ⟨kind, stamp, r, hop, (Option.some.inj h).symm⟩
  · cases h

theorem handleRead_ok_of_receiving (h : u.shouldReceive_ = true) (n : Nat) :
    u.handleRead (.ok n) =
      { u with
        delivered := u.delivered ++ [u.bufferRx_.take n]
        bufferRx_ := .replicate kBufferSize 0 }.startRead := by
  simp [handleRead, processData, h]

theorem handleRead_ok_of_stopped (h : u.shouldReceive_ = false) (n : Nat) :
    u.handleRead (.ok n) =
      { u with
        delivered := u.delivered ++ [u.bufferRx_.take n]
        bufferRx_ := .replicate kBufferSize 0 } := by
  simp [handleRead, processData, h]

/-- `connect()` on a closed socket that can be opened and bound starts a receive. -/
theorem connect_accepted (hp : u.options_.listenProtocol ≠ .none) (hc : u.socket_.isOpen = false)
    {calls : SocketCalls} (ho : calls.openError = none) (hb : calls.bindError = none) :
    ∃ endpoint, u.connect calls =
      { u with
        shouldReceive_ := true
        listenEndpoint_ := endpoint
        socket_ := ⟨true, u.socket_.generation + 1, some endpoint⟩ }.startRead := by
  refine ⟨⟨anyAddress u.options_.listenProtocol, u.options_.listenPort⟩, ?_⟩
  simp [connect, hp, socketOpen, hc, ho, socketBind, hb]

end Steps

/-! ## What the calls on the socket leave alone -/

section Keeps

variable {β : Type} (g : Udp → β)

/-- `g` reads neither the socket nor the members that go with it. -/
def Ignores : Prop :=
  ∀ (u : Udp) shouldReceive listen write socket pending,
    g { u with
      shouldReceive_ := shouldReceive, listenEndpoint_ := listen, writeEndpoint_ := write
      socket_ := socket, pending := pending } = g u

variable {g}

theorem socketOpen_keeps (hg : Ignores g) (answer : Option Bytes) (u : Udp) :
    g (u.socketOpen answer).state = g u := by
  unfold socketOpen
  split
  · rfl
  · split
    · exact hg u u.shouldReceive_ u.listenEndpoint_ u.writeEndpoint_ _ u.pending
    · rfl

theorem socketBind_keeps (hg : Ignores g) (answer : Option Bytes) (u : Udp) :
    g (u.socketBind answer).state = g u := by
  unfold socketBind
  split
  · exact hg u u.shouldReceive_ u.listenEndpoint_ u.writeEndpoint_ _ u.pending
  · rfl

theorem start_keeps (hg : Ignores g) (op : UdpOp) (u : Udp) : g (u.start op) = g u :=
  hg u u.shouldReceive_ u.listenEndpoint_ u.writeEndpoint_ u.socket_ _

theorem disconnect_keeps (hg : Ignores g) (u : Udp) : g u.disconnect = g u :=
  hg u false u.listenEndpoint_ u.writeEndpoint_ _ _

theorem connect_keeps (hg : Ignores g) (calls : SocketCalls) (u : Udp) :
    g (u.connect calls) = g u := by
  unfold connect
  split
  · dsimp only
    generalize hu : ({ u with
      shouldReceive_ := true
      listenEndpoint_ := ⟨anyAddress u.options_.listenProtocol, u.options_.listenPort⟩ } : Udp) = w
    have hw : g w = g u := by
      rw [← hu]
      exact hg u true _ u.writeEndpoint_ u.socket_ u.pending
    have hopened : g ((w.socketOpen calls.openError).andThen
        (socketBind calls.bindError)).state = g u :=
      Outcome.andThen_keeps g ((socketOpen_keeps hg _ w).trans hw) (socketBind_keeps hg _)
    split
    · rename_i v hv
      rw [hv] at hopened
      exact (start_keeps hg .receive v).trans hopened
    · rename_i v what hv
      rw [hv] at hopened
      exact (hg v false v.listenEndpoint_ v.writeEndpoint_ v.socket_ v.pending).trans hopened
  · rfl

theorem applyOptions_keeps (hg : Ignores g) (calls : SocketCalls) (fromString : FromString)
    (u : Udp) : g (u.applyOptions calls fromString).state = g u := by
  have hopen : g (if u.isConnected then u.disconnect.connect calls else u) = g u := by
    split
    · exact (connect_keeps hg calls _).trans (disconnect_keeps hg u)
    · rfl
  unfold applyOptions
  dsimp only
  generalize (if u.isConnected then u.disconnect.connect calls else u) = v at hopen ⊢
  split
  · split
    · exact (hg v v.shouldReceive_ v.listenEndpoint_ _ v.socket_ v.pending).trans hopen
    · exact hopen
  · exact hopen

theorem write_keeps (hg : Ignores g) (answer : Option Bytes) (data : Bytes) (u : Udp) :
    g (u.write answer data).state = g u := by
  refine Outcome.andThen_keeps g ?_ fun v => start_keeps hg _ v
  split
  · exact socketOpen_keeps hg answer u
  · rfl

end Keeps

/-! ## What a step hands over -/

section Handed

variable {u v : Udp}

/-- What a step hands to `handle_`: a receive that has succeeded does when its handler runs. -/
def handed (u : Udp) : Event → List Bytes
  | .io (.run i) =>
      match u.pending[i]? with
      | some ⟨.receive, _, some (.ok n)⟩ => [u.bufferRx_.take n]
      | _ => []
  | _ => []

theorem ignores_delivered : Ignores delivered := fun _ _ _ _ _ _ => rfl

theorem delivered_connect (u : Udp) (calls : SocketCalls) :
    (u.connect calls).delivered = u.delivered :=
  connect_keeps ignores_delivered calls u

theorem delivered_applyOptions (u : Udp) (calls : SocketCalls) (fromString : FromString) :
    (u.applyOptions calls fromString).state.delivered = u.delivered :=
  applyOptions_keeps ignores_delivered calls fromString u

theorem delivered_write (u : Udp) (answer : Option Bytes) (data : Bytes) :
    (u.write answer data).state.delivered = u.delivered :=
  write_keeps ignores_delivered answer data u

theorem delivered_handle (u : Udp) (r : Result) (kind : UdpOp) :
    (u.handle r kind).delivered = u.delivered ++
      (match kind, r with
        | .receive, .ok n => [u.bufferRx_.take n]
        | _, _ => []) := by
  cases kind with
  | receive =>
    cases r with
    | ok n =>
      simp only [handle, handleRead]
      split <;> rfl
    | error code => exact (List.append_nil _).symm
  | send buffer endpoint => exact (List.append_nil _).symm

theorem delivered_step {e : Event} (h : step u e = some v) :
    v.delivered = u.delivered ++ u.handed e := by
  cases e with
  | connect calls =>
    obtain rfl := Option.some.inj h
    exact (delivered_connect u calls).trans (List.append_nil _).symm
  | disconnect =>
    obtain rfl := Option.some.inj h
    exact (List.append_nil _).symm
  | applyOptions calls fromString =>
    obtain rfl := Option.some.inj h
    exact (delivered_applyOptions u calls fromString).trans (List.append_nil _).symm
  | setOptions options =>
    obtain rfl := Option.some.inj h
    exact (List.append_nil _).symm
  | write answer data =>
    obtain rfl := Option.some.inj h
    exact (delivered_write u answer data).trans (List.append_nil _).symm
  | io e =>
    cases e with
    | receive i data =>
      obtain ⟨stamp, hop, rfl⟩ := io_receive h
      exact (List.append_nil _).symm
    | finish i r =>
      obtain ⟨kind, stamp, hop, rfl⟩ := io_finish h
      exact (List.append_nil _).symm
    | run i =>
      obtain ⟨kind, stamp, r, hop, rfl⟩ := io_run h
      rw [delivered_handle, handed, hop]
      cases kind <;> cases r <;> rfl

end Handed

/-! ## The options -/

section OptionsKept

variable {u v : Udp}

theorem ignores_options : Ignores options_ := fun _ _ _ _ _ _ => rfl

theorem options_applyOptions (u : Udp) (calls : SocketCalls) (fromString : FromString) :
    (u.applyOptions calls fromString).state.options_ = u.options_ :=
  applyOptions_keeps ignores_options calls fromString u

theorem options_handle (u : Udp) (r : Result) (kind : UdpOp) :
    (u.handle r kind).options_ = u.options_ := by
  cases kind with
  | receive =>
    cases r with
    | ok n =>
      simp only [handle, handleRead]
      split <;> rfl
    | error code => rfl
  | send buffer endpoint => rfl

def Event.isSetOptions : Event → Bool
  | .setOptions _ => true
  | _ => false

/-- Only `setOptions` changes the options. -/
theorem options_step {e : Event} (hne : e.isSetOptions = false) (h : step u e = some v) :
    v.options_ = u.options_ := by
  cases e with
  | connect calls =>
    obtain rfl := Option.some.inj h
    exact connect_keeps ignores_options calls u
  | disconnect =>
    obtain rfl := Option.some.inj h
    rfl
  | applyOptions calls fromString =>
    obtain rfl := Option.some.inj h
    exact options_applyOptions u calls fromString
  | setOptions options => cases hne
  | write answer data =>
    obtain rfl := Option.some.inj h
    exact write_keeps ignores_options answer data u
  | io e =>
    cases e with
    | receive i data =>
      obtain ⟨stamp, hop, rfl⟩ := io_receive h
      rfl
    | finish i r =>
      obtain ⟨kind, stamp, hop, rfl⟩ := io_finish h
      rfl
    | run i =>
      obtain ⟨kind, stamp, r, hop, rfl⟩ := io_run h
      exact options_handle _ r kind

end OptionsKept

end Udp

end DeviceTester.Connection

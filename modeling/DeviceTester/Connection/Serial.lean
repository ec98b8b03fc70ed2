import DeviceTester.Connection.Options
import DeviceTester.Lib.Call
import DeviceTester.Lib.Operation
import DeviceTester.Lib.Run

/-!
# `connection::Serial`

The object and the operations it has outstanding on its `serial_port`. The
device answers every `open` and `set_option` made on it. The calls of
`Serial::open` and `Serial::applyOptions` are given a depth of recursion, and
are `none` where it is not enough.
-/
namespace DeviceTester.Connection

open DeviceTester.Lib

/-- What has been set on the port since it was opened. -/
structure PortSettings where
  baudRate : Option UInt32 := none
  parity : Option Parity := none
  charSize : Option CharacterSize := none
  flowControl : Option FlowControl := none
  stopBits : Option StopBits := none
  deriving DecidableEq, Repr

/-- `boost::asio::serial_port`. `generation` counts how often it was opened. -/
structure SerialPort where
  isOpen : Bool
  generation : Nat
  settings : PortSettings
  deriving DecidableEq, Repr

inductive SerialOp where
  | read
  | write (buffer : Bytes)
  deriving DecidableEq, Repr

def SerialOp.isRead : SerialOp → Bool
  | read => true
  | write _ => false

def SerialOp.isWrite : SerialOp → Bool
  | read => false
  | write _ => true

/-- The object, then what it has started, handed to `handle_` and transferred, and the number of
calls made on the device. `wire` has the bytes of all transfers in their order, however often the
port has been opened. -/
structure Serial where
  options_ : SerialOptions
  serial_ : SerialPort
  rxBuffer_ : Bytes
  pending : List (Operation SerialOp)
  delivered : List Bytes
  wire : Bytes
  deviceCalls : Nat

/-- The answer to the `n`-th call made on the device: success, or the text of what is thrown. -/
abbrev Device := Nat → Option Bytes

namespace Serial

/-- The constructor. `rx` is what the uninitialised `rx_buffer_` happens to hold. -/
def initial (identifier rx : Bytes) : Serial where
  options_ := .withIdentifier identifier
  serial_ := ⟨false, 0, {}⟩
  rxBuffer_ := rx
  pending := []
  delivered := []
  wire := []
  deviceCalls := 0

def start (s : Serial) (op : SerialOp) : Serial :=
  { s with pending := s.pending ++ [.begin s.serial_.isOpen op s.serial_.generation] }

def asyncReadSome (s : Serial) : Serial := s.start .read

/-- `handle_.processData`. -/
def processData (s : Serial) (data : Bytes) : Serial :=
  { s with delivered := s.delivered ++ [data] }

def handleRead (s : Serial) : Result → Serial
  | .ok n => (s.processData (s.rxBuffer_.take n)).asyncReadSome
  | .error _ => s

def handleWrite (s : Serial) (bufferTx : Bytes) : Result → Serial
  | .ok n => if bufferTx.length ≠ n then s.start (.write (bufferTx.drop n)) else s
  | .error _ => s

def isConnected (s : Serial) : Bool := s.serial_.isOpen

/-- `serial_.close()` is taken not to throw. -/
def disconnect (s : Serial) : Serial :=
  if s.serial_.isOpen then
    { s with
      serial_ := { s.serial_ with isOpen := false }
      pending := s.pending.map Operation.cancel }
  else s

/-- A call on the device, and its effect on the port when the device accepts it. -/
def callDevice (device : Device) (effect : SerialPort → SerialPort) (s : Serial) :
    Outcome Bytes Serial :=
  match device s.deviceCalls with
  | none => .returned { s with serial_ := effect s.serial_, deviceCalls := s.deviceCalls + 1 }
  | some what => .threw { s with deviceCalls := s.deviceCalls + 1 } what

/-- `serial_.open(options_.port)`. -/
def serialOpen (device : Device) : Serial → Outcome Bytes Serial :=
  callDevice device fun port => ⟨true, port.generation + 1, {}⟩

/-- `serial_.set_option(..)`. -/
def serialSetOption (device : Device) (set : PortSettings → PortSettings) :
    Serial → Outcome Bytes Serial :=
  callDevice device fun port => { port with settings := set port.settings }

/-- The five `set_option` calls at the end of `Serial::applyOptions`. -/
def setPortOptions (device : Device) (s : Serial) : Outcome Bytes Serial :=
  let o := s.options_
  ((((serialSetOption device ({ · with baudRate := some o.baudRate }) s).andThen
    (serialSetOption device ({ · with parity := some o.parity }))).andThen
    (serialSetOption device ({ · with charSize := some o.charSize }))).andThen
    (serialSetOption device ({ · with flowControl := some o.flowControl }))).andThen
    (serialSetOption device ({ · with stopBits := some o.stopBits }))

mutual

/-- `Serial::open`. -/
def openPort (device : Device) : Nat → Serial → Option (Outcome Bytes Serial)
  | 0, _ => none
  | depth + 1, s =>
      match if !s.serial_.isOpen then s.serialOpen device else .returned s with
      | .returned t => applyOptions device depth t
      | .threw t what => some (.threw t what)

/-- `Serial::applyOptions`. -/
def applyOptions (device : Device) : Nat → Serial → Option (Outcome Bytes Serial)
  | 0, _ => none
  | depth + 1, s =>
      if s.isConnected then
        (openPort device depth s.disconnect).map fun o => o.andThen (setPortOptions device)
      else some (s.setPortOptions device)

end

def connect (device : Device) (depth : Nat) (s : Serial) : Option (Outcome Bytes Serial) :=
  (openPort device depth s).map fun o => o.andThen fun t => .returned t.asyncReadSome

def write (s : Serial) (data : Bytes) : Serial :=
  if !s.serial_.isOpen then s else s.start (.write data)

/-- `Serial::setOptions`: one `setOption` for each member but the identifier. -/
def setOptions (s : Serial) (options : SerialOptions) : Serial :=
  { s with options_ := { options with identifier := s.options_.identifier } }

def setOptionPort (s : Serial) (port : Bytes) : Serial :=
  { s with options_ := { s.options_ with port } }

def setOptionBaudRate (s : Serial) (baudRate : UInt32) : Serial :=
  { s with options_ := { s.options_ with baudRate } }

def setOptionParity (s : Serial) (parity : Parity) : Serial :=
  { s with options_ := { s.options_ with parity } }

def setOptionCharSize (s : Serial) (charSize : CharacterSize) : Serial :=
  { s with options_ := { s.options_ with charSize } }

def setOptionFlowControl (s : Serial) (flowControl : FlowControl) : Serial :=
  { s with options_ := { s.options_ with flowControl } }

def setOptionStopBits (s : Serial) (stopBits : StopBits) : Serial :=
  { s with options_ := { s.options_ with stopBits } }

/-- The overloads of `setOption` that `setOptions` calls. -/
theorem setOptions_eq (s : Serial) (options : SerialOptions) :
    s.setOptions options =
      (((((s.setOptionPort options.port).setOptionBaudRate options.baudRate).setOptionParity
        options.parity).setOptionCharSize options.charSize).setOptionFlowControl
          options.flowControl).setOptionStopBits options.stopBits := rfl

/-- The completion handler of an operation that finished with `r`. -/
def handle (s : Serial) (r : Result) : SerialOp → Serial
  | .read => s.handleRead r
  | .write bufferTx => s.handleWrite bufferTx r

/-- Whether an operation in flight may finish with `r`, data for a read apart. A
write transfers after the writes started before it, and at least one byte when
it was given any. -/
def mayFinish (s : Serial) (i : Nat) : SerialOp → Result → Bool
  | .read, .ok _ => false
  | .write buffer, .ok n =>
      earlierFinished SerialOp.isWrite s.pending i && decide (n ≤ buffer.length) &&
        (buffer.isEmpty || decide (0 < n))
  | _, .error _ => true

/-- What the operating system does when an operation finishes. -/
def finished (s : Serial) : SerialOp → Result → Serial
  | .write buffer, .ok n => { s with wire := s.wire ++ buffer.take n }
  | _, _ => s

def io (s : Serial) : IoEvent → Option Serial
  | .receive i data =>
      match s.pending[i]? with
      | some ⟨.read, stamp, none⟩ =>
          if 0 < data.length ∧ data.length ≤ 64 then
            some { s with
              rxBuffer_ := data ++ s.rxBuffer_.drop data.length
              pending := s.pending.set i ⟨.read, stamp, some (.ok data.length)⟩ }
          else none
      | _ => none
  | .finish i r =>
      match s.pending[i]? with
      | some ⟨kind, stamp, none⟩ =>
          if s.mayFinish i kind r then
            some ({ s with pending := s.pending.set i ⟨kind, stamp, some r⟩ }.finished kind r)
          else none
      | _ => none
  | .run i =>
      match s.pending[i]? with
      | some ⟨kind, _, some r⟩ => some ({ s with pending := s.pending.eraseIdx i }.handle r kind)
      | _ => none

inductive Event where
  | connect (device : Device) (depth : Nat)
  | disconnect
  | applyOptions (device : Device) (depth : Nat)
  | setOptions (options : SerialOptions)
  | write (data : Bytes)
  | io (e : IoEvent)

/-- A call that runs on for ever is no step. -/
def step (s : Serial) : Event → Option Serial
  | .connect device depth => (s.connect device depth).map Outcome.state
  | .disconnect => some s.disconnect
  | .applyOptions device depth => (applyOptions device depth s).map Outcome.state
  | .setOptions options => some (s.setOptions options)
  | .write data => some (s.write data)
  | .io e => s.io e

/-! ## What a step can do -/

section Steps

variable {s u : Serial} {i : Nat}

theorem io_receive {data : Bytes} (h : s.io (.receive i data) = some u) :
    ∃ stamp, s.pending[i]? = some ⟨.read, stamp, none⟩ ∧
      u = { s with
        rxBuffer_ := data ++ s.rxBuffer_.drop data.length
        pending := s.pending.set i ⟨.read, stamp, some (.ok data.length)⟩ } := by
  simp only [io] at h
  split at h
  · rename_i stamp hop
    split at h
    · exact ⟨stamp, hop, (Option.some.inj h).symm⟩
    · cases h
  · cases h

theorem io_finish {r : Result} (h : s.io (.finish i r) = some u) :
    ∃ kind stamp, s.pending[i]? = some ⟨kind, stamp, none⟩ ∧ s.mayFinish i kind r = true ∧
      u = { s with pending := s.pending.set i ⟨kind, stamp, some r⟩ }.finished kind r := by
  simp only [io] at h
  split at h
  · rename_i kind stamp hop
    split at h
    · rename_i hm
      exact ⟨kind, stamp, hop, hm, (Option.some.inj h).symm⟩
    · cases h
  · cases h

theorem io_run (h : s.io (.run i) = some u) :
    ∃ kind stamp r, s.pending[i]? = some ⟨kind, stamp, some r⟩ ∧
      u = { s with pending := s.pending.eraseIdx i }.handle r kind := by
  simp only [io] at h
  split at h
  · rename_i kind stamp r hop
    exact ⟨kind, stamp, r, hop, (Option.some.inj h).symm⟩
  · cases h

end Steps

/-! ## What the calls on the device leave alone -/

section Keeps

variable {device : Device} {β : Type} (g : Serial → β)

theorem callDevice_keeps (hset : ∀ (s : Serial) port calls,
    g { s with serial_ := port, deviceCalls := calls } = g s)
    (effect : SerialPort → SerialPort) (s : Serial) :
    g (callDevice device effect s).state = g s := by
  unfold callDevice
  split
  · exact hset s _ _
  · exact hset s s.serial_ _

variable (hcall : ∀ (effect : SerialPort → SerialPort) (s : Serial),
  g (callDevice device effect s).state = g s)

include hcall

theorem setPortOptions_keeps (s : Serial) : g (s.setPortOptions device).state = g s := by
  unfold setPortOptions serialSetOption
  iterate 4 refine Outcome.andThen_keeps g ?_ (hcall _)
  exact hcall _ s

/-- What a call on the device and `disconnect()` leave as it was, the recursion does. The
induction is on its depth. -/
theorem recursion_keeps (hdisconnect : ∀ s : Serial, g s.disconnect = g s) (depth : Nat) :
    (∀ s o, openPort device depth s = some o → g o.state = g s) ∧
      ∀ s o, applyOptions device depth s = some o → g o.state = g s := by
  induction depth with
  | zero => exact ⟨fun _ _ h => (by cases h), fun _ _ h => (by cases h)⟩
  | succ depth ih =>
    obtain ⟨ihOpen, ihApply⟩ := ih
    constructor
    · intro s o h
      have hport : g (if !s.serial_.isOpen then s.serialOpen device
          else .returned s).state = g s := by
        split
        · exact hcall _ s
        · rfl
      rw [openPort] at h
      split at h
      · rename_i t ht
        rw [ht] at hport
        exact (ihApply t o h).trans hport
      · rename_i t what ht
        rw [ht] at hport
        obtain rfl := Option.some.inj h
        exact hport
    · intro s o h
      rw [applyOptions] at h
      split at h
      · obtain ⟨opened, hopened, rfl⟩ := Option.map_eq_some_iff.mp h
        refine Outcome.andThen_keeps g ?_ (setPortOptions_keeps g hcall)
        exact (ihOpen _ _ hopened).trans (hdisconnect s)
      · obtain rfl := Option.some.inj h
        exact setPortOptions_keeps g hcall s

end Keeps

/-! ## What a step hands over -/

section Handed

variable {device : Device} {s u : Serial}

/-- What a step hands to `handle_`: a read that has succeeded does when its handler runs. -/
def handed (s : Serial) : Event → List Bytes
  | .io (.run i) =>
      match s.pending[i]? with
      | some ⟨.read, _, some (.ok n)⟩ => [s.rxBuffer_.take n]
      | _ => []
  | _ => []

theorem delivered_disconnect (s : Serial) : s.disconnect.delivered = s.delivered := by
  unfold disconnect
  split <;> rfl

theorem delivered_recursion (device : Device) (depth : Nat) :
    (∀ s o, openPort device depth s = some o → o.state.delivered = s.delivered) ∧
      ∀ s o, applyOptions device depth s = some o → o.state.delivered = s.delivered :=
  recursion_keeps delivered (callDevice_keeps delivered fun _ _ _ => rfl) delivered_disconnect depth

theorem delivered_handle (s : Serial) (r : Result) (kind : SerialOp) :
    (s.handle r kind).delivered = s.delivered ++
      (match kind, r with
        | .read, .ok n => [s.rxBuffer_.take n]
        | _, _ => []) := by
  cases kind with
  | read =>
    cases r with
    | ok n => rfl
    | error code => exact (List.append_nil _).symm
  | write bufferTx =>
    rw [List.append_nil]
    cases r with
    | ok n =>
      simp only [handle, handleWrite]
      split <;> rfl
    | error code => rfl

theorem delivered_step {e : Event} (h : step s e = some u) :
    u.delivered = s.delivered ++ s.handed e := by
  cases e with
  | connect device depth =>
    obtain ⟨o, ho, rfl⟩ := Option.map_eq_some_iff.mp h
    obtain ⟨opened, hopened, rfl⟩ := Option.map_eq_some_iff.mp ho
    refine (Outcome.andThen_keeps delivered ?_ fun _ => rfl).trans (List.append_nil _).symm
    exact (delivered_recursion device depth).1 s opened hopened
  | disconnect =>
    obtain rfl := Option.some.inj h
    exact (delivered_disconnect s).trans (List.append_nil _).symm
  | applyOptions device depth =>
    obtain ⟨o, ho, rfl⟩ := Option.map_eq_some_iff.mp h
    exact ((delivered_recursion device depth).2 s o ho).trans (List.append_nil _).symm
  | setOptions options =>
    obtain rfl := Option.some.inj h
    exact (List.append_nil _).symm
  | write data =>
    obtain rfl := Option.some.inj h
    refine Eq.trans ?_ (List.append_nil _).symm
    unfold write
    split <;> rfl
  | io e =>
    cases e with
    | receive i data =>
      obtain ⟨stamp, hop, rfl⟩ := io_receive h
      exact (List.append_nil _).symm
    | finish i r =>
      obtain ⟨kind, stamp, hop, hm, rfl⟩ := io_finish h
      refine Eq.trans ?_ (List.append_nil _).symm
      cases kind <;> cases r <;> rfl
    | run i =>
      obtain ⟨kind, stamp, r, hop, rfl⟩ := io_run h
      rw [delivered_handle, handed, hop]
      cases kind <;> cases r <;> rfl

end Handed

/-! ## The options -/

section OptionsKept

variable {device : Device} {s u : Serial}

theorem options_disconnect (s : Serial) : s.disconnect.options_ = s.options_ := by
  unfold disconnect
  split <;> rfl

theorem options_recursion (device : Device) (depth : Nat) :
    (∀ s o, openPort device depth s = some o → o.state.options_ = s.options_) ∧
      ∀ s o, applyOptions device depth s = some o → o.state.options_ = s.options_ :=
  recursion_keeps options_ (callDevice_keeps options_ fun _ _ _ => rfl) options_disconnect depth

theorem options_handle (s : Serial) (r : Result) (kind : SerialOp) :
    (s.handle r kind).options_ = s.options_ := by
  cases kind with
  | read => cases r <;> rfl
  | write bufferTx =>
    cases r with
    | ok n =>
      simp only [handle, handleWrite]
      split <;> rfl
    | error code => rfl

def Event.isSetOptions : Event → Bool
  | .setOptions _ => true
  | _ => false

/-- Only `setOptions` changes the options. -/
theorem options_step {e : Event} (hne : e.isSetOptions = false) (h : step s e = some u) :
    u.options_ = s.options_ := by
  cases e with
  | connect device depth =>
    obtain ⟨o, ho, rfl⟩ := Option.map_eq_some_iff.mp h
    obtain ⟨opened, hopened, rfl⟩ := Option.map_eq_some_iff.mp ho
    refine Outcome.andThen_keeps options_ ?_ fun _ => rfl
    exact (options_recursion device depth).1 s opened hopened
  | disconnect =>
    obtain rfl := Option.some.inj h
    exact options_disconnect s
  | applyOptions device depth =>
    obtain ⟨o, ho, rfl⟩ := Option.map_eq_some_iff.mp h
    exact (options_recursion device depth).2 s o ho
  | setOptions options => cases hne
  | write data =>
    obtain rfl := Option.some.inj h
    unfold write
    split <;> rfl
  | io e =>
    cases e with
    | receive i data =>
      obtain ⟨stamp, hop, rfl⟩ := io_receive h
      rfl
    | finish i r =>
      obtain ⟨kind, stamp, hop, hm, rfl⟩ := io_finish h
      cases kind <;> cases r <;> rfl
    | run i =>
      obtain ⟨kind, stamp, r, hop, rfl⟩ := io_run h
      exact options_handle _ r kind

end OptionsKept

end Serial

end DeviceTester.Connection

import DeviceTester.Connection.Options

/-!
# `connection_settings.cpp`

The widgets that edit the options of a connection. In one frame each of them is left alone, or
gives what the user has made of it: the content of a text field, the number in an `InputInt`,
the index selected in a combo box.
-/
namespace DeviceTester.Gui

open DeviceTester.Connection

/-- `serial_port_base::parity::type(i)`. -/
def parityType : Fin 3 → Parity
  | 0 => .none
  | 1 => .odd
  | 2 => .even

/-- `serial_port_base::stop_bits::type(i)`. -/
def stopBitsType : Fin 3 → StopBits
  | 0 => .one
  | 1 => .onepointfive
  | 2 => .two

/-- `serial_port_base::flow_control::type(i)`. -/
def flowControlType : Fin 3 → FlowControl
  | 0 => .none
  | 1 => .software
  | 2 => .hardware

/-- `UdpOptions::Protocol(i)`. -/
def protocolType : Fin 3 → UdpOptions.Protocol
  | 0 => .none
  | 1 => .ipv4
  | 2 => .ipv6

/-- An `InputInt` for the character size. Numbers outside 5..8 are dropped. -/
def inputCharSize (old : CharacterSize) : Option Int32 → CharacterSize
  | none => old
  | some n =>
      if h : 5 ≤ n.toInt ∧ n.toInt ≤ 8 then ⟨n.toInt.toNat, by omega, by omega⟩ else old

/-- An `InputInt` for a port. Numbers that are no port are dropped. -/
def inputPort (old : UInt16) : Option Int32 → UInt16
  | none => old
  | some n => if 0 ≤ n.toInt ∧ n.toInt ≤ 65535 then .ofNat n.toInt.toNat else old

structure SerialInput where
  port : Option Bytes
  baudRate : Option Int32
  charSize : Option Int32
  parity : Option (Fin 3)
  stopBits : Option (Fin 3)
  flowControl : Option (Fin 3)

structure TcpInput where
  address : Option Bytes
  port : Option Int32
  service : Option Bytes

structure UdpInput where
  writeAddress : Option Bytes
  writePort : Option Int32
  listenPort : Option Int32
  listenProtocol : Option (Fin 3)

def drawSerialOptions (input : SerialInput) (opts : SerialOptions) : SerialOptions :=
  { opts with
    port := input.port.getD opts.port
    baudRate := (input.baudRate.map Int32.toUInt32).getD opts.baudRate
    charSize := inputCharSize opts.charSize input.charSize
    parity := (input.parity.map parityType).getD opts.parity
    stopBits := (input.stopBits.map stopBitsType).getD opts.stopBits
    flowControl := (input.flowControl.map flowControlType).getD opts.flowControl }

/-- The delimiter has no widget. -/
def drawTcpOptions (input : TcpInput) (opts : TcpOptions) : TcpOptions :=
  { opts with
    server := input.address.getD opts.server
    serverPort := inputPort opts.serverPort input.port
    service := input.service.getD opts.service }

def drawUdpOptions (input : UdpInput) (opts : UdpOptions) : UdpOptions :=
  { opts with
    writeAddress := input.writeAddress.getD opts.writeAddress
    writePort := inputPort opts.writePort input.writePort
    listenPort := inputPort opts.listenPort input.listenPort
    listenProtocol := (input.listenProtocol.map protocolType).getD opts.listenProtocol }

end DeviceTester.Gui

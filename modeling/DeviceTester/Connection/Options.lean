import Mathlib.Data.UInt

/-!
# Connection options

The option records of `serial_connection.hpp`, `tcp_connection.hpp` and
`udp_connection.hpp`, and the address type of the two kinds of sockets. A
`std::string` is a sequence of bytes, valid UTF-8 or not. The asio option
classes admit only the values their constructors accept.
-/
namespace DeviceTester.Connection

abbrev Bytes := List UInt8

/-- The bytes of an ASCII literal. -/
def text (s : String) : Bytes := s.toList.map fun c => UInt8.ofNat c.toNat

/-- `fmt::format("{}", n)` of an unsigned number. -/
def decimal (n : Nat) : Bytes := text (toString n)

/-- `tcp::endpoint` and `udp::endpoint`. -/
structure Endpoint where
  address : Bytes
  port : UInt16
  deriving DecidableEq, Repr

structure Options where
  identifier : Bytes
  deriving DecidableEq, Repr

/-- `serial_port_base::parity`. -/
inductive Parity where
  | none
  | odd
  | even
  deriving DecidableEq, Repr

/-- `serial_port_base::character_size`, whose constructor throws outside 5..8. -/
structure CharacterSize where
  value : Nat
  lower : 5 ≤ value
  upper : value ≤ 8
  deriving DecidableEq, Repr

/-- `serial_port_base::flow_control`. -/
inductive FlowControl where
  | none
  | software
  | hardware
  deriving DecidableEq, Repr

/-- `serial_port_base::stop_bits`. -/
inductive StopBits where
  | one
  | onepointfive
  | two
  deriving DecidableEq, Repr

structure SerialOptions extends Options where
  port : Bytes
  baudRate : UInt32
  parity : Parity
  charSize : CharacterSize
  flowControl : FlowControl
  stopBits : StopBits
  deriving DecidableEq, Repr

namespace SerialOptions

def kDefaultPar : Parity := .none
def kDefaultCharSize : CharacterSize := ⟨8, by decide, by decide⟩
def kDefaultFlow : FlowControl := .none
def kDefaultStopBits : StopBits := .one

/-- The constructor that takes the identifier. -/
def withIdentifier (identifier : Bytes) : SerialOptions where
  identifier := identifier
  port := []
  baudRate := 19200
  parity := kDefaultPar
  charSize := kDefaultCharSize
  flowControl := kDefaultFlow
  stopBits := kDefaultStopBits

end SerialOptions

structure TcpOptions extends Options where
  server : Bytes
  serverPort : UInt16
  service : Bytes
  packetEnd : UInt8
  deriving DecidableEq, Repr

/-- `TcpOptions{identifier}`: the members left out are value-initialised. -/
def TcpOptions.withIdentifier (identifier : Bytes) : TcpOptions where
  identifier := identifier
  server := []
  serverPort := 0
  service := []
  packetEnd := 0

namespace UdpOptions

/-- `unnamed` is a value of the underlying `int` that no enumerator has. -/
inductive Protocol where
  | none
  | ipv4
  | ipv6
  | unnamed (value : Int32) (other : value ≠ 0 ∧ value ≠ 1 ∧ value ≠ 2)
  deriving DecidableEq, Repr

end UdpOptions

structure UdpOptions extends Options where
  writeAddress : Bytes
  writePort : UInt16
  listenProtocol : UdpOptions.Protocol
  listenPort : UInt16
  deriving DecidableEq, Repr

/-- `UdpOptions{identifier}`: the members left out are value-initialised. -/
def UdpOptions.withIdentifier (identifier : Bytes) : UdpOptions where
  identifier := identifier
  writeAddress := []
  writePort := 0
  listenProtocol := .none
  listenPort := 0

end DeviceTester.Connection

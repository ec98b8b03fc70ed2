import DeviceTester.Config.Json

/-!
# Options as JSON

`config_io.hpp`: the conversions of the option records and of the asio option
classes. `null` stands for the default of an asio option.
-/
namespace DeviceTester.Connection

open DeviceTester.Config

/-- The signed `char` of a byte. -/
def charValue (b : UInt8) : Int := if b < 128 then b.toNat else b.toNat - 256

def Parity.toJson : Parity → Json
  | .none => .integer 0
  | .odd => .integer 1
  | .even => .integer 2

/-- `serial_port_base::parity(type)`. -/
def Parity.ofType (n : UInt32) : Except Failure Parity :=
  if n = 0 then .ok .none else if n = 1 then .ok .odd else if n = 2 then .ok .even
  else .error .outOfRange

def Parity.fromJson : Json → Except Failure Parity
  | .null => .ok SerialOptions.kDefaultPar
  | j => do Parity.ofType (UInt32.ofInt (← j.getEnum))

def CharacterSize.toJson (c : CharacterSize) : Json := .integer c.value

/-- `serial_port_base::character_size(unsigned int)`. -/
def CharacterSize.ofSize (n : UInt32) : Except Failure CharacterSize :=
  if h : 5 ≤ n.toNat ∧ n.toNat ≤ 8 then .ok ⟨n.toNat, h.1, h.2⟩ else .error .outOfRange

def CharacterSize.fromJson : Json → Except Failure CharacterSize
  | .null => .ok SerialOptions.kDefaultCharSize
  | j => do CharacterSize.ofSize (UInt32.ofInt (← j.getArithmetic))

def FlowControl.toJson : FlowControl → Json
  | .none => .integer 0
  | .software => .integer 1
  | .hardware => .integer 2

/-- `serial_port_base::flow_control(type)`. -/
def FlowControl.ofType (n : UInt32) : Except Failure FlowControl :=
  if n = 0 then .ok .none else if n = 1 then .ok .software else if n = 2 then .ok .hardware
  else .error .outOfRange

def FlowControl.fromJson : Json → Except Failure FlowControl
  | .null => .ok SerialOptions.kDefaultFlow
  | j => do FlowControl.ofType (UInt32.ofInt (← j.getEnum))

def StopBits.toJson : StopBits → Json
  | .one => .integer 0
  | .onepointfive => .integer 1
  | .two => .integer 2

/-- `serial_port_base::stop_bits(type)`. -/
def StopBits.ofType (n : UInt32) : Except Failure StopBits :=
  if n = 0 then .ok .one else if n = 1 then .ok .onepointfive else if n = 2 then .ok .two
  else .error .outOfRange

def StopBits.fromJson : Json → Except Failure StopBits
  | .null => .ok SerialOptions.kDefaultStopBits
  | j => do StopBits.ofType (UInt32.ofInt (← j.getEnum))

def SerialOptions.toJson (o : SerialOptions) : Json :=
  .ofMembers [(text "identifier", .string o.identifier), (text "port", .string o.port),
    (text "baud_rate", .integer o.baudRate.toNat), (text "parity", o.parity.toJson),
    (text "char_size", o.charSize.toJson), (text "flow_control", o.flowControl.toJson),
    (text "stop_bits", o.stopBits.toJson)]

def SerialOptions.fromJson (j : Json) : Except Failure SerialOptions := do
  let identifier ← (← j.atKey (text "identifier")).getString
  let port ← (← j.atKey (text "port")).getString
  let baudRate ← (← j.atKey (text "baud_rate")).getArithmetic
  let parity ← Parity.fromJson (← j.atKey (text "parity"))
  let charSize ← CharacterSize.fromJson (← j.atKey (text "char_size"))
  let flowControl ← FlowControl.fromJson (← j.atKey (text "flow_control"))
  let stopBits ← StopBits.fromJson (← j.atKey (text "stop_bits"))
  return { identifier, port, baudRate := UInt32.ofInt baudRate, parity, charSize, flowControl, stopBits }

def TcpOptions.toJson (o : TcpOptions) : Json :=
  .ofMembers [(text "identifier", .string o.identifier), (text "server", .string o.server),
    (text "server_port", .integer o.serverPort.toNat), (text "service", .string o.service),
    (text "packet_end", .integer (charValue o.packetEnd))]

def TcpOptions.fromJson (j : Json) : Except Failure TcpOptions := do
  let identifier ← (← j.atKey (text "identifier")).getString
  let server ← (← j.atKey (text "server")).getString
  let serverPort ← (← j.atKey (text "server_port")).getArithmetic
  let service ← (← j.atKey (text "service")).getString
  let packetEnd ← (← j.atKey (text "packet_end")).getArithmetic
  return {
    identifier, server, service
    serverPort := UInt16.ofInt serverPort, packetEnd := UInt8.ofInt packetEnd }

def UdpOptions.Protocol.toJson : UdpOptions.Protocol → Json
  | .none => .integer 0
  | .ipv4 => .integer 1
  | .ipv6 => .integer 2
  | .unnamed value _ => .integer value.toInt

/-- The cast to `UdpOptions::Protocol`, which checks nothing. -/
def UdpOptions.Protocol.ofType (n : Int32) : UdpOptions.Protocol :=
  if h₀ : n = 0 then .none
  else if h₁ : n = 1 then .ipv4
  else if h₂ : n = 2 then .ipv6
  else .unnamed n ⟨h₀, h₁, h₂⟩

def UdpOptions.toJson (o : UdpOptions) : Json :=
  .ofMembers [(text "identifier", .string o.identifier), (text "write_address", .string o.writeAddress),
    (text "write_port", .integer o.writePort.toNat),
    (text "listen_protocol", o.listenProtocol.toJson),
    (text "listen_port", .integer o.listenPort.toNat)]

def UdpOptions.fromJson (j : Json) : Except Failure UdpOptions := do
  let identifier ← (← j.atKey (text "identifier")).getString
  let writeAddress ← (← j.atKey (text "write_address")).getString
  let writePort ← (← j.atKey (text "write_port")).getArithmetic
  let listenProtocol ← (← j.atKey (text "listen_protocol")).getEnum
  let listenPort ← (← j.atKey (text "listen_port")).getArithmetic
  return {
    identifier, writeAddress
    writePort := UInt16.ofInt writePort
    listenProtocol := UdpOptions.Protocol.ofType (Int32.ofInt listenProtocol)
    listenPort := UInt16.ofInt listenPort }

/-! ## Reading back what has been written -/

theorem ofInt_toNat_uint32 (n : UInt32) : UInt32.ofInt n.toNat = n := by
  have hlt := n.toNat_lt
  rw [UInt32.ofInt, ← UInt32.toNat_inj, UInt32.toNat_ofNat']
  omega

theorem ofInt_toNat_uint16 (n : UInt16) : UInt16.ofInt n.toNat = n := by
  have hlt := n.toNat_lt
  rw [UInt16.ofInt, ← UInt16.toNat_inj, UInt16.toNat_ofNat']
  omega

theorem ofInt_charValue (b : UInt8) : UInt8.ofInt (charValue b) = b := by
  have hlt := b.toNat_lt
  rw [UInt8.ofInt, ← UInt8.toNat_inj, UInt8.toNat_ofNat', charValue]
  split <;> omega

theorem Parity.fromJson_toJson (p : Parity) : Parity.fromJson p.toJson = .ok p := by
  cases p <;> rfl

theorem FlowControl.fromJson_toJson (f : FlowControl) : FlowControl.fromJson f.toJson = .ok f := by
  cases f <;> rfl

theorem StopBits.fromJson_toJson (b : StopBits) : StopBits.fromJson b.toJson = .ok b := by
  cases b <;> rfl

theorem CharacterSize.fromJson_toJson (c : CharacterSize) :
    CharacterSize.fromJson c.toJson = .ok c := by
  have hlower := c.lower
  have hupper := c.upper
  have hvalue : (UInt32.ofInt c.value).toNat = c.value := by
    rw [UInt32.ofInt, UInt32.toNat_ofNat']
    omega
  change CharacterSize.ofSize (UInt32.ofInt c.value) = .ok c
  rw [CharacterSize.ofSize, dif_pos (by omega)]
  simp only [hvalue]

theorem UdpOptions.Protocol.ofType_toJson (p : UdpOptions.Protocol) :
    ∃ n, p.toJson = .integer n ∧ UdpOptions.Protocol.ofType (Int32.ofInt n) = p := by
  cases p with
  | none => exact ⟨0, rfl, rfl⟩
  | ipv4 => exact ⟨1, rfl, rfl⟩
  | ipv6 => exact ⟨2, rfl, rfl⟩
  | unnamed value other =>
    refine ⟨value.toInt, rfl, ?_⟩
    rw [Int32.ofInt_toInt, ofType, dif_neg other.1, dif_neg other.2.1, dif_neg other.2.2]

theorem SerialOptions.fromJson_toJson (o : SerialOptions) :
    SerialOptions.fromJson o.toJson = .ok o := by
  have hidentifier : o.toJson.atKey (text "identifier") = .ok (.string o.identifier) := rfl
  have hport : o.toJson.atKey (text "port") = .ok (.string o.port) := rfl
  have hbaudRate : o.toJson.atKey (text "baud_rate") = .ok (.integer o.baudRate.toNat) := rfl
  have hparity : o.toJson.atKey (text "parity") = .ok o.parity.toJson := rfl
  have hcharSize : o.toJson.atKey (text "char_size") = .ok o.charSize.toJson := rfl
  have hflowControl : o.toJson.atKey (text "flow_control") = .ok o.flowControl.toJson := rfl
  have hstopBits : o.toJson.atKey (text "stop_bits") = .ok o.stopBits.toJson := rfl
  simp only [fromJson, hidentifier, hport, hbaudRate, hparity, hcharSize, hflowControl, hstopBits,
    Json.getString, Json.getArithmetic, Json.getEnum, Parity.fromJson_toJson,
    CharacterSize.fromJson_toJson, FlowControl.fromJson_toJson, StopBits.fromJson_toJson,
    ofInt_toNat_uint32, bind, Except.bind, pure, Except.pure]

theorem TcpOptions.fromJson_toJson (o : TcpOptions) : TcpOptions.fromJson o.toJson = .ok o := by
  have hidentifier : o.toJson.atKey (text "identifier") = .ok (.string o.identifier) := rfl
  have hserver : o.toJson.atKey (text "server") = .ok (.string o.server) := rfl
  have hserverPort : o.toJson.atKey (text "server_port") = .ok (.integer o.serverPort.toNat) := rfl
  have hservice : o.toJson.atKey (text "service") = .ok (.string o.service) := rfl
  have hpacketEnd : o.toJson.atKey (text "packet_end") = .ok (.integer (charValue o.packetEnd)) := rfl
  simp only [fromJson, hidentifier, hserver, hserverPort, hservice, hpacketEnd, Json.getString,
    Json.getArithmetic, Json.getEnum, ofInt_toNat_uint16, ofInt_charValue, bind, Except.bind, pure,
    Except.pure]

theorem UdpOptions.fromJson_toJson (o : UdpOptions) : UdpOptions.fromJson o.toJson = .ok o := by
  obtain ⟨n, hjson, hprotocol⟩ := UdpOptions.Protocol.ofType_toJson o.listenProtocol
  have hidentifier : o.toJson.atKey (text "identifier") = .ok (.string o.identifier) := rfl
  have haddress : o.toJson.atKey (text "write_address") = .ok (.string o.writeAddress) := rfl
  have hwritePort : o.toJson.atKey (text "write_port") = .ok (.integer o.writePort.toNat) := rfl
  have hlisten : o.toJson.atKey (text "listen_protocol") = .ok o.listenProtocol.toJson := rfl
  have hlistenPort : o.toJson.atKey (text "listen_port") = .ok (.integer o.listenPort.toNat) := rfl
  simp only [fromJson, hidentifier, haddress, hwritePort, hlisten, hlistenPort, hjson, hprotocol,
    Json.getString, Json.getArithmetic, Json.getEnum, ofInt_toNat_uint16, bind, Except.bind, pure,
    Except.pure]

end DeviceTester.Connection

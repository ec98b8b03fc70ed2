import DeviceTester.Config.RoundTrip

/-!
# Entries that are well formed, and entries that are skipped

What an entry of the recents file stands for: each member has the type and the range of the
field it is for, and `null` stands for the default of an asio option, as `config_io.hpp` has it.
An entry that stands for nothing is to be skipped.
-/
namespace DeviceTester.Config

open DeviceTester.Connection

namespace Json

def field (key : Bytes) : Json → Option Json
  | object members => members.lookup key
  | _ => none

/-- What the member `key` stands for, where `read` takes it. -/
def readField {α : Type} (key : Bytes) (read : Json → Option α) (j : Json) : Option α :=
  (j.field key).bind read

def readString : Json → Option Bytes
  | string s => some s
  | _ => none

/-- A number without a fraction. -/
def readInteger : Json → Option Int
  | integer n => some n
  | floating x => if x.den = 1 then some x.num else none
  | _ => none

/-- A number from `low` to `high`. -/
def readRange (low high : Int) (j : Json) : Option Int :=
  j.readInteger.bind fun n => if low ≤ n ∧ n ≤ high then some n else none

def readUInt32 (j : Json) : Option UInt32 :=
  (j.readRange 0 4294967295).map fun n => .ofNat n.toNat

def readUInt16 (j : Json) : Option UInt16 :=
  (j.readRange 0 65535).map fun n => .ofNat n.toNat

/-- A `char`, which is signed. -/
def readChar (j : Json) : Option UInt8 :=
  (j.readRange (-128) 127).map fun n => .ofNat (if 0 ≤ n then n else n + 256).toNat

/-- An asio option of three values. -/
def readOption {α : Type} (default : α) (value : Int → α) : Json → Option α
  | null => some default
  | j => (j.readRange 0 2).map value

def readParity : Json → Option Parity :=
  readOption SerialOptions.kDefaultPar fun n =>
    if n = 0 then .none else if n = 1 then .odd else .even

def readCharacterSize : Json → Option CharacterSize
  | null => some SerialOptions.kDefaultCharSize
  | j => j.readInteger.bind fun n =>
      if h : 5 ≤ n.toNat ∧ n.toNat ≤ 8 then some ⟨n.toNat, h.1, h.2⟩ else none

def readFlowControl : Json → Option FlowControl :=
  readOption SerialOptions.kDefaultFlow fun n =>
    if n = 0 then .none else if n = 1 then .software else .hardware

def readStopBits : Json → Option StopBits :=
  readOption SerialOptions.kDefaultStopBits fun n =>
    if n = 0 then .one else if n = 1 then .onepointfive else .two

/-- Every `int` is a value of the enumeration. -/
def readProtocol (j : Json) : Option UdpOptions.Protocol :=
  (j.readRange (-2147483648) 2147483647).map fun n => .ofType (.ofInt n)

def readSerialOptions (j : Json) : Option SerialOptions := do
  let identifier ← j.readField (text "identifier") readString
  let port ← j.readField (text "port") readString
  let baudRate ← j.readField (text "baud_rate") readUInt32
  let parity ← j.readField (text "parity") readParity
  let charSize ← j.readField (text "char_size") readCharacterSize
  let flowControl ← j.readField (text "flow_control") readFlowControl
  let stopBits ← j.readField (text "stop_bits") readStopBits
  return { identifier, port, baudRate, parity, charSize, flowControl, stopBits }

def readTcpOptions (j : Json) : Option TcpOptions := do
  let identifier ← j.readField (text "identifier") readString
  let server ← j.readField (text "server") readString
  let serverPort ← j.readField (text "server_port") readUInt16
  let service ← j.readField (text "service") readString
  let packetEnd ← j.readField (text "packet_end") readChar
  return { identifier, server, serverPort, service, packetEnd }

def readUdpOptions (j : Json) : Option UdpOptions := do
  let identifier ← j.readField (text "identifier") readString
  let writeAddress ← j.readField (text "write_address") readString
  let writePort ← j.readField (text "write_port") readUInt16
  let listenProtocol ← j.readField (text "listen_protocol") readProtocol
  let listenPort ← j.readField (text "listen_port") readUInt16
  return { identifier, writeAddress, writePort, listenProtocol, listenPort }

/-- What a well-formed entry stands for. -/
def readConnection (con : Json) : Option RecentConnection := do
  let type ← con.readField (text "type") readString
  if type = text "serial" then
    return ⟨type, .serial (← con.readField (text "options") readSerialOptions)⟩
  else if type = text "tcp" then
    return ⟨type, .tcp (← con.readField (text "options") readTcpOptions)⟩
  else if type = text "udp" then
    return ⟨type, .udp (← con.readField (text "options") readUdpOptions)⟩
  else none

/-- An entry whose type is a string, and which is of no known type or without options. -/
def Skipped (con : Json) : Prop :=
  ∃ type, con.field (text "type") = some (.string type) ∧
    (type ∉ [text "serial", text "tcp", text "udp"] ∨ con.contains (text "options") = false)

/-! ## A well-formed value is converted to what it stands for -/

variable {j v con : Json} {key : Bytes} {n low high : Int}

theorem getEnum_of_readInteger (h : j.readInteger = some n) : j.getEnum = .ok n := by
  cases j with
  | integer m => exact congrArg Except.ok (Option.some.inj h)
  | floating x =>
    rw [readInteger] at h
    split at h
    · rename_i hden
      rw [getEnum, hden, ← Option.some.inj h]
      exact congrArg Except.ok (Int.tdiv_one x.num)
    · cases h
  | _ => cases h

theorem getArithmetic_of_readInteger (h : j.readInteger = some n) : j.getArithmetic = .ok n := by
  cases j with
  | boolean b => cases h
  | _ => exact getEnum_of_readInteger h

theorem readRange_eq_some (h : j.readRange low high = some n) :
    j.readInteger = some n ∧ low ≤ n ∧ n ≤ high := by
  obtain ⟨m, hm, h⟩ := Option.bind_eq_some_iff.mp h
  rw [Option.ite_none_right_eq_some] at h
  obtain ⟨hrange, hmn⟩ := h
  obtain rfl := Option.some.inj hmn
  exact ⟨hm, hrange⟩

theorem of_readField {α : Type} {read : Json → Option α} {a : α}
    (h : j.readField key read = some a) : ∃ v, j.atKey key = .ok v ∧ read v = some a := by
  obtain ⟨v, hv, ha⟩ := Option.bind_eq_some_iff.mp h
  refine ⟨v, ?_, ha⟩
  cases j with
  | object members =>
    rw [field] at hv
    rw [atKey, hv]
  | _ => cases hv

theorem getString_of_readString {s : Bytes} (h : v.readString = some s) : v.getString = .ok s := by
  cases v with
  | string t => exact congrArg Except.ok (Option.some.inj h)
  | _ => cases h

theorem getArithmetic_of_readRange {α : Type} {f : Int → α} {a : α}
    (h : (v.readRange low high).map f = some a) :
    ∃ n, v.getArithmetic = .ok n ∧ (low ≤ n ∧ n ≤ high) ∧ f n = a := by
  obtain ⟨n, hn, ha⟩ := Option.map_eq_some_iff.mp h
  obtain ⟨hinteger, hrange⟩ := readRange_eq_some hn
  exact ⟨n, getArithmetic_of_readInteger hinteger, hrange, ha⟩

theorem getEnum_of_readRange {α : Type} {f : Int → α} {a : α}
    (h : (v.readRange low high).map f = some a) :
    ∃ n, v.getEnum = .ok n ∧ (low ≤ n ∧ n ≤ high) ∧ f n = a := by
  obtain ⟨n, hn, ha⟩ := Option.map_eq_some_iff.mp h
  obtain ⟨hinteger, hrange⟩ := readRange_eq_some hn
  exact ⟨n, getEnum_of_readInteger hinteger, hrange, ha⟩

theorem getArithmetic_of_readUInt32 {x : UInt32} (h : v.readUInt32 = some x) :
    ∃ n, v.getArithmetic = .ok n ∧ UInt32.ofInt n = x := by
  obtain ⟨n, hn, hrange, rfl⟩ := getArithmetic_of_readRange h
  refine ⟨n, hn, ?_⟩
  rw [UInt32.ofInt, Int.emod_eq_of_lt hrange.1 (by omega)]

theorem getArithmetic_of_readUInt16 {x : UInt16} (h : v.readUInt16 = some x) :
    ∃ n, v.getArithmetic = .ok n ∧ UInt16.ofInt n = x := by
  obtain ⟨n, hn, hrange, rfl⟩ := getArithmetic_of_readRange h
  refine ⟨n, hn, ?_⟩
  rw [UInt16.ofInt, Int.emod_eq_of_lt hrange.1 (by omega)]

theorem getArithmetic_of_readChar {x : UInt8} (h : v.readChar = some x) :
    ∃ n, v.getArithmetic = .ok n ∧ UInt8.ofInt n = x := by
  obtain ⟨n, hn, hrange, rfl⟩ := getArithmetic_of_readRange h
  refine ⟨n, hn, ?_⟩
  rw [UInt8.ofInt]
  congr 2
  split <;> omega

theorem getEnum_of_readProtocol {p : UdpOptions.Protocol} (h : v.readProtocol = some p) :
    ∃ n, v.getEnum = .ok n ∧ UdpOptions.Protocol.ofType (.ofInt n) = p := by
  obtain ⟨n, hn, -, hp⟩ := getEnum_of_readRange h
  exact ⟨n, hn, hp⟩

theorem fromJson_of_readOption {α : Type} {default a : α} {value : Int → α}
    {fromJson : Json → Except Failure α} {ofType : UInt32 → Except Failure α}
    (hnull : fromJson .null = .ok default)
    (htype : ∀ n, v ≠ .null → v.getEnum = .ok n → fromJson v = ofType (.ofInt n))
    (hvalue : ofType 0 = .ok (value 0) ∧ ofType 1 = .ok (value 1) ∧ ofType 2 = .ok (value 2))
    (h : v.readOption default value = some a) : fromJson v = .ok a := by
  by_cases hv : v = .null
  · subst hv
    rw [hnull, Option.some.inj h]
  · rw [readOption] at h
    · obtain ⟨n, hn, hrange, rfl⟩ := getEnum_of_readRange h
      rw [htype n hv hn]
      obtain rfl | rfl | rfl : n = 0 ∨ n = 1 ∨ n = 2 := by omega
      · exact hvalue.1
      · exact hvalue.2.1
      · exact hvalue.2.2
    · exact hv

theorem fromJson_of_readParity {p : Parity} (h : v.readParity = some p) :
    Parity.fromJson v = .ok p := by
  have hvalue : Parity.ofType 0 = .ok .none ∧ Parity.ofType 1 = .ok .odd ∧ Parity.ofType 2 = .ok .even :=
    ⟨rfl, rfl, rfl⟩
  refine fromJson_of_readOption rfl ?_ hvalue h
  intro n hv hn
  rw [Parity.fromJson, hn]
  · rfl
  · exact hv

theorem fromJson_of_readFlowControl {f : FlowControl} (h : v.readFlowControl = some f) :
    FlowControl.fromJson v = .ok f := by
  have hvalue : FlowControl.ofType 0 = .ok .none ∧ FlowControl.ofType 1 = .ok .software ∧ FlowControl.ofType 2 = .ok .hardware :=
    ⟨rfl, rfl, rfl⟩
  refine fromJson_of_readOption rfl ?_ hvalue h
  intro n hv hn
  rw [FlowControl.fromJson, hn]
  · rfl
  · exact hv

theorem fromJson_of_readStopBits {b : StopBits} (h : v.readStopBits = some b) :
    StopBits.fromJson v = .ok b := by
  have hvalue : StopBits.ofType 0 = .ok .one ∧ StopBits.ofType 1 = .ok .onepointfive ∧ StopBits.ofType 2 = .ok .two :=
    ⟨rfl, rfl, rfl⟩
  refine fromJson_of_readOption rfl ?_ hvalue h
  intro n hv hn
  rw [StopBits.fromJson, hn]
  · rfl
  · exact hv

theorem fromJson_of_readCharacterSize {c : CharacterSize} (h : v.readCharacterSize = some c) :
    CharacterSize.fromJson v = .ok c := by
  by_cases hnull : v = .null
  · subst hnull
    exact congrArg Except.ok (Option.some.inj h)
  · rw [readCharacterSize] at h
    · obtain ⟨n, hn, hc⟩ := Option.bind_eq_some_iff.mp h
      rw [CharacterSize.fromJson, getArithmetic_of_readInteger hn]
      · split at hc
        · rename_i hrange
          obtain rfl := Option.some.inj hc
          have hsize : (UInt32.ofInt n).toNat = n.toNat := by
            rw [UInt32.ofInt, UInt32.toNat_ofNat']
            omega
          show CharacterSize.ofSize (UInt32.ofInt n) = _
          rw [CharacterSize.ofSize, dif_pos (by omega)]
          simp only [hsize]
        · cases hc
      · exact hnull
    · exact hnull

theorem fromJson_of_readSerialOptions {o : SerialOptions} (h : j.readSerialOptions = some o) :
    SerialOptions.fromJson j = .ok o := by
  obtain ⟨identifier, hidentifier, h⟩ := Option.bind_eq_some_iff.mp h
  obtain ⟨port, hport, h⟩ := Option.bind_eq_some_iff.mp h
  obtain ⟨baudRate, hbaudRate, h⟩ := Option.bind_eq_some_iff.mp h
  obtain ⟨parity, hparity, h⟩ := Option.bind_eq_some_iff.mp h
  obtain ⟨charSize, hcharSize, h⟩ := Option.bind_eq_some_iff.mp h
  obtain ⟨flowControl, hflowControl, h⟩ := Option.bind_eq_some_iff.mp h
  obtain ⟨stopBits, hstopBits, h⟩ := Option.bind_eq_some_iff.mp h
  obtain rfl := Option.some.inj h
  obtain ⟨v₁, hv₁, h₁⟩ := of_readField hidentifier
  obtain ⟨v₂, hv₂, h₂⟩ := of_readField hport
  obtain ⟨v₃, hv₃, h₃⟩ := of_readField hbaudRate
  obtain ⟨v₄, hv₄, h₄⟩ := of_readField hparity
  obtain ⟨v₅, hv₅, h₅⟩ := of_readField hcharSize
  obtain ⟨v₆, hv₆, h₆⟩ := of_readField hflowControl
  obtain ⟨v₇, hv₇, h₇⟩ := of_readField hstopBits
  obtain ⟨n, hn, hbaud⟩ := getArithmetic_of_readUInt32 h₃
  simp only [SerialOptions.fromJson, hv₁, hv₂, hv₃, hv₄, hv₅, hv₆, hv₇, getString_of_readString h₁,
    getString_of_readString h₂, hn, hbaud, fromJson_of_readParity h₄,
    fromJson_of_readCharacterSize h₅, fromJson_of_readFlowControl h₆, fromJson_of_readStopBits h₇,
    bind, Except.bind, pure, Except.pure]

theorem fromJson_of_readTcpOptions {o : TcpOptions} (h : j.readTcpOptions = some o) :
    TcpOptions.fromJson j = .ok o := by
  obtain ⟨identifier, hidentifier, h⟩ := Option.bind_eq_some_iff.mp h
  obtain ⟨server, hserver, h⟩ := Option.bind_eq_some_iff.mp h
  obtain ⟨serverPort, hserverPort, h⟩ := Option.bind_eq_some_iff.mp h
  obtain ⟨service, hservice, h⟩ := Option.bind_eq_some_iff.mp h
  obtain ⟨packetEnd, hpacketEnd, h⟩ := Option.bind_eq_some_iff.mp h
  obtain rfl := Option.some.inj h
  obtain ⟨v₁, hv₁, h₁⟩ := of_readField hidentifier
  obtain ⟨v₂, hv₂, h₂⟩ := of_readField hserver
  obtain ⟨v₃, hv₃, h₃⟩ := of_readField hserverPort
  obtain ⟨v₄, hv₄, h₄⟩ := of_readField hservice
  obtain ⟨v₅, hv₅, h₅⟩ := of_readField hpacketEnd
  obtain ⟨n, hn, hport⟩ := getArithmetic_of_readUInt16 h₃
  obtain ⟨m, hm, hend⟩ := getArithmetic_of_readChar h₅
  simp only [TcpOptions.fromJson, hv₁, hv₂, hv₃, hv₄, hv₅, getString_of_readString h₁,
    getString_of_readString h₂, getString_of_readString h₄, hn, hport, hm, hend, bind, Except.bind,
    pure, Except.pure]

theorem fromJson_of_readUdpOptions {o : UdpOptions} (h : j.readUdpOptions = some o) :
    UdpOptions.fromJson j = .ok o := by
  obtain ⟨identifier, hidentifier, h⟩ := Option.bind_eq_some_iff.mp h
  obtain ⟨writeAddress, hwriteAddress, h⟩ := Option.bind_eq_some_iff.mp h
  obtain ⟨writePort, hwritePort, h⟩ := Option.bind_eq_some_iff.mp h
  obtain ⟨listenProtocol, hlistenProtocol, h⟩ := Option.bind_eq_some_iff.mp h
  obtain ⟨listenPort, hlistenPort, h⟩ := Option.bind_eq_some_iff.mp h
  obtain rfl := Option.some.inj h
  obtain ⟨v₁, hv₁, h₁⟩ := of_readField hidentifier
  obtain ⟨v₂, hv₂, h₂⟩ := of_readField hwriteAddress
  obtain ⟨v₃, hv₃, h₃⟩ := of_readField hwritePort
  obtain ⟨v₄, hv₄, h₄⟩ := of_readField hlistenProtocol
  obtain ⟨v₅, hv₅, h₅⟩ := of_readField hlistenPort
  obtain ⟨n, hn, hwrite⟩ := getArithmetic_of_readUInt16 h₃
  obtain ⟨p, hp, hprotocol⟩ := getEnum_of_readProtocol h₄
  obtain ⟨m, hm, hlisten⟩ := getArithmetic_of_readUInt16 h₅
  simp only [UdpOptions.fromJson, hv₁, hv₂, hv₃, hv₄, hv₅, getString_of_readString h₁,
    getString_of_readString h₂, hn, hwrite, hp, hprotocol, hm, hlisten, bind, Except.bind, pure,
    Except.pure]

end Json

/-! ## One entry -/

variable {con : Json} {r : RecentConnection} {key : Bytes}

theorem constSubscript_of_field {v : Json} (h : con.field key = some v) :
    con.constSubscript key = .ok v ∧ con.contains key = true := by
  cases con with
  | object members =>
    rw [Json.field] at h
    rw [Json.constSubscript, Json.contains, h]
    exact ⟨rfl, rfl⟩
  | _ => cases h

theorem field_of_constSubscript {v : Json} (h : con.constSubscript key = .ok v) :
    con.field key = some v := by
  cases con with
  | object members =>
    rw [Json.constSubscript] at h
    rw [Json.field]
    cases hm : members.lookup key with
    | none =>
      rw [hm] at h
      cases h
    | some v' =>
      rw [hm] at h
      exact congrArg some (Except.ok.inj h)
  | _ => cases h

/-- The type of an entry, and its options where it has them. -/
theorem recentConnection_eq {type : Bytes} (htype : con.field (text "type") = some (.string type)) :
    recentConnection con =
      if type = text "serial" ∧ con.contains (text "options") then do
        let o ← SerialOptions.fromJson (← con.constSubscript (text "options"))
        return some ⟨type, .serial o⟩
      else if type = text "tcp" ∧ con.contains (text "options") then do
        let o ← TcpOptions.fromJson (← con.constSubscript (text "options"))
        return some ⟨type, .tcp o⟩
      else if type = text "udp" ∧ con.contains (text "options") then do
        let o ← UdpOptions.fromJson (← con.constSubscript (text "options"))
        return some ⟨type, .udp o⟩
      else return none := by
  rw [recentConnection, (constSubscript_of_field htype).1]
  rfl

theorem of_readString {v : Json} {s : Bytes} (h : v.readString = some s) : v = .string s := by
  cases v with
  | string t => rw [Option.some.inj h]
  | _ => cases h

/-- The options of an entry are converted to what they stand for. -/
theorem options_of_read {α : Type} {read : Json → Option α} {fromJson : Json → Except Failure α}
    {make : α → RecentConnection} (hfrom : ∀ j o, read j = some o → fromJson j = .ok o)
    (h : (do return make (← con.readField (text "options") read)) = some r) :
    con.contains (text "options") = true ∧
      (do
        let o ← fromJson (← con.constSubscript (text "options"))
        return some (make o)) = Except.ok (some r) := by
  obtain ⟨o, ho, hr⟩ := Option.bind_eq_some_iff.mp h
  obtain ⟨options, hoptions, hread⟩ := Option.bind_eq_some_iff.mp ho
  obtain ⟨hsubscript, hcontains⟩ := constSubscript_of_field hoptions
  obtain rfl := Option.some.inj hr
  refine ⟨hcontains, ?_⟩
  rw [hsubscript]
  simp only [bind, Except.bind, hfrom options o hread, pure, Except.pure]

theorem recentConnection_of_read (h : con.readConnection = some r) :
    recentConnection con = .ok (some r) := by
  obtain ⟨type, htype, h⟩ := Option.bind_eq_some_iff.mp h
  obtain ⟨v, hfield, hstring⟩ := Option.bind_eq_some_iff.mp htype
  rw [recentConnection_eq (of_readString hstring ▸ hfield)]
  by_cases hserial : type = text "serial"
  · rw [if_pos hserial] at h
    obtain ⟨hcontains, heq⟩ := options_of_read (fun _ _ => Json.fromJson_of_readSerialOptions) h
    rw [if_pos ⟨hserial, hcontains⟩]
    exact heq
  · rw [if_neg hserial] at h
    rw [if_neg (not_and_of_not_left _ hserial)]
    by_cases htcp : type = text "tcp"
    · rw [if_pos htcp] at h
      obtain ⟨hcontains, heq⟩ := options_of_read (fun _ _ => Json.fromJson_of_readTcpOptions) h
      rw [if_pos ⟨htcp, hcontains⟩]
      exact heq
    · rw [if_neg htcp] at h
      rw [if_neg (not_and_of_not_left _ htcp)]
      by_cases hudp : type = text "udp"
      · rw [if_pos hudp] at h
        obtain ⟨hcontains, heq⟩ := options_of_read (fun _ _ => Json.fromJson_of_readUdpOptions) h
        rw [if_pos ⟨hudp, hcontains⟩]
        exact heq
      · rw [if_neg hudp] at h
        cases h

/-- Where the loop converts the options of an entry it does not move on. -/
theorem converted_ne_none {α : Type} {x : Except Failure Json} {fromJson : Json → Except Failure α}
    {make : α → RecentConnection} :
    (do
      let o ← fromJson (← x)
      return some (make o)) ≠ Except.ok none := by
  intro h
  obtain ⟨_, -, h⟩ := ok_of_bind h
  obtain ⟨o, -, h⟩ := ok_of_bind h
  cases h

/-- An entry for which the loop moves on. -/
theorem recentConnection_none_iff : recentConnection con = .ok none ↔ con.Skipped := by
  constructor
  · intro h
    obtain ⟨v, hv, htail⟩ := ok_of_bind h
    obtain ⟨type, htype, -⟩ := ok_of_bind htail
    have hfield : con.field (text "type") = some (.string type) := by
      rw [field_of_constSubscript hv]
      cases v with
      | string s => rw [← Except.ok.inj htype]
      | _ => cases htype
    rw [recentConnection_eq hfield] at h
    refine ⟨type, hfield, ?_⟩
    cases hcontains : con.contains (text "options") with
    | false => exact .inr rfl
    | true =>
      left
      intro hmem
      rw [hcontains] at h
      simp only [and_true] at h
      split at h
      · exact converted_ne_none h
      · rename_i hserial
        split at h
        · exact converted_ne_none h
        · rename_i htcp
          split at h
          · exact converted_ne_none h
          · rename_i hudp
            simp [hserial, htcp, hudp] at hmem
  · rintro ⟨type, hfield, hskipped⟩
    have hbranch (known : Bytes) (hmem : known ∈ [text "serial", text "tcp", text "udp"]) :
        ¬ (type = known ∧ con.contains (text "options") = true) := by
      rintro ⟨rfl, hcontains⟩
      rcases hskipped with hunknown | hmissing
      · exact hunknown hmem
      · rw [hcontains] at hmissing
        cases hmissing
    rw [recentConnection_eq hfield, if_neg (hbranch _ (by simp)), if_neg (hbranch _ (by simp)),
      if_neg (hbranch _ (by simp))]
    rfl

/-- The loop does with an entry what it should exactly where the entry is well formed or is one
that it skips. -/
theorem recentConnection_read_iff :
    recentConnection con = .ok con.readConnection ↔
      con.readConnection.isSome = true ∨ con.Skipped := by
  cases h : con.readConnection with
  | none =>
    rw [recentConnection_none_iff]
    simp
  | some r => exact iff_of_true (recentConnection_of_read h) (.inl rfl)

/-! ## The whole list -/

variable {connections : List Json} {recents : List RecentConnection}

/-- Every well-formed entry is converted, so the result is never shorter than it should be. -/
theorem length_filterMap_le (h : recentConnectionsOf connections = .ok recents) :
    (connections.filterMap Json.readConnection).length ≤ recents.length := by
  induction connections generalizing recents with
  | nil => exact Nat.zero_le _
  | cons con rest ih =>
    obtain ⟨first, hfirst, h⟩ := ok_of_bind h
    obtain ⟨others, hothers, h⟩ := ok_of_bind h
    obtain rfl := Except.ok.inj h
    have hle := ih hothers
    rw [List.filterMap_cons, List.length_append]
    cases hread : con.readConnection with
    | none =>
      show (rest.filterMap Json.readConnection).length ≤ first.toList.length + others.length
      omega
    | some r =>
      obtain rfl := Except.ok.inj (hfirst.symm.trans (recentConnection_of_read hread))
      show (rest.filterMap Json.readConnection).length + 1 ≤ 1 + others.length
      omega

theorem recentConnectionsOf_filterMap_iff (connections : List Json) :
    recentConnectionsOf connections = .ok (connections.filterMap Json.readConnection) ↔
      ∀ con ∈ connections, recentConnection con = .ok con.readConnection := by
  induction connections with
  | nil => exact iff_of_true rfl (fun _ h => by cases h)
  | cons con rest ih =>
    rw [List.forall_mem_cons, ← ih]
    constructor
    · intro h
      obtain ⟨first, hfirst, h⟩ := ok_of_bind h
      obtain ⟨others, hothers, h⟩ := ok_of_bind h
      have happend := Except.ok.inj h
      have hle := length_filterMap_le hothers
      rw [List.filterMap_cons] at happend
      cases hread : con.readConnection with
      | none =>
        rw [hread] at happend
        have hlength := congrArg List.length happend
        rw [List.length_append] at hlength
        obtain rfl : first = none := by
          cases first with
          | none => rfl
          | some r =>
            rw [Option.toList_some, List.length_singleton] at hlength
            dsimp only at hlength
            omega
        rw [hothers]
        exact ⟨hfirst, congrArg Except.ok happend⟩
      | some r =>
        obtain rfl := Except.ok.inj (hfirst.symm.trans (recentConnection_of_read hread))
        rw [hread] at happend
        rw [hothers]
        exact ⟨hfirst, congrArg Except.ok (List.cons.inj happend).2⟩
    · rintro ⟨hfirst, hrest⟩
      rw [recentConnectionsOf, hfirst, hrest, List.filterMap_cons]
      cases con.readConnection <;> rfl

/-- A JSON document is read as it should be exactly where every entry is well formed, or has a
type that is a string and unknown or no options. -/
theorem reads_well_formed_iff {json : JsonText} {file : RecentsFile} {content : Bytes} {j : Json}
    (hcontent : file.content = some content) (hj : json.parse content = some j) :
    recentConnections json file = .ok ((entries j).filterMap Json.readConnection) ↔
      ∀ con ∈ entries j, con.readConnection.isSome = true ∨ con.Skipped := by
  rw [recentConnections_of_parse hcontent hj, recentConnectionsOf_filterMap_iff]
  apply forall₂_congr
  intro con _
  exact recentConnection_read_iff

/-- A udp connection that writes to `port`, and an entry of an unknown type. -/
def kPortDocument (port : Nat) : Json :=
  .object [(text "connections", .array [
    .object [(text "options", .object [(text "identifier", .string (text "u")),
      (text "listen_port", .integer 0), (text "listen_protocol", .integer 1),
      (text "write_address", .string []), (text "write_port", .integer port)]),
      (text "type", .string (text "udp"))],
    .object [(text "type", .string (text "usb"))]])]

def kPortText (port : Nat) : Bytes :=
  text "\x7b\"connections\":[\x7b\"options\":\x7b\"identifier\":\"u\",\"listen_port\":0," ++
    text "\"listen_protocol\":1,\"write_address\":\"\",\"write_port\":" ++ decimal port ++
    text "\x7d,\"type\":\"udp\"\x7d,\x7b\"type\":\"usb\"\x7d]\x7d"

/-- One text and the document it stands for. -/
def kPort (port : Nat) : JsonText where
  parse content := if content = kPortText port then some (kPortDocument port) else none
  dump _ := (kPortText port, true)

theorem kPort_parse (port : Nat) :
    (kPort port).parse (kPortText port) = some (kPortDocument port) :=
  if_pos rfl

def kPortOptions (port : UInt16) : UdpOptions where
  identifier := text "u"
  writeAddress := []
  writePort := port
  listenProtocol := .ipv4
  listenPort := 0

theorem port_read :
    recentConnections (kPort 4000) ⟨some (kPortText 4000), true⟩ =
      .ok [⟨text "udp", .udp (kPortOptions 4000)⟩] := by
  refine (reads_well_formed_iff rfl (kPort_parse 4000)).mpr ?_
  have hentries : entries (kPortDocument 4000) = [
      .object [(text "options", .object [(text "identifier", .string (text "u")),
        (text "listen_port", .integer 0), (text "listen_protocol", .integer 1),
        (text "write_address", .string []), (text "write_port", .integer 4000)]),
        (text "type", .string (text "udp"))],
      .object [(text "type", .string (text "usb"))]] := rfl
  rw [hentries, List.forall_mem_cons, List.forall_mem_singleton]
  refine ⟨.inl rfl, .inr ⟨text "usb", rfl, .inr rfl⟩⟩

/-- A port above 65535 is to be skipped, and is read as another port. -/
theorem wide_port_misread :
    recentConnections (kPort 70000) ⟨some (kPortText 70000), true⟩ =
        .ok [⟨text "udp", .udp (kPortOptions 4464)⟩] ∧
      recentConnections (kPort 70000) ⟨some (kPortText 70000), true⟩ ≠
        .ok ((entries (kPortDocument 70000)).filterMap Json.readConnection) := by
  have hread : recentConnections (kPort 70000) ⟨some (kPortText 70000), true⟩ =
      .ok [⟨text "udp", .udp (kPortOptions 4464)⟩] := by
    rw [recentConnections_of_parse rfl (kPort_parse 70000)]
    rfl
  have hskipped : (entries (kPortDocument 70000)).filterMap Json.readConnection = [] := rfl
  refine ⟨hread, ?_⟩
  rw [hread, hskipped]
  intro h
  cases h

end DeviceTester.Config

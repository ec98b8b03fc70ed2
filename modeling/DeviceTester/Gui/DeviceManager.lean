import DeviceTester.Config.Recent
import DeviceTester.Connection.Serial
import DeviceTester.Connection.Tcp
import DeviceTester.Connection.Udp
import DeviceTester.Lib.OneKey

/-!
# `gui::DeviceManager`

Its three maps, the recents file, and the objects behind the maps. A call of
`add*Connection` that finds its identifier unused makes a device, a connection and
a window, and all three are named by the number of the call.
-/
namespace DeviceTester.Gui

open DeviceTester.Lib DeviceTester.Connection DeviceTester.Config

abbrev Map (α : Type*) := AList fun _ : Bytes => α

/-- The object behind a `std::shared_ptr<connection::Connection>`. -/
inductive AnyConnection where
  | serial (s : Serial)
  | tcp (t : Tcp)
  | udp (u : Udp)

namespace AnyConnection

def options : AnyConnection → AnyOptions
  | serial s => .serial s.options_
  | tcp t => .tcp t.options_
  | udp u => .udp u.options_

def disconnect : AnyConnection → AnyConnection
  | serial s => serial s.disconnect
  | tcp t => tcp t.disconnect
  | udp u => udp u.disconnect

/-- What has been handed to `handle_.processData`. -/
def delivered : AnyConnection → List Bytes
  | serial s => s.delivered
  | tcp t => t.delivered
  | udp u => u.delivered

theorem delivered_disconnect (c : AnyConnection) : c.disconnect.delivered = c.delivered := by
  cases c with
  | serial s => exact Serial.delivered_disconnect s
  | tcp t => exact Tcp.delivered_disconnect
  | udp u => rfl

end AnyConnection

/-- A connection and the `DeviceConnection` that its `handle_` refers to. -/
structure Object where
  connection : AnyConnection
  handle : Nat

/-- `slots` holds the calls of `connectData`: the device, and the window whose slot it is. -/
structure DeviceManager where
  devices_ : Map Nat
  connections_ : Map Nat
  windows_ : Map Nat
  recentConnections_ : List RecentConnection
  file : RecentsFile
  objects : List Object
  slots : List (Nat × Nat)

/-- What the outside world answers while a connection is made, and what the members
that a constructor leaves uninitialised happen to hold. -/
structure Answers where
  rx : Bytes
  receive : Bool
  resolve : Resolver
  calls : SocketCalls
  fromString : FromString

/-- The texts that a routine returns. -/
structure Texts where
  inUse : Bytes
  failed : Bytes → Bytes
  added : Bytes

/-- How an `add*Connection` call ends: with what it returns or with what it throws. -/
abbrev Added := Except Failure (Bool × Bytes)

namespace DeviceManager

/-- A manager whose constructor has returned, with the list that it has read: `construct` says
which one that is. -/
def fresh (file : RecentsFile) (recents : List RecentConnection) : DeviceManager :=
  ⟨∅, ∅, ∅, recents, file, [], []⟩

def refreshRecents (json : JsonText) (m : DeviceManager) : Except Failure Unit × DeviceManager :=
  match recentConnections json m.file with
  | .ok recents => (.ok (), { m with recentConnections_ := recents })
  | .error e => (.error e, m)

/-- The constructor, which lets out what `refreshRecents()` throws. -/
def construct (json : JsonText) (file : RecentsFile) : Except Failure DeviceManager :=
  let (refreshed, m) := (fresh file []).refreshRecents json
  refreshed.map fun _ => m

/-- Where the constructor returns, the file can be read, and the list is what it reads as. -/
theorem construct_ok {json : JsonText} {file : RecentsFile} {m : DeviceManager}
    (h : construct json file = .ok m) :
    ∃ recents, recentConnections json file = .ok recents ∧ m = fresh file recents := by
  simp only [construct, refreshRecents, fresh] at h
  cases hread : recentConnections json file with
  | error e =>
    rw [hread] at h
    cases h
  | ok recents =>
    rw [hread] at h
    exact ⟨recents, rfl, (Except.ok.inj h).symm⟩

/-- `config::addRecentConnection` and `refreshRecents()`. -/
def storeRecent (json : JsonText) (options : AnyOptions) (m : DeviceManager) :
    Except Failure Unit × DeviceManager :=
  let (added, file) := addRecentConnection json options.kType options.toJson m.file
  match added with
  | .ok _ => { m with file := file }.refreshRecents json
  | .error e => (.error e, { m with file := file })

/-- `devices_[identifier] = ..` and the connection that is given the new device. -/
def makeDevice (identifier : Bytes) (connection : AnyConnection) (m : DeviceManager) :
    DeviceManager :=
  { m with
    devices_ := m.devices_.insert identifier m.objects.length
    objects := m.objects ++ [⟨connection, m.objects.length⟩] }

/-- `windows_.emplace`, which makes the window, and so connects its slot to the device,
before it finds out whether the identifier is in use. -/
def emplaceWindow (identifier : Bytes) (n : Nat) (m : DeviceManager) : DeviceManager :=
  { m with
    windows_ := if identifier ∈ m.windows_ then m.windows_ else m.windows_.insert identifier n
    slots := m.slots ++ [(n, n)] }

def emplaceConnection (identifier : Bytes) (n : Nat) (m : DeviceManager) : DeviceManager :=
  { m with
    connections_ :=
      if identifier ∈ m.connections_ then m.connections_ else m.connections_.insert identifier n }

/-- The end of the three routines: the recents file, and the connection goes into its map. -/
def enterConnection (texts : Texts) (json : JsonText) (identifier : Bytes) (n : Nat)
    (options : AnyOptions) (addToRecents : Bool) (m : DeviceManager) : Added × DeviceManager :=
  let (stored, m) := if addToRecents then m.storeRecent json options else (.ok (), m)
  match stored with
  | .error e => (.error e, m)
  | .ok _ => (.ok (true, texts.added), m.emplaceConnection identifier n)

/-- The body that the three routines share. `configured` is what the `try` block does
to the new connection. -/
def addConnection (texts : Texts) (json : JsonText) (identifier : Bytes)
    (configured : Outcome Bytes AnyConnection) (addToRecents : Bool) (m : DeviceManager) :
    Added × DeviceManager :=
  if identifier ∈ m.connections_ then (.ok (false, texts.inUse), m)
  else
    let n := m.objects.length
    let m := m.makeDevice identifier configured.state
    match configured with
    | .threw _ what =>
        (.ok (false, texts.failed what), { m with devices_ := m.devices_.erase identifier })
    | .returned con =>
        (m.emplaceWindow identifier n).enterConnection texts json identifier n con.options
          addToRecents

/-- The `try` blocks of the three routines, on the connection just made. -/
def configureSerial (a : Answers) (opts : SerialOptions) : Outcome Bytes AnyConnection :=
  .returned (.serial ((Serial.initial opts.identifier a.rx).setOptions opts))

def configureTcp (a : Answers) (opts : TcpOptions) : Outcome Bytes AnyConnection :=
  match ((Tcp.initial opts.identifier).setOptions opts).applyOptions a.resolve with
  | .returned t => .returned (.tcp t)
  | .threw t what => .threw (.tcp t) what

def configureUdp (a : Answers) (opts : UdpOptions) : Outcome Bytes AnyConnection :=
  match ((Udp.initial opts.identifier a.rx a.receive).setOptions opts).applyOptions
      a.calls a.fromString with
  | .returned u => .returned (.udp u)
  | .threw u what => .threw (.udp u) what

def addSerialConnection (json : JsonText) (a : Answers) (opts : SerialOptions)
    (addToRecents : Bool) : DeviceManager → Added × DeviceManager :=
  addConnection
    { inUse := text "Connection with identifier already exists"
      failed := fun what =>
        text "while adding serial device " ++ opts.port ++ text ". with error: " ++ what
      added := text "Connection added" }
    json opts.identifier (configureSerial a opts) addToRecents

-- The format strings of the next two have one place for two arguments: what was
-- thrown is not shown.
def addTcpConnection (json : JsonText) (a : Answers) (opts : TcpOptions)
    (addToRecents : Bool) : DeviceManager → Added × DeviceManager :=
  addConnection
    { inUse := text "tcp connection identifier already exits. please close it first"
      failed := fun _ => text "tcp connection with error: " ++ opts.identifier
      added := text "Connection established" }
    json opts.identifier (configureTcp a opts) addToRecents

def addUdpConnection (json : JsonText) (a : Answers) (opts : UdpOptions)
    (addToRecents : Bool) : DeviceManager → Added × DeviceManager :=
  addConnection
    { inUse := text "udp connection identifier already exits. please close it first"
      failed := fun _ => text "udp connection with error: " ++ opts.identifier
      added := text "Connection established" }
    json opts.identifier (configureUdp a opts) addToRecents

/-! ## The close loop of `drawMenu` -/

def eraseWindow (identifier : Bytes) (m : DeviceManager) : DeviceManager :=
  { m with windows_ := m.windows_.erase identifier }

def disconnectConnection (identifier : Bytes) (m : DeviceManager) : DeviceManager :=
  match m.connections_.lookup identifier with
  | none => m
  | some n =>
      { m with
        objects := m.objects.modify n fun o => { o with connection := o.connection.disconnect } }

def eraseConnection (identifier : Bytes) (m : DeviceManager) : DeviceManager :=
  { m with connections_ := m.connections_.erase identifier }

def eraseDevice (identifier : Bytes) (m : DeviceManager) : DeviceManager :=
  { m with devices_ := m.devices_.erase identifier }

def closeConnection (m : DeviceManager) (identifier : Bytes) : DeviceManager :=
  eraseDevice identifier (eraseConnection identifier
    (disconnectConnection identifier (eraseWindow identifier m)))

/-- The loop over `delayed_delete`. -/
def closeConnections (identifiers : List Bytes) (m : DeviceManager) : DeviceManager :=
  identifiers.foldl closeConnection m

/-- An `add*Connection` call is named by its options. -/
def add (json : JsonText) (a : Answers) (opts : AnyOptions) (addToRecents : Bool) :
    DeviceManager → Added × DeviceManager :=
  match opts with
  | .serial o => addSerialConnection json a o addToRecents
  | .tcp o => addTcpConnection json a o addToRecents
  | .udp o => addUdpConnection json a o addToRecents

def configure (a : Answers) : AnyOptions → Outcome Bytes AnyConnection
  | .serial o => configureSerial a o
  | .tcp o => configureTcp a o
  | .udp o => configureUdp a o

/-! ## What a call can do -/

variable {json : JsonText} {m : DeviceManager}

theorem add_eq (json : JsonText) (a : Answers) (opts : AnyOptions) (addToRecents : Bool) :
    ∃ texts, add json a opts addToRecents =
      addConnection texts json opts.identifier (configure a opts) addToRecents := by
  cases opts with
  | serial o => exact ⟨_, rfl⟩
  | tcp o => exact ⟨_, rfl⟩
  | udp o => exact ⟨_, rfl⟩

/-- Configuring a new connection gives it the options of the call. -/
theorem options_configure {a : Answers} {opts : AnyOptions} {con : AnyConnection}
    (h : configure a opts = .returned con) : con.options = opts := by
  cases opts with
  | serial o =>
    obtain rfl := Outcome.returned.inj h
    rfl
  | tcp o =>
    obtain rfl := Outcome.returned.inj h
    rfl
  | udp o =>
    have hopt := Udp.options_applyOptions
      ((Udp.initial o.identifier a.rx a.receive).setOptions o) a.calls a.fromString
    simp only [configure, configureUdp] at h
    split at h
    · rename_i u hu
      obtain rfl := Outcome.returned.inj h
      rw [hu] at hopt
      exact congrArg AnyOptions.udp hopt
    · cases h

theorem storeRecent_ok_iff {options : AnyOptions} :
    (m.storeRecent json options).1 = .ok () ↔ Accepts json m.file options := by
  rw [← accepts_iff]
  unfold storeRecent refreshRecents
  obtain ⟨added, file⟩ := addRecentConnection json options.kType options.toJson m.file
  cases added with
  | error e => simp
  | ok b =>
    dsimp only
    cases recentConnections json file <;> simp

/-- The step of the recents file leaves everything else alone. -/
theorem storeRecent_frame (json : JsonText) (options : AnyOptions) (m : DeviceManager) :
    ∃ recents file, (m.storeRecent json options).2 =
      { m with recentConnections_ := recents, file := file } := by
  unfold storeRecent refreshRecents
  obtain ⟨added, file⟩ := addRecentConnection json options.kType options.toJson m.file
  cases added with
  | error e => exact ⟨m.recentConnections_, file, rfl⟩
  | ok b =>
    dsimp only
    cases recentConnections json file with
    | error e => exact ⟨m.recentConnections_, file, rfl⟩
    | ok recents => exact ⟨recents, file, rfl⟩

theorem enterConnection_cases (texts : Texts) (json : JsonText) (identifier : Bytes) (n : Nat)
    (options : AnyOptions) (addToRecents : Bool) (m : DeviceManager) :
    ∃ recents file,
      (addToRecents = true ∧ ¬ Accepts json m.file options ∧
        ∃ e, m.enterConnection texts json identifier n options addToRecents =
          (.error e, { m with recentConnections_ := recents, file := file })) ∨
      ((addToRecents = true → Accepts json m.file options) ∧
        m.enterConnection texts json identifier n options addToRecents =
          (.ok (true, texts.added),
            { m with recentConnections_ := recents, file := file }.emplaceConnection identifier n)) := by
  unfold enterConnection
  cases addToRecents with
  | false => exact ⟨m.recentConnections_, m.file, .inr ⟨by simp, rfl⟩⟩
  | true =>
    obtain ⟨recents, file, hframe⟩ := storeRecent_frame json options m
    have haccept : (m.storeRecent json options).1 = .ok () ↔ Accepts json m.file options :=
      storeRecent_ok_iff
    refine ⟨recents, file, ?_⟩
    rw [if_pos rfl, ← hframe]
    rcases hs : m.storeRecent json options with ⟨stored, m'⟩
    rw [hs] at haccept
    cases stored with
    | error e =>
      have hreject : ¬ Accepts json m.file options := by
        rw [← haccept]
        exact fun h => by cases h
      exact .inl ⟨rfl, hreject, e, rfl⟩
    | ok _ => exact .inr ⟨fun _ => haccept.mp rfl, rfl⟩

/-- The state in which an `add*Connection` call that configures its connection reaches
the step of the recents file. -/
def withWindow (identifier : Bytes) (con : AnyConnection) (m : DeviceManager) : DeviceManager :=
  (m.makeDevice identifier con).emplaceWindow identifier m.objects.length

theorem addConnection_of_returned {identifier : Bytes} (hin : identifier ∉ m.connections_)
    (texts : Texts) (con : AnyConnection) (addToRecents : Bool) :
    addConnection texts json identifier (.returned con) addToRecents m =
      (m.withWindow identifier con).enterConnection texts json identifier m.objects.length
        con.options addToRecents := by
  rw [addConnection, if_neg hin]
  rfl

/-- How a call of `add*Connection` can end. -/
inductive AddCases (json : JsonText) (a : Answers) (opts : AnyOptions) (addToRecents : Bool)
    (m : DeviceManager) : Added → DeviceManager → Prop where
  | inUse (hin : opts.identifier ∈ m.connections_) (message : Bytes) :
      AddCases json a opts addToRecents m (.ok (false, message)) m
  | failed (hin : opts.identifier ∉ m.connections_) (con : AnyConnection) (what message : Bytes)
      (hc : configure a opts = .threw con what) :
      AddCases json a opts addToRecents m (.ok (false, message))
        { m.makeDevice opts.identifier con with
          devices_ := (m.makeDevice opts.identifier con).devices_.erase opts.identifier }
  | threw (hin : opts.identifier ∉ m.connections_) (con : AnyConnection)
      (recents : List RecentConnection) (file : RecentsFile) (e : Failure)
      (hc : configure a opts = .returned con) (hadd : addToRecents = true)
      (haccept : ¬ Accepts json m.file opts) :
      AddCases json a opts addToRecents m (.error e)
        { m.withWindow opts.identifier con with recentConnections_ := recents, file := file }
  | added (hin : opts.identifier ∉ m.connections_) (con : AnyConnection)
      (recents : List RecentConnection) (file : RecentsFile) (message : Bytes)
      (hc : configure a opts = .returned con)
      (haccept : addToRecents = true → Accepts json m.file opts) :
      AddCases json a opts addToRecents m (.ok (true, message))
        { m.withWindow opts.identifier con with
          connections_ := m.connections_.insert opts.identifier m.objects.length
          recentConnections_ := recents, file := file }

theorem add_cases (json : JsonText) (a : Answers) (opts : AnyOptions) (addToRecents : Bool)
    (m : DeviceManager) :
    AddCases json a opts addToRecents m (m.add json a opts addToRecents).1
      (m.add json a opts addToRecents).2 := by
  obtain ⟨texts, htexts⟩ := add_eq json a opts addToRecents
  rw [htexts]
  by_cases hin : opts.identifier ∈ m.connections_
  · rw [addConnection, if_pos hin]
    exact .inUse hin texts.inUse
  cases hc : configure a opts with
  | threw con what =>
    rw [addConnection, if_neg hin]
    exact .failed hin con what (texts.failed what) hc
  | returned con =>
    rw [addConnection_of_returned hin, options_configure hc]
    obtain ⟨recents, file, ⟨hadd, haccept, e, h⟩ | ⟨haccept, h⟩⟩ :=
      enterConnection_cases texts json opts.identifier m.objects.length opts addToRecents
        (m.withWindow opts.identifier con)
    · rw [h]
      exact .threw hin con recents file e hc hadd haccept
    · have hnew : opts.identifier ∉ (m.withWindow opts.identifier con).connections_ := hin
      rw [h, emplaceConnection, if_neg hnew]
      exact .added hin con recents file texts.added hc haccept

/-- A call makes at most one object, after all others. -/
theorem add_objects (json : JsonText) (a : Answers) (opts : AnyOptions) (addToRecents : Bool)
    (m : DeviceManager) :
    ∃ added, (m.add json a opts addToRecents).2.objects = m.objects ++ added := by
  have hcases := add_cases json a opts addToRecents m
  generalize m.add json a opts addToRecents = r at hcases
  obtain ⟨added, m'⟩ := r
  cases hcases with
  | inUse hin message => exact ⟨[], (List.append_nil _).symm⟩
  | failed hin con what message hc => exact ⟨_, rfl⟩
  | threw hin con recents file e hc hadd haccept => exact ⟨_, rfl⟩
  | added hin con recents file message hc haccept => exact ⟨_, rfl⟩

/-- Disconnecting leaves where every object delivers to and what it has delivered. -/
theorem getElem?_disconnect (identifier : Bytes) {n : Nat} {o : Object}
    (h : m.objects[n]? = some o) :
    ∃ o', (m.disconnectConnection identifier).objects[n]? = some o' ∧ o'.handle = o.handle ∧
      o'.connection.delivered = o.connection.delivered := by
  unfold disconnectConnection
  cases m.connections_.lookup identifier with
  | none => exact ⟨o, h, rfl, rfl⟩
  | some k =>
    simp only [List.getElem?_modify, h]
    split
    · exact ⟨_, rfl, rfl, AnyConnection.delivered_disconnect o.connection⟩
    · exact ⟨o, rfl, rfl, rfl⟩

theorem disconnectConnection_maps (identifier : Bytes) (m : DeviceManager) :
    (m.disconnectConnection identifier).devices_ = m.devices_ ∧
      (m.disconnectConnection identifier).connections_ = m.connections_ ∧
      (m.disconnectConnection identifier).windows_ = m.windows_ := by
  unfold disconnectConnection
  cases m.connections_.lookup identifier with
  | none => exact ⟨rfl, rfl, rfl⟩
  | some k => exact ⟨rfl, rfl, rfl⟩

end DeviceManager

end DeviceTester.Gui

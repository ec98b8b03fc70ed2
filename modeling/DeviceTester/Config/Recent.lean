import DeviceTester.Connection.ConfigIo

/-!
# The file of recent connections

`config/recent.hpp` and `config/recent.cpp`. The file is rewritten in place:
opening it for writing empties it, and writing it may then fail.
-/
namespace DeviceTester.Config

open DeviceTester.Connection

/-- The file: what reading it gives, if it can be opened, and whether it can be written. -/
structure RecentsFile where
  content : Option Bytes
  writable : Bool

/-- The options behind a `std::shared_ptr<connection::Options>`. -/
inductive AnyOptions where
  | serial (o : SerialOptions)
  | tcp (o : TcpOptions)
  | udp (o : UdpOptions)
  deriving DecidableEq, Repr

namespace AnyOptions

def identifier : AnyOptions → Bytes
  | serial o => o.identifier
  | tcp o => o.identifier
  | udp o => o.identifier

/-- `kType` of the connection class that the options are for. -/
def kType : AnyOptions → Bytes
  | serial _ => text "serial"
  | tcp _ => text "tcp"
  | udp _ => text "udp"

def toJson : AnyOptions → Json
  | serial o => o.toJson
  | tcp o => o.toJson
  | udp o => o.toJson

end AnyOptions

structure RecentConnection where
  connectionType : Bytes
  options : AnyOptions
  deriving DecidableEq, Repr

/-- One turn of the loop in `recentConnections`: nothing for an entry that is skipped. -/
def recentConnection (con : Json) : Except Failure (Option RecentConnection) := do
  let type ← (← con.constSubscript (text "type")).getString
  if type = text "serial" ∧ con.contains (text "options") then
    let o ← SerialOptions.fromJson (← con.constSubscript (text "options"))
    return some ⟨type, .serial o⟩
  else if type = text "tcp" ∧ con.contains (text "options") then
    let o ← TcpOptions.fromJson (← con.constSubscript (text "options"))
    return some ⟨type, .tcp o⟩
  else if type = text "udp" ∧ con.contains (text "options") then
    let o ← UdpOptions.fromJson (← con.constSubscript (text "options"))
    return some ⟨type, .udp o⟩
  else return none

def recentConnectionsOf : List Json → Except Failure (List RecentConnection)
  | [] => .ok []
  | con :: rest => do
      let first ← recentConnection con
      let others ← recentConnectionsOf rest
      return first.toList ++ others

def recentConnections (json : JsonText) (file : RecentsFile) :
    Except Failure (List RecentConnection) :=
  match file.content with
  | none => .ok []
  | some content =>
      match json.parse content with
      | none => .error .parseError
      | some (.object members) =>
          match members.lookup (text "connections") with
          | some (.array connections) => recentConnectionsOf connections
          | _ => .ok []
      | some _ => .ok []

/-- The document with the connection added, before it is written. -/
def withConnection (json : JsonText) (file : RecentsFile) (type : Bytes) (options : Json) :
    Except Failure Json := do
  let j ←
    match file.content with
    | none => .ok Json.null
    | some content =>
        match json.parse content with
        | none => .error .parseError
        | some j => .ok j
  j.pushMember (text "connections")
    (.ofMembers [(text "type", .string type), (text "options", options)])

/-- `addRecentConnection`, and the file as it leaves it. -/
def addRecentConnection (json : JsonText) (type : Bytes) (options : Json) (file : RecentsFile) :
    Except Failure Bool × RecentsFile :=
  match withConnection json file type options with
  | .error e => (.error e, file)
  | .ok j =>
      if !file.writable then (.ok false, file)
      else if (json.dump j).2 then
        (.ok true, { file with content := some ((json.dump j).1 ++ [10]) })
      else (.error .typeError, { file with content := some (json.dump j).1 })

/-! ## When nothing throws -/

/-- What `push_back` can add to: nothing, `null` or an array. -/
def takesElement : Option Json → Bool
  | none | some .null | some (.array _) => true
  | some _ => false

/-- A document that has a place for another connection. -/
def takesConnection : Json → Bool
  | .null => true
  | .object members => takesElement (members.lookup (text "connections"))
  | _ => false

/-- The entries that `recentConnections` converts. -/
def entries : Json → List Json
  | .object members =>
      match members.lookup (text "connections") with
      | some (.array connections) => connections
      | _ => []
  | _ => []

/-- The file is missing, or it is JSON whose entries can be converted. -/
def Readable (json : JsonText) (file : RecentsFile) : Prop :=
  ∀ content, file.content = some content →
    ∃ j, json.parse content = some j ∧ ∀ con ∈ entries j, ∃ entry, recentConnection con = .ok entry

/-- A connection with these options can be added to the file, which can be read again
after it. A file that cannot be opened for writing stays as it is. -/
structure Accepts (json : JsonText) (file : RecentsFile) (options : AnyOptions) : Prop where
  document : ∀ content, file.content = some content →
    ∃ j, json.parse content = some j ∧ takesConnection j = true
  written : file.writable = true →
    ∀ j, withConnection json file options.kType options.toJson = .ok j →
      (json.dump j).2 = true ∧
        Readable json { file with content := some ((json.dump j).1 ++ [10]) }
  kept : file.writable = false → Readable json file

variable {json : JsonText} {file : RecentsFile} {options : AnyOptions}

theorem not_ok_of_error {α : Type} {e : Failure} : ¬ ∃ a : α, Except.error e = .ok a := by
  intro hok
  obtain ⟨a, h⟩ := hok
  cases h

theorem recentConnectionsOf_ok_iff (connections : List Json) :
    (∃ recents, recentConnectionsOf connections = .ok recents) ↔
      ∀ con ∈ connections, ∃ entry, recentConnection con = .ok entry := by
  induction connections with
  | nil => exact iff_of_true ⟨[], rfl⟩ (fun _ h => by cases h)
  | cons con rest ih =>
    rw [List.forall_mem_cons, ← ih, recentConnectionsOf]
    cases recentConnection con with
    | error e => exact iff_of_false not_ok_of_error fun h => not_ok_of_error h.1
    | ok entry =>
      cases recentConnectionsOf rest with
      | error e => exact iff_of_false not_ok_of_error fun h => not_ok_of_error h.2
      | ok others => exact iff_of_true ⟨_, rfl⟩ ⟨⟨entry, rfl⟩, others, rfl⟩

theorem recentConnections_of_parse {content : Bytes} {j : Json}
    (hc : file.content = some content) (hj : json.parse content = some j) :
    recentConnections json file = recentConnectionsOf (entries j) := by
  unfold recentConnections entries
  rw [hc]
  dsimp only
  rw [hj]
  cases j with
  | object members =>
    dsimp only
    split <;> rfl
  | _ => rfl

theorem recentConnections_ok_iff :
    (∃ recents, recentConnections json file = .ok recents) ↔ Readable json file := by
  unfold Readable
  cases hc : file.content with
  | none =>
    refine iff_of_true ⟨[], ?_⟩ (fun _ h => by cases h)
    rw [recentConnections, hc]
  | some content =>
    cases hj : json.parse content with
    | none =>
      refine iff_of_false ?_ fun h => ?_
      · intro hok
        obtain ⟨recents, h⟩ := hok
        rw [recentConnections, hc] at h
        dsimp only at h
        rw [hj] at h
        cases h
      · obtain ⟨j, hp, -⟩ := h content rfl
        cases hj.symm.trans hp
    | some j =>
      rw [recentConnections_of_parse hc hj, recentConnectionsOf_ok_iff]
      constructor
      · intro h content' hcontent
        obtain rfl := Option.some.inj hcontent
        exact ⟨j, hj, h⟩
      · intro h
        obtain ⟨j', hp, hentries⟩ := h content rfl
        obtain rfl := Option.some.inj (hj.symm.trans hp)
        exact hentries

theorem pushBack_ok_iff (j value : Json) :
    (∃ j', j.pushBack value = .ok j') ↔ takesElement (some j) = true := by
  cases j with
  | null => exact iff_of_true ⟨_, rfl⟩ rfl
  | array elements => exact iff_of_true ⟨_, rfl⟩ rfl
  | _ => exact iff_of_false not_ok_of_error fun h => by cases h

theorem pushMember_ok_iff (j value : Json) :
    (∃ j', j.pushMember (text "connections") value = .ok j') ↔ takesConnection j = true := by
  cases j with
  | null => exact iff_of_true ⟨_, rfl⟩ rfl
  | object members =>
    have htakes : takesElement (members.lookup (text "connections")) =
        takesElement (some ((members.lookup (text "connections")).getD .null)) := by
      cases members.lookup (text "connections") <;> rfl
    rw [takesConnection, htakes, ← pushBack_ok_iff _ value, Json.pushMember]
    cases ((members.lookup (text "connections")).getD .null).pushBack value with
    | ok member => exact iff_of_true ⟨_, rfl⟩ ⟨member, rfl⟩
    | error e => exact iff_of_false not_ok_of_error not_ok_of_error
  | _ => exact iff_of_false not_ok_of_error fun h => by cases h

theorem withConnection_ok_iff (type : Bytes) (o : Json) :
    (∃ j, withConnection json file type o = .ok j) ↔
      ∀ content, file.content = some content →
        ∃ j, json.parse content = some j ∧ takesConnection j = true := by
  unfold withConnection
  cases hc : file.content with
  | none => exact iff_of_true ⟨_, rfl⟩ (fun _ h => by cases h)
  | some content =>
    dsimp only
    cases hj : json.parse content with
    | none =>
      refine iff_of_false not_ok_of_error fun h => ?_
      obtain ⟨j, hp, -⟩ := h content rfl
      cases hj.symm.trans hp
    | some j =>
      refine (pushMember_ok_iff j _).trans ⟨?_, fun h => ?_⟩
      · intro h content' hcontent
        obtain rfl := Option.some.inj hcontent
        exact ⟨j, hj, h⟩
      · obtain ⟨j', hp, htakes⟩ := h content rfl
        obtain rfl := Option.some.inj (hj.symm.trans hp)
        exact htakes

theorem accepts_of_written {j : Json}
    (hw : withConnection json file options.kType options.toJson = .ok j)
    (hwrite : file.writable = true) :
    Accepts json file options ↔
      (json.dump j).2 = true ∧
        Readable json { file with content := some ((json.dump j).1 ++ [10]) } := by
  constructor
  · exact fun h => h.written hwrite j hw
  · intro h
    refine ⟨(withConnection_ok_iff _ _).mp ⟨j, hw⟩, fun _ j' hw' => ?_, fun hw' => ?_⟩
    · obtain rfl := Except.ok.inj (hw.symm.trans hw')
      exact h
    · rw [hwrite] at hw'
      cases hw'

theorem accepts_of_kept {j : Json}
    (hw : withConnection json file options.kType options.toJson = .ok j)
    (hwrite : file.writable = false) : Accepts json file options ↔ Readable json file := by
  constructor
  · exact fun h => h.kept hwrite
  · refine fun h => ⟨(withConnection_ok_iff _ _).mp ⟨j, hw⟩, fun hw' => ?_, fun _ => h⟩
    rw [hwrite] at hw'
    cases hw'

/-- The step of the recents file throws nothing exactly when the file accepts the connection. -/
theorem accepts_iff :
    ((∃ b, (addRecentConnection json options.kType options.toJson file).1 = .ok b) ∧
      ∃ recents, recentConnections json
        (addRecentConnection json options.kType options.toJson file).2 = .ok recents) ↔
      Accepts json file options := by
  rw [recentConnections_ok_iff, addRecentConnection]
  cases hw : withConnection json file options.kType options.toJson with
  | error e =>
    refine iff_of_false (fun h => not_ok_of_error h.1) fun h => ?_
    obtain ⟨j, hj⟩ := (withConnection_ok_iff options.kType options.toJson).mpr h.document
    cases hw.symm.trans hj
  | ok j =>
    dsimp only
    rcases Bool.eq_false_or_eq_true file.writable with hwrite | hwrite
    · rw [accepts_of_written hw hwrite, hwrite]
      rcases Bool.eq_false_or_eq_true (json.dump j).2 with hdump | hdump
      · simp [hdump]
      · simp [hdump]
    · rw [accepts_of_kept hw hwrite, hwrite]
      simp

end DeviceTester.Config

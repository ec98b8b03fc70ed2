import DeviceTester.Config.Recent

/-!
# A connection that could not be added

`addRecentConnection` builds the whole document before it opens the file for writing, which
empties the file. Writing the document fails where a string of it is not UTF-8.
-/
namespace DeviceTester.Config

open DeviceTester.Connection

def isUtf8 (s : Bytes) : Bool := (ByteArray.mk s.toArray).validateUTF8

namespace Json

mutual

/-- All strings of a value are UTF-8, its keys included. -/
def utf8 : Json → Bool
  | string s => isUtf8 s
  | array elements => utf8Elements elements
  | object members => utf8Members members
  | _ => true

def utf8Elements : List Json → Bool
  | [] => true
  | element :: rest => element.utf8 && utf8Elements rest

def utf8Members : List (Bytes × Json) → Bool
  | [] => true
  | member :: rest => utf8Member member && utf8Members rest

def utf8Member : Bytes × Json → Bool
  | (key, value) => isUtf8 key && value.utf8

end

end Json

/-- The library takes in no string that is not UTF-8, writes none, and what it has written when
it comes to one breaks off within a value. -/
structure JsonText.Strict (json : JsonText) : Prop where
  parse : ∀ content j, json.parse content = some j → j.utf8 = true
  dump : ∀ j, (json.dump j).2 = j.utf8
  cut : ∀ j, j.utf8 = false → json.parse (json.dump j).1 = none

variable {json : JsonText} {file : RecentsFile} {type key : Bytes} {options value j j' : Json}

/-! ## The strings of the new document -/

theorem utf8Elements_append (l r : List Json) :
    Json.utf8Elements (l ++ r) = (Json.utf8Elements l && Json.utf8Elements r) := by
  induction l with
  | nil => rfl
  | cons element rest ih =>
    rw [List.cons_append, Json.utf8Elements, Json.utf8Elements, ih, Bool.and_assoc]

theorem utf8Members_cons (k : Bytes) (v : Json) (members : List (Bytes × Json)) :
    Json.utf8Members ((k, v) :: members) = true ↔
      (isUtf8 k = true ∧ v.utf8 = true) ∧ Json.utf8Members members = true := by
  rw [Json.utf8Members, Json.utf8Member, Bool.and_eq_true, Bool.and_eq_true]

theorem utf8_of_lookup {members : List (Bytes × Json)} (h : Json.utf8Members members = true)
    (hvalue : members.lookup key = some value) : value.utf8 = true := by
  induction members with
  | nil => cases hvalue
  | cons m rest ih =>
    obtain ⟨k, v⟩ := m
    obtain ⟨⟨-, hv⟩, hrest⟩ := (utf8Members_cons k v rest).mp h
    rw [lookup_member] at hvalue
    by_cases hk : key = k
    · rw [if_pos hk] at hvalue
      exact Option.some.inj hvalue ▸ hv
    · rw [if_neg hk] at hvalue
      exact ih hrest hvalue

theorem utf8Members_setMember {members : List (Bytes × Json)}
    (h : Json.utf8Members members = true) (hkey : isUtf8 key = true) :
    Json.utf8Members (setMember key value members) = value.utf8 := by
  induction members with
  | nil => simp [setMember, Json.utf8Members, Json.utf8Member, hkey]
  | cons m rest ih =>
    obtain ⟨k, v⟩ := m
    obtain ⟨⟨hk, hv⟩, hrest⟩ := (utf8Members_cons k v rest).mp h
    rw [setMember]
    split
    · simp [Json.utf8Members, Json.utf8Member, hkey, hrest]
    · split
      · simp [Json.utf8Members, Json.utf8Member, hkey, hk, hv, hrest]
      · simp [Json.utf8Members, Json.utf8Member, hk, hv, ih hrest]

theorem utf8_pushBack (hj : j.utf8 = true) (h : j.pushBack value = .ok j') :
    j'.utf8 = value.utf8 := by
  cases j with
  | null =>
    obtain rfl := Except.ok.inj h
    simp [Json.utf8, Json.utf8Elements]
  | array elements =>
    obtain rfl := Except.ok.inj h
    rw [Json.utf8] at hj
    simp [Json.utf8, utf8Elements_append, Json.utf8Elements, hj]
  | _ => cases h

theorem utf8_pushMember (hj : j.utf8 = true) (hkey : isUtf8 key = true)
    (h : j.pushMember key value = .ok j') : j'.utf8 = value.utf8 := by
  cases j with
  | null =>
    obtain rfl := Except.ok.inj h
    simp [Json.utf8, Json.utf8Members, Json.utf8Member, Json.utf8Elements, hkey]
  | object members =>
    rw [Json.utf8] at hj
    rw [Json.pushMember] at h
    cases hm : ((members.lookup key).getD .null).pushBack value with
    | error e =>
      rw [hm] at h
      cases h
    | ok member =>
      rw [hm] at h
      obtain rfl := Except.ok.inj h
      have hmember : ((members.lookup key).getD .null).utf8 = true := by
        cases hlookup : members.lookup key with
        | none => rfl
        | some v => exact utf8_of_lookup hj hlookup
      rw [Json.utf8, utf8Members_setMember hj hkey]
      exact utf8_pushBack hmember hm
  | _ => cases h

/-- The document that is there is UTF-8, so what matters is the connection that is added. -/
theorem utf8_withConnection (hjson : json.Strict)
    (h : withConnection json file type options = .ok j) :
    j.utf8 = (isUtf8 type && options.utf8) := by
  have hentry : (Json.ofMembers [(text "type", .string type), (text "options", options)]).utf8 =
      (isUtf8 type && options.utf8) := by
    have hsorted : Json.ofMembers [(text "type", .string type), (text "options", options)] =
        .object [(text "options", options), (text "type", .string type)] := rfl
    have hoptions : isUtf8 (text "options") = true := by decide +kernel
    have htype : isUtf8 (text "type") = true := by decide +kernel
    rw [hsorted]
    simp [Json.utf8, Json.utf8Members, Json.utf8Member, hoptions, htype, Bool.and_comm]
  have hkey : isUtf8 (text "connections") = true := by decide +kernel
  rw [← hentry]
  unfold withConnection at h
  cases hc : file.content with
  | none =>
    rw [hc] at h
    exact utf8_pushMember (j := .null) rfl hkey h
  | some content =>
    rw [hc] at h
    dsimp only at h
    cases hp : json.parse content with
    | none =>
      rw [hp] at h
      cases h
    | some j₀ =>
      rw [hp] at h
      exact utf8_pushMember (hjson.parse content j₀ hp) hkey h

/-! ## What a failure leaves -/

/-- The file has a content that no connection can be added to. -/
def Rejects (json : JsonText) (file : RecentsFile) : Prop :=
  ∃ content, file.content = some content ∧
    ∀ j, json.parse content = some j → takesConnection j = false

theorem rejects_iff (type : Bytes) (options : Json) :
    Rejects json file ↔ ¬ ∃ j, withConnection json file type options = .ok j := by
  rw [withConnection_ok_iff]
  unfold Rejects
  push Not
  simp only [Bool.not_eq_true]

/-- The text that is left is not the one that was there, since it cannot be parsed. -/
theorem cut_ne_content (hjson : json.Strict)
    (h : withConnection json file type options = .ok j) (hutf8 : j.utf8 = false) :
    file.content ≠ some (json.dump j).1 := by
  intro hcontent
  obtain ⟨j₀, hp, -⟩ := (withConnection_ok_iff type options).mp ⟨j, h⟩ _ hcontent
  cases (hjson.cut j hutf8).symm.trans hp

theorem keeps_of_document (hjson : json.Strict)
    (h : withConnection json file type options = .ok j) :
    ((addRecentConnection json type options file).1 ≠ .ok true →
        (addRecentConnection json type options file).2.content = file.content) ↔
      j.utf8 = true ∨ file.writable = false := by
  have hdump := hjson.dump j
  unfold addRecentConnection
  rw [h]
  dsimp only
  cases hwrite : file.writable with
  | false => simp
  | true =>
    cases hutf8 : j.utf8 with
    | true => simp [hdump, hutf8]
    | false =>
      have hne := cut_ne_content hjson h hutf8
      simp [hdump, hutf8, hne.symm]

/-- A call that throws or returns false keeps the content of the file exactly where all strings
to be written are UTF-8, the file cannot be written, or its content has no place for another
connection. -/
theorem failure_keeps_content_iff (hjson : json.Strict) (type : Bytes) (options : Json)
    (file : RecentsFile) :
    ((addRecentConnection json type options file).1 ≠ .ok true →
        (addRecentConnection json type options file).2.content = file.content) ↔
      (isUtf8 type = true ∧ options.utf8 = true) ∨ file.writable = false ∨ Rejects json file := by
  rw [rejects_iff type options]
  cases h : withConnection json file type options with
  | error e =>
    refine iff_of_true ?_ (.inr (.inr not_ok_of_error))
    intro _
    rw [addRecentConnection, h]
  | ok j =>
    rw [keeps_of_document hjson h, utf8_withConnection hjson h, Bool.and_eq_true]
    simp

/-- The text `null`, and what is written of a document up to the first identifier. -/
def kNullText : JsonText where
  parse content := if content = text "null" then some .null else none
  dump j :=
    if j.utf8 then (text "null", true)
    else (text "\x7b\"connections\":[\x7b\"options\":\x7b\"identifier\":\"", false)

theorem kNullText_strict : kNullText.Strict where
  parse content j h := by
    simp only [kNullText, Option.ite_none_right_eq_some, Option.some.injEq] at h
    rw [← h.2]
    rfl
  dump j := by
    unfold kNullText
    cases hutf8 : j.utf8 <;> simp [hutf8]
  cut j hutf8 := by
    unfold kNullText
    simp [hutf8]
    decide

/-- A file that is not JSON. -/
theorem not_json_kept :
    (addRecentConnection kNullText (text "tcp") (TcpOptions.withIdentifier [255]).toJson
      ⟨some (text "x"), true⟩).2.content = some (text "x") := by
  refine (failure_keeps_content_iff kNullText_strict _ _ _).mpr (.inr (.inr ⟨_, rfl, ?_⟩)) ?_
  · intro j h
    cases h
  · decide

/-- An identifier that is not UTF-8: the file had the text `null` and is left without JSON. -/
theorem broken_identifier_not_kept :
    kNullText.Strict ∧
    (addRecentConnection kNullText (text "tcp") (TcpOptions.withIdentifier [255]).toJson
      ⟨some (text "null"), true⟩).1 = .error .typeError ∧
    (addRecentConnection kNullText (text "tcp") (TcpOptions.withIdentifier [255]).toJson
      ⟨some (text "null"), true⟩).2.content ≠ some (text "null") := by
  refine ⟨kNullText_strict, ?_, ?_⟩
  · decide +kernel
  · decide +kernel

end DeviceTester.Config

import DeviceTester.Config.Recent

/-!
# Reading back the connection that was added last
-/
namespace DeviceTester.Config

open DeviceTester.Connection

variable {json : JsonText} {file file' : RecentsFile}

/-- The entry that `addRecentConnection` adds. -/
def entry (o : AnyOptions) : Json :=
  .ofMembers [(text "type", .string o.kType), (text "options", o.toJson)]

theorem recentConnection_entry (o : AnyOptions) :
    recentConnection (entry o) = .ok (some ⟨o.kType, o⟩) := by
  have htype : (entry o).constSubscript (text "type") = .ok (.string o.kType) := rfl
  have hoptions : (entry o).constSubscript (text "options") = .ok o.toJson := rfl
  have hcontains : (entry o).contains (text "options") = true := rfl
  rw [recentConnection, htype, hoptions, hcontains]
  simp only [bind, Except.bind, Json.getString, and_true]
  cases o with
  | serial o =>
    rw [if_pos (show (AnyOptions.serial o).kType = text "serial" from rfl)]
    simp only [AnyOptions.toJson, SerialOptions.fromJson_toJson]
    rfl
  | tcp o =>
    have hserial : (AnyOptions.tcp o).kType ≠ text "serial" := by
      change text "tcp" ≠ text "serial"
      decide
    rw [if_neg hserial,
      if_pos (show (AnyOptions.tcp o).kType = text "tcp" from rfl)]
    simp only [AnyOptions.toJson, TcpOptions.fromJson_toJson]
    rfl
  | udp o =>
    have hserial : (AnyOptions.udp o).kType ≠ text "serial" := by
      change text "udp" ≠ text "serial"
      decide
    have htcp : (AnyOptions.udp o).kType ≠ text "tcp" := by
      change text "udp" ≠ text "tcp"
      decide
    rw [if_neg hserial, if_neg htcp,
      if_pos (show (AnyOptions.udp o).kType = text "udp" from rfl)]
    simp only [AnyOptions.toJson, UdpOptions.fromJson_toJson]
    rfl

theorem ok_of_bind {α β : Type} {x : Except Failure α} {f : α → Except Failure β} {b : β}
    (h : (x >>= f) = .ok b) : ∃ a, x = .ok a ∧ f a = .ok b := by
  cases x with
  | error e => cases h
  | ok a => exact ⟨a, rfl, h⟩

/-- The options of an entry are those of the class that its type names. -/
theorem kType_of_recentConnection {con : Json} {r : RecentConnection}
    (h : recentConnection con = .ok (some r)) : r.connectionType = r.options.kType := by
  obtain ⟨t, -, h⟩ := ok_of_bind h
  obtain ⟨type, -, h⟩ := ok_of_bind h
  split at h
  · rename_i htype
    obtain ⟨_, -, h⟩ := ok_of_bind h
    obtain ⟨o, -, h⟩ := ok_of_bind h
    obtain rfl := Option.some.inj (Except.ok.inj h)
    exact htype.1
  · split at h
    · rename_i htype
      obtain ⟨_, -, h⟩ := ok_of_bind h
      obtain ⟨o, -, h⟩ := ok_of_bind h
      obtain rfl := Option.some.inj (Except.ok.inj h)
      exact htype.1
    · split at h
      · rename_i htype
        obtain ⟨_, -, h⟩ := ok_of_bind h
        obtain ⟨o, -, h⟩ := ok_of_bind h
        obtain rfl := Option.some.inj (Except.ok.inj h)
        exact htype.1
      · cases h

theorem recentConnectionsOf_append {l r : List Json} {as bs : List RecentConnection}
    (hl : recentConnectionsOf l = .ok as) (hr : recentConnectionsOf r = .ok bs) :
    recentConnectionsOf (l ++ r) = .ok (as ++ bs) := by
  induction l generalizing as with
  | nil =>
    obtain rfl := Except.ok.inj hl
    exact hr
  | cons con l ih =>
    rw [recentConnectionsOf] at hl
    rw [List.cons_append, recentConnectionsOf]
    cases hcon : recentConnection con with
    | error e =>
      rw [hcon] at hl
      cases hl
    | ok first =>
      cases hrest : recentConnectionsOf l with
      | error e =>
        rw [hcon, hrest] at hl
        cases hl
      | ok others =>
        rw [hcon, hrest] at hl
        obtain rfl := Except.ok.inj hl
        rw [ih hrest]
        exact congrArg Except.ok (List.append_assoc _ _ _).symm

theorem entries_object_of_lookup {members : List (Bytes × Json)} {connections : List Json}
    (h : members.lookup (text "connections") = some (.array connections)) :
    entries (.object members) = connections := by
  rw [entries, h]

theorem entries_setMember (members : List (Bytes × Json)) (connections : List Json) :
    entries (.object (setMember (text "connections") (.array connections) members)) =
      connections := by
  apply entries_object_of_lookup
  rw [lookup_setMember, if_pos rfl]

theorem entries_pushMember {j j' value : Json}
    (h : j.pushMember (text "connections") value = .ok j') : entries j' = entries j ++ [value] := by
  cases j with
  | null =>
    obtain rfl := Except.ok.inj h
    rfl
  | object members =>
    simp only [Json.pushMember] at h
    cases hm : members.lookup (text "connections") with
    | none =>
      rw [hm] at h
      obtain rfl := Except.ok.inj h
      rw [entries_setMember, entries, hm]
      rfl
    | some member =>
      rw [hm] at h
      cases member with
      | null =>
        obtain rfl := Except.ok.inj h
        rw [entries_setMember, entries, hm]
        rfl
      | array connections =>
        obtain rfl := Except.ok.inj h
        rw [entries_setMember, entries_object_of_lookup hm]
      | _ => cases h
  | _ => cases h

/-- What is read from the document before a connection is added. -/
theorem entries_withConnection {o : AnyOptions} {j : Json} {recents : List RecentConnection}
    (hread : recentConnections json file = .ok recents)
    (h : withConnection json file o.kType o.toJson = .ok j) :
    ∃ before, recentConnectionsOf before = .ok recents ∧ entries j = before ++ [entry o] := by
  unfold withConnection at h
  cases hc : file.content with
  | none =>
    rw [hc] at h
    rw [recentConnections, hc] at hread
    obtain rfl := Except.ok.inj hread
    exact ⟨[], rfl, entries_pushMember (j := .null) h⟩
  | some content =>
    rw [hc] at h
    dsimp only at h
    cases hp : json.parse content with
    | none =>
      rw [hp] at h
      cases h
    | some j₀ =>
      rw [hp] at h
      rw [recentConnections_of_parse hc hp] at hread
      exact ⟨entries j₀, hread, entries_pushMember h⟩

/-- When parsing undoes dumping, a connection added to the file is read back after those
that were in it. -/
theorem recentConnections_added {o : AnyOptions} {recents : List RecentConnection}
    (hread : recentConnections json file = .ok recents)
    (hparse : ∀ j, withConnection json file o.kType o.toJson = .ok j → (json.dump j).2 = true →
      json.parse ((json.dump j).1 ++ [10]) = some j)
    (hadd : addRecentConnection json o.kType o.toJson file = (.ok true, file')) :
    recentConnections json file' = .ok (recents ++ [⟨o.kType, o⟩]) := by
  unfold addRecentConnection at hadd
  cases hw : withConnection json file o.kType o.toJson with
  | error e =>
    rw [hw] at hadd
    cases (Prod.mk.inj hadd).1
  | ok j =>
    rw [hw] at hadd
    dsimp only at hadd
    cases hwritable : file.writable with
    | false =>
      rw [hwritable] at hadd
      cases (Prod.mk.inj hadd).1
    | true =>
      cases hdump : (json.dump j).2 with
      | false =>
        rw [hwritable, hdump] at hadd
        cases (Prod.mk.inj hadd).1
      | true =>
        rw [hwritable, hdump] at hadd
        obtain rfl := (Prod.mk.inj hadd).2
        obtain ⟨before, hbefore, hentries⟩ := entries_withConnection hread hw
        rw [recentConnections_of_parse rfl (hparse j hw hdump), hentries]
        refine recentConnectionsOf_append hbefore ?_
        rw [recentConnectionsOf, recentConnection_entry]
        rfl

end DeviceTester.Config

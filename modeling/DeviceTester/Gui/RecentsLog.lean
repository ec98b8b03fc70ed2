import DeviceTester.Gui.Maps
import DeviceTester.Gui.OpenRecent

/-!
# The recent connections over a run

The list that `DeviceManager` shows is what the file reads as, and grows at its end by each
connection that is added while the file can be written.
-/
namespace DeviceTester.Gui.DeviceManager

open DeviceTester.Lib DeviceTester.Connection DeviceTester.Config

variable {json : JsonText} {m m' : DeviceManager} {a : Answers} {opts : AnyOptions}

/-- The file is missing, or it has a place for another connection: it is `null`, or an object whose
`connections` are missing, `null` or an array. -/
def TakesMore (json : JsonText) (file : RecentsFile) : Prop :=
  ∀ content, file.content = some content → ∃ j, json.parse content = some j ∧ takesConnection j = true

/-- The list is what the file reads as, and the file takes another connection. -/
structure Listed (json : JsonText) (m : DeviceManager) : Prop where
  read : recentConnections json m.file = .ok m.recentConnections_
  takes : TakesMore json m.file

/-- The document with this connection is written whole, and reads as what was written. -/
def WritesBack (json : JsonText) (file : RecentsFile) (opts : AnyOptions) : Prop :=
  ∀ j, withConnection json file opts.kType opts.toJson = .ok j →
    (json.dump j).2 = true ∧ json.parse ((json.dump j).1 ++ [10]) = some j

/-- The entry that a connection leaves in a file that can be written. -/
def entryIn (file : RecentsFile) (opts : AnyOptions) : List RecentConnection :=
  if file.writable then [⟨opts.kType, opts⟩] else []

/-- What a call of `add*Connection` that returns true leaves in the list. -/
def remembered (json : JsonText) (m : DeviceManager) : Event → List RecentConnection
  | .add a opts true =>
      match (m.add json a opts true).1 with
      | .ok (true, _) => entryIn m.file opts
      | _ => []
  | _ => []

/-! ## A call of `add*Connection` -/

theorem array_of_pushBack {j j' value : Json} (h : j.pushBack value = .ok j') :
    ∃ elements, j' = .array elements := by
  cases j with
  | null => exact ⟨_, (Except.ok.inj h).symm⟩
  | array elements => exact ⟨_, (Except.ok.inj h).symm⟩
  | _ => cases h

theorem takesConnection_pushMember {j j' value : Json}
    (h : j.pushMember (text "connections") value = .ok j') : takesConnection j' = true := by
  cases j with
  | null =>
    obtain rfl := Except.ok.inj h
    rfl
  | object members =>
    rw [Json.pushMember] at h
    obtain ⟨member, hmember, h⟩ := ok_of_bind h
    obtain rfl := Except.ok.inj h
    obtain ⟨elements, rfl⟩ := array_of_pushBack hmember
    rw [takesConnection, lookup_setMember, if_pos rfl]
    rfl
  | _ => cases h

theorem takesConnection_withConnection {file : RecentsFile} {type : Bytes} {options j : Json}
    (h : withConnection json file type options = .ok j) : takesConnection j = true := by
  unfold withConnection at h
  cases hc : file.content with
  | none =>
    rw [hc] at h
    exact takesConnection_pushMember (j := .null) h
  | some content =>
    rw [hc] at h
    dsimp only at h
    cases hp : json.parse content with
    | none =>
      rw [hp] at h
      cases h
    | some before =>
      rw [hp] at h
      exact takesConnection_pushMember (j := before) h

/-- The step of the recents file, where the file is in order. -/
structure Stores (json : JsonText) (opts : AnyOptions) (m m' : DeviceManager) : Prop where
  returned : m.storeRecent json opts = (.ok (), m')
  listed : Listed json m'
  grown : m'.recentConnections_ = m.recentConnections_ ++ entryIn m.file opts

theorem storeRecent_stores (h : Listed json m) (hback : WritesBack json m.file opts) :
    ∃ m', Stores json opts m m' := by
  obtain ⟨j, hj⟩ := (withConnection_ok_iff opts.kType opts.toJson).mpr h.takes
  obtain ⟨hdump, hparse⟩ := hback j hj
  cases hwritable : m.file.writable with
  | false =>
    have hadd : addRecentConnection json opts.kType opts.toJson m.file = (.ok false, m.file) := by
      simp [addRecentConnection, hj, hwritable]
    refine ⟨m, ?_, h, ?_⟩
    · simp only [storeRecent, hadd, refreshRecents]
      rw [h.read]
    · rw [entryIn, hwritable]
      exact (List.append_nil _).symm
  | true =>
    have hadd : addRecentConnection json opts.kType opts.toJson m.file =
        (.ok true, { m.file with content := some ((json.dump j).1 ++ [10]) }) := by
      simp [addRecentConnection, hj, hwritable, hdump]
    have hback' : ∀ j', withConnection json m.file opts.kType opts.toJson = .ok j' →
        (json.dump j').2 = true → json.parse ((json.dump j').1 ++ [10]) = some j' :=
      fun j' hj' _ => (hback j' hj').2
    have hread := recentConnections_added h.read hback' hadd
    refine ⟨{ m with
      file := { m.file with content := some ((json.dump j).1 ++ [10]) }
      recentConnections_ := m.recentConnections_ ++ [⟨opts.kType, opts⟩] }, ?_, ⟨hread, ?_⟩, ?_⟩
    · simp only [storeRecent, hadd, refreshRecents]
      rw [hread]
    · intro content hcontent
      obtain rfl := Option.some.inj hcontent
      exact ⟨j, hparse, takesConnection_withConnection hj⟩
    · rw [entryIn, hwritable]
      rfl

/-- Neither the list nor the file is touched. -/
def SameRecents (m m' : DeviceManager) : Prop :=
  m'.recentConnections_ = m.recentConnections_ ∧ m'.file = m.file

theorem Listed.of_sameRecents (h : Listed json m) (hs : SameRecents m m') : Listed json m' := by
  obtain ⟨hrecents, hfile⟩ := hs
  constructor
  · rw [hrecents, hfile, h.read]
  · rw [hfile]
    exact h.takes

theorem sameRecents_withWindow (identifier : Bytes) (con : AnyConnection) :
    SameRecents m (m.withWindow identifier con) := ⟨rfl, rfl⟩

theorem sameRecents_emplaceConnection (identifier : Bytes) (n : Nat) :
    SameRecents m (m.emplaceConnection identifier n) := ⟨rfl, rfl⟩

/-- A call that does not get to the recents file, or is not to. -/
theorem sameRecents_add {addToRecents : Bool}
    (h : addToRecents = true → opts.identifier ∉ m.connections_ →
      ∀ con, configure a opts ≠ .returned con) :
    SameRecents m (m.add json a opts addToRecents).2 := by
  obtain ⟨texts, htexts⟩ := add_eq json a opts addToRecents
  rw [htexts]
  by_cases hin : opts.identifier ∈ m.connections_
  · rw [addConnection, if_pos hin]
    exact ⟨rfl, rfl⟩
  cases hc : configure a opts with
  | threw con what =>
    rw [addConnection, if_neg hin]
    exact ⟨rfl, rfl⟩
  | returned con =>
    cases addToRecents with
    | true => exact absurd hc (h rfl hin con)
    | false =>
      rw [addConnection_of_returned hin]
      exact ⟨rfl, rfl⟩

/-- A call that gets to the recents file returns true, with the file and the list in order. -/
theorem add_stores (h : Listed json m) (hback : WritesBack json m.file opts)
    (hin : opts.identifier ∉ m.connections_) {con : AnyConnection}
    (hc : configure a opts = .returned con) :
    (∃ message, (m.add json a opts true).1 = .ok (true, message)) ∧
      Accepts json m.file opts ∧ Listed json (m.add json a opts true).2 ∧
      (m.add json a opts true).2.recentConnections_ =
        m.recentConnections_ ++ entryIn m.file opts := by
  obtain ⟨texts, htexts⟩ := add_eq json a opts true
  have hwindow := sameRecents_withWindow (m := m) opts.identifier con
  obtain ⟨m', hstores⟩ :=
    storeRecent_stores (m := m.withWindow opts.identifier con) (h.of_sameRecents hwindow) hback
  have hadd : m.add json a opts true =
      (.ok (true, texts.added), m'.emplaceConnection opts.identifier m.objects.length) := by
    rw [htexts, hc, addConnection_of_returned hin, options_configure hc, enterConnection,
      if_pos rfl, hstores.returned]
  have hok : ((m.withWindow opts.identifier con).storeRecent json opts).1 = .ok () :=
    congrArg Prod.fst hstores.returned
  have haccept : Accepts json (m.withWindow opts.identifier con).file opts :=
    storeRecent_ok_iff.mp hok
  rw [hadd]
  refine ⟨⟨texts.added, rfl⟩, haccept, ?_, hstores.grown⟩
  exact hstores.listed.of_sameRecents (sameRecents_emplaceConnection _ _)

/-! ## Runs -/

theorem closeConnections_sameRecents (identifiers : List Bytes) (m : DeviceManager) :
    SameRecents m (m.closeConnections identifiers) := by
  induction identifiers generalizing m with
  | nil => exact ⟨rfl, rfl⟩
  | cons identifier rest ih =>
    have hfirst : SameRecents m (m.closeConnection identifier) := by
      unfold closeConnection disconnectConnection
      split
      · exact ⟨rfl, rfl⟩
      · exact ⟨rfl, rfl⟩
    have hrest := ih (m.closeConnection identifier)
    exact ⟨hrest.1.trans hfirst.1, hrest.2.trans hfirst.2⟩

theorem remembered_add {addToRecents : Bool}
    (h : addToRecents = true → ∀ message, (m.add json a opts true).1 ≠ .ok (true, message)) :
    remembered json m (.add a opts addToRecents) = [] := by
  cases addToRecents with
  | false => rfl
  | true =>
    rw [remembered]
    split
    · rename_i message hok
      exact absurd hok (h rfl message)
    · rfl

/-- A call that keeps `WritesBack` is ready, leaves the list in order, and lets it grow by what
it is to remember. -/
theorem listed_add {addToRecents : Bool} (h : Listed json m)
    (hback : addToRecents = true → WritesBack json m.file opts) :
    Listed json (m.add json a opts addToRecents).2 ∧
      (m.add json a opts addToRecents).2.recentConnections_ =
        m.recentConnections_ ++ remembered json m (.add a opts addToRecents) ∧
      RecentsReady json m (.add a opts addToRecents) m' := by
  rw [recentsReady_add]
  by_cases hgets : addToRecents = true ∧ opts.identifier ∉ m.connections_ ∧
      ∃ con, configure a opts = .returned con
  · obtain ⟨rfl, hin, con, hc⟩ := hgets
    obtain ⟨⟨message, hok⟩, haccept, hlisted, hgrown⟩ := add_stores h (hback rfl) hin hc
    refine ⟨hlisted, ?_, fun _ _ _ _ => haccept⟩
    rw [hgrown, remembered, hok]
  · have hnot : addToRecents = true → opts.identifier ∉ m.connections_ →
        ∀ con, configure a opts ≠ .returned con :=
      fun hadd hin con hc => hgets ⟨hadd, hin, con, hc⟩
    have hsame : SameRecents m (m.add json a opts addToRecents).2 := sameRecents_add hnot
    have hnone : remembered json m (.add a opts addToRecents) = [] := by
      refine remembered_add fun hadd message hok => ?_
      have hcases := add_cases json a opts true m
      rw [hok] at hcases
      generalize (m.add json a opts true).2 = m' at hcases
      cases hcases with
      | added hin con recents file message hc haccept => exact hnot hadd hin con hc
    refine ⟨h.of_sameRecents hsame, ?_, fun hadd hin con hc => absurd hc (hnot hadd hin con)⟩
    rw [hsame.1, hnone, List.append_nil]

/-- A connection is added and closed again, and then opened from the recent ones. -/
def listenerRun (a : Answers) : List Event :=
  [.add a (.udp kListener) true, .close [text "u"], .add a (.udp kListener) false]

def kAnswers : Answers := ⟨[], false, fun _ _ => .ok [], ⟨none, none⟩, .ok⟩

theorem takesMore_kEmptyText : TakesMore kTwoTexts ⟨some kEmptyText, true⟩ := by
  intro content hcontent
  obtain rfl := Option.some.inj hcontent
  exact ⟨_, rfl, rfl⟩

theorem writesBack_kEmptyText :
    WritesBack kTwoTexts ⟨some kEmptyText, true⟩ (.udp kListener) := by
  intro j hj
  rw [← Except.ok.inj (withConnection_kEmptyText.symm.trans hj)]
  exact ⟨rfl, parse_kListenerText⟩

/-- The type of each recent connection is that of its options. -/
def Typed (recents : List RecentConnection) : Prop :=
  ∀ con ∈ recents, con.connectionType = con.options.kType

theorem typed_of_recentConnectionsOf {connections : List Json} {recents : List RecentConnection}
    (h : recentConnectionsOf connections = .ok recents) : Typed recents := by
  induction connections generalizing recents with
  | nil =>
    obtain rfl := Except.ok.inj h
    exact fun _ hcon => by cases hcon
  | cons con rest ih =>
    obtain ⟨first, hfirst, h⟩ := ok_of_bind h
    obtain ⟨others, hothers, h⟩ := ok_of_bind h
    obtain rfl := Except.ok.inj h
    intro r hr
    rcases List.mem_append.mp hr with hr | hr
    · rw [Option.mem_toList] at hr
      rw [hr] at hfirst
      exact kType_of_recentConnection hfirst
    · exact ih hothers r hr

theorem typed_of_read {file : RecentsFile} {recents : List RecentConnection}
    (h : recentConnections json file = .ok recents) : Typed recents := by
  have hnone : Typed [] := fun con hcon => by cases hcon
  unfold recentConnections at h
  split at h
  · exact Except.ok.inj h ▸ hnone
  · split at h
    · cases h
    · split at h
      · exact typed_of_recentConnectionsOf h
      · exact Except.ok.inj h ▸ hnone
    · exact Except.ok.inj h ▸ hnone

theorem typed_refreshRecents (h : Typed m.recentConnections_) :
    Typed (m.refreshRecents json).2.recentConnections_ := by
  unfold refreshRecents
  split
  · rename_i hread
    exact typed_of_read hread
  · exact h

theorem typed_storeRecent (h : Typed m.recentConnections_) :
    Typed (m.storeRecent json opts).2.recentConnections_ := by
  unfold storeRecent
  obtain ⟨added, file⟩ := addRecentConnection json opts.kType opts.toJson m.file
  cases added with
  | ok b => exact typed_refreshRecents h
  | error e => exact h

/-- Whatever the file holds and however the call ends. -/
theorem typed_add {addToRecents : Bool} (h : Typed m.recentConnections_) :
    Typed (m.add json a opts addToRecents).2.recentConnections_ := by
  by_cases hnot : addToRecents = true → opts.identifier ∉ m.connections_ →
      ∀ con, configure a opts ≠ .returned con
  · rw [(sameRecents_add hnot).1]
    exact h
  · push Not at hnot
    obtain ⟨rfl, hin, con, hc⟩ := hnot
    obtain ⟨texts, htexts⟩ := add_eq json a opts true
    have hstored : Typed ((m.withWindow opts.identifier con).storeRecent
        json con.options).2.recentConnections_ := typed_storeRecent h
    rw [htexts, hc, addConnection_of_returned hin, enterConnection, if_pos rfl]
    generalize (m.withWindow opts.identifier con).storeRecent json con.options = r at hstored
    obtain ⟨stored, m'⟩ := r
    cases stored with
    | error e => exact hstored
    | ok _ => exact hstored

theorem typed_step (json : JsonText) :
    Keeps (step json) anyStep fun m => Typed m.recentConnections_ := by
  intro m e m' h _ hs
  cases e with
  | add a opts addToRecents => exact step_add hs ▸ typed_add h
  | close identifiers =>
    simp only [step, Option.ite_none_right_eq_some, Option.some.injEq] at hs
    obtain ⟨-, rfl⟩ := hs
    rw [(closeConnections_sameRecents identifiers m).1]
    exact h
  | changeFile file =>
    obtain rfl := Option.some.inj hs
    exact h

theorem openRecent_of_typed {con : RecentConnection} (h : con.connectionType = con.options.kType) :
    m.openRecent json a con = (m.add json a con.options false).2 := by
  obtain ⟨type, options⟩ := con
  have htype : type = options.kType := h
  rw [htype]
  exact openRecent_eq json a options m

/-- A call of `add*Connection` without the recents file. -/
theorem consistent_add_false (h : Consistent m) : Consistent (m.add json a opts false).2 := by
  have hnot : ∀ m', (m.add json a opts false) ≠ (.error .assertion, m') := by
    intro m' herror
    have hcases := add_cases json a opts false m
    rw [herror] at hcases
    cases hcases with
    | threw hin con recents file e hc hadd haccept => cases hadd
  have hs : step json m (.add a opts false) = some (m.add json a opts false).2 := by
    simp only [step]
    split
    · rename_i m' herror
      exact absurd herror (hnot m')
    · rename_i added m' hadd
      rw [hadd]
  exact ((sound_iff_recentsReady m (.add a opts false) _ h hs).mpr trivial).1

/-- It enters the identifier where the connection can be configured, and nothing else. -/
theorem mem_connections_add_false (k : Bytes) :
    k ∈ (m.add json a opts false).2.connections_ ↔
      k ∈ m.connections_ ∨ opts.identifier = k ∧ ∃ con, configure a opts = .returned con := by
  have hcases := add_cases json a opts false m
  generalize m.add json a opts false = r at hcases ⊢
  obtain ⟨added, m'⟩ := r
  cases hcases with
  | inUse hin message =>
    refine ⟨.inl, fun hk => hk.elim id fun hk => ?_⟩
    exact hk.1 ▸ hin
  | failed hin con what message hc =>
    refine ⟨.inl, fun hk => hk.elim id fun hk => ?_⟩
    obtain ⟨-, con', hc'⟩ := hk
    cases hc.symm.trans hc'
  | threw hin con recents file e hc hadd haccept => cases hadd
  | added hin con recents file message hc haccept =>
    have hconfigured : ∃ con, configure a opts = .returned con := ⟨con, hc⟩
    simp only [AList.mem_insert, hconfigured, and_true]
    rw [or_comm, eq_comm]

/-- The item is clicked, it is for the identifier, and its connection can be configured. -/
def Opens (answers : Nat → Answers) (clicked : Nat → Bool) (k : Bytes)
    (item : RecentConnection × Nat) : Prop :=
  clicked item.2 = true ∧ item.1.options.identifier = k ∧
    ∃ con, configure (answers item.2) item.1.options = .returned con

/-- The loop keeps the maps and the recent connections in order. The induction is on the items
left. -/
theorem foldl_openRecent (answers : Nat → Answers) (clicked : Nat → Bool)
    (items : List (RecentConnection × Nat))
    (htyped : ∀ item ∈ items, item.1.connectionType = item.1.options.kType) (h : Consistent m) :
    let m' := items.foldl (fun m item =>
      if clicked item.2 then m.openRecent json (answers item.2) item.1 else m) m
    Consistent m' ∧ SameRecents m m' ∧
      ∀ k, k ∈ m'.connections_ ↔ k ∈ m.connections_ ∨ ∃ item ∈ items, Opens answers clicked k item := by
  induction items generalizing m with
  | nil => exact ⟨h, ⟨rfl, rfl⟩, fun k => by simp⟩
  | cons item items ih =>
    have htail := fun item' hitem' => htyped item' (List.mem_cons_of_mem _ hitem')
    cases hclicked : clicked item.2 with
    | false =>
      have hclosed : ∀ k, ¬ Opens answers clicked k item := fun k hopens => by
        cases hclicked.symm.trans hopens.1
      obtain ⟨hconsistent, hsame, hkeys⟩ := ih htail h
      simp only [List.foldl_cons, hclicked, Bool.false_eq_true, if_false]
      refine ⟨hconsistent, hsame, fun k => ?_⟩
      simp only [hkeys, List.mem_cons, exists_eq_or_imp, hclosed k, false_or]
    | true =>
      have hopen : m.openRecent json (answers item.2) item.1 =
          (m.add json (answers item.2) item.1.options false).2 :=
        openRecent_of_typed (htyped item List.mem_cons_self)
      have hfirst : SameRecents m (m.add json (answers item.2) item.1.options false).2 :=
        sameRecents_add fun hadd => by cases hadd
      have hkept : Consistent (m.add json (answers item.2) item.1.options false).2 :=
        consistent_add_false h
      obtain ⟨hconsistent, hsame, hkeys⟩ := ih htail hkept
      simp only [List.foldl_cons, hclicked, if_true, hopen]
      refine ⟨hconsistent, ⟨hsame.1.trans hfirst.1, hsame.2.trans hfirst.2⟩, fun k => ?_⟩
      have hopens : Opens answers clicked k item ↔
          item.1.options.identifier = k ∧
            ∃ con, configure (answers item.2) item.1.options = .returned con :=
        and_iff_right hclicked
      simp only [hkeys, List.mem_cons, exists_eq_or_imp, mem_connections_add_false, hopens, or_assoc]

/-- Whatever items are clicked in one frame, in every run of a manager that could read the file at
its start, whatever the file holds by then: where the maps are consistent they stay so, the list
and the file stay as they are, and the identifiers in use afterwards are those before it and those
of the clicked items that can be configured, each taken once. -/
theorem drawOpenRecent_opens (json : JsonText) (file : RecentsFile)
    (recents : List RecentConnection) (es : List Event) (m : DeviceManager)
    (hread : recentConnections json file = .ok recents)
    (he : exec (step json) (fresh file recents) es = some m) (h : Consistent m)
    (answers : Nat → Answers) (clicked : Nat → Bool) :
    Consistent (m.drawOpenRecent json answers clicked) ∧
      SameRecents m (m.drawOpenRecent json answers clicked) ∧
      ∀ k, k ∈ (m.drawOpenRecent json answers clicked).connections_ ↔ k ∈ m.connections_ ∨
        ∃ item ∈ m.recentConnections_.zipIdx, Opens answers clicked k item := by
  have htyped : Typed m.recentConnections_ :=
    (typed_step json).exec (typed_of_read hread) (along_anyStep _ _) he
  refine foldl_openRecent answers clicked m.recentConnections_.zipIdx (fun item hitem => ?_) h
  exact htyped item.1 (List.fst_mem_of_mem_zipIdx hitem)

set_option maxRecDepth 4000 in
/-- The file has been made unreadable since the listener was read from it. -/
theorem listener_opened :
    ∃ m, exec (step kTwoTexts)
        (fresh ⟨some (kListenerText ++ [10]), true⟩ [⟨text "udp", .udp kListener⟩])
        [.changeFile ⟨some [], true⟩] = some m ∧
      text "u" ∈ (drawOpenRecent kTwoTexts (fun _ => kAnswers) (fun i => i == 0) m).connections_ := by
  have hread : recentConnections kTwoTexts ⟨some (kListenerText ++ [10]), true⟩ =
      .ok [⟨text "udp", .udp kListener⟩] := by
    simp only [recentConnections, parse_kListenerText]
    rfl
  obtain ⟨-, -, hkeys⟩ := drawOpenRecent_opens kTwoTexts ⟨some (kListenerText ++ [10]), true⟩
    [⟨text "udp", .udp kListener⟩] [.changeFile ⟨some [], true⟩] _ hread rfl
    (consistent_fresh ⟨some [], true⟩ _) (fun _ => kAnswers) (fun i => i == 0)
  exact ⟨_, rfl, (hkeys (text "u")).mpr (.inr ⟨_, List.mem_singleton_self _, rfl, rfl, _, rfl⟩)⟩

end DeviceTester.Gui.DeviceManager

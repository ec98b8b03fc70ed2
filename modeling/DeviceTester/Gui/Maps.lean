import DeviceTester.Gui.DeviceManager

/-!
# The three maps of `DeviceManager`

`add*Connection` enters the device and the window before the step of the recents
file and the connection after it. An exception of that step leaves the first two.
-/
namespace DeviceTester.Gui.DeviceManager

open DeviceTester.Lib DeviceTester.Connection DeviceTester.Config

/-- A call of `add*Connection`, the close loop of `drawMenu`, or a change of the recents
file from outside. -/
inductive Event where
  | add (a : Answers) (opts : AnyOptions) (addToRecents : Bool)
  | close (identifiers : List Bytes)
  | changeFile (file : RecentsFile)

/-- An assertion ends the program. `drawMenu` closes windows that it has drawn, each once. -/
def step (json : JsonText) (m : DeviceManager) : Event → Option DeviceManager
  | .add a opts addToRecents =>
      match m.add json a opts addToRecents with
      | (.error .assertion, _) => none
      | (_, m') => some m'
  | .close identifiers =>
      if (∀ identifier ∈ identifiers, identifier ∈ m.windows_) ∧ identifiers.Nodup then
        some (m.closeConnections identifiers)
      else none
  | .changeFile file => some { m with file := file }

/-- The maps have the same keys, and a connection delivers to the device that is
stored under its identifier. -/
structure Consistent (m : DeviceManager) : Prop where
  devices : ∀ identifier, identifier ∈ m.devices_ ↔ identifier ∈ m.connections_
  windows : ∀ identifier, identifier ∈ m.windows_ ↔ identifier ∈ m.connections_
  delivers : ∀ identifier n, m.connections_.lookup identifier = some n →
    ∃ o, m.objects[n]? = some o ∧ m.devices_.lookup identifier = some o.handle

/-- The maps hold the same under every identifier. -/
structure SameMaps (m m' : DeviceManager) : Prop where
  devices : ∀ identifier, m'.devices_.lookup identifier = m.devices_.lookup identifier
  connections : ∀ identifier, m'.connections_.lookup identifier = m.connections_.lookup identifier
  windows : ∀ identifier, m'.windows_.lookup identifier = m.windows_.lookup identifier

/-- The maps are consistent after the step, and as they were when it is a call of
`add*Connection` that does not return true. -/
def Sound (json : JsonText) (m : DeviceManager) (e : Event) (m' : DeviceManager) : Prop :=
  Consistent m' ∧
    match e with
    | .add a opts addToRecents =>
        (¬ ∃ message, (m.add json a opts addToRecents).1 = .ok (true, message)) → SameMaps m m'
    | _ => True

/-- The recents file accepts the connection of a call of `add*Connection` that gets to it. -/
def RecentsReady (json : JsonText) (m : DeviceManager) (e : Event) (_ : DeviceManager) : Prop :=
  match e with
  | .add a opts true =>
      opts.identifier ∉ m.connections_ → ∀ con, configure a opts = .returned con →
        Accepts json m.file opts
  | _ => True

variable {json : JsonText} {m m' : DeviceManager} {e : Event}

theorem consistent_fresh (file : RecentsFile) (recents : List RecentConnection) :
    Consistent (fresh file recents) where
  devices _ := Iff.rfl
  windows _ := Iff.rfl
  delivers _ _ h := by cases h

theorem SameMaps.refl (m : DeviceManager) : SameMaps m m :=
  ⟨fun _ => rfl, fun _ => rfl, fun _ => rfl⟩

/-! ## The close loop -/

theorem closeConnection_maps (identifier : Bytes) (m : DeviceManager) :
    (m.closeConnection identifier).devices_ = m.devices_.erase identifier ∧
      (m.closeConnection identifier).connections_ = m.connections_.erase identifier ∧
      (m.closeConnection identifier).windows_ = m.windows_.erase identifier := by
  obtain ⟨hd, hc, hw⟩ := disconnectConnection_maps identifier (m.eraseWindow identifier)
  refine ⟨?_, ?_, hw⟩
  · exact congrArg (AList.erase identifier) hd
  · exact congrArg (AList.erase identifier) hc

theorem Consistent.closeConnection (h : Consistent m) (identifier : Bytes) :
    Consistent (m.closeConnection identifier) := by
  obtain ⟨hd, hc, hw⟩ := closeConnection_maps identifier m
  constructor
  · intro k
    rw [hd, hc, AList.mem_erase, AList.mem_erase, h.devices]
  · intro k
    rw [hw, hc, AList.mem_erase, AList.mem_erase, h.windows]
  · intro k n hk
    rw [hc] at hk
    obtain ⟨hne, hk⟩ := lookup_erase_eq_some.mp hk
    obtain ⟨o, ho, hdev⟩ := h.delivers k n hk
    obtain ⟨o', ho', hhandle, -⟩ :=
      getElem?_disconnect (m := m.eraseWindow identifier) identifier ho
    refine ⟨o', ho', ?_⟩
    rw [hd, hhandle]
    exact lookup_erase_eq_some.mpr ⟨hne, hdev⟩

theorem Consistent.closeConnections (h : Consistent m) (identifiers : List Bytes) :
    Consistent (m.closeConnections identifiers) := by
  induction identifiers generalizing m with
  | nil => exact h
  | cons identifier rest ih => exact ih (h.closeConnection identifier)

/-! ## A call of `add*Connection` -/

/-- An identifier that is new to all three maps gets a device, a connection and a window. -/
theorem Consistent.added (h : Consistent m) {identifier : Bytes}
    (hin : identifier ∉ m.connections_) (con : AnyConnection) (recents : List RecentConnection)
    (file : RecentsFile) :
    Consistent { m.withWindow identifier con with
      connections_ := m.connections_.insert identifier m.objects.length
      recentConnections_ := recents, file := file } := by
  have hwin : identifier ∉ m.windows_ := fun hw => hin ((h.windows identifier).mp hw)
  constructor
  · intro k
    simp only [withWindow, emplaceWindow, makeDevice, AList.mem_insert, h.devices]
  · intro k
    have hw : (m.withWindow identifier con).windows_ =
        m.windows_.insert identifier m.objects.length := if_neg hwin
    simp only [hw, AList.mem_insert, h.windows]
  · intro k n hk
    simp only [withWindow, emplaceWindow, makeDevice]
    by_cases hkid : k = identifier
    · subst hkid
      rw [AList.lookup_insert] at hk
      obtain rfl := Option.some.inj hk
      exact ⟨⟨con, m.objects.length⟩, List.getElem?_concat_length, AList.lookup_insert _⟩
    · rw [AList.lookup_insert_ne hkid] at hk
      obtain ⟨o, ho, hdev⟩ := h.delivers k n hk
      refine ⟨o, ?_, ?_⟩
      · rw [List.getElem?_append_left (List.getElem?_eq_some_iff.mp ho).1, ho]
      · rw [AList.lookup_insert_ne hkid, hdev]

theorem Consistent.of_sameMaps (h : Consistent m) (hs : SameMaps m m')
    (hobjects : ∀ (n : Nat) (o : Object), m.objects[n]? = some o → m'.objects[n]? = some o) : Consistent m' := by
  constructor
  · intro k
    rw [mem_iff_of_lookup (hs.devices k), mem_iff_of_lookup (hs.connections k), h.devices]
  · intro k
    rw [mem_iff_of_lookup (hs.windows k), mem_iff_of_lookup (hs.connections k), h.windows]
  · intro k n hk
    rw [hs.connections] at hk
    obtain ⟨o, ho, hdev⟩ := h.delivers k n hk
    exact ⟨o, hobjects n o ho, (hs.devices k).trans hdev⟩

/-- A connection that cannot be configured leaves the maps as they were. -/
theorem Consistent.sameMaps_failed (h : Consistent m) {identifier : Bytes}
    (hin : identifier ∉ m.connections_) (con : AnyConnection) :
    SameMaps m { m.makeDevice identifier con with
      devices_ := (m.makeDevice identifier con).devices_.erase identifier } := by
  refine ⟨fun k => ?_, fun _ => rfl, fun _ => rfl⟩
  simp only [makeDevice]
  by_cases hk : k = identifier
  · subst hk
    have hdev : k ∉ m.devices_ := fun hd => hin ((h.devices k).mp hd)
    rw [AList.lookup_erase, AList.lookup_eq_none.mpr hdev]
  · rw [AList.lookup_erase_ne hk, AList.lookup_insert_ne hk]

/-- An exception of the recents step leaves a device and a window without a connection. -/
theorem not_consistent_of_threw {identifier : Bytes} (hin : identifier ∉ m.connections_)
    (con : AnyConnection) (recents : List RecentConnection) (file : RecentsFile) :
    ¬ Consistent
      { m.withWindow identifier con with recentConnections_ := recents, file := file } := by
  intro h
  refine hin ((h.devices identifier).mp ?_)
  simp only [withWindow, emplaceWindow, makeDevice, AList.mem_insert, true_or]

theorem step_add {a : Answers} {opts : AnyOptions} {addToRecents : Bool}
    (hs : step json m (.add a opts addToRecents) = some m') :
    (m.add json a opts addToRecents).2 = m' := by
  simp only [step] at hs
  split at hs
  · cases hs
  · rename_i h
    rw [h]
    exact Option.some.inj hs

theorem recentsReady_add {a : Answers} {opts : AnyOptions} {addToRecents : Bool} :
    RecentsReady json m (.add a opts addToRecents) m' ↔
      (addToRecents = true → opts.identifier ∉ m.connections_ →
        ∀ con, configure a opts = .returned con → Accepts json m.file opts) := by
  cases addToRecents with
  | true => exact ⟨fun h _ => h, fun h => h rfl⟩
  | false => exact iff_of_true trivial fun h => by cases h

theorem sound_add_iff (h : Consistent m) {a : Answers} {opts : AnyOptions} {addToRecents : Bool}
    (hs : step json m (.add a opts addToRecents) = some m') :
    Sound json m (.add a opts addToRecents) m' ↔
      RecentsReady json m (.add a opts addToRecents) m' := by
  have hcases := add_cases json a opts addToRecents m
  rw [step_add hs] at hcases
  rw [recentsReady_add, Sound]
  generalize hadded : (m.add json a opts addToRecents).1 = added at hcases ⊢
  cases hcases with
  | inUse hin message =>
    have hsame : SameMaps m m := .refl m
    exact iff_of_true ⟨h, fun _ => hsame⟩ fun _ hnew => absurd hin hnew
  | failed hin con what message hc =>
    have hsame := h.sameMaps_failed hin con
    have hkeep := h.of_sameMaps hsame fun n o ho =>
      (List.getElem?_append_left (List.getElem?_eq_some_iff.mp ho).1).trans ho
    refine iff_of_true ⟨hkeep, fun _ => hsame⟩ fun _ _ con' hc' => ?_
    cases hc.symm.trans hc'
  | threw hin con recents file e hc hadd haccept =>
    have hbroken := not_consistent_of_threw hin con recents file
    exact iff_of_false (fun hsound => hbroken hsound.1)
      fun hready => haccept (hready hadd hin con hc)
  | added hin con recents file message hc haccept =>
    have hkeep := h.added hin con recents file
    exact iff_of_true ⟨hkeep, fun hnot => absurd ⟨message, rfl⟩ hnot⟩
      fun hadd _ _ _ => haccept hadd

theorem sound_iff_recentsReady (m : DeviceManager) (e : Event) (m' : DeviceManager)
    (h : Consistent m) (hs : step json m e = some m') :
    Sound json m e m' ↔ RecentsReady json m e m' := by
  cases e with
  | add a opts addToRecents => exact sound_add_iff h hs
  | close identifiers =>
    simp only [step, Option.ite_none_right_eq_some, Option.some.injEq] at hs
    obtain ⟨-, rfl⟩ := hs
    exact iff_of_true ⟨h.closeConnections identifiers, trivial⟩ trivial
  | changeFile file =>
    obtain rfl := Option.some.inj hs
    exact iff_of_true ⟨⟨h.devices, h.windows, h.delivers⟩, trivial⟩ trivial

/-- In a run from a fresh manager the maps stay sound exactly when the recents file is
ready for every call of `add*Connection` that gets to it. -/
theorem along_sound_iff (json : JsonText) (file : RecentsFile) (recents : List RecentConnection)
    (es : List Event) :
    Along (step json) (Sound json) (fresh file recents) es ↔
      Along (step json) (RecentsReady json) (fresh file recents) es :=
  along_iff_of_first (fun _ _ _ _ _ h => h.1) sound_iff_recentsReady
    (consistent_fresh file recents) es

/-- The recents file is overwritten with a text that is not JSON, and a connection is
added to it. -/
def brokenFileRun : List Event :=
  [.changeFile ⟨some (text "["), true⟩,
    .add ⟨[], false, fun _ _ => .ok [], ⟨none, none⟩, .ok⟩
      (.serial (.withIdentifier (text "a"))) true]

theorem brokenFileRun_not_sound :
    ¬ Along (step noJson) (Sound noJson) (fresh ⟨none, true⟩ []) brokenFileRun := by
  intro h
  have hfile := (h.cons rfl).2
  have hkeys := (hfile.cons rfl).1.1.devices (text "a")
  exact absurd (hkeys.mp (by decide)) (by decide)

end DeviceTester.Gui.DeviceManager

import DeviceTester.Gui.DeviceForm
import DeviceTester.Gui.RecentsLog
import DeviceTester.Gui.Teardown

/-!
# `gui::App`

The program frame by frame: the main menu, the modal, then the windows. The threads of the tests
and the io thread run beside them, between any two of these. Nobody catches what leaves
`drawEvent()`, so that it ends the program.
-/
namespace DeviceTester.Gui

open DeviceTester.Connection DeviceTester.Config DeviceTester.Lib

/-! ## The parts of a frame -/

namespace DeviceManager

/-- Events of the `n`-th connection. -/
def callObject (n : Nat) (calls : List AnyEvent) (m : DeviceManager) : Option DeviceManager :=
  match m.objects[n]? with
  | none => none
  | some o => (exec AnyConnection.step o.connection calls).map fun c =>
      { m with objects := m.objects.modify n fun o => { o with connection := c } }

end DeviceManager

/-- `gui::BaseModal`, and whether its popup is open. -/
structure BaseModal where
  wantToOpen_ : Bool
  isOpen_ : Bool
  popup : Bool
  deriving DecidableEq, Repr

namespace BaseModal

def initial : BaseModal := ⟨false, true, false⟩

def open_ (b : BaseModal) : BaseModal := { b with wantToOpen_ := true, isOpen_ := true }

/-- `ImGui::OpenPopup`. -/
def openPopup (b : BaseModal) : BaseModal :=
  if b.wantToOpen_ then { b with wantToOpen_ := false, popup := true } else b

/-- `ImGui::BeginPopupModal`, where `cross` says that the box in the title bar is clicked: whether
the content is drawn. A popup whose flag is down is closed. -/
def beginPopupModal (cross : Bool) (b : BaseModal) : Bool × BaseModal :=
  if !b.popup then (false, b)
  else
    let b := if cross then { b with isOpen_ := false } else b
    if b.isOpen_ then (true, b) else (false, { b with popup := false })

/-- `ImGui::CloseCurrentPopup`. -/
def closeCurrentPopup (b : BaseModal) : BaseModal := { b with popup := false }

end BaseModal

/-- What the user does in the menus. The items of the recent connections come with the answers to
the connections that they make. -/
structure MenuFrame where
  openItem : Bool
  recents : Nat → Bool
  answers : Nat → Answers
  close : List Bytes

/-- What the user does in the popup of a program with this text format. -/
structure PopupFrame (json : JsonText) where
  cross : Bool
  cancel : Bool
  modal : DeviceCreate.ModalFrame
  format : ∀ json' a, modal.click = some (.add json' a) → json' = json

/-- The device manager is the one that the modal refers to. `modalNext` says that the main menu
of a frame has been drawn and the modal has not, `ended` that an exception has left
`drawEvent()`. -/
structure App where
  deviceCreateModal_ : DeviceCreate
  base : BaseModal
  modalNext : Bool
  ended : Bool

namespace App

/-- The constructor, where that of `device_manager_` returns. -/
def initial (file : RecentsFile) (recents : List RecentConnection) : App where
  deviceCreateModal_ := .initial (.fresh file recents)
  base := .initial
  modalNext := false
  ended := false

def deviceManager_ (s : App) : DeviceManager := s.deviceCreateModal_.deviceManager_

def withManager (m : DeviceManager) (s : App) : App :=
  { s with deviceCreateModal_ := { s.deviceCreateModal_ with deviceManager_ := m } }

def showDeviceMenu (json : JsonText) (f : MenuFrame) (s : App) : App :=
  let s := if f.openItem then { s with base := s.base.open_ } else s
  s.withManager (s.deviceManager_.drawOpenRecent json f.answers f.recents)

/-- The items to close a connection are those of windows, each clicked once. -/
def showMainMenu (json : JsonText) (f : MenuFrame) (s : App) : Option App :=
  let s := s.showDeviceMenu json f
  if (∀ identifier ∈ f.close, identifier ∈ s.deviceManager_.windows_) ∧ f.close.Nodup then
    some (s.withManager (s.deviceManager_.closeConnections f.close))
  else none

/-- The button `Cancel`, which is disabled while a test is in progress. -/
def cancels {json : JsonText} (f : PopupFrame json) (m : DeviceCreate) : Bool :=
  f.cancel &&
    match (m.drawInputs f.modal).testConnectionInProg.1 with
    | .ok false => true
    | _ => false

/-- `BaseModal::draw`, whose content closes the popup when it is cancelled or has added a
connection. -/
def drawModal {json : JsonText} (f : PopupFrame json) (s : App) : App :=
  let (drawn, base) := s.base.openPopup.beginPopupModal f.cross
  if drawn then
    let m := s.deviceCreateModal_
    let closes := cancels f m || m.frameAdds f.modal
    { s with
      deviceCreateModal_ := m.drawContent f.modal
      base := if closes then base.closeCurrentPopup else base
      modalNext := false
      ended := (m.drawContent f.modal).thrown }
  else { s with base := base, modalNext := false }

/-- A window calls its connection. `throws` says whether the last call does. -/
def drawWindow (identifier : Bytes) (calls : List AnyEvent) (throws : Bool) (s : App) :
    Option App :=
  if ∀ e ∈ calls, e.isIo = false then
    (s.deviceManager_.windows_.lookup identifier).bind fun n =>
      (s.deviceManager_.callObject n calls).map fun m => { s.withManager m with ended := throws }
  else none

inductive Event (json : JsonText) where
  /-- The parts of `drawEvent()`. -/
  | menu (f : MenuFrame)
  | modal (f : PopupFrame json)
  | window (identifier : Bytes) (calls : List AnyEvent) (throws : Bool)
  /-- The thread of the test, and the io thread for it. -/
  | test (e : ConnectionTests.Event)
  /-- The io thread, for the `n`-th connection. -/
  | io (n : Nat) (e : AnyEvent)
  /-- Someone else. -/
  | changeFile (file : RecentsFile)

def step (json : JsonText) (s : App) (e : Event json) : Option App :=
  if s.ended then none
  else
    match e with
    | .menu f =>
        if s.modalNext then none
        else (s.showMainMenu json f).map fun s => { s with modalNext := true }
    | .modal f => if s.modalNext then some (s.drawModal f) else none
    | .window identifier calls throws =>
        if s.modalNext then none else s.drawWindow identifier calls throws
    | .test x => (s.deviceCreateModal_.step (.test x)).map fun m => { s with deviceCreateModal_ := m }
    | .io n x =>
        if x.isIo then (s.deviceManager_.callObject n [x]).map (s.withManager ·) else none
    | .changeFile file => some (s.withManager { s.deviceManager_ with file := file })

end App

/-! ## What the parts of a frame do to the maps -/

namespace DeviceManager

variable {json : JsonText} {m m' : DeviceManager}

/-- The events of connections leave the maps, the recent connections and the file. -/
structure SameEntries (m m' : DeviceManager) : Prop where
  devices : m'.devices_ = m.devices_
  connections : m'.connections_ = m.connections_
  windows : m'.windows_ = m.windows_
  handles : m'.objects.map Object.handle = m.objects.map Object.handle
  recents : SameRecents m m'

theorem SameEntries.refl (m : DeviceManager) : SameEntries m m := ⟨rfl, rfl, rfl, rfl, rfl, rfl⟩

theorem SameEntries.trans {m'' : DeviceManager} (h : SameEntries m m') (h' : SameEntries m' m'') :
    SameEntries m m'' :=
  ⟨h'.devices.trans h.devices, h'.connections.trans h.connections, h'.windows.trans h.windows,
    h'.handles.trans h.handles, h'.recents.1.trans h.recents.1, h'.recents.2.trans h.recents.2⟩

theorem Consistent.of_sameEntries (h : Consistent m) (hs : SameEntries m m') : Consistent m' := by
  constructor
  · intro k
    rw [hs.devices, hs.connections, h.devices]
  · intro k
    rw [hs.windows, hs.connections, h.windows]
  · intro k n hk
    rw [hs.connections] at hk
    obtain ⟨o, ho, hdev⟩ := h.delivers k n hk
    have hhandle : (m'.objects.map Object.handle)[n]? = some o.handle := by
      rw [hs.handles, List.getElem?_map, ho]
      rfl
    rw [List.getElem?_map, Option.map_eq_some_iff] at hhandle
    obtain ⟨o', ho', hsame⟩ := hhandle
    refine ⟨o', ho', ?_⟩
    rw [hs.devices, hdev, hsame]

theorem callObject_of {n : Nat} {o : Object} (ho : m.objects[n]? = some o)
    (calls : List AnyEvent) :
    m.callObject n calls = (exec AnyConnection.step o.connection calls).map fun c =>
      { m with objects := m.objects.modify n fun o => { o with connection := c } } := by
  unfold callObject
  rw [ho]

theorem callObject_cases {n : Nat} {calls : List AnyEvent} (h : m.callObject n calls = some m') :
    ∃ o c, m.objects[n]? = some o ∧ exec AnyConnection.step o.connection calls = some c ∧
      m' = { m with objects := m.objects.modify n fun o => { o with connection := c } } := by
  cases ho : m.objects[n]? with
  | none =>
    unfold callObject at h
    rw [ho] at h
    cases h
  | some o =>
    rw [callObject_of ho] at h
    obtain ⟨c, hc, rfl⟩ := Option.map_eq_some_iff.mp h
    exact ⟨o, c, rfl, hc, rfl⟩

theorem sameEntries_callObject {n : Nat} {calls : List AnyEvent}
    (h : m.callObject n calls = some m') : SameEntries m m' := by
  obtain ⟨o, c, -, -, rfl⟩ := callObject_cases h
  refine ⟨rfl, rfl, rfl, ?_, rfl, rfl⟩
  apply List.ext_getElem?
  intro k
  simp only [List.getElem?_map, List.getElem?_modify]
  cases m.objects[k]? with
  | none => rfl
  | some o' =>
    by_cases hk : n = k
    · simp [hk]
    · simp [hk]

/-- A call of `add*Connection` that does not throw. -/
theorem Consistent.add (h : Consistent m) {a : Answers} {opts : AnyOptions} {addToRecents : Bool}
    (hok : ∀ e, (m.add json a opts addToRecents).1 ≠ .error e) :
    Consistent (m.add json a opts addToRecents).2 := by
  have hcases := add_cases json a opts addToRecents m
  generalize m.add json a opts addToRecents = r at hcases hok
  obtain ⟨added, m'⟩ := r
  cases hcases with
  | inUse hin message => exact h
  | failed hin con what message hc =>
    exact h.of_sameMaps (h.sameMaps_failed hin con) fun n o ho =>
      (List.getElem?_append_left (List.getElem?_eq_some_iff.mp ho).1).trans ho
  | threw hin con recents file e hc hadd haccept => exact absurd rfl (hok e)
  | added hin con recents file message hc haccept => exact h.added hin con recents file

/-- An item whose type is not that of its options is opened neither. -/
theorem openRecent_cases (json : JsonText) (a : Answers) (con : RecentConnection)
    (m : DeviceManager) :
    m.openRecent json a con = m ∨ m.openRecent json a con = (m.add json a con.options false).2 := by
  obtain ⟨type, options⟩ := con
  unfold openRecent
  dsimp only
  cases options with
  | serial o =>
    split
    · exact .inr rfl
    · split
      · exact .inl rfl
      · split <;> exact .inl rfl
  | tcp o =>
    split
    · exact .inl rfl
    · split
      · exact .inr rfl
      · split <;> exact .inl rfl
  | udp o =>
    split
    · exact .inl rfl
    · split
      · exact .inl rfl
      · split
        · exact .inr rfl
        · exact .inl rfl

/-- The rule for the loop over the recent connections: what each connection keeps that is made
without being stored again, the loop keeps. -/
theorem drawOpenRecent_induction {I : DeviceManager → Prop}
    (hadd : ∀ m a opts, I m → I (m.add json a opts false).2) (answers : Nat → Answers)
    (clicked : Nat → Bool) (h : I m) : I (m.drawOpenRecent json answers clicked) := by
  unfold drawOpenRecent
  generalize m.recentConnections_.zipIdx = items
  induction items generalizing m with
  | nil => exact h
  | cons item items ih =>
    refine ih ?_
    dsimp only
    split
    · rcases openRecent_cases json (answers item.2) item.1 m with hsame | hmade
      · rw [hsame]
        exact h
      · rw [hmade]
        exact hadd m (answers item.2) item.1.options h
    · exact h

/-- A connection that is not stored again throws nothing. -/
theorem add_false_ok (a : Answers) (opts : AnyOptions) (m : DeviceManager) (e : Failure) :
    (m.add json a opts false).1 ≠ .error e := by
  have hcases := add_cases json a opts false m
  generalize m.add json a opts false = r at hcases
  obtain ⟨added, m'⟩ := r
  cases hcases with
  | inUse hin message => exact nofun
  | failed hin con what message hc => exact nofun
  | threw hin con recents file e' hc hadd haccept => cases hadd
  | added hin con recents file message hc haccept => exact nofun

theorem sameRecents_drawOpenRecent (json : JsonText) (answers : Nat → Answers)
    (clicked : Nat → Bool) (m : DeviceManager) :
    SameRecents m (m.drawOpenRecent json answers clicked) := by
  refine drawOpenRecent_induction (I := SameRecents m) (fun m' a opts h => ?_) answers clicked
    ⟨rfl, rfl⟩
  have hadded : SameRecents m' (m'.add json a opts false).2 := sameRecents_add fun h => by cases h
  exact ⟨hadded.1.trans h.1, hadded.2.trans h.2⟩

end DeviceManager

/-- The rule for a frame of the modal: it leaves the manager or adds a connection to it. -/
theorem DeviceCreate.Submits.keeps_manager {I : DeviceManager → Prop} {form : Form}
    {m m' : DeviceCreate} {f : DeviceCreate.ModalFrame} (h : DeviceCreate.Submits form m f m') (hm : I m.deviceManager_)
    (hadd : ∀ json a opts, f.click = some (.add json a) →
      (m'.thrown = false → ∀ e, (m.deviceManager_.add json a opts true).1 ≠ .error e) →
      I (m.deviceManager_.add json a opts true).2) : I m'.deviceManager_ := by
  cases h with
  | keeps hform hmanager htests =>
    rw [hmanager]
    exact hm
  | tests rx opts hclick hopts hform hmanager htests =>
    rw [hmanager]
    exact hm
  | adds json a opts message hclick hname hopts hadded hform hmanager htests =>
    rw [hmanager]
    refine hadd json a opts hclick fun _ e he => ?_
    cases hadded.symm.trans he
  | fails json a opts hclick hname hopts hadded hthrown hform hmanager htests =>
    rw [hmanager]
    refine hadd json a opts hclick fun hok e he => ?_
    cases hok.symm.trans (hthrown e he)

namespace App

variable {json : JsonText} {s t : App}

/-! ## What a part of a frame does -/

theorem deviceManager_showDeviceMenu (f : MenuFrame) (s : App) :
    (s.showDeviceMenu json f).deviceManager_ =
      s.deviceManager_.drawOpenRecent json f.answers f.recents := by
  unfold showDeviceMenu
  cases f.openItem <;> rfl

theorem showMainMenu_cases {f : MenuFrame} (h : s.showMainMenu json f = some t) :
    (∀ identifier ∈ f.close,
        identifier ∈ (s.deviceManager_.drawOpenRecent json f.answers f.recents).windows_) ∧
      f.close.Nodup ∧
      t.deviceManager_ =
        (s.deviceManager_.drawOpenRecent json f.answers f.recents).closeConnections f.close ∧
      t.base = (if f.openItem then s.base.open_ else s.base) := by
  obtain ⟨⟨hclose, hnodup⟩, h⟩ := Option.ite_none_right_eq_some.mp h
  rw [deviceManager_showDeviceMenu] at hclose
  obtain rfl := Option.some.inj h
  refine ⟨hclose, hnodup, ?_, ?_⟩
  · rw [← deviceManager_showDeviceMenu]
    rfl
  · unfold showDeviceMenu
    cases f.openItem <;> rfl

/-- The modal is not drawn, or a frame of it is. -/
theorem drawModal_cases (f : PopupFrame json) (s : App) :
    ((s.base.openPopup.beginPopupModal f.cross).1 = false ∧
        (s.drawModal f).deviceCreateModal_ = s.deviceCreateModal_ ∧
        (s.drawModal f).base = (s.base.openPopup.beginPopupModal f.cross).2 ∧
        (s.drawModal f).ended = s.ended) ∨
      ((s.base.openPopup.beginPopupModal f.cross).1 = true ∧
        (s.drawModal f).deviceCreateModal_ = s.deviceCreateModal_.drawContent f.modal ∧
        (s.drawModal f).base =
          (if cancels f s.deviceCreateModal_ || s.deviceCreateModal_.frameAdds f.modal then
            (s.base.openPopup.beginPopupModal f.cross).2.closeCurrentPopup
          else (s.base.openPopup.beginPopupModal f.cross).2) ∧
        (s.drawModal f).ended = (s.deviceCreateModal_.drawContent f.modal).thrown) := by
  unfold drawModal
  generalize s.base.openPopup.beginPopupModal f.cross = r
  obtain ⟨drawn, base⟩ := r
  cases drawn with
  | false => exact .inl ⟨rfl, rfl, rfl, rfl⟩
  | true => exact .inr ⟨rfl, rfl, rfl, rfl⟩

theorem drawModal_keeps {I : DeviceManager → Prop} (f : PopupFrame json) (h : I s.deviceManager_)
    (hadd : ∀ a opts, ((s.drawModal f).ended = false →
        ∀ e, (s.deviceManager_.add json a opts true).1 ≠ .error e) →
      I (s.deviceManager_.add json a opts true).2) : I (s.drawModal f).deviceManager_ := by
  rcases drawModal_cases f s with ⟨-, hmodal, -, -⟩ | ⟨-, hmodal, -, hthrown⟩
  · rw [deviceManager_, hmodal]
    exact h
  · rw [deviceManager_, hmodal]
    refine (DeviceCreate.submits_frame f.modal s.deviceCreateModal_).keeps_manager h
      fun json' a opts hclick hok => ?_
    obtain rfl := f.format json' a hclick
    exact hadd a opts fun hended => hok (hthrown.symm.trans hended)

theorem drawWindow_cases {identifier : Bytes} {calls : List AnyEvent} {throws : Bool}
    (h : s.drawWindow identifier calls throws = some t) :
    s.deviceManager_.SameEntries t.deviceManager_ ∧ t.base = s.base := by
  obtain ⟨-, h⟩ := Option.ite_none_right_eq_some.mp h
  obtain ⟨n, -, h⟩ := Option.bind_eq_some_iff.mp h
  obtain ⟨m, hm, rfl⟩ := Option.map_eq_some_iff.mp h
  exact ⟨DeviceManager.sameEntries_callObject hm, rfl⟩

/-- The connection that a frame of the modal adds. -/
def addedBy (f : DeviceCreate.ModalFrame) (m : DeviceCreate) : List AnyOptions :=
  if m.frameAdds f then (m.form.enter f).described.toList else []

/-- The connection that an event adds through the modal. -/
def added (s : App) : Event json → List AnyOptions
  | .modal f =>
      if (s.base.openPopup.beginPopupModal f.cross).1 then addedBy f.modal s.deviceCreateModal_
      else []
  | _ => []

/-- What a step can do to the device manager and to the popup. -/
inductive StepCases (json : JsonText) (s : App) : Event json → App → Prop where
  | menu (f : MenuFrame) (t : App) (hmenu : s.showMainMenu json f = some t) :
      StepCases json s (.menu f) { t with modalNext := true }
  | modal (f : PopupFrame json) : StepCases json s (.modal f) (s.drawModal f)
  | quiet (e : Event json) (t : App) (hadds : added s e = [])
      (hsame : s.deviceManager_.SameEntries t.deviceManager_) (hbase : t.base = s.base) :
      StepCases json s e t
  | changeFile (file : RecentsFile) :
      StepCases json s (.changeFile file) (s.withManager { s.deviceManager_ with file := file })

theorem step_cases {e : Event json} (hs : step json s e = some t) :
    s.ended = false ∧ StepCases json s e t := by
  obtain ⟨hrunning, hs⟩ := Option.ite_none_left_eq_some.mp hs
  refine ⟨Bool.eq_false_iff.mpr hrunning, ?_⟩
  cases e with
  | menu f =>
    obtain ⟨-, hs⟩ := Option.ite_none_left_eq_some.mp hs
    obtain ⟨u, hu, rfl⟩ := Option.map_eq_some_iff.mp hs
    exact .menu f u hu
  | modal f =>
    obtain ⟨-, hs⟩ := Option.ite_none_right_eq_some.mp hs
    obtain rfl := Option.some.inj hs
    exact .modal f
  | window identifier calls throws =>
    obtain ⟨-, hs⟩ := Option.ite_none_left_eq_some.mp hs
    obtain ⟨hsame, hbase⟩ := drawWindow_cases hs
    exact .quiet _ t rfl hsame hbase
  | test x =>
    obtain ⟨m, hm, rfl⟩ := Option.map_eq_some_iff.mp hs
    obtain ⟨-, -, tests, -, rfl⟩ := DeviceCreate.step_test hm
    exact .quiet _ _ rfl (.refl _) rfl
  | io n x =>
    obtain ⟨-, hs⟩ := Option.ite_none_right_eq_some.mp hs
    obtain ⟨m, hm, rfl⟩ := Option.map_eq_some_iff.mp hs
    exact .quiet _ _ rfl (DeviceManager.sameEntries_callObject hm) rfl
  | changeFile file =>
    obtain rfl := Option.some.inj hs
    exact .changeFile file

/-! ## The maps -/

/-- The rule for an invariant of the manager that holds as long as the program has not ended. -/
theorem keeps_manager {I : DeviceManager → Prop}
    (hadd : ∀ m a opts addToRecents, I m → (∀ e, (m.add json a opts addToRecents).1 ≠ .error e) →
      I (m.add json a opts addToRecents).2)
    (hclose : ∀ m identifiers, I m → I (m.closeConnections identifiers))
    (hentries : ∀ m m', I m → m.SameEntries m' → I m')
    (hfile : ∀ m file, I m → I { m with file := file }) :
    Keeps (step json) anyStep fun s => s.ended = false → I s.deviceManager_ := by
  intro s e t h _ hs ht
  obtain ⟨hrunning, hcases⟩ := step_cases hs
  have hm : I s.deviceManager_ := h hrunning
  cases hcases with
  | menu f u hmenu =>
    show I u.deviceManager_
    rw [(showMainMenu_cases hmenu).2.2.1]
    refine hclose _ f.close (DeviceManager.drawOpenRecent_induction (fun m a opts hm => ?_)
      f.answers f.recents hm)
    exact hadd m a opts false hm (DeviceManager.add_false_ok a opts m)
  | modal f => exact drawModal_keeps f hm fun a opts hok => hadd _ a opts true hm (hok ht)
  | quiet _ _ hadds hsame hbase => exact hentries _ _ hm hsame
  | changeFile file => exact hfile _ file hm

theorem keeps_consistent :
    Keeps (step json) anyStep fun s => s.ended = false → s.deviceManager_.Consistent :=
  keeps_manager (fun _ _ _ _ h hok => h.add hok)
    (fun _ identifiers h => h.closeConnections identifiers)
    (fun _ _ h hs => h.of_sameEntries hs) fun _ _ h => ⟨h.devices, h.windows, h.delivers⟩

/-- In every run of the program, whatever is in the recents file and whoever changes it: as long
as the program has not ended the maps are consistent. Where a call of `add*Connection` leaves them
inconsistent, nothing is drawn after it. -/
theorem maps_stay_consistent (json : JsonText) (file : RecentsFile)
    (recents : List RecentConnection) (es : List (Event json)) (s : App)
    (he : exec (step json) (initial file recents) es = some s) (hs : s.ended = false) :
    s.deviceManager_.Consistent := by
  refine keeps_consistent.exec (fun _ => ?_) (along_anyStep _ _) he hs
  exact DeviceManager.consistent_fresh file recents

/-- `Open` is clicked. -/
def openFrame : MenuFrame where
  openItem := true
  recents := fun _ => false
  answers := fun _ => DeviceManager.kAnswers
  close := []

/-- A listener is entered and added. -/
def listenerFrame : DeviceCreate.ModalFrame :=
  { DeviceCreate.blankFrame with
    name := some (text "u")
    interface := some 2
    udpInput := ⟨none, none, some 5000, some 2⟩
    click := some (.add DeviceManager.kTwoTexts DeviceManager.kAnswers) }

/-- The popup is opened, and the listener added in it. -/
def enteredRun : List (Event DeviceManager.kTwoTexts) :=
  [.menu openFrame, .modal {
    cross := false
    cancel := false
    modal := listenerFrame
    format := fun _ _ h => (DeviceCreate.Click.add.inj (Option.some.inj h)).1.symm }]

set_option maxRecDepth 4000 in
theorem entered_consistent :
    ∃ s, exec (step DeviceManager.kTwoTexts)
        (initial ⟨some DeviceManager.kEmptyText, true⟩ []) enteredRun = some s ∧
      text "u" ∈ s.deviceManager_.connections_ ∧ s.deviceManager_.Consistent :=
  ⟨_, rfl, by decide, maps_stay_consistent DeviceManager.kTwoTexts
    ⟨some DeviceManager.kEmptyText, true⟩ [] enteredRun _ rfl rfl⟩

/-! ## The connections that the modal adds -/

/-- The clicks on `Open`. -/
def opened : Event json → Nat
  | .menu f => if f.openItem then 1 else 0
  | _ => 0

/-- Whether the popup is open, or is going to be. -/
def awaited (b : BaseModal) : Nat := if b.wantToOpen_ || b.popup then 1 else 0

theorem awaited_open (b : BaseModal) : awaited b.open_ = 1 := by
  simp [awaited, BaseModal.open_]

theorem awaited_begin (cross : Bool) (b : BaseModal) :
    awaited (b.openPopup.beginPopupModal cross).2 ≤ awaited b ∧
      ((b.openPopup.beginPopupModal cross).1 = true →
        awaited b = 1 ∧ awaited (b.openPopup.beginPopupModal cross).2.closeCurrentPopup = 0) := by
  obtain ⟨want, isOpen, popup⟩ := b
  cases cross <;> cases want <;> cases isOpen <;> cases popup <;> decide

theorem length_addedBy (f : DeviceCreate.ModalFrame) (m : DeviceCreate) :
    (addedBy f m).length ≤ if m.frameAdds f then 1 else 0 := by
  unfold addedBy
  split
  · cases (m.form.enter f).described <;> simp
  · exact Nat.le_refl 0

theorem awaited_drawModal (f : PopupFrame json) (s : App) :
    (added s (.modal f)).length + awaited (s.drawModal f).base ≤ awaited s.base := by
  obtain ⟨hle, hdrawn⟩ := awaited_begin f.cross s.base
  have hadded := length_addedBy f.modal s.deviceCreateModal_
  unfold added
  dsimp only
  rcases drawModal_cases f s with ⟨hnot, -, hbase, -⟩ | ⟨hshown, -, hbase, -⟩
  · rw [hnot, hbase, if_neg (by simp)]
    simpa using hle
  · obtain ⟨hone, hclosed⟩ := hdrawn hshown
    rw [if_pos hshown, hbase, hone]
    rw [hone] at hle
    cases hadds : s.deviceCreateModal_.frameAdds f.modal with
    | true =>
      -- a connection that is added closes the popup
      rw [hadds, if_pos rfl] at hadded
      rw [Bool.or_true, if_pos rfl, hclosed]
      omega
    | false =>
      rw [hadds, if_neg (by simp)] at hadded
      split
      · omega
      · omega

theorem awaited_step {e : Event json} (hs : step json s e = some t) :
    (added s e).length + awaited t.base ≤ awaited s.base + opened e := by
  cases (step_cases hs).2 with
  | menu f u hmenu =>
    obtain ⟨-, -, -, hopen⟩ := showMainMenu_cases hmenu
    show 0 + awaited u.base ≤ awaited s.base + opened (.menu f)
    rw [hopen, opened]
    split
    · rw [awaited_open]
      omega
    · omega
  | modal f => exact (awaited_drawModal f s).trans (Nat.le_add_right _ _)
  | quiet _ _ hadds hsame hbase =>
    rw [hadds, hbase, List.length_nil]
    omega
  | changeFile file =>
    show 0 + awaited s.base ≤ awaited s.base + 0
    omega

theorem awaited_exec {es : List (Event json)} (he : exec (step json) s es = some t) :
    (collected (step json) added s es).length + awaited t.base ≤
      awaited s.base + (es.map opened).sum := by
  induction es generalizing s with
  | nil =>
    obtain rfl := Option.some.inj he
    show 0 + awaited s.base ≤ awaited s.base + 0
    omega
  | cons e es ih =>
    obtain ⟨u, hu, htail⟩ := exec_cons_some he
    have hfirst := awaited_step hu
    have hrest := ih htail
    simp only [collected, hu, List.length_append, List.map_cons, List.sum_cons]
    omega

/-- In every run of the program the modal adds at most one connection for each click on `Open`. -/
theorem added_le_opened (json : JsonText) (file : RecentsFile) (recents : List RecentConnection)
    (es : List (Event json)) (s : App) (he : exec (step json) (initial file recents) es = some s) :
    (collected (step json) added (initial file recents) es).length ≤ (es.map opened).sum := by
  have hcount := awaited_exec he
  have hstart : awaited (initial file recents).base = 0 := rfl
  omega

set_option maxRecDepth 4000 in
theorem entered_once :
    (collected (step DeviceManager.kTwoTexts) added
        (initial ⟨some DeviceManager.kEmptyText, true⟩ []) enteredRun).length ≤ 1 :=
  added_le_opened DeviceManager.kTwoTexts ⟨some DeviceManager.kEmptyText, true⟩ [] enteredRun _ rfl

end App

end DeviceTester.Gui

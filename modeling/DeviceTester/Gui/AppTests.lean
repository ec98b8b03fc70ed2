import DeviceTester.Gui.ConnectionCalls

/-!
# The tests of the program

A serial test keeps the modal busy until the program ends: its `connect()` throws, and what the
future of the test then holds is never shown.
-/
namespace DeviceTester.Gui

open DeviceTester.Connection DeviceTester.Config DeviceTester.Lib

/-! ## What the futures hold -/

namespace Tested

def isSerial : Tested → Bool
  | serial _ => true
  | tcp _ => false

variable {c d : Tested}

theorem isSerial_disconnect (c : Tested) : c.disconnect.isSerial = c.isSerial := by
  cases c <;> rfl

theorem isSerial_io {x : IoEvent} (h : c.io x = some d) : d.isSerial = c.isSerial := by
  cases c with
  | serial s =>
    obtain ⟨u, -, rfl⟩ := Option.map_eq_some_iff.mp h
    rfl
  | tcp t =>
    obtain ⟨u, -, rfl⟩ := Option.map_eq_some_iff.mp h
    rfl

end Tested

namespace ConnectionTests

variable {tests tests' : ConnectionTests} {x : Event}

/-- A serial test does not get past `connect()`, and it is the serial tests whose futures hold an
exception. -/
structure Sorted (tests : ConnectionTests) : Prop where
  running : ∀ r, tests.running = some r → r.connection.isSerial = true → r.stage = .connect
  ended : ∀ d ∈ tests.ended, (∃ what, d.outcome = .error what) ↔ d.connection.isSerial = true

theorem sorted_initial : Sorted initial := by
  constructor
  · intro r hr
    cases hr
  · intro d hd
    cases hd

theorem Sorted.beginTest (h : Sorted tests) (connection : Tested) (target : Bytes) :
    Sorted (tests.beginTest connection target) := by
  refine ⟨fun r hr _ => ?_, h.ended⟩
  obtain rfl := Option.some.inj hr
  rfl

theorem Sorted.start (h : Sorted tests) (rx : Bytes) (opts : AnyOptions) :
    Sorted (tests.start rx opts) := by
  cases opts with
  | serial o => exact h.beginTest _ _
  | tcp o => exact h.beginTest _ _
  | udp o => exact h

theorem Sorted.endTest (h : Sorted tests) {r : Running} {outcome : TestOutcome}
    (houtcome : (∃ what, outcome = .error what) ↔ r.connection.isSerial = true) :
    Sorted (tests.endTest r outcome) := by
  constructor
  · intro r' hr'
    cases hr'
  · intro d hd
    rcases List.mem_append.mp hd with hd | hd
    · exact h.ended d hd
    · obtain rfl := List.mem_singleton.mp hd
      exact houtcome

theorem Sorted.proceed (h : Sorted tests) (hs : tests.proceed = some tests') : Sorted tests' := by
  obtain ⟨r, hr, hcase⟩ := proceed_cases hs
  -- a thread that goes on has come past `connect()`
  have htcp : ¬ r.connection.isSerial = true := by
    intro hserial
    have hstage := h.running r hr hserial
    rcases hcase with ⟨c, stage, -, -, -, rfl⟩ | ⟨ok, message, hfinish, -⟩
    · rw [ConnectionTests.proceed, hr, Option.bind_some, hstage] at hs
      cases hs
    · cases hstage.symm.trans hfinish
  rcases hcase with ⟨c, stage, hc, -, -, rfl⟩ | ⟨ok, message, -, rfl⟩
  · refine ⟨fun r' hr' hserial => ?_, h.ended⟩
    obtain rfl := Option.some.inj hr'
    refine absurd (Eq.trans ?_ hserial) htcp
    rcases hc with rfl | rfl
    · rfl
    · exact (Tested.isSerial_disconnect r.connection).symm
  · refine h.endTest (iff_of_false ?_ htcp)
    rintro ⟨what, hwhat⟩
    cases hwhat

theorem Sorted.step (h : Sorted tests) (hs : tests.step x = some tests') : Sorted tests' := by
  cases x with
  | testSerial rx opts =>
    obtain ⟨-, rfl⟩ := testSerial_cases hs
    exact h.start rx (.serial opts)
  | testTcp opts =>
    obtain ⟨-, rfl⟩ := testTcp_cases hs
    exact h.start [] (.tcp opts)
  | connectSerial device depth =>
    obtain ⟨s, target, received, u, what, -, -, rfl⟩ := connectSerial_cases hs
    exact h.endTest (iff_of_true ⟨what, rfl⟩ rfl)
  | connectTcp resolve =>
    obtain ⟨t, target, received, stage, -, -, rfl⟩ := connectTcp_cases hs
    refine ⟨fun r hr hserial => ?_, h.ended⟩
    obtain rfl := Option.some.inj hr
    cases hserial
  | proceed => exact h.proceed hs
  | io x =>
    obtain ⟨r, c, hr, hc, rfl⟩ := io_cases hs
    refine ⟨fun r' hr' hserial => ?_, h.ended⟩
    obtain rfl := Option.some.inj hr'
    exact h.running r hr ((Tested.isSerial_io hc).symm.trans hserial)
  | ioEnded i x =>
    obtain ⟨d, c, hd, hc, rfl⟩ := ioEnded_cases hs
    refine ⟨h.running, fun d' hd' => ?_⟩
    rcases List.mem_or_eq_of_mem_set hd' with hd' | rfl
    · exact h.ended d' hd'
    · exact (h.ended d (List.mem_of_getElem? hd)).trans (by rw [← Tested.isSerial_io hc])

end ConnectionTests

/-! ## The modal -/

namespace DeviceCreate

variable {m m' : DeviceCreate}

theorem drawContent_tests (f : ModalFrame) (m : DeviceCreate) :
    (m.drawContent f).tests = m.tests ∨
      ∃ rx opts, (m.drawContent f).tests = m.tests.start rx opts := by
  cases submits_frame f m with
  | keeps hform hmanager htests => exact .inl htests
  | tests rx opts hclick hopts hform hmanager htests => exact .inr ⟨rx, opts, htests⟩
  | adds json a opts message hclick hname hopts hadded hform hmanager htests => exact .inl htests
  | fails json a opts hclick hname hopts hadded hthrown hform hmanager htests => exact .inl htests

/-- Either only tcp tests have been started, or the modal waits for a serial one. -/
theorem served_or_stuck_step {e : Event} (h : Served m ∨ Stuck m) (hs : m.step e = some m') :
    Served m' ∨ Stuck m' := by
  rcases h with h | h
  · by_cases hn : NoSerialTest m e m'
    · exact .inl (served_step h hs hn)
    · refine .inr ?_
      simp only [NoSerialTest, not_forall, not_not] at hn
      obtain ⟨f, rx, rfl, hclick, hr, hserial⟩ := hn
      obtain ⟨ht, rfl⟩ := step_frame hs
      rcases h.frame ht f with ⟨hne, -⟩ | ⟨-, m₂, -, -, -, hi, hdraw⟩
      · exact absurd hr hne
      · rw [hdraw, hclick]
        exact stuck_serialTest rx (hi.trans hserial)
  · exact .inr (stuck_step m e m' h trivial hs)

/-- The future that the modal waits for is that of a serial test. -/
theorem Stuck.of_running (h : Served m ∨ Stuck m) {r : Running} (hr : m.tests.running = some r)
    (hserial : r.connection.isSerial = true) : Stuck m := by
  rcases h with h | h
  · cases h with
    | idle hc hr' => cases hr.symm.trans hr'
    | pending r' t hc ht hp hr' hcon =>
      obtain rfl := Option.some.inj (hr.symm.trans hr')
      rw [hcon] at hserial
      cases hserial
    | done n d result hc ht hp hd ho hr' => cases hr.symm.trans hr'
  · exact h

/-- Every poll finds the test in progress, or throws. -/
theorem Stuck.poll_ne (h : Stuck m) (f : ModalFrame) :
    (m.drawInputs f).testConnectionInProg.1 ≠ .ok false := by
  have hinputs : Stuck (m.drawInputs f) := h.congr (sameTest_drawInputs f m).1
  generalize m.drawInputs f = m₁ at hinputs
  cases hinputs with
  | running r s hc hp hr hcon hs =>
    rw [poll_pending hc hp (List.getElem?_eq_none (Nat.le_refl _))]
    nofun
  | failed n d what hc hp hd ho =>
    rw [poll_failed hc hp hd ho]
    nofun
  | taken hc hp =>
    rw [poll_taken hc hp]
    nofun

theorem frameAdds_of_poll {f : ModalFrame}
    (h : (m.drawInputs f).testConnectionInProg.1 ≠ .ok false) : m.frameAdds f = false := by
  unfold frameAdds
  generalize (m.drawInputs f).testConnectionInProg = r at h ⊢
  obtain ⟨inProg, m₁⟩ := r
  cases inProg with
  | error what => rfl
  | ok waiting =>
    cases waiting with
    | true => rfl
    | false => exact absurd rfl h

theorem Stuck.manager (h : Stuck m) (f : ModalFrame) :
    (m.drawContent f).deviceManager_ = m.deviceManager_ := by
  have hpoll := h.poll_ne f
  have hmanager := (sameForm_testConnectionInProg (m.drawInputs f)).manager.trans
    (form_drawInputs f m).2
  unfold drawContent
  generalize (m.drawInputs f).testConnectionInProg = r at hpoll hmanager ⊢
  obtain ⟨inProg, m₁⟩ := r
  cases inProg with
  | error what => exact hmanager
  | ok waiting =>
    cases waiting with
    | true => exact hmanager
    | false => exact absurd rfl hpoll

end DeviceCreate

/-! ## The program -/

namespace App

open DeviceCreate

variable {json : JsonText} {s t : App}

/-- The content of the popup is drawn. -/
def shows (s : App) : Event json → Bool
  | .modal f => (s.base.openPopup.beginPopupModal f.cross).1
  | _ => false

/-- What a step does to the modal: a frame of it is drawn, a test goes on, or its members are left
alone. A window ends the program by itself. -/
inductive ModalCases (s : App) : Event json → App → Prop where
  | drawn (f : PopupFrame json) (t : App)
      (hshows : shows s (.modal f) = true)
      (hmodal : t.deviceCreateModal_ = s.deviceCreateModal_.drawContent f.modal)
      (hended : t.ended = (s.deviceCreateModal_.drawContent f.modal).thrown) :
      ModalCases s (.modal f) t
  | test (x : ConnectionTests.Event) (t : App)
      (hs : s.deviceCreateModal_.step (.test x) = some t.deviceCreateModal_)
      (hended : t.ended = s.ended) : ModalCases s (.test x) t
  | quiet (e : Event json) (t : App) (hshows : shows s e = false)
      (hsame : SameTest s.deviceCreateModal_ t.deviceCreateModal_)
      (hthrown : t.deviceCreateModal_.thrown = s.deviceCreateModal_.thrown)
      (hended : e.isWindow = false → t.ended = s.ended) : ModalCases s e t

theorem modal_cases {e : Event json} (hs : step json s e = some t) : ModalCases s e t := by
  obtain ⟨-, hs⟩ := Option.ite_none_left_eq_some.mp hs
  cases e with
  | menu f =>
    obtain ⟨-, hs⟩ := Option.ite_none_left_eq_some.mp hs
    obtain ⟨u, hu, rfl⟩ := Option.map_eq_some_iff.mp hs
    obtain ⟨-, hu⟩ := Option.ite_none_right_eq_some.mp hu
    obtain rfl := Option.some.inj hu
    unfold showDeviceMenu
    cases f.openItem <;> exact .quiet _ _ rfl ⟨rfl, rfl⟩ rfl fun _ => rfl
  | modal f =>
    obtain ⟨-, hs⟩ := Option.ite_none_right_eq_some.mp hs
    obtain rfl := Option.some.inj hs
    rcases drawModal_cases f s with ⟨hnot, hmodal, -, hended⟩ | ⟨hshown, hmodal, -, hended⟩
    · refine .quiet _ _ hnot ?_ (congrArg DeviceCreate.thrown hmodal) fun _ => hended
      rw [hmodal]
      exact ⟨rfl, rfl⟩
    · exact .drawn f _ hshown hmodal hended
  | window identifier calls throws =>
    obtain ⟨-, hs⟩ := Option.ite_none_left_eq_some.mp hs
    obtain ⟨-, hs⟩ := Option.ite_none_right_eq_some.mp hs
    obtain ⟨n, -, hs⟩ := Option.bind_eq_some_iff.mp hs
    obtain ⟨m, -, rfl⟩ := Option.map_eq_some_iff.mp hs
    exact .quiet _ _ rfl ⟨rfl, rfl⟩ rfl fun hwindow => by cases hwindow
  | test x =>
    obtain ⟨m, hm, rfl⟩ := Option.map_eq_some_iff.mp hs
    exact .test x _ hm rfl
  | io n x =>
    obtain ⟨-, hs⟩ := Option.ite_none_right_eq_some.mp hs
    obtain ⟨m, -, rfl⟩ := Option.map_eq_some_iff.mp hs
    exact .quiet _ _ rfl ⟨rfl, rfl⟩ rfl fun _ => rfl
  | changeFile file =>
    obtain rfl := Option.some.inj hs
    exact .quiet _ _ rfl ⟨rfl, rfl⟩ rfl fun _ => rfl

/-- The modal and its tests, in a run of the program. -/
structure Tracked (s : App) : Prop where
  sorted : s.deviceCreateModal_.tests.Sorted
  waits : Served s.deviceCreateModal_ ∨ Stuck s.deviceCreateModal_
  running : s.ended = false → s.deviceCreateModal_.thrown = false

theorem tracked_initial (file : RecentsFile) (recents : List RecentConnection) :
    Tracked (initial file recents) :=
  ⟨ConnectionTests.sorted_initial, .inl (.idle rfl rfl), fun _ => rfl⟩

/-- A step that a running modal allows. -/
theorem drawContent_step (h : s.deviceCreateModal_.thrown = false) (f : ModalFrame) :
    s.deviceCreateModal_.step (.frame f) = some (s.deviceCreateModal_.drawContent f) := by
  rw [DeviceCreate.step, h]
  rfl

theorem keeps_tracked : Keeps (step json) anyStep Tracked := by
  intro s e t h _ hs
  have hrunning := (step_cases hs).1
  have hmodal := h.running hrunning
  cases modal_cases hs with
  | drawn f _ hshows hdrawn hended =>
    constructor
    · rw [hdrawn]
      rcases drawContent_tests f.modal s.deviceCreateModal_ with hsame | ⟨rx, opts, hstart⟩
      · rw [hsame]
        exact h.sorted
      · rw [hstart]
        exact h.sorted.start rx opts
    · rw [hdrawn]
      exact served_or_stuck_step h.waits (drawContent_step hmodal f.modal)
    · rw [hdrawn, hended]
      exact id
  | test x _ hx hended =>
    obtain ⟨-, -, tests, htests, hsame⟩ := step_test hx
    constructor
    · rw [hsame]
      exact h.sorted.step htests
    · exact served_or_stuck_step h.waits hx
    · rw [hsame]
      exact fun _ => hmodal
  | quiet _ _ hshows hsame hthrown hended =>
    constructor
    · rw [hsame.tests]
      exact h.sorted
    · exact h.waits.imp (fun h => h.congr hsame hthrown) fun h => h.congr hsame
    · rw [hthrown]
      exact fun _ => hmodal

/-! ## A serial test -/

theorem added_of_stuck (h : Stuck s.deviceCreateModal_) (e : Event json) : added s e = [] := by
  cases e with
  | modal f =>
    unfold added addedBy
    dsimp only
    rw [frameAdds_of_poll (h.poll_ne f.modal)]
    split <;> rfl
  | _ => rfl

/-- While the modal is stuck, the recent connections stay as they are. -/
theorem recents_of_stuck (h : Stuck s.deviceCreateModal_) {e : Event json}
    (hs : step json s e = some t) :
    t.deviceManager_.recentConnections_ = s.deviceManager_.recentConnections_ := by
  cases (step_cases hs).2 with
  | menu f u hmenu =>
    show u.deviceManager_.recentConnections_ = _
    rw [(showMainMenu_cases hmenu).2.2.1]
    exact (DeviceManager.closeConnections_sameRecents f.close _).1.trans
      (DeviceManager.sameRecents_drawOpenRecent json f.answers f.recents s.deviceManager_).1
  | modal f =>
    rcases drawModal_cases f s with ⟨-, hmodal, -, -⟩ | ⟨-, hmodal, -, -⟩
    · rw [deviceManager_, hmodal]
      rfl
    · rw [deviceManager_, hmodal, h.manager f.modal]
      rfl
  | quiet _ _ hadds hsame hbase => exact hsame.recents.1
  | changeFile file => rfl

theorem stuck_app_step (h : Stuck s.deviceCreateModal_) {e : Event json}
    (hs : step json s e = some t) : Stuck t.deviceCreateModal_ := by
  cases modal_cases hs with
  | drawn f _ hshows hdrawn hended =>
    rw [hdrawn]
    exact stuck_frame h f.modal
  | test x _ hx hended => exact stuck_step _ _ _ h trivial hx
  | quiet _ _ hshows hsame hthrown hended => exact h.congr hsame

theorem stuck_exec {fs : List (Event json)} (h : Stuck s.deviceCreateModal_)
    (hf : exec (step json) s fs = some t) :
    collected (step json) added s fs = [] ∧ Stuck t.deviceCreateModal_ ∧
      t.deviceManager_.recentConnections_ = s.deviceManager_.recentConnections_ := by
  induction fs generalizing s with
  | nil =>
    obtain rfl := Option.some.inj hf
    exact ⟨rfl, h, rfl⟩
  | cons e fs ih =>
    obtain ⟨u, hu, htail⟩ := exec_cons_some hf
    obtain ⟨hadded, hstuck, hrecents⟩ := ih (stuck_app_step h hu) htail
    refine ⟨?_, hstuck, hrecents.trans (recents_of_stuck h hu)⟩
    rw [collected, hu, added_of_stuck h]
    exact hadded

/-- In every run of the program: once a serial test has been started, no frame of the modal adds
a connection, whatever is done in it, and however often it is closed and opened again. Its buttons
stay disabled, and nothing more becomes a recent connection. -/
theorem nothing_added_after_serial_test (json : JsonText) (file : RecentsFile)
    (recents : List RecentConnection) (es fs : List (Event json)) (s t : App) (r : Running)
    (he : exec (step json) (initial file recents) es = some s)
    (hr : s.deviceCreateModal_.tests.running = some r) (hserial : r.connection.isSerial = true)
    (hf : exec (step json) s fs = some t) :
    collected (step json) added s fs = [] ∧
      t.deviceManager_.recentConnections_ = s.deviceManager_.recentConnections_ ∧
      ∀ f, (t.deviceCreateModal_.drawInputs f).testConnectionInProg.1 ≠ .ok false := by
  have htracked := keeps_tracked.exec (tracked_initial file recents) (along_anyStep _ _) he
  have hstuck : Stuck s.deviceCreateModal_ := .of_running htracked.waits hr hserial
  obtain ⟨hadded, hstuck', hrecents⟩ := stuck_exec hstuck hf
  exact ⟨hadded, hrecents, hstuck'.poll_ne⟩

/-- `Test connection` is clicked, with the interface left as it is. -/
def testClicked : PopupFrame DeviceManager.kTwoTexts where
  cross := false
  cancel := false
  modal := { blankFrame with click := some (.test []) }
  format := fun _ _ h => by cases h

/-- The popup is closed by its cross and opened again, to add a listener. -/
def reopenedRun : List (Event DeviceManager.kTwoTexts) :=
  let closed : PopupFrame DeviceManager.kTwoTexts :=
    { testClicked with cross := true, modal := blankFrame, format := fun _ _ h => by cases h }
  [.menu openFrame, .modal closed] ++ enteredRun

set_option maxRecDepth 4000 in
theorem reopened_adds_nothing :
    ∃ s t, exec (step DeviceManager.kTwoTexts)
        (initial ⟨some DeviceManager.kEmptyText, true⟩ []) [.menu openFrame, .modal testClicked] =
          some s ∧
      exec (step DeviceManager.kTwoTexts) s reopenedRun = some t ∧ t.ended = false ∧
      collected (step DeviceManager.kTwoTexts) added s reopenedRun = [] := by
  refine ⟨_, _, rfl, rfl, rfl, ?_⟩
  exact (nothing_added_after_serial_test DeviceManager.kTwoTexts
    ⟨some DeviceManager.kEmptyText, true⟩ [] [.menu openFrame, .modal testClicked] reopenedRun _ _ _
    rfl rfl rfl rfl).1

end App

end DeviceTester.Gui

import DeviceTester.Gui.AppTests
import DeviceTester.Gui.Program

/-!
# What ends the program

The exceptions that leave `drawEvent()`, in the program with its windows: from a poll of the
modal, from the recents file, from a resolver and from a socket.
-/
namespace DeviceTester.Gui

open DeviceTester.Connection DeviceTester.Config DeviceTester.Lib

/-! ## The modal -/

theorem DeviceManager.add_threw_iff {json : JsonText} {a : Answers} {opts : AnyOptions}
    {m : DeviceManager} :
    (∃ e, (m.add json a opts true).1 = .error e) ↔
      opts.identifier ∉ m.connections_ ∧ ∃ con, configure a opts = .returned con ∧
        ¬ Accepts json m.file opts := by
  have hcases := add_cases json a opts true m
  generalize m.add json a opts true = r at hcases
  obtain ⟨added, m'⟩ := r
  cases hcases with
  | inUse hin message => exact iff_of_false (by simp) fun h => h.1 hin
  | failed hin con what message hc =>
    refine iff_of_false (by simp) ?_
    rintro ⟨-, con', hc', -⟩
    cases hc.symm.trans hc'
  | threw hin con recents file e hc hadd haccept =>
    exact iff_of_true ⟨e, rfl⟩ ⟨hin, con, hc, haccept⟩
  | added hin con recents file message hc haccept =>
    refine iff_of_false (by simp) ?_
    rintro ⟨-, con', -, hreject⟩
    exact hreject (haccept rfl)

namespace DeviceCreate

variable {m : DeviceCreate}

/-- The test that the modal waits for is a serial one, and has ended. -/
def SerialTestEnded (m : DeviceCreate) : Prop :=
  m.connectionCheck_.inProgress = true ∧ ∃ n d, m.connectionCheck_.progress = some n ∧
    m.tests.ended[n]? = some d ∧ d.connection.isSerial = true

theorem poll_threw_iff (h : m.tests.Sorted) :
    (∃ what, m.testConnectionInProg.1 = .error what) ↔ SerialTestEnded m := by
  unfold SerialTestEnded
  cases hc : m.connectionCheck_.inProgress with
  | false => simp [poll_idle hc]
  | true =>
    cases hp : m.connectionCheck_.progress with
    | none => simp [poll_taken hc hp]
    | some n =>
      cases hd : m.tests.ended[n]? with
      | none => simp [poll_pending hc hp hd, hd]
      | some d =>
        have hsorted := h.ended d (List.mem_of_getElem? hd)
        cases ho : d.outcome with
        | error what =>
          rw [poll_failed hc hp hd ho]
          exact iff_of_true ⟨what, rfl⟩ ⟨rfl, n, d, rfl, hd, hsorted.mp ⟨what, ho⟩⟩
        | ok result =>
          rw [poll_done hc hp hd ho]
          refine iff_of_false (by simp) ?_
          rintro ⟨-, n', d', hn, hd', hserial⟩
          obtain rfl := Option.some.inj hn
          obtain rfl := Option.some.inj (hd.symm.trans hd')
          obtain ⟨what, hwhat⟩ := hsorted.mpr hserial
          cases ho.symm.trans hwhat

theorem thrown_addConnection (json : JsonText) (a : Answers) (m : DeviceCreate) :
    (m.addConnection json a).2.thrown = m.thrown := by
  unfold addConnection
  dsimp only
  split
  · rfl
  · split <;> rfl

theorem addConnection_threw_iff (json : JsonText) (a : Answers) (m : DeviceCreate) :
    (∃ e, (m.addConnection json a).1 = .error e) ↔
      ∃ opts, m.chosen = some opts ∧ ∃ e, (m.deviceManager_.add json a opts true).1 = .error e := by
  cases hopts : m.chosen with
  | none => simp [(addConnection_none json a hopts).1]
  | some opts =>
    rw [(addConnection_some json a hopts rfl).2.2]
    cases hadd : (m.deviceManager_.add json a opts true).1 <;> simp [Except.map, hadd]

theorem thrown_drawButtons {click : Option Click} (h : m.thrown = false) :
    (m.drawButtons click).thrown = true ↔
      m.form.name ≠ [] ∧ ∃ json a, click = some (.add json a) ∧
        ∃ opts, m.form.described = some opts ∧
          ∃ e, (m.deviceManager_.add json a opts true).1 = .error e := by
  cases click with
  | none => simp [drawButtons, h]
  | some click =>
    cases click with
    | test rx =>
      have hthrown : (m.syncInputs.checkConnection rx).thrown = m.thrown := by
        unfold checkConnection
        split <;> rfl
      simp [drawButtons, hthrown, h]
    | add json a =>
      have hname : m.form.name = m.inputName_ := rfl
      have hadds := addConnection_threw_iff json a m.syncInputs
      have hthrown := thrown_addConnection json a m.syncInputs
      rw [chosen_syncInputs] at hadds
      simp only [Option.some.injEq, Click.add.injEq, and_assoc, exists_and_left, exists_eq_left',
        hname]
      unfold drawButtons
      dsimp only
      by_cases hempty : m.inputName_ = []
      · rw [if_pos hempty]
        exact iff_of_false (by simp [h]) fun hno => hno.1 hempty
      · rw [if_neg hempty, and_iff_right hempty]
        refine Iff.trans ?_ hadds
        generalize m.syncInputs.addConnection json a = r at hthrown
        obtain ⟨returned, m₁⟩ := r
        have hkept : m₁.thrown = false := hthrown.trans h
        cases returned with
        | error e => exact iff_of_true rfl ⟨e, rfl⟩
        | ok answer => cases answer <;> exact iff_of_false (by simp [clearInputs, hkept]) (by simp)

/-- A connection is added that can be configured, and that the recents file does not accept. -/
def Refused (f : ModalFrame) (m : DeviceCreate) : Prop :=
  (m.drawInputs f).testConnectionInProg.1 = .ok false ∧ (m.form.enter f).name ≠ [] ∧
    ∃ json a, f.click = some (.add json a) ∧ ∃ opts, (m.form.enter f).described = some opts ∧
      opts.identifier ∉ m.deviceManager_.connections_ ∧
      ∃ con, DeviceManager.configure a opts = .returned con ∧
        ¬ Accepts json m.deviceManager_.file opts

theorem thrown_testConnectionInProg (m : DeviceCreate) :
    m.testConnectionInProg.2.thrown = m.thrown := by
  unfold testConnectionInProg
  split
  · split
    · rfl
    · split <;> rfl
  · rfl
  · rfl

theorem SerialTestEnded.congr {m' : DeviceCreate} (hsame : SameTest m m') :
    SerialTestEnded m' ↔ SerialTestEnded m := by
  unfold SerialTestEnded
  rw [hsame.check, hsame.tests]

/-- A frame throws where the poll does, or where what it adds is refused. -/
theorem thrown_drawContent (hsorted : m.tests.Sorted) (ht : m.thrown = false) (f : ModalFrame) :
    (m.drawContent f).thrown = true ↔ SerialTestEnded m ∨ Refused f m := by
  obtain ⟨hsame, hthrown⟩ := sameTest_drawInputs f m
  obtain ⟨hform, hmanager⟩ := form_drawInputs f m
  have hpoll := poll_threw_iff (m := m.drawInputs f) (by rw [hsame.tests]; exact hsorted)
  rw [SerialTestEnded.congr hsame] at hpoll
  have hpolled := sameForm_testConnectionInProg (m.drawInputs f)
  have hkept := (thrown_testConnectionInProg (m.drawInputs f)).trans (hthrown.trans ht)
  rw [← hpoll]
  unfold drawContent Refused
  generalize (m.drawInputs f).testConnectionInProg = r at hpolled hkept ⊢
  obtain ⟨inProg, m₁⟩ := r
  have hform₁ : m₁.form = m.form.enter f := hpolled.form.trans hform
  have hmanager₁ : m₁.deviceManager_ = m.deviceManager_ := hpolled.manager.trans hmanager
  have hkept₁ : m₁.thrown = false := hkept
  cases inProg with
  | error what => exact iff_of_true rfl (.inl ⟨what, rfl⟩)
  | ok waiting =>
    cases waiting with
    | true => exact iff_of_false (by simp [hkept₁]) (by simp)
    | false =>
      show (m₁.drawButtons f.click).thrown = true ↔ _
      rw [thrown_drawButtons hkept₁, hform₁, hmanager₁]
      simp only [DeviceManager.add_threw_iff, reduceCtorEq, exists_false, false_or, true_and]

end DeviceCreate

/-! ## The windows -/

/-- A write that returns throws nothing. -/
theorem ConnectionWindow.thrown_drawSend_of_returned {κ ω γ : Type} {canSend : κ → Bool}
    {ending : Bytes} {write : γ → Bytes → κ → κ} (r : RawInput γ) (w : ConnectionWindow κ ω) :
    (w.drawSend canSend ending (fun a data c => .returned (write a data c)) r).thrown =
      w.thrown := by
  unfold drawSend pressSend
  cases r.send with
  | none => rfl
  | some answers =>
    dsimp only
    split
    · split <;> rfl
    · rfl

theorem SerialConnectionWin.thrown_step {w v : Window} {e : TabsEvent}
    (h : tabsStep w e = some v) : v.thrown = false := by
  obtain ⟨hw, ⟨tab, rfl, rfl⟩ | ⟨-, hv⟩⟩ := step_not_thrown h
  · cases tab with
    | overview press =>
      cases press with
      | none => exact hw
      | some a =>
        show (drawConnectionOverview (some a) w).thrown = false
        unfold drawConnectionOverview
        dsimp only
        split
        · exact hw
        · split
          · rename_i r hr
            cases r <;> exact hw
          · exact hw
    | rawOutput r => exact (ConnectionWindow.thrown_drawSend_of_returned r w).trans hw
    | hexViewer r => exact (ConnectionWindow.thrown_drawSend_of_returned r w).trans hw
    | details => exact hw
    | settings f => exact hw
  · exact hv

namespace AnyWindow

/-- `Connect` is clicked and the resolver throws, or `Send` and the closed socket cannot be
opened. -/
def Throws : AnyTab → AnyWindow → Prop
  | .tcp tab, .tcp w => TcpConnectionWin.Unresolved w (.frame tab)
  | .udp tab, .udp w => UdpConnectionWin.Unopened w (.frame tab)
  | _, _ => False

theorem thrown_draw {tab : AnyTab} {w v : AnyWindow} (h : w.draw tab = some v) :
    v.thrown = true ↔ w.Throws tab := by
  cases w with
  | serial w =>
    cases tab with
    | serial tab =>
      obtain ⟨v, hv, rfl⟩ := Option.map_eq_some_iff.mp h
      exact iff_of_false (by simp [thrown, SerialConnectionWin.thrown_step hv]) id
    | _ => cases h
  | tcp w =>
    cases tab with
    | tcp tab =>
      obtain ⟨v, hv, rfl⟩ := Option.map_eq_some_iff.mp h
      exact TcpConnectionWin.thrown_step hv
    | _ => cases h
  | udp w =>
    cases tab with
    | udp tab =>
      obtain ⟨v, hv, rfl⟩ := Option.map_eq_some_iff.mp h
      exact UdpConnectionWin.thrown_step hv
    | _ => cases h

end AnyWindow

/-! ## The program -/

namespace Program

open DeviceCreate

variable {json : JsonText} {appendNewLine : Nat → Bool} {p q : Program}

/-- The parts of a frame that an exception leaves. -/
def Ends (p : Program) : Event json → Prop
  | .window identifier tab => ∃ n w, p.windowOf identifier = some (n, w) ∧ w.Throws tab
  | .other (.modal f) =>
      p.app.shows (.modal f) = true ∧
        (SerialTestEnded p.app.deviceCreateModal_ ∨ Refused f.modal p.app.deviceCreateModal_)
  | .other _ => False

theorem Ends.shows {e : App.Event json} (h : Ends p (.other e)) : p.app.shows e = true := by
  cases e with
  | modal f => exact h.1
  | _ => exact h.elim

/-- What the program without its windows keeps, it keeps with them. -/
theorem keeps_of_app {I : App → Prop} (h : Keeps (App.step json) anyStep I) :
    Keeps (step json appendNewLine) anyStep fun p => I p.app := by
  intro p e q hp _ hs
  obtain ⟨e', -, hs'⟩ := app_step hs
  exact h p.app e' q.app hp trivial hs'

theorem ended_other {e : App.Event json} {b : App} (hp : p.app.Tracked)
    (hwindow : e.isWindow = false) (hs : App.step json p.app e = some b) :
    b.ended = true ↔ Ends p (.other e) := by
  have hrunning := (App.step_cases hs).1
  have hmodal := hp.running hrunning
  cases App.modal_cases hs with
  | drawn f _ hshows hdrawn hended =>
    rw [hended, thrown_drawContent hp.sorted hmodal]
    exact (and_iff_right hshows).symm
  | test x _ hx hended => exact iff_of_false (by simp [hended, hrunning]) id
  | quiet _ _ hshows hsame hthrown hended =>
    rw [hended hwindow, hrunning]
    refine iff_of_false (by simp) fun hends => ?_
    cases hshows.symm.trans hends.shows

theorem ended_step {e : Event json} (hp : p.app.Tracked)
    (hs : step json appendNewLine p e = some q) : q.app.ended = true ↔ Ends p e := by
  cases e with
  | window identifier tab =>
    obtain ⟨-, hs⟩ := Option.ite_none_left_eq_some.mp hs
    obtain ⟨⟨n, w⟩, hfound, hs⟩ := Option.bind_eq_some_iff.mp hs
    obtain ⟨v, hv, rfl⟩ := Option.map_eq_some_iff.mp hs
    refine (AnyWindow.thrown_draw hv).trans ?_
    constructor
    · intro hthrows
      exact ⟨n, w, hfound, hthrows⟩
    · rintro ⟨n', w', hfound', hthrows⟩
      obtain ⟨-, rfl⟩ := Prod.mk.inj (Option.some.inj (hfound.symm.trans hfound'))
      exact hthrows
  | other e =>
    obtain ⟨hfree, hs⟩ := Option.ite_none_left_eq_some.mp hs
    obtain ⟨b, hb, rfl⟩ := Option.map_eq_some_iff.mp hs
    rw [Bool.not_eq_true, Bool.or_eq_false_iff] at hfree
    exact ended_other hp hfree.1 hb

/-- A program whose constructor could read the recents file has not ended where none of its events
ends it: no frame of the modal polls a serial test that has ended, or adds a connection that the
recents file does not accept, no `Connect` of a tcp window meets a resolver that throws, and no
`Send` of a udp window a closed socket that cannot be opened. Nothing else ends it. A socket is
taken to close without an exception. -/
theorem ended_iff (json : JsonText) (appendNewLine : Nat → Bool) (file : RecentsFile)
    (es : List (Event json)) (p₀ p : Program) (hstart : construct json file = .ok p₀)
    (he : exec (step json appendNewLine) p₀ es = some p) :
    p.app.ended = false ↔
      Along (step json appendNewLine) (fun p e _ => ¬ Ends p e) p₀ es := by
  have hstep : ∀ p (e : Event json) q, p.app.Tracked → step json appendNewLine p e = some q →
      (q.app.ended = false ↔ p.app.ended = false ∧ ¬ Ends p e) := by
    intro p e q hp hs
    obtain ⟨e', -, hs'⟩ := app_step hs
    rw [← ended_step hp hs, and_iff_right (App.step_cases hs').1, Bool.not_eq_true]
  obtain ⟨recents, -, rfl⟩ := construct_ok hstart
  refine (holds_iff_along (S := fun p => p.app.ended = false)
    (keeps_of_app App.keeps_tracked) hstep (App.tracked_initial file recents) he).trans ?_
  exact and_iff_right rfl

/-- A serial test is started, its port cannot be opened, and the modal is drawn again. -/
def failedTestRun : List (Event DeviceManager.kTwoTexts) :=
  [.other (.menu App.openFrame), .other (.modal App.testClicked),
    .other (.test (.connectSerial (fun _ => some (text "open: No such file or directory")) 1)),
    .other (.menu App.openFrame), .other (.modal App.testClicked)]

set_option maxRecDepth 4000 in
theorem failed_test_ends :
    ∃ p₀ p, construct DeviceManager.kTwoTexts ⟨some DeviceManager.kEmptyText, true⟩ = .ok p₀ ∧
      exec (step DeviceManager.kTwoTexts fun _ => true) p₀ failedTestRun = some p ∧
      p.app.ended = true ∧
      ¬ Along (step DeviceManager.kTwoTexts fun _ => true) (fun p e _ => ¬ Ends p e) p₀
        failedTestRun := by
  refine ⟨_, _, rfl, rfl, rfl, fun h => ?_⟩
  cases (ended_iff DeviceManager.kTwoTexts (fun _ => true) ⟨some DeviceManager.kEmptyText, true⟩
    failedTestRun _ _ rfl rfl).mpr h

end Program

end DeviceTester.Gui

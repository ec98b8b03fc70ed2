import DeviceTester.Gui.DeviceCreate

/-!
# The modal as a form

What the modal tests and adds, in terms of what has been entered into it. The test that runs
beside it, its messages and the calls that fail leave the form as it is. A connection that has
been added clears it.
-/
namespace DeviceTester.Gui

open DeviceTester.Connection DeviceTester.Config DeviceTester.Lib

/-- What has been entered: a name, and the options of each interface, which have no name. -/
structure Form where
  name : Bytes
  interface : DeviceInterface
  serial : SerialOptions
  tcp : TcpOptions
  udp : UdpOptions

namespace Form

def empty : Form := ⟨[], .serial, .withIdentifier [], .withIdentifier [], .withIdentifier []⟩

/-- The widgets of a frame: those of the name and the interface, then those of the interface. -/
def enter (f : DeviceCreate.ModalFrame) (form : Form) : Form :=
  let form := { form with
    name := f.name.getD form.name
    interface := (f.interface.map DeviceInterface.ofIndex).getD form.interface }
  match form.interface with
  | .serial => { form with serial := drawSerialOptions f.serialInput form.serial }
  | .tcp => { form with tcp := drawTcpOptions f.tcpInput form.tcp }
  | .udp => { form with udp := drawUdpOptions f.udpInput form.udp }
  | .count => form

/-- The connection that the form describes. -/
def described (form : Form) : Option AnyOptions :=
  match form.interface with
  | .serial => some (.serial { form.serial with identifier := form.name })
  | .tcp => some (.tcp { form.tcp with identifier := form.name })
  | .udp => some (.udp { form.udp with identifier := form.name })
  | .count => none

end Form

/-- The test of a connection is started. There is none for udp. -/
def ConnectionTests.start (rx : Bytes) (opts : AnyOptions) (tests : ConnectionTests) :
    ConnectionTests :=
  match opts with
  | .serial o => tests.testSerialConnection rx o
  | .tcp o => tests.testTcpConnection o
  | .udp _ => tests

namespace DeviceCreate

variable {m m' : DeviceCreate} {f : ModalFrame}

/-- What the modal holds of a form. The names in its options are left over from the last call. -/
def form (m : DeviceCreate) : Form where
  name := m.inputName_
  interface := m.deviceInterface_
  serial := { m.serialInput_ with identifier := [] }
  tcp := { m.tcpInput_ with identifier := [] }
  udp := { m.udpInput_ with identifier := [] }

/-- The form and the device manager are the same. -/
structure SameForm (m m' : DeviceCreate) : Prop where
  form : m'.form = m.form
  manager : m'.deviceManager_ = m.deviceManager_

@[simp] theorem form_clearInputs (m : DeviceCreate) : m.clearInputs.form = .empty := rfl

/-- The options are given the name of the form before they are used. -/
theorem chosen_syncInputs (m : DeviceCreate) : m.syncInputs.chosen = m.form.described := by
  have hinterface : m.syncInputs.deviceInterface_ = m.deviceInterface_ := rfl
  have hform : m.form.interface = m.deviceInterface_ := rfl
  unfold chosen Form.described
  rw [hinterface, hform]
  cases m.deviceInterface_ <;> rfl

theorem form_drawInputs (f : ModalFrame) (m : DeviceCreate) :
    (m.drawInputs f).form = m.form.enter f ∧
      (m.drawInputs f).deviceManager_ = m.deviceManager_ := by
  have hinterface : m.form.interface = m.deviceInterface_ := rfl
  unfold drawInputs Form.enter
  dsimp only
  rw [hinterface]
  generalize (f.interface.map DeviceInterface.ofIndex).getD m.deviceInterface_ = interface
  cases interface <;> exact ⟨rfl, rfl⟩

/-- A poll of the test changes its own members and the messages. -/
theorem sameForm_testConnectionInProg (m : DeviceCreate) : SameForm m m.testConnectionInProg.2 := by
  unfold testConnectionInProg
  split
  · split
    · exact ⟨rfl, rfl⟩
    · split <;> exact ⟨rfl, rfl⟩
  · exact ⟨rfl, rfl⟩
  · exact ⟨rfl, rfl⟩

theorem sameForm_checkConnection (rx : Bytes) (m : DeviceCreate) :
    SameForm m (m.checkConnection rx) ∧
      (m.checkConnection rx).tests = (m.chosen.map fun opts => m.tests.start rx opts).getD m.tests := by
  unfold checkConnection chosen
  split <;> exact ⟨⟨rfl, rfl⟩, rfl⟩

theorem addConnection_none (json : JsonText) (a : Answers) (h : m.chosen = none) :
    (m.addConnection json a).1 = .ok false ∧ SameForm m (m.addConnection json a).2 := by
  have hchosen : ({ m with successMsg_ := [] } : DeviceCreate).chosen = none := h
  unfold addConnection
  dsimp only
  rw [hchosen]
  exact ⟨rfl, rfl, rfl⟩

/-- What `addConnection` returns, throws and does is up to the call of the device manager. -/
theorem addConnection_some (json : JsonText) (a : Answers) {opts : AnyOptions}
    {r : Added × DeviceManager} (h : m.chosen = some opts)
    (hr : m.deviceManager_.add json a opts true = r) :
    (m.addConnection json a).2.form = m.form ∧ (m.addConnection json a).2.deviceManager_ = r.2 ∧
      (m.addConnection json a).1 = r.1.map Prod.fst := by
  have hchosen : ({ m with successMsg_ := [] } : DeviceCreate).chosen = some opts := h
  unfold addConnection
  dsimp only
  rw [hchosen]
  dsimp only
  rw [hr]
  obtain ⟨added, deviceManager⟩ := r
  cases added with
  | error e => exact ⟨rfl, rfl, rfl⟩
  | ok answer =>
    obtain ⟨returned, message⟩ := answer
    cases returned <;> exact ⟨rfl, rfl, rfl⟩

/-! ## A frame -/

/-- What a frame does with a form that has been filled in. -/
inductive Submits (form : Form) (m : DeviceCreate) (f : ModalFrame) (m' : DeviceCreate) : Prop where
  /-- Nothing is called. -/
  | keeps (hform : m'.form = form) (hmanager : m'.deviceManager_ = m.deviceManager_)
      (htests : m'.tests = m.tests)
  /-- The connection that is described is tested. -/
  | tests (rx : Bytes) (opts : AnyOptions) (hclick : f.click = some (.test rx))
      (hopts : form.described = some opts) (hform : m'.form = form)
      (hmanager : m'.deviceManager_ = m.deviceManager_) (htests : m'.tests = m.tests.start rx opts)
  /-- It is added. -/
  | adds (json : JsonText) (a : Answers) (opts : AnyOptions) (message : Bytes)
      (hclick : f.click = some (.add json a)) (hname : form.name ≠ [])
      (hopts : form.described = some opts)
      (hadded : (m.deviceManager_.add json a opts true).1 = .ok (true, message))
      (hform : m'.form = .empty)
      (hmanager : m'.deviceManager_ = (m.deviceManager_.add json a opts true).2)
      (htests : m'.tests = m.tests)
  /-- It cannot be added. What is thrown leaves the modal. -/
  | fails (json : JsonText) (a : Answers) (opts : AnyOptions) (hclick : f.click = some (.add json a))
      (hname : form.name ≠ []) (hopts : form.described = some opts)
      (hadded : ∀ message, (m.deviceManager_.add json a opts true).1 ≠ .ok (true, message))
      (hthrown : ∀ e, (m.deviceManager_.add json a opts true).1 = .error e → m'.thrown = true)
      (hform : m'.form = form)
      (hmanager : m'.deviceManager_ = (m.deviceManager_.add json a opts true).2)
      (htests : m'.tests = m.tests)

theorem submits_add (json : JsonText) (a : Answers) (hclick : f.click = some (.add json a)) :
    Submits m.form m f (m.drawButtons (some (.add json a))) := by
  have htests := (sameTest_add json a m).tests
  by_cases hname : m.inputName_ = []
  · have hkeep : m.drawButtons (some (.add json a)) = m := if_pos hname
    rw [hkeep]
    exact .keeps rfl rfl rfl
  · unfold drawButtons at htests ⊢
    dsimp only at htests ⊢
    rw [if_neg hname] at htests ⊢
    cases hopts : m.form.described with
    | none =>
      obtain ⟨hfalse, hsame⟩ :=
        addConnection_none json a ((chosen_syncInputs m).trans hopts)
      generalize m.syncInputs.addConnection json a = r at hfalse hsame htests ⊢
      obtain ⟨returned, m₁⟩ := r
      obtain rfl : returned = .ok false := hfalse
      exact .keeps hsame.form hsame.manager htests
    | some opts =>
      obtain ⟨hform, hmanager, hreturned⟩ :=
        addConnection_some json a ((chosen_syncInputs m).trans hopts) rfl
      generalize m.syncInputs.addConnection json a = r at hform hmanager hreturned htests ⊢
      obtain ⟨returned, m₁⟩ := r
      have hreturned : returned = (m.deviceManager_.add json a opts true).1.map Prod.fst := hreturned
      rcases hadd : m.deviceManager_.add json a opts true with ⟨added, deviceManager⟩
      rw [hadd] at hreturned
      cases added with
      | error e =>
        obtain rfl := hreturned
        refine .fails json a opts hclick hname hopts ?_ (fun _ _ => rfl) hform hmanager htests
        rw [hadd]
        nofun
      | ok answer =>
        obtain ⟨ok, message⟩ := answer
        obtain rfl := hreturned
        cases ok with
        | false =>
          refine .fails json a opts hclick hname hopts ?_ ?_ hform hmanager htests
          · rw [hadd]
            intro message' h
            cases h
          · rw [hadd]
            nofun
        | true => exact .adds json a opts message hclick hname hopts (hadd ▸ rfl) rfl hmanager htests

theorem submits_drawButtons (f : ModalFrame) (m : DeviceCreate) :
    Submits m.form m f (m.drawButtons f.click) := by
  cases hclick : f.click with
  | none => exact .keeps rfl rfl rfl
  | some click =>
    cases click with
    | add json a => exact submits_add json a hclick
    | test rx =>
      obtain ⟨hsame, htests⟩ := sameForm_checkConnection rx m.syncInputs
      rw [chosen_syncInputs] at htests
      cases hopts : m.form.described with
      | none =>
        rw [hopts] at htests
        exact .keeps hsame.form hsame.manager htests
      | some opts =>
        rw [hopts] at htests
        exact .tests rx opts hclick hopts hsame.form hsame.manager htests

/-- Whether a poll has found nothing in progress or not, what the frame submits is the form as
it has been filled in. -/
theorem submits_frame (f : ModalFrame) (m : DeviceCreate) :
    Submits (m.form.enter f) m f (m.drawContent f) := by
  obtain ⟨hform, hmanager⟩ := form_drawInputs f m
  have htests : (m.drawInputs f).tests = m.tests := (sameTest_drawInputs f m).1.tests
  have hpoll := sameForm_testConnectionInProg (m.drawInputs f)
  have hpolled : (m.drawInputs f).testConnectionInProg.2.tests = m.tests := by
    rw [← htests]
    unfold testConnectionInProg
    split
    · split
      · rfl
      · split <;> rfl
    · rfl
    · rfl
  unfold drawContent
  generalize (m.drawInputs f).testConnectionInProg = r at hpoll hpolled ⊢
  obtain ⟨inProg, m₁⟩ := r
  have hform₁ : m₁.form = m.form.enter f := hpoll.form.trans hform
  have hmanager₁ : m₁.deviceManager_ = m.deviceManager_ := hpoll.manager.trans hmanager
  have htests₁ : m₁.tests = m.tests := hpolled
  cases inProg with
  | error what => exact .keeps hform₁ hmanager₁ htests₁
  | ok waiting =>
    cases waiting with
    | true => exact .keeps hform₁ hmanager₁ htests₁
    | false =>
      have hsubmits := submits_drawButtons f m₁
      rw [hform₁] at hsubmits
      show Submits (m.form.enter f) m f (m₁.drawButtons f.click)
      cases hsubmits with
      | keeps h h' h'' => exact .keeps h (h'.trans hmanager₁) (h''.trans htests₁)
      | tests rx opts hclick hopts h h' h'' =>
        exact .tests rx opts hclick hopts h (h'.trans hmanager₁) (htests₁ ▸ h'')
      | adds json a opts message hclick hname hopts hadded h h' h'' =>
        rw [hmanager₁] at hadded h'
        exact .adds json a opts message hclick hname hopts hadded h h' (h''.trans htests₁)
      | fails json a opts hclick hname hopts hadded hthrown h h' h'' =>
        rw [hmanager₁] at hadded hthrown h'
        exact .fails json a opts hclick hname hopts hadded hthrown h h' (h''.trans htests₁)

/-! ## Runs -/

def returnsTrue : Except Failure Bool → Bool
  | .ok returned => returned
  | .error _ => false

/-- Whether the buttons add a connection. -/
def buttonsAdd (click : Option Click) (m : DeviceCreate) : Bool :=
  match click with
  | some (.add json a) =>
      decide (m.inputName_ ≠ []) && returnsTrue (m.syncInputs.addConnection json a).1
  | _ => false

/-- Whether a frame does. -/
def frameAdds (f : ModalFrame) (m : DeviceCreate) : Bool :=
  match (m.drawInputs f).testConnectionInProg with
  | (.ok false, m) => m.buttonsAdd f.click
  | _ => false

theorem form_drawButtons (click : Option Click) (m : DeviceCreate) :
    (m.drawButtons click).form = if m.buttonsAdd click then .empty else m.form := by
  cases click with
  | none => rfl
  | some click =>
    cases click with
    | test rx => exact (sameForm_checkConnection rx m.syncInputs).1.form
    | add json a =>
      have hadds : m.buttonsAdd (some (.add json a)) =
          (decide (m.inputName_ ≠ []) && returnsTrue (m.syncInputs.addConnection json a).1) := rfl
      rw [hadds]
      unfold drawButtons
      dsimp only
      by_cases hname : m.inputName_ = []
      · simp [hname]
      · have hform : (m.syncInputs.addConnection json a).2.form = m.form := by
          cases hopts : m.syncInputs.chosen with
          | none => exact (addConnection_none json a hopts).2.form
          | some opts => exact (addConnection_some json a hopts rfl).1
        rw [if_neg hname]
        generalize m.syncInputs.addConnection json a = r at hform ⊢
        obtain ⟨returned, m₁⟩ := r
        have hnamed (b : Bool) : (decide (m.inputName_ ≠ []) && b) = b := by simp [hname]
        rw [hnamed]
        cases returned with
        | error e => exact hform
        | ok answer =>
          cases answer with
          | false => exact hform
          | true => exact form_clearInputs m₁

theorem form_drawContent (f : ModalFrame) (m : DeviceCreate) :
    (m.drawContent f).form = if m.frameAdds f then .empty else m.form.enter f := by
  have hform := (sameForm_testConnectionInProg (m.drawInputs f)).form.trans (form_drawInputs f m).1
  unfold drawContent frameAdds
  generalize (m.drawInputs f).testConnectionInProg = r at hform ⊢
  obtain ⟨inProg, m₁⟩ := r
  have hform₁ : m₁.form = m.form.enter f := hform
  cases inProg with
  | error what => exact hform₁
  | ok waiting =>
    cases waiting with
    | true => exact hform₁
    | false =>
      rw [← hform₁]
      exact form_drawButtons f.click m₁

theorem name_of_frameAdds (h : m.frameAdds f = true) : (m.form.enter f).name ≠ [] := by
  have hform := (sameForm_testConnectionInProg (m.drawInputs f)).form.trans (form_drawInputs f m).1
  rw [← hform]
  unfold frameAdds at h
  generalize (m.drawInputs f).testConnectionInProg = r at h ⊢
  split at h
  · unfold buttonsAdd at h
    split at h
    · exact of_decide_eq_true (Bool.and_eq_true_iff.mp h).1
    · cases h
  · cases h

/-- A frame adds a connection where a form with a name is cleared. -/
theorem frameAdds_iff :
    m.frameAdds f = true ↔ (m.form.enter f).name ≠ [] ∧ (m.drawContent f).form = .empty := by
  rw [form_drawContent]
  constructor
  · intro h
    exact ⟨name_of_frameAdds h, if_pos h⟩
  · rintro ⟨hname, hform⟩
    by_contra hadds
    rw [if_neg hadds] at hform
    exact hname (congrArg Form.name hform)

/-- One that leaves the form as it has been filled in adds none. -/
theorem frameAdds_of_form (h : (m.drawContent f).form = m.form.enter f) : m.frameAdds f = false := by
  rw [← Bool.not_eq_true]
  intro hadds
  obtain ⟨hname, hempty⟩ := frameAdds_iff.mp hadds
  exact hname (congrArg Form.name (h.symm.trans hempty))

/-- The modal, and what has been entered since a connection was added last. -/
structure Filled where
  modal : DeviceCreate
  entered : Form

def Filled.step (s : Filled) (e : Event) : Option Filled :=
  (s.modal.step e).map fun modal =>
    ⟨modal, match e with
      | .frame f => if s.modal.frameAdds f then .empty else s.entered.enter f
      | .test _ => s.entered⟩

/-- A frame submits what has been entered, its own input included. -/
def SubmitsEntered (s : Filled) (e : Event) (t : Filled) : Prop :=
  ∀ f, e = .frame f → Submits (s.entered.enter f) s.modal f t.modal

/-- In every run of the modal, whatever is tested meanwhile and however the tests end: what a
frame tests or adds is the connection described by what has been entered since one was added last,
under the name entered, which is not empty where one is added. An add that fails, or throws, and
a test leave what has been entered. -/
theorem submits_what_is_entered (deviceManager : DeviceManager) (es : List Event) :
    Along Filled.step SubmitsEntered ⟨initial deviceManager, .empty⟩ es := by
  refine Along.imp (P := anyStep) (I := fun s => s.modal.form = s.entered) ?_ rfl
    (along_anyStep _ es)
  intro s e t h _ hs
  obtain ⟨modal, hm, rfl⟩ := Option.map_eq_some_iff.mp hs
  cases e with
  | frame f =>
    obtain ⟨-, rfl⟩ := step_frame hm
    refine ⟨?_, fun f' hf => ?_⟩
    · rw [form_drawContent, h]
    · obtain rfl := Event.frame.inj hf
      rw [← h]
      exact submits_frame f s.modal
  | test x =>
    obtain ⟨-, -, tests, -, rfl⟩ := step_test hm
    exact ⟨h, fun f hf => by cases hf⟩

end DeviceCreate

end DeviceTester.Gui

import DeviceTester.Connection.Serial
import DeviceTester.Connection.Tcp
import DeviceTester.Connection.Udp
import DeviceTester.Gui.ConnectionSettings
import DeviceTester.Lib.Draft
import DeviceTester.Lib.Run

/-!
# The settings tabs of the connection windows

`drawConnectionSettings` of `SerialConnectionWin`, `TcpConnectionWin` and `UdpConnectionWin`. A
window keeps a copy of the options of its connection. The first two draw this copy. The third
draws the options of the connection itself, through the overload of `udpOptions()` that returns
a reference.
-/
namespace DeviceTester.Gui

open DeviceTester.Connection DeviceTester.Lib

/-- What a settings tab uses of a class of connections. `adopt live options` is what the
connection holds once `setOptions(options)` has been called. -/
structure Configurable (κ ω α ε : Type) where
  options : κ → ω
  setOptions : κ → ω → κ
  applyOptions : α → κ → Option (Outcome Bytes κ)
  elsewhere : κ → ε → Option κ
  adopt : ω → ω → ω
  adopt_self : ∀ o, adopt o o = o
  options_setOptions : ∀ c o, options (setOptions c o) = adopt (options c) o
  options_applyOptions : ∀ a c r, applyOptions a c = some r → options r.state = options c
  options_elsewhere : ∀ c e c', elsewhere c e = some c' → options c' = options c

/-- How far a call of `Serial::applyOptions` gets: the device, and the depth of its recursion. -/
abbrev SerialAnswers := Device × Nat

/-- A step of a connection that is no call of `setOptions`. -/
def serialElsewhere (s : Serial) (e : Serial.Event) : Option Serial :=
  if e.isSetOptions then none else s.step e

def tcpElsewhere (t : Tcp) (e : Tcp.Event) : Option Tcp :=
  if e.isSetOptions then none else t.step e

def udpElsewhere (u : Udp) (e : Udp.Event) : Option Udp :=
  if e.isSetOptions then none else u.step e

def serialConfigurable : Configurable Serial SerialOptions SerialAnswers Serial.Event where
  options := Serial.options_
  setOptions := Serial.setOptions
  applyOptions := fun a s => Serial.applyOptions a.1 a.2 s
  elsewhere := serialElsewhere
  adopt := fun live options => { options with identifier := live.identifier }
  adopt_self := fun _ => rfl
  options_setOptions := fun _ _ => rfl
  options_applyOptions := fun a => (Serial.options_recursion a.1 a.2).2
  options_elsewhere := by
    intro s e t h
    obtain ⟨hne, hs⟩ := Option.ite_none_left_eq_some.mp h
    exact Serial.options_step (Bool.eq_false_iff.mpr hne) hs

def tcpConfigurable : Configurable Tcp TcpOptions Resolver Tcp.Event where
  options := Tcp.options_
  setOptions := Tcp.setOptions
  applyOptions := fun resolve t => some (t.applyOptions resolve)
  elsewhere := tcpElsewhere
  adopt := fun live options => { options with identifier := live.identifier }
  adopt_self := fun _ => rfl
  options_setOptions := fun _ _ => rfl
  options_applyOptions := by
    intro resolve t r h
    obtain rfl := Option.some.inj h
    exact Tcp.options_applyOptions t resolve
  options_elsewhere := by
    intro t e u h
    obtain ⟨hne, hs⟩ := Option.ite_none_left_eq_some.mp h
    exact Tcp.options_step (Bool.eq_false_iff.mpr hne) hs

def udpConfigurable : Configurable Udp UdpOptions (SocketCalls × FromString) Udp.Event where
  options := Udp.options_
  setOptions := Udp.setOptions
  applyOptions := fun a u => some (u.applyOptions a.1 a.2)
  elsewhere := udpElsewhere
  adopt := fun live options => { options with identifier := live.identifier }
  adopt_self := fun _ => rfl
  options_setOptions := fun _ _ => rfl
  options_applyOptions := by
    intro a u r h
    obtain rfl := Option.some.inj h
    exact Udp.options_applyOptions u a.1 a.2
  options_elsewhere := by
    intro u e v h
    obtain ⟨hne, hs⟩ := Option.ite_none_left_eq_some.mp h
    exact Udp.options_step (Bool.eq_false_iff.mpr hne) hs

/-- A window, as far as its settings tab goes. `calling` says that a call of `applyOptions` has
not come back: the window is drawn no more. -/
structure SettingsTab (κ ω : Type) where
  connection_ : κ
  options_ : ω
  errorStr_ : Bytes
  calling : Bool
  deriving DecidableEq

/-- What the user does to the tab in one frame. `apply` holds the answers to `applyOptions`
when the button is pressed. -/
structure Frame (ι α : Type) where
  input : ι
  reset : Bool
  apply : Option α

inductive TabEvent (ι α ε : Type) where
  | frame (f : Frame ι α)
  | elsewhere (e : ε)

section Tab

variable {κ ω α ε ι : Type} (C : Configurable κ ω α ε)

namespace SettingsTab

/-- The constructor. -/
def initial (connection : κ) : SettingsTab κ ω where
  connection_ := connection
  options_ := C.options connection
  errorStr_ := []
  calling := false

def pressReset (w : SettingsTab κ ω) : SettingsTab κ ω :=
  { w with options_ := C.options w.connection_ }

def pressApply (a : α) (w : SettingsTab κ ω) : SettingsTab κ ω :=
  let connection := C.setOptions w.connection_ w.options_
  match C.applyOptions a connection with
  | some (.returned c) => { w with connection_ := c }
  | some (.threw c what) => { w with connection_ := c, errorStr_ := what }
  | none => { w with connection_ := connection, calling := true }

/-- The two buttons below the widgets. -/
def drawButtons (f : Frame ι α) (w : SettingsTab κ ω) : SettingsTab κ ω :=
  let w := if f.reset then w.pressReset C else w
  match f.apply with
  | some a => w.pressApply C a
  | none => w

/-- A tab given by its `drawConnectionSettings`. -/
def step (draw : Frame ι α → SettingsTab κ ω → SettingsTab κ ω) (w : SettingsTab κ ω) :
    TabEvent ι α ε → Option (SettingsTab κ ω)
  | .frame f => if w.calling then none else some (draw f w)
  | .elsewhere e => (C.elsewhere w.connection_ e).map fun c => { w with connection_ := c }

/-- The options of the connection, and the copy of them. -/
def draft (w : SettingsTab κ ω) : Draft ω := ⟨C.options w.connection_, w.options_⟩

end SettingsTab

/-- What an event is to do to the options of the connection and the values shown. -/
def TabEvent.intended (edit : ι → ω → ω) : TabEvent ι α ε → Draft ω → Draft ω
  | .frame f => Draft.round C.adopt (edit f.input) f.reset f.apply.isSome
  | .elsewhere _ => id

/-- A tab that shows `seen` does what is intended. -/
def Lawful (edit : ι → ω → ω) (seen : SettingsTab κ ω → Draft ω) (w : SettingsTab κ ω)
    (e : TabEvent ι α ε) (v : SettingsTab κ ω) : Prop :=
  seen v = e.intended C edit (seen w)

end Tab

namespace SerialConnectionWin

def drawConnectionSettings (f : Frame SerialInput SerialAnswers)
    (w : SettingsTab Serial SerialOptions) : SettingsTab Serial SerialOptions :=
  { w with options_ := drawSerialOptions f.input w.options_ }.drawButtons serialConfigurable f

abbrev Event := TabEvent SerialInput SerialAnswers Serial.Event

def step : SettingsTab Serial SerialOptions → Event → Option (SettingsTab Serial SerialOptions) :=
  SettingsTab.step serialConfigurable drawConnectionSettings

end SerialConnectionWin

namespace TcpConnectionWin

def drawConnectionSettings (f : Frame TcpInput Resolver) (w : SettingsTab Tcp TcpOptions) :
    SettingsTab Tcp TcpOptions :=
  { w with options_ := drawTcpOptions f.input w.options_ }.drawButtons tcpConfigurable f

abbrev Event := TabEvent TcpInput Resolver Tcp.Event

def step : SettingsTab Tcp TcpOptions → Event → Option (SettingsTab Tcp TcpOptions) :=
  SettingsTab.step tcpConfigurable drawConnectionSettings

end TcpConnectionWin

namespace UdpConnectionWin

/-- `drawUdpOptions(connection_->udpOptions())`. -/
def drawConnectionSettings (f : Frame UdpInput (SocketCalls × FromString))
    (w : SettingsTab Udp UdpOptions) : SettingsTab Udp UdpOptions :=
  let connection :=
    { w.connection_ with options_ := drawUdpOptions f.input w.connection_.options_ }
  { w with connection_ := connection }.drawButtons udpConfigurable f

abbrev Event := TabEvent UdpInput (SocketCalls × FromString) Udp.Event

def step : SettingsTab Udp UdpOptions → Event → Option (SettingsTab Udp UdpOptions) :=
  SettingsTab.step udpConfigurable drawConnectionSettings

end UdpConnectionWin

/-! ## The law of the tabs -/

section Law

variable {κ ω α ε ι : Type} {C : Configurable κ ω α ε} {w v : SettingsTab κ ω}

namespace SettingsTab

theorem draft_pressApply (a : α) (w : SettingsTab κ ω) :
    (w.pressApply C a).draft C = (w.draft C).apply C.adopt := by
  have hset := C.options_setOptions w.connection_ w.options_
  have hdraft (c : κ) (hc : C.options c = C.options (C.setOptions w.connection_ w.options_)) :
      (⟨C.options c, w.options_⟩ : Draft ω) = (w.draft C).apply C.adopt := by
    rw [hc, hset]
    rfl
  unfold pressApply
  dsimp only
  split
  · rename_i c hr
    exact hdraft c (C.options_applyOptions a _ _ hr)
  · rename_i c what hr
    exact hdraft c (C.options_applyOptions a _ _ hr)
  · exact hdraft _ rfl

/-- The buttons do to the options what the buttons of a form do. -/
theorem draft_drawButtons (f : Frame ι α) (w : SettingsTab κ ω) :
    (w.drawButtons C f).draft C = (w.draft C).press C.adopt f.reset f.apply.isSome := by
  obtain ⟨input, reset, apply⟩ := f
  unfold drawButtons
  cases reset with
  | false =>
    cases apply with
    | none => rfl
    | some a => exact draft_pressApply a w
  | true =>
    cases apply with
    | none => rfl
    | some a => exact draft_pressApply a (w.pressReset C)

theorem step_cases {draw : Frame ι α → SettingsTab κ ω → SettingsTab κ ω}
    {e : TabEvent ι α ε} (h : step C draw w e = some v) :
    (∃ f, e = .frame f ∧ v = draw f w) ∨
      ∃ x, e = .elsewhere x ∧ v.draft C = w.draft C := by
  cases e with
  | frame f =>
    obtain ⟨-, hv⟩ := Option.ite_none_left_eq_some.mp h
    exact .inl ⟨f, rfl, (Option.some.inj hv).symm⟩
  | elsewhere x =>
    obtain ⟨c, hc, rfl⟩ := Option.map_eq_some_iff.mp h
    refine .inr ⟨x, rfl, ?_⟩
    show (⟨C.options c, w.options_⟩ : Draft ω) = _
    rw [C.options_elsewhere _ _ _ hc]
    rfl

/-- A tab that draws its copy of the options is lawful. -/
theorem lawful_of_round {draw : Frame ι α → SettingsTab κ ω → SettingsTab κ ω}
    {edit : ι → ω → ω}
    (hdraw : ∀ f w, (draw f w).draft C =
      (w.draft C).round C.adopt (edit f.input) f.reset f.apply.isSome)
    {e : TabEvent ι α ε} (h : step C draw w e = some v) : Lawful C edit (draft C) w e v := by
  rcases step_cases h with ⟨f, rfl, rfl⟩ | ⟨x, rfl, hx⟩
  · exact hdraw f w
  · exact hx

end SettingsTab

end Law

namespace SerialConnectionWin

theorem lawful_step {w v : SettingsTab Serial SerialOptions} {e : Event}
    (h : step w e = some v) :
    Lawful serialConfigurable drawSerialOptions (SettingsTab.draft serialConfigurable) w e v := by
  apply SettingsTab.lawful_of_round _ h
  intro f w
  exact SettingsTab.draft_drawButtons f _

end SerialConnectionWin

namespace TcpConnectionWin

theorem lawful_step {w v : SettingsTab Tcp TcpOptions} {e : Event} (h : step w e = some v) :
    Lawful tcpConfigurable drawTcpOptions (SettingsTab.draft tcpConfigurable) w e v := by
  apply SettingsTab.lawful_of_round _ h
  intro f w
  exact SettingsTab.draft_drawButtons f _

end TcpConnectionWin

namespace UdpConnectionWin

variable {w v : SettingsTab Udp UdpOptions} {e : Event}

/-- The options of the connection are what the tab shows. -/
def seen (w : SettingsTab Udp UdpOptions) : Draft UdpOptions :=
  (w.draft udpConfigurable).inPlace

/-- The widgets leave every value as it is. -/
def EditsNothing (w : SettingsTab Udp UdpOptions) (e : Event) (_ : SettingsTab Udp UdpOptions) :
    Prop :=
  ∀ f, e = .frame f → drawUdpOptions f.input w.connection_.options_ = w.connection_.options_

theorem draft_drawConnectionSettings (f : Frame UdpInput (SocketCalls × FromString))
    (w : SettingsTab Udp UdpOptions) :
    (drawConnectionSettings f w).draft udpConfigurable =
      ((w.draft udpConfigurable).editLive (drawUdpOptions f.input)).press
        udpConfigurable.adopt f.reset f.apply.isSome :=
  SettingsTab.draft_drawButtons f _

theorem lawful_iff_editsNothing (hd : (w.draft udpConfigurable).Synced) (h : step w e = some v) :
    Lawful udpConfigurable drawUdpOptions seen w e v ↔ EditsNothing w e v := by
  rcases SettingsTab.step_cases h with ⟨f, rfl, rfl⟩ | ⟨x, rfl, hx⟩
  · have hround := Draft.inPlace_round_iff (f := drawUdpOptions f.input)
      udpConfigurable.adopt_self hd rfl f.reset f.apply.isSome
    rw [← draft_drawConnectionSettings] at hround
    refine hround.trans ?_
    constructor
    · intro hf g hg
      obtain rfl := TabEvent.frame.inj hg
      exact hf
    · intro hf
      exact hf f rfl
  · refine iff_of_true (congrArg Draft.inPlace hx) ?_
    intro f hf
    cases hf

theorem synced_step (hd : (w.draft udpConfigurable).Synced) (h : step w e = some v)
    (hn : EditsNothing w e v) : (v.draft udpConfigurable).Synced := by
  rcases SettingsTab.step_cases h with ⟨f, rfl, rfl⟩ | ⟨x, rfl, hx⟩
  · have hf : drawUdpOptions f.input (w.draft udpConfigurable).live = _ := hn f rfl
    rw [draft_drawConnectionSettings, Draft.editLive_of_fixed hf,
      Draft.press_synced udpConfigurable.adopt_self hd]
    exact hd
  · rw [hx]
    exact hd

end UdpConnectionWin

/-- In every run of the first two windows the edits leave the options of the connection, Apply
makes them the values shown and Reset shows them again. In the third window this is so in
exactly the runs in which no edit changes a value. -/
theorem settings_tabs_lawful_iff (s : Serial) (serialRun : List SerialConnectionWin.Event)
    (t : Tcp) (tcpRun : List TcpConnectionWin.Event)
    (u : Udp) (udpRun : List UdpConnectionWin.Event) :
    Along SerialConnectionWin.step
      (Lawful serialConfigurable drawSerialOptions (SettingsTab.draft serialConfigurable))
      (SettingsTab.initial serialConfigurable s) serialRun ∧
    Along TcpConnectionWin.step
      (Lawful tcpConfigurable drawTcpOptions (SettingsTab.draft tcpConfigurable))
      (SettingsTab.initial tcpConfigurable t) tcpRun ∧
    (Along UdpConnectionWin.step (Lawful udpConfigurable drawUdpOptions UdpConnectionWin.seen)
        (SettingsTab.initial udpConfigurable u) udpRun ↔
      Along UdpConnectionWin.step UdpConnectionWin.EditsNothing
        (SettingsTab.initial udpConfigurable u) udpRun) := by
  refine ⟨?_, ?_, ?_⟩
  · apply along_of_step
    intro w e v h
    exact SerialConnectionWin.lawful_step h
  · apply along_of_step
    intro w e v h
    exact TcpConnectionWin.lawful_step h
  · refine along_iff_of_first (I := fun w => (w.draft udpConfigurable).Synced) ?_ ?_ rfl udpRun
    · intro w e v hd h hl
      exact UdpConnectionWin.synced_step hd h ((UdpConnectionWin.lawful_iff_editsNothing hd h).mp hl)
    · intro w e v hd h
      exact UdpConnectionWin.lawful_iff_editsNothing hd h

/-- The user types a port into the tab and presses no button. -/
def typedRun : List UdpConnectionWin.Event :=
  [.frame ⟨⟨none, some 9000, none, none⟩, false, none⟩]

theorem typed_port_is_live :
    ¬ Along UdpConnectionWin.step (Lawful udpConfigurable drawUdpOptions UdpConnectionWin.seen)
      (SettingsTab.initial udpConfigurable (Udp.initial (text "dev") [] false)) typedRun ∧
    ∃ w, exec UdpConnectionWin.step
        (SettingsTab.initial udpConfigurable (Udp.initial (text "dev") [] false)) typedRun = some w ∧
      w.connection_.options_.writePort = 9000 ∧ w.options_.writePort = 0 := by
  refine ⟨?_, _, rfl, rfl, rfl⟩
  intro h
  have hlive := congrArg (fun d => d.live.writePort) (h.cons rfl).1
  revert hlive
  decide

end DeviceTester.Gui

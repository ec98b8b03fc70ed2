import DeviceTester.Connection.WireContent
import DeviceTester.Gui.ConnectionWin

/-!
# The tabs of the connection windows

`ConnectionWin::drawContent` draws the tab that is selected, and with it calls the connection. A
line that is typed goes to `write()`. What `connect()` and `write()` throw leaves the window and
ends the program, except that `SerialConnectionWin` shows what `connect()` throws.
-/
namespace DeviceTester.Gui

open DeviceTester.Connection DeviceTester.Lib

/-- A window, without the data it shows. `appendNewLine_` is behind the box `Newline`, which
`SerialConnectionWin` has not. After an exception has left the window there are no more events. -/
structure ConnectionWindow (κ ω : Type) extends SettingsTab κ ω where
  txBuffer_ : Bytes
  appendNewLine_ : Bool
  thrown : Bool
  deriving DecidableEq

/-- What the user does to a text field, the box and the button `Send`, with the answers to
`write()`. -/
structure RawInput (γ : Type) where
  typed : Option Bytes
  newline : Bool
  send : Option γ

/-- The tab that is selected in a frame, and what is done in it. The answers to `connect()` go
with the button of the overview. -/
inductive TabContent (ι α β γ : Type) where
  | overview (press : Option β)
  | rawOutput (r : RawInput γ)
  | hexViewer (r : RawInput γ)
  | details
  | settings (f : Frame ι α)

inductive WindowEvent (ι α β γ ε : Type) where
  | frame (tab : TabContent ι α β γ)
  | elsewhere (e : ε)

namespace ConnectionWindow

variable {κ ω α β γ ε ι : Type}

/-- The constructor. -/
def initial (C : Configurable κ ω α ε) (appendNewLine : Bool) (connection : κ) :
    ConnectionWindow κ ω where
  toSettingsTab := .initial C connection
  txBuffer_ := []
  appendNewLine_ := appendNewLine
  thrown := false

/-- How a call ends that nobody catches. -/
def uncaught (r : Outcome Bytes κ) (w : ConnectionWindow κ ω) : ConnectionWindow κ ω :=
  match r with
  | .returned c => { w with connection_ := c }
  | .threw c _ => { w with connection_ := c, thrown := true }

/-- How one ends whose exception is shown. -/
def shown (r : Outcome Bytes κ) (w : ConnectionWindow κ ω) : ConnectionWindow κ ω :=
  match r with
  | .returned c => { w with connection_ := c }
  | .threw c what => { w with connection_ := c, errorStr_ := what }

/-- What the field holds when the button is pressed. -/
def typing (r : RawInput γ) (w : ConnectionWindow κ ω) : Bytes := r.typed.getD w.txBuffer_

/-- The button: what the field holds is written with `ending` behind it, unless that is empty. -/
def pressSend (ending : Bytes) (write : Bytes → κ → Outcome Bytes κ) (w : ConnectionWindow κ ω) :
    ConnectionWindow κ ω :=
  let line := w.txBuffer_ ++ ending
  if 0 < line.length then
    match write line w.connection_ with
    | .returned c => { w with connection_ := c, txBuffer_ := [] }
    | .threw c _ => { w with connection_ := c, txBuffer_ := line, thrown := true }
  else { w with txBuffer_ := [] }

/-- The field and the button of the three `drawConnectionRawInput`. -/
def drawSend (canSend : κ → Bool) (ending : Bytes) (write : γ → Bytes → κ → Outcome Bytes κ)
    (r : RawInput γ) (w : ConnectionWindow κ ω) : ConnectionWindow κ ω :=
  let w := { w with txBuffer_ := w.typing r }
  match r.send with
  | none => w
  | some answers => if canSend w.connection_ then w.pressSend ending (write answers) else w

/-- What they hand to `write()`. -/
def linesOf (canSend : κ → Bool) (ending : Bytes) (r : RawInput γ) (w : ConnectionWindow κ ω) :
    List Bytes :=
  match r.send with
  | none => []
  | some _ =>
      if canSend w.connection_ then
        if 0 < (w.typing r ++ ending).length then [w.typing r ++ ending] else []
      else []

/-- The tab bar, given the tabs of a class. -/
def drawContent (overview : Option β → ConnectionWindow κ ω → ConnectionWindow κ ω)
    (rawInput : RawInput γ → ConnectionWindow κ ω → ConnectionWindow κ ω)
    (settings : Frame ι α → SettingsTab κ ω → SettingsTab κ ω) (tab : TabContent ι α β γ)
    (w : ConnectionWindow κ ω) : ConnectionWindow κ ω :=
  match tab with
  | .overview press => overview press w
  | .rawOutput r => rawInput r w
  | .hexViewer r => rawInput r w
  | .details => w
  | .settings f => { w with toSettingsTab := settings f w.toSettingsTab }

/-- A window given by its `drawContent`. A call that does not come back draws no more frames. -/
def step (draw : TabContent ι α β γ → ConnectionWindow κ ω → ConnectionWindow κ ω)
    (elsewhere : κ → ε → Option κ) (w : ConnectionWindow κ ω) :
    WindowEvent ι α β γ ε → Option (ConnectionWindow κ ω)
  | .frame tab => if w.calling || w.thrown then none else some (draw tab w)
  | .elsewhere e =>
      if w.thrown then none
      else (elsewhere w.connection_ e).map fun c => { w with connection_ := c }

/-- What an event hands to `write()`: the line of a frame, or what is written elsewhere. -/
def lines (linesOf : RawInput γ → ConnectionWindow κ ω → List Bytes) (writes : ε → List Bytes)
    (w : ConnectionWindow κ ω) : WindowEvent ι α β γ ε → List Bytes
  | .frame (.rawOutput r) => linesOf r w
  | .frame (.hexViewer r) => linesOf r w
  | .frame _ => []
  | .elsewhere e => writes e

end ConnectionWindow

/-! ## The three classes -/

namespace TcpConnectionWin

abbrev Window := ConnectionWindow Tcp TcpOptions

def drawConnectionOverview (press : Option Resolver) (w : Window) : Window :=
  match press with
  | none => w
  | some resolve =>
      if w.connection_.isConnected then { w with connection_ := w.connection_.disconnect }
      else w.uncaught (w.connection_.connect resolve)

def drawConnectionRawInput (r : RawInput Unit) (w : Window) : Window :=
  { w with appendNewLine_ := w.appendNewLine_ ^^ r.newline }.drawSend Tcp.isConnected (text "\n")
    (fun _ data t => .returned (t.write data)) r

abbrev Tab := TabContent TcpInput Resolver Resolver Unit

def drawContent : Tab → Window → Window :=
  ConnectionWindow.drawContent drawConnectionOverview drawConnectionRawInput drawConnectionSettings

abbrev TabsEvent := WindowEvent TcpInput Resolver Resolver Unit Tcp.Event

def tabsStep : Window → TabsEvent → Option Window :=
  ConnectionWindow.step drawContent tcpElsewhere

def lines : Window → TabsEvent → List Bytes :=
  ConnectionWindow.lines (ConnectionWindow.linesOf Tcp.isConnected (text "\n")) Tcp.writes

/-- The constructor sets `append_new_line_`. -/
def initial (t : Tcp) : Window := .initial tcpConfigurable true t

end TcpConnectionWin

namespace UdpConnectionWin

abbrev Window := ConnectionWindow Udp UdpOptions

def drawConnectionOverview (press : Option SocketCalls) (w : Window) : Window :=
  match press with
  | none => w
  | some calls =>
      if w.connection_.isConnected then { w with connection_ := w.connection_.disconnect }
      else { w with connection_ := w.connection_.connect calls }

/-- The button `Send` is never disabled. -/
def drawConnectionRawInput (r : RawInput (Option Bytes)) (w : Window) : Window :=
  { w with appendNewLine_ := w.appendNewLine_ ^^ r.newline }.drawSend (fun _ => true) (text "\n")
    Udp.write r

abbrev Tab := TabContent UdpInput (SocketCalls × FromString) SocketCalls (Option Bytes)

def drawContent : Tab → Window → Window :=
  ConnectionWindow.drawContent drawConnectionOverview drawConnectionRawInput drawConnectionSettings

abbrev TabsEvent :=
  WindowEvent UdpInput (SocketCalls × FromString) SocketCalls (Option Bytes) Udp.Event

def tabsStep : Window → TabsEvent → Option Window :=
  ConnectionWindow.step drawContent udpElsewhere

/-- The buffers handed to `write()`. -/
def writes : Udp.Event → List Bytes
  | .write _ data => [data]
  | _ => []

def lines : Window → TabsEvent → List Bytes :=
  ConnectionWindow.lines (ConnectionWindow.linesOf (fun _ => true) (text "\n")) writes

/-- The constructor leaves `append_new_line_` as it happens to be. -/
def initial (appendNewLine : Bool) (u : Udp) : Window := .initial udpConfigurable appendNewLine u

end UdpConnectionWin

namespace SerialConnectionWin

abbrev Window := ConnectionWindow Serial SerialOptions

def drawConnectionOverview (press : Option SerialAnswers) (w : Window) : Window :=
  match press with
  | none => w
  | some a =>
      if w.connection_.isConnected then { w with connection_ := w.connection_.disconnect }
      else
        match w.connection_.connect a.1 a.2 with
        | some r => w.shown r
        | none => { w with calling := true }

/-- There is no box. -/
def drawConnectionRawInput (r : RawInput Unit) (w : Window) : Window :=
  w.drawSend Serial.isConnected [] (fun _ data s => .returned (s.write data)) r

abbrev Tab := TabContent SerialInput SerialAnswers SerialAnswers Unit

def drawContent : Tab → Window → Window :=
  ConnectionWindow.drawContent drawConnectionOverview drawConnectionRawInput drawConnectionSettings

abbrev TabsEvent := WindowEvent SerialInput SerialAnswers SerialAnswers Unit Serial.Event

def tabsStep : Window → TabsEvent → Option Window :=
  ConnectionWindow.step drawContent serialElsewhere

def lines : Window → TabsEvent → List Bytes :=
  ConnectionWindow.lines (ConnectionWindow.linesOf Serial.isConnected []) Serial.writes

def initial (s : Serial) : Window := .initial serialConfigurable false s

end SerialConnectionWin

/-! ## A run of a window is a run of its connection -/

namespace ConnectionWindow

section Brings

variable {κ ω α β γ ε ι : Type} {system : κ → ε → Option κ} {P : κ → ε → κ → Prop}
  {writes : ε → List Bytes}

theorem connection_uncaught (r : Outcome Bytes κ) (w : ConnectionWindow κ ω) :
    (w.uncaught r).connection_ = r.state := by
  cases r <;> rfl

theorem connection_shown (r : Outcome Bytes κ) (w : ConnectionWindow κ ω) :
    (w.shown r).connection_ = r.state := by
  cases r <;> rfl

theorem drawSend_brings {canSend : κ → Bool} {ending : Bytes}
    {write : γ → Bytes → κ → Outcome Bytes κ}
    (hwrite : ∀ answers data c, Brings system P writes c (write answers data c).state [data])
    (r : RawInput γ) (w : ConnectionWindow κ ω) :
    Brings system P writes w.connection_ (w.drawSend canSend ending write r).connection_
      (linesOf canSend ending r w) := by
  unfold drawSend linesOf
  cases r.send with
  | none => exact .refl _
  | some answers =>
    dsimp only
    by_cases hcan : canSend w.connection_ = true
    · rw [if_pos hcan, if_pos hcan]
      unfold pressSend
      dsimp only
      by_cases hlen : 0 < (w.typing r ++ ending).length
      · have hbrings := hwrite answers (w.typing r ++ ending) w.connection_
        rw [if_pos hlen, if_pos hlen]
        generalize write answers (w.typing r ++ ending) w.connection_ = o at hbrings
        cases o with
        | returned c => exact hbrings
        | threw c what => exact hbrings
      · rw [if_neg hlen, if_neg hlen]
        exact .refl _
    · rw [if_neg hcan, if_neg hcan]
      exact .refl _

/-- The buttons of a settings tab call `setOptions` and `applyOptions`. -/
theorem drawButtons_brings {C : Configurable κ ω α ε}
    (hset : ∀ c o, Brings system P writes c (C.setOptions c o) [])
    (happly : ∀ a c r, C.applyOptions a c = some r → Brings system P writes c r.state [])
    (f : Frame ι α) (w : SettingsTab κ ω) :
    Brings system P writes w.connection_ (w.drawButtons C f).connection_ [] := by
  have hpress (a : α) (w : SettingsTab κ ω) :
      Brings system P writes w.connection_ (w.pressApply C a).connection_ [] := by
    have hset := hset w.connection_ w.options_
    unfold SettingsTab.pressApply
    dsimp only
    split
    · rename_i c hr
      exact hset.trans (happly a _ _ hr)
    · rename_i c what hr
      exact hset.trans (happly a _ _ hr)
    · exact hset
  obtain ⟨input, reset, apply⟩ := f
  unfold SettingsTab.drawButtons
  cases reset <;> cases apply
  · exact .refl _
  · exact hpress _ w
  · exact .refl _
  · exact hpress _ (w.pressReset C)

variable {overview : Option β → ConnectionWindow κ ω → ConnectionWindow κ ω}
  {rawInput : RawInput γ → ConnectionWindow κ ω → ConnectionWindow κ ω}
  {settings : Frame ι α → SettingsTab κ ω → SettingsTab κ ω} {elsewhere : κ → ε → Option κ}
  {sends : RawInput γ → ConnectionWindow κ ω → List Bytes}

/-- What happens outside the window satisfies `P`. -/
def Outside (P : κ → ε → κ → Prop) (w : ConnectionWindow κ ω) (e : WindowEvent ι α β γ ε)
    (v : ConnectionWindow κ ω) : Prop :=
  match e with
  | .frame _ => True
  | .elsewhere x => P w.connection_ x v.connection_

instance [∀ s e t, Decidable (P s e t)] (w : ConnectionWindow κ ω) (e : WindowEvent ι α β γ ε)
    (v : ConnectionWindow κ ω) : Decidable (Outside P w e v) :=
  match e with
  | .frame _ => isTrue trivial
  | .elsewhere x => inferInstanceAs (Decidable (P w.connection_ x v.connection_))

/-- Where the tabs of a class call its connection, so does the window. -/
theorem step_brings
    (hoverview : ∀ press w, Brings system P writes w.connection_ (overview press w).connection_ [])
    (hrawInput : ∀ r w, Brings system P writes w.connection_ (rawInput r w).connection_ (sends r w))
    (hsettings : ∀ f (w : SettingsTab κ ω),
      Brings system P writes w.connection_ (settings f w).connection_ [])
    (helsewhere : ∀ c e c', elsewhere c e = some c' → system c e = some c')
    {w v : ConnectionWindow κ ω} {e : WindowEvent ι α β γ ε}
    (h : step (drawContent overview rawInput settings) elsewhere w e = some v)
    (hp : Outside P w e v) :
    Brings system P writes w.connection_ v.connection_ (lines sends writes w e) := by
  cases e with
  | frame tab =>
    obtain ⟨-, hv⟩ := Option.ite_none_left_eq_some.mp h
    obtain rfl := Option.some.inj hv
    cases tab with
    | overview press => exact hoverview press w
    | rawOutput r => exact hrawInput r w
    | hexViewer r => exact hrawInput r w
    | details => exact .refl _
    | settings f => exact hsettings f w.toSettingsTab
  | elsewhere x =>
    obtain ⟨-, hx⟩ := Option.ite_none_left_eq_some.mp h
    obtain ⟨c, hc, rfl⟩ := Option.map_eq_some_iff.mp hx
    exact .of_step (helsewhere _ _ _ hc) hp

end Brings

end ConnectionWindow

/-! ### `TcpConnectionWin` -/

namespace TcpConnectionWin

variable {P : Tcp → Tcp.Event → Tcp → Prop}

/-- What is done in a frame are calls, and no completions. -/
theorem tabsStep_brings (hcalls : ∀ t e u, (∀ x, e ≠ .io x) → P t e u) {w v : Window}
    {e : TabsEvent} (h : tabsStep w e = some v) (hp : w.Outside P e v) :
    Brings Tcp.step P Tcp.writes w.connection_ v.connection_ (lines w e) := by
  have hcall {t u : Tcp} {e : Tcp.Event} (hne : ∀ x, e ≠ .io x) (hs : Tcp.step t e = some u) :
      Brings Tcp.step P Tcp.writes t u (Tcp.writes e) := .of_step hs (hcalls t e u hne)
  refine ConnectionWindow.step_brings ?_ ?_ ?_ ?_ h hp
  · intro press w
    cases press with
    | none => exact .refl _
    | some resolve =>
      unfold drawConnectionOverview
      dsimp only
      split
      · exact hcall (e := .disconnect) nofun rfl
      · rw [ConnectionWindow.connection_uncaught]
        exact hcall (e := .connect resolve) nofun rfl
  · intro r w
    have hwrite (_ : Unit) (data : Bytes) (t : Tcp) :
        Brings Tcp.step P Tcp.writes t (.returned (t.write data) : Outcome Bytes Tcp).state [data] :=
      hcall (e := .write data) nofun rfl
    exact ConnectionWindow.drawSend_brings hwrite r
      { w with appendNewLine_ := w.appendNewLine_ ^^ r.newline }
  · intro f w
    have hset (t : Tcp) (opts : TcpOptions) :
        Brings Tcp.step P Tcp.writes t (t.setOptions opts) [] :=
      hcall (e := .setOptions opts) nofun rfl
    refine ConnectionWindow.drawButtons_brings (C := tcpConfigurable) hset ?_ f
      { w with options_ := drawTcpOptions f.input w.options_ }
    intro resolve t r hr
    obtain rfl := Option.some.inj hr
    exact hcall (e := .applyOptions resolve) nofun rfl
  · intro t e u hu
    exact (Option.ite_none_left_eq_some.mp hu).2

end TcpConnectionWin

/-! ### `UdpConnectionWin` -/

namespace UdpConnectionWin

variable {P : Udp → Udp.Event → Udp → Prop}

theorem tabsStep_brings (hcalls : ∀ u e v, (∀ x, e ≠ .io x) → P u e v) {w v : Window}
    {e : TabsEvent} (h : tabsStep w e = some v) (hp : w.Outside P e v) :
    Brings Udp.step P writes w.connection_ v.connection_ (lines w e) := by
  have hcall {u v : Udp} {e : Udp.Event} (hne : ∀ x, e ≠ .io x) (hs : Udp.step u e = some v) :
      Brings Udp.step P writes u v (writes e) := .of_step hs (hcalls u e v hne)
  refine ConnectionWindow.step_brings ?_ ?_ ?_ ?_ h hp
  · intro press w
    cases press with
    | none => exact .refl _
    | some calls =>
      unfold drawConnectionOverview
      dsimp only
      split
      · exact hcall (e := .disconnect) nofun rfl
      · exact hcall (e := .connect calls) nofun rfl
  · intro r w
    have hwrite (answer : Option Bytes) (data : Bytes) (u : Udp) :
        Brings Udp.step P writes u (u.write answer data).state [data] :=
      hcall (e := .write answer data) nofun rfl
    exact ConnectionWindow.drawSend_brings hwrite r
      { w with appendNewLine_ := w.appendNewLine_ ^^ r.newline }
  · intro f w
    -- the widgets edit the options of the connection
    have hedit : Brings Udp.step P writes w.connection_
        { w.connection_ with options_ := drawUdpOptions f.input w.connection_.options_ } [] :=
      hcall (e := .setOptions (drawUdpOptions f.input w.connection_.options_)) nofun rfl
    have hset (u : Udp) (opts : UdpOptions) :
        Brings Udp.step P writes u (u.setOptions opts) [] :=
      hcall (e := .setOptions opts) nofun rfl
    refine hedit.trans (ConnectionWindow.drawButtons_brings (C := udpConfigurable) hset ?_ f
      { w with connection_ := { w.connection_ with
        options_ := drawUdpOptions f.input w.connection_.options_ } })
    intro a u r hr
    obtain rfl := Option.some.inj hr
    exact hcall (e := .applyOptions a.1 a.2) nofun rfl
  · intro u e v hv
    exact (Option.ite_none_left_eq_some.mp hv).2

end UdpConnectionWin

/-! ### `SerialConnectionWin` -/

namespace SerialConnectionWin

variable {P : Serial → Serial.Event → Serial → Prop}

theorem tabsStep_brings (hcalls : ∀ s e u, (∀ x, e ≠ .io x) → P s e u) {w v : Window}
    {e : TabsEvent} (h : tabsStep w e = some v) (hp : w.Outside P e v) :
    Brings Serial.step P Serial.writes w.connection_ v.connection_ (lines w e) := by
  have hcall {s u : Serial} {e : Serial.Event} (hne : ∀ x, e ≠ .io x)
      (hs : Serial.step s e = some u) : Brings Serial.step P Serial.writes s u (Serial.writes e) :=
    .of_step hs (hcalls s e u hne)
  refine ConnectionWindow.step_brings ?_ ?_ ?_ ?_ h hp
  · intro press w
    cases press with
    | none => exact .refl _
    | some a =>
      unfold drawConnectionOverview
      dsimp only
      split
      · exact hcall (e := .disconnect) nofun rfl
      · split
        · rename_i r hr
          rw [ConnectionWindow.connection_shown]
          refine hcall (e := .connect a.1 a.2) nofun ?_
          show (w.connection_.connect a.1 a.2).map Outcome.state = _
          rw [hr]
          rfl
        · exact .refl _
  · intro r w
    have hwrite (_ : Unit) (data : Bytes) (s : Serial) : Brings Serial.step P Serial.writes s
        (.returned (s.write data) : Outcome Bytes Serial).state [data] :=
      hcall (e := .write data) nofun rfl
    exact ConnectionWindow.drawSend_brings hwrite r w
  · intro f w
    have hset (s : Serial) (opts : SerialOptions) :
        Brings Serial.step P Serial.writes s (s.setOptions opts) [] :=
      hcall (e := .setOptions opts) nofun rfl
    refine ConnectionWindow.drawButtons_brings (C := serialConfigurable) hset ?_ f
      { w with options_ := drawSerialOptions f.input w.options_ }
    intro a s r hr
    refine hcall (e := .applyOptions a.1 a.2) nofun ?_
    show (Serial.applyOptions a.1 a.2 s).map Outcome.state = _
    rw [show Serial.applyOptions a.1 a.2 s = some r from hr]
    rfl
  · intro s e u hu
    exact (Option.ite_none_left_eq_some.mp hu).2

end SerialConnectionWin

end DeviceTester.Gui

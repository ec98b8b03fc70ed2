import DeviceTester.Connection.SerialClosed
import DeviceTester.Connection.UdpDatagrams
import DeviceTester.Connection.WireContent
import DeviceTester.Gui.ConnectionTabs
import DeviceTester.Gui.DeviceManager

/-!
# What is typed into a window, and what ends the program

A line that is typed is among what a tcp connection transfers and among the datagrams of a udp
connection. It never leaves the window of a serial connection.
-/
namespace DeviceTester.Gui

open DeviceTester.Connection DeviceTester.Lib

namespace ConnectionWindow

theorem outside_anyStep {κ ω α β γ ε ι : Type} (w : ConnectionWindow κ ω)
    (e : WindowEvent ι α β γ ε) (v : ConnectionWindow κ ω) : w.Outside anyStep e v := by
  cases e <;> trivial

end ConnectionWindow

namespace TcpConnectionWin

/-- In every run of the window, whatever is done in its tabs and whatever completes: what its
connection transfers, to all the peers that it is connected to one after the other, are prefixes
of the lines typed, each with a newline behind it whether the box is set or not, mixed in some
way. Where no bytes of a line are dropped and none is left in the end, it is all of each. -/
theorem lines_mixed_in_transfers (t : Tcp) (es : List TabsEvent) (w : Window)
    (ht : t.unsentRests = []) (he : exec tabsStep (initial t) es = some w) :
    ∃ sent, w.connection_.wire = t.wire ++ sent ∧
      (∃ parts, List.Forall₂ (· <+: ·) parts (collected tabsStep lines (initial t) es) ∧
        Interleaves parts sent) ∧
      (Along tabsStep (ConnectionWindow.Outside Tcp.Lossless) (initial t) es →
        w.connection_.unsentRests = [] →
        Interleaves (collected tabsStep lines (initial t) es) sent) := by
  have hmixed {calls : List Tcp.Event} (hrun : exec Tcp.step t calls = some w.connection_) :=
    exec_interleaves Tcp.unsentRests Tcp.wire Tcp.writes (fun t => filled_rests t.pending)
      (fun _ _ _ h => Tcp.movesBy_step h) ht hrun
  obtain ⟨calls, hrun, -, hlines⟩ := exec_brings (fun w : Window => w.connection_) lines
    (fun _ _ _ h hp => tabsStep_brings (P := anyStep) (fun _ _ _ _ => trivial) h hp) he
    (along_of_forall ConnectionWindow.outside_anyStep _ _)
  obtain ⟨sent, hwire, hparts, -⟩ := hmixed hrun
  rw [hlines] at hparts
  refine ⟨sent, hwire, hparts, fun ha hrests => ?_⟩
  have hcalls (t : Tcp) (e : Tcp.Event) (u : Tcp) (hne : ∀ x, e ≠ .io x) : Tcp.Lossless t e u := by
    cases e with
    | io x => exact absurd rfl (hne x)
    | _ => trivial
  obtain ⟨calls', hrun', hlossless, hlines'⟩ :=
    exec_brings (fun w : Window => w.connection_) lines
      (fun _ _ _ h hp => tabsStep_brings hcalls h hp) he ha
  obtain ⟨sent', hwire', -, hall⟩ := hmixed hrun'
  obtain rfl := List.append_cancel_left (hwire.symm.trans hwire')
  rw [hlines'] at hall
  exact hall hlossless hrests

/-- Two lines, the first with the box set and the second without it. -/
def typedLines : List TabsEvent :=
  [.frame (.overview (some fun _ _ => .ok [⟨text "127.0.0.1", 23⟩])),
    .elsewhere (.io (.finish 0 (.ok 0))), .elsewhere (.io (.run 0)),
    .frame (.rawOutput ⟨some (text "hi"), false, some ()⟩),
    .frame (.hexViewer ⟨some (text "ho"), true, some ()⟩),
    .elsewhere (.io (.finish 1 (.ok 3))), .elsewhere (.io (.finish 2 (.ok 3))),
    .elsewhere (.io (.run 1)), .elsewhere (.io (.run 1))]

theorem typed_lines_transferred :
    ∃ w, exec tabsStep (initial (Tcp.initial (text "dev"))) typedLines = some w ∧
      w.connection_.wire = text "hi\nho\n" ∧
      Interleaves [text "hi\n", text "ho\n"] w.connection_.wire := by
  obtain ⟨sent, hwire, -, hall⟩ :=
    lines_mixed_in_transfers (Tcp.initial (text "dev")) typedLines _ rfl rfl
  refine ⟨_, rfl, rfl, ?_⟩
  rw [hwire]
  exact hall (by decide) rfl

end TcpConnectionWin

namespace UdpConnectionWin

/-- What a datagram carries. -/
def payload : UdpOp → Bytes
  | .receive => []
  | .send buffer _ => buffer

theorem payloads_step {u v : Udp} {e : Udp.Event} (h : Udp.step u e = some v) :
    (v.sends.map payload).Sublist (u.sends.map payload ++ writes e) := by
  have hsends := (Udp.target_step h).2.map payload
  rw [List.map_append] at hsends
  cases e <;> exact hsends

theorem payloads_exec {u v : Udp} {es : List Udp.Event} (h : exec Udp.step u es = some v) :
    (v.sends.map payload).Sublist (u.sends.map payload ++ (es.map writes).flatten) := by
  induction es generalizing u with
  | nil =>
    obtain rfl := Option.some.inj h
    exact List.sublist_append_left _ _
  | cons e es ih =>
    obtain ⟨t, ht, htail⟩ := exec_cons_some h
    have hfirst := (payloads_step ht).append_right (es.map writes).flatten
    rw [List.append_assoc] at hfirst
    exact (ih htail).trans hfirst

/-- In every run of the window, the datagrams outstanding are some of the lines typed, each at
most once, whole, with a newline behind it, and in their order. -/
theorem datagrams_are_lines (appendNewLine : Bool) (u : Udp) (es : List TabsEvent) (w : Window)
    (hu : u.sends = []) (he : exec tabsStep (initial appendNewLine u) es = some w) :
    (w.connection_.sends.map payload).Sublist
      (collected tabsStep lines (initial appendNewLine u) es) := by
  obtain ⟨calls, hrun, -, hlines⟩ := exec_brings (fun w : Window => w.connection_) lines
    (fun _ _ _ h hp => tabsStep_brings (P := anyStep) (fun _ _ _ _ => trivial) h hp) he
    (along_of_forall ConnectionWindow.outside_anyStep _ _)
  have hsends := payloads_exec hrun
  have hinitial : (initial appendNewLine u).connection_.sends = [] := hu
  rw [hinitial, hlines] at hsends
  exact hsends

/-- Two lines from a window whose box is not set. The first one has been sent. -/
def datagramLines : List TabsEvent :=
  [.frame (.rawOutput ⟨some (text "hi"), false, some none⟩),
    .frame (.rawOutput ⟨some (text "ho"), false, some none⟩),
    .elsewhere (.io (.finish 0 (.ok 3))), .elsewhere (.io (.run 0))]

theorem second_line_outstanding :
    ∃ w, exec tabsStep (initial false (Udp.initial (text "dev") [] false)) datagramLines = some w ∧
      w.connection_.sends.map payload = [text "ho\n"] ∧
      [text "ho\n"].Sublist [text "hi\n", text "ho\n"] :=
  ⟨_, rfl, rfl,
    datagrams_are_lines false (Udp.initial (text "dev") [] false) datagramLines _ rfl rfl⟩

end UdpConnectionWin

namespace SerialConnectionWin

/-- What the field is to hold after a list of events, where nothing is ever taken out of it. -/
def typedInto (old : Bytes) : List TabsEvent → Bytes
  | [] => old
  | .frame (.rawOutput r) :: es => typedInto (r.typed.getD old) es
  | .frame (.hexViewer r) :: es => typedInto (r.typed.getD old) es
  | _ :: es => typedInto old es

variable {w v : Window}

/-- A frame of the overview and of the settings leaves the text. -/
theorem txBuffer_drawContent (h : w.connection_.Idle) (tab : Tab) :
    (drawContent tab w).txBuffer_ = typedInto w.txBuffer_ [.frame tab] ∧
      (drawContent tab w).thrown = w.thrown := by
  have hsend (r : RawInput Unit) : (drawConnectionRawInput r w).txBuffer_ = w.typing r ∧
      (drawConnectionRawInput r w).thrown = w.thrown := by
    have hclosed : w.connection_.isConnected = false := h.closed
    unfold drawConnectionRawInput ConnectionWindow.drawSend
    dsimp only
    split
    · exact ⟨rfl, rfl⟩
    · rw [hclosed]
      exact ⟨rfl, rfl⟩
  cases tab with
  | overview press =>
    cases press with
    | none => exact ⟨rfl, rfl⟩
    | some a =>
      show (drawConnectionOverview (some a) w).txBuffer_ = w.txBuffer_ ∧ _
      simp only [drawContent, ConnectionWindow.drawContent, drawConnectionOverview]
      split
      · exact ⟨rfl, rfl⟩
      · split
        · rename_i r hr
          cases r <;> exact ⟨rfl, rfl⟩
        · exact ⟨rfl, rfl⟩
  | rawOutput r => exact hsend r
  | hexViewer r => exact hsend r
  | details => exact ⟨rfl, rfl⟩
  | settings f => exact ⟨rfl, rfl⟩

theorem idle_of_brings {s u : Serial} {l : List Bytes} (hs : s.Idle)
    (h : Brings Serial.step anyStep Serial.writes s u l) : u.Idle := by
  obtain ⟨es, he, ha, -⟩ := h
  have hk : Keeps Serial.step anyStep Serial.Idle := fun _ _ _ hs _ h => hs.step h
  exact hk.exec hs ha he

theorem typed_exec {es : List TabsEvent} (hidle : w.connection_.Idle) (hthrown : w.thrown = false)
    (he : exec tabsStep w es = some v) :
    v.connection_.Idle ∧ v.thrown = false ∧ v.txBuffer_ = typedInto w.txBuffer_ es := by
  induction es generalizing w with
  | nil =>
    obtain rfl := Option.some.inj he
    exact ⟨hidle, hthrown, rfl⟩
  | cons e es ih =>
    obtain ⟨u, hu, htail⟩ := exec_cons_some he
    have hidle' := idle_of_brings hidle
      (tabsStep_brings (fun _ _ _ _ => trivial) hu (w.outside_anyStep e u))
    cases e with
    | frame tab =>
      obtain ⟨-, hu'⟩ := Option.ite_none_left_eq_some.mp hu
      obtain rfl := Option.some.inj hu'
      obtain ⟨htyped, hkeeps⟩ := txBuffer_drawContent hidle tab
      obtain ⟨hv, hvthrown, hvtyped⟩ := ih hidle' (hkeeps.trans hthrown) htail
      refine ⟨hv, hvthrown, ?_⟩
      rw [hvtyped, htyped]
      cases tab <;> rfl
    | elsewhere x =>
      obtain ⟨-, hx⟩ := Option.ite_none_left_eq_some.mp hu
      obtain ⟨c, -, rfl⟩ := Option.map_eq_some_iff.mp hx
      exact ih (w := { w with connection_ := c }) hidle' hthrown htail

/-- In every run of the window of a serial connection that has been added, whatever devices its
calls meet: nothing is ever sent, read or handed over, what is typed stays in the field however
often `Send` is clicked, and no exception leaves the window. -/
theorem never_sends (a : Answers) (opts : SerialOptions) (s : Serial) (es : List TabsEvent)
    (w : Window) (hs : DeviceManager.configureSerial a opts = .returned (.serial s))
    (he : exec tabsStep (initial s) es = some w) :
    w.connection_.Idle ∧ w.thrown = false ∧ w.txBuffer_ = typedInto [] es := by
  obtain rfl := AnyConnection.serial.inj (Outcome.returned.inj hs)
  exact typed_exec ⟨rfl, rfl, rfl, rfl⟩ rfl he

/-- A device that opens once: `Connect` shows an error, and a line is typed. -/
def refusedLine : List TabsEvent :=
  [.frame (.overview (some
      (fun n => if n = 0 then none else some (text "open: Device or resource busy"), 3))),
    .frame (.rawOutput ⟨some (text "hi"), false, some ()⟩)]

theorem refused_line_stays :
    ∃ w, exec tabsStep (initial ((Serial.initial (text "gps") []).setOptions
        (.withIdentifier (text "gps")))) refusedLine = some w ∧
      w.errorStr_ = text "open: Device or resource busy" ∧ w.txBuffer_ = text "hi" ∧
      w.connection_.Idle := by
  obtain ⟨hidle, -, -⟩ := never_sends ⟨[], false, fun _ _ => .ok [], ⟨none, none⟩, .ok⟩
    (.withIdentifier (text "gps")) _ refusedLine _ rfl rfl
  exact ⟨_, rfl, rfl, rfl, hidle⟩

end SerialConnectionWin

/-! ## What ends the program -/

namespace ConnectionWindow

variable {κ ω γ : Type}

theorem thrown_uncaught {r : Outcome Bytes κ} {w : ConnectionWindow κ ω} (h : w.thrown = false) :
    (w.uncaught r).thrown = true ↔ ∃ c what, r = .threw c what := by
  cases r with
  | returned c => simpa [uncaught] using h
  | threw c what => exact iff_of_true rfl ⟨c, what, rfl⟩

theorem thrown_drawSend {canSend : κ → Bool} {ending : Bytes}
    {write : γ → Bytes → κ → Outcome Bytes κ} (r : RawInput γ) {w : ConnectionWindow κ ω}
    (h : w.thrown = false) (hline : 0 < ending.length) :
    (w.drawSend canSend ending write r).thrown = true ↔ ∃ answers c what, r.send = some answers ∧
      canSend w.connection_ = true ∧
      write answers (w.typing r ++ ending) w.connection_ = .threw c what := by
  have hlen : 0 < (w.typing r ++ ending).length := by
    rw [List.length_append]
    omega
  unfold drawSend
  cases hr : r.send with
  | none => simp [h]
  | some answers =>
    dsimp only
    by_cases hcan : canSend w.connection_ = true
    · rw [if_pos hcan]
      unfold pressSend
      dsimp only
      rw [if_pos hlen]
      cases ho : write answers (w.typing r ++ ending) w.connection_ with
      | returned c =>
        refine iff_of_false (by simp [h]) ?_
        rintro ⟨answers', c', what, hsome, -, hthrew⟩
        obtain rfl := Option.some.inj hsome
        cases ho.symm.trans hthrew
      | threw c what => exact iff_of_true rfl ⟨answers, c, what, rfl, hcan, ho⟩
    · rw [if_neg hcan]
      refine iff_of_false (by simp [h]) ?_
      rintro ⟨answers', c', what, -, hcan', -⟩
      exact hcan hcan'

end ConnectionWindow

theorem newline_pos : 0 < (text "\n").length := by decide

/-- A window whose steps do not come after an exception. -/
theorem step_not_thrown {κ ω α β γ ε ι : Type}
    {draw : TabContent ι α β γ → ConnectionWindow κ ω → ConnectionWindow κ ω}
    {elsewhere : κ → ε → Option κ} {w v : ConnectionWindow κ ω} {e : WindowEvent ι α β γ ε}
    (h : w.step draw elsewhere e = some v) :
    w.thrown = false ∧
      ((∃ tab, e = .frame tab ∧ v = draw tab w) ∨ (∃ x, e = .elsewhere x) ∧ v.thrown = false) := by
  cases e with
  | frame tab =>
    obtain ⟨hfree, hv⟩ := Option.ite_none_left_eq_some.mp h
    obtain ⟨-, hthrown⟩ := Bool.or_eq_false_iff.mp (Bool.eq_false_iff.mpr hfree)
    exact ⟨hthrown, .inl ⟨tab, rfl, (Option.some.inj hv).symm⟩⟩
  | elsewhere x =>
    obtain ⟨hfree, hx⟩ := Option.ite_none_left_eq_some.mp h
    obtain ⟨c, -, rfl⟩ := Option.map_eq_some_iff.mp hx
    have hthrown : w.thrown = false := Bool.eq_false_iff.mpr hfree
    exact ⟨hthrown, .inr ⟨⟨x, rfl⟩, hthrown⟩⟩

namespace TcpConnectionWin

/-- `Connect` is pressed, and the resolver throws. -/
def Unresolved (w : Window) (e : TabsEvent) : Prop :=
  ∃ resolve what, e = .frame (.overview (some resolve)) ∧ w.connection_.isConnected = false ∧
    resolve (Tcp.resolverQuery w.connection_.options_).1
      (Tcp.resolverQuery w.connection_.options_).2 = .error what

theorem threw_connect (t : Tcp) (resolve : Resolver) :
    (∃ u what, t.connect resolve = .threw u what) ↔ ∃ what,
      resolve (Tcp.resolverQuery t.options_).1 (Tcp.resolverQuery t.options_).2 = .error what := by
  have hoptions : t.disconnect.options_ = t.options_ := Tcp.options_disconnect
  unfold Tcp.connect
  dsimp only
  rw [hoptions]
  cases resolve (Tcp.resolverQuery t.options_).1 (Tcp.resolverQuery t.options_).2 with
  | error what => exact iff_of_true ⟨_, what, rfl⟩ ⟨what, rfl⟩
  | ok endpoints => exact iff_of_false (by simp) (by simp)

theorem thrown_step {w v : Window} {e : TabsEvent} (h : tabsStep w e = some v) :
    v.thrown = true ↔ Unresolved w e := by
  obtain ⟨hw, ⟨tab, rfl, rfl⟩ | ⟨⟨x, rfl⟩, hv⟩⟩ := step_not_thrown h
  · have hother (hfalse : (drawContent tab w).thrown = false)
        (htab : ∀ resolve, tab ≠ .overview (some resolve)) :
        (drawContent tab w).thrown = true ↔ Unresolved w (.frame tab) := by
      refine iff_of_false (by simp [hfalse]) ?_
      rintro ⟨resolve, what, he, -, -⟩
      exact htab resolve (WindowEvent.frame.inj he)
    have hsend (r : RawInput Unit) : (drawConnectionRawInput r w).thrown = false := by
      rw [← Bool.not_eq_true]
      refine (not_congr (ConnectionWindow.thrown_drawSend
        (w := { w with appendNewLine_ := w.appendNewLine_ ^^ r.newline }) r hw newline_pos)).mpr ?_
      rintro ⟨_, _, _, -, -, hthrew⟩
      cases hthrew
    cases tab with
    | overview press =>
      cases press with
      | none => exact hother hw nofun
      | some resolve =>
        show (drawConnectionOverview (some resolve) w).thrown = true ↔ _
        unfold drawConnectionOverview
        dsimp only
        cases hc : w.connection_.isConnected with
        | true =>
          refine iff_of_false (by simp [hw]) ?_
          rintro ⟨resolve', what, -, hclosed, -⟩
          cases hc.symm.trans hclosed
        | false =>
          rw [if_neg (by simp), ConnectionWindow.thrown_uncaught hw, threw_connect]
          constructor
          · rintro ⟨what, hwhat⟩
            exact ⟨resolve, what, rfl, hc, hwhat⟩
          · rintro ⟨resolve', what, he, -, hwhat⟩
            obtain rfl := Option.some.inj (TabContent.overview.inj (WindowEvent.frame.inj he))
            exact ⟨what, hwhat⟩
    | rawOutput r => exact hother (hsend r) nofun
    | hexViewer r => exact hother (hsend r) nofun
    | details => exact hother hw nofun
    | settings f => exact hother hw nofun
  · refine iff_of_false (by simp [hv]) ?_
    rintro ⟨_, _, he, -, -⟩
    cases he

end TcpConnectionWin

namespace UdpConnectionWin

/-- `Send` is pressed, and the closed socket cannot be opened. -/
def Unopened (w : Window) (e : TabsEvent) : Prop :=
  ∃ r what, (e = .frame (.rawOutput r) ∨ e = .frame (.hexViewer r)) ∧ r.send = some (some what) ∧
    w.connection_.isConnected = false

theorem threw_write (u : Udp) (answer : Option Bytes) (data : Bytes) :
    (∃ v what, u.write answer data = .threw v what) ↔ answer.isSome ∧ u.isConnected = false := by
  unfold Udp.write Udp.isConnected
  cases hopen : u.socket_.isOpen with
  | true => simp [Outcome.andThen]
  | false => cases answer <;> simp [Udp.socketOpen, hopen, Outcome.andThen]

theorem thrown_rawInput {w : Window} (hw : w.thrown = false) (r : RawInput (Option Bytes)) :
    (drawConnectionRawInput r w).thrown = true ↔
      ∃ what, r.send = some (some what) ∧ w.connection_.isConnected = false := by
  refine (ConnectionWindow.thrown_drawSend
    (w := { w with appendNewLine_ := w.appendNewLine_ ^^ r.newline }) r hw newline_pos).trans ?_
  constructor
  · rintro ⟨answer, u, what, hsend, -, hthrew⟩
    obtain ⟨hsome, hclosed⟩ := (threw_write _ answer _).mp ⟨u, what, hthrew⟩
    obtain ⟨what, rfl⟩ := Option.isSome_iff_exists.mp hsome
    exact ⟨what, hsend, hclosed⟩
  · rintro ⟨what, hsend, hclosed⟩
    obtain ⟨u, what', hthrew⟩ := (threw_write w.connection_ (some what)
      (w.typing r ++ text "\n")).mpr ⟨rfl, hclosed⟩
    exact ⟨some what, u, what', hsend, rfl, hthrew⟩

theorem thrown_step {w v : Window} {e : TabsEvent} (h : tabsStep w e = some v) :
    v.thrown = true ↔ Unopened w e := by
  obtain ⟨hw, ⟨tab, rfl, rfl⟩ | ⟨⟨x, rfl⟩, hv⟩⟩ := step_not_thrown h
  · have hother (hfalse : (drawContent tab w).thrown = false)
        (htab : ∀ r, tab ≠ .rawOutput r ∧ tab ≠ .hexViewer r) :
        (drawContent tab w).thrown = true ↔ Unopened w (.frame tab) := by
      refine iff_of_false (by simp [hfalse]) ?_
      rintro ⟨r, what, he | he, -, -⟩
      · exact (htab r).1 (WindowEvent.frame.inj he)
      · exact (htab r).2 (WindowEvent.frame.inj he)
    have hsend (r : RawInput (Option Bytes)) (htab : tab = .rawOutput r ∨ tab = .hexViewer r) :
        (drawConnectionRawInput r w).thrown = true ↔ Unopened w (.frame tab) := by
      rw [thrown_rawInput hw]
      constructor
      · rintro ⟨what, hwhat, hclosed⟩
        exact ⟨r, what, htab.imp (congrArg _) (congrArg _), hwhat, hclosed⟩
      · rintro ⟨r', what, he, hwhat, hclosed⟩
        obtain rfl : r = r' := by
          rcases htab with rfl | rfl <;> simpa using he
        exact ⟨what, hwhat, hclosed⟩
    cases tab with
    | overview press =>
      refine hother ?_ (fun r => ⟨nofun, nofun⟩)
      cases press with
      | none => exact hw
      | some calls =>
        show (drawConnectionOverview (some calls) w).thrown = false
        unfold drawConnectionOverview
        dsimp only
        split <;> exact hw
    | rawOutput r => exact hsend r (.inl rfl)
    | hexViewer r => exact hsend r (.inr rfl)
    | details => exact hother hw fun r => ⟨nofun, nofun⟩
    | settings f => exact hother hw fun r => ⟨nofun, nofun⟩
  · refine iff_of_false (by simp [hv]) ?_
    rintro ⟨_, _, he | he, -, -⟩ <;> cases he

end UdpConnectionWin

/-- In every run of the windows of tcp and udp connections, an exception leaves a frame in two
cases only: `Connect` of a tcp window where the resolver throws, and `Send` of a udp window whose
closed socket cannot be opened. What Apply throws never does. A socket is taken to close without
an exception. -/
theorem exceptions_leave_iff (t : Tcp) (tcpRun : List TcpConnectionWin.TabsEvent)
    (appendNewLine : Bool) (u : Udp) (udpRun : List UdpConnectionWin.TabsEvent) :
    Along TcpConnectionWin.tabsStep
      (fun w e v => v.thrown = true ↔ TcpConnectionWin.Unresolved w e)
      (TcpConnectionWin.initial t) tcpRun ∧
    Along UdpConnectionWin.tabsStep (fun w e v => v.thrown = true ↔ UdpConnectionWin.Unopened w e)
      (UdpConnectionWin.initial appendNewLine u) udpRun := by
  constructor
  · apply along_of_step
    intro w e v h
    exact TcpConnectionWin.thrown_step h
  · apply along_of_step
    intro w e v h
    exact UdpConnectionWin.thrown_step h

end DeviceTester.Gui

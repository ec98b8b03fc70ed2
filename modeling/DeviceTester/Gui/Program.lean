import DeviceTester.Gui.AppManager
import DeviceTester.Gui.ConnectionCalls
import DeviceTester.Gui.TypedLines

/-!
# The program with its windows

A window shares its connection with the device manager, and calls it from the tab that is drawn.
The windows are those of the objects of the manager, one for each, and are reached through
`windows_`.
-/
namespace DeviceTester.Gui

open DeviceTester.Connection DeviceTester.Config DeviceTester.Lib

/-! ## A window of any class -/

inductive AnyWindow where
  | serial (w : SerialConnectionWin.Window)
  | tcp (w : TcpConnectionWin.Window)
  | udp (w : UdpConnectionWin.Window)

inductive AnyTab where
  | serial (tab : SerialConnectionWin.Tab)
  | tcp (tab : TcpConnectionWin.Tab)
  | udp (tab : UdpConnectionWin.Tab)

namespace AnyWindow

/-- The constructors. That of `UdpConnectionWin` leaves `append_new_line_` as it happens to be. -/
def initial (appendNewLine : Bool) : AnyConnection → AnyWindow
  | .serial s => .serial (SerialConnectionWin.initial s)
  | .tcp t => .tcp (TcpConnectionWin.initial t)
  | .udp u => .udp (UdpConnectionWin.initial appendNewLine u)

def connection : AnyWindow → AnyConnection
  | .serial w => .serial w.connection_
  | .tcp w => .tcp w.connection_
  | .udp w => .udp w.connection_

def thrown : AnyWindow → Bool
  | .serial w => w.thrown
  | .tcp w => w.thrown
  | .udp w => w.thrown

def calling : AnyWindow → Bool
  | .serial w => w.calling
  | .tcp w => w.calling
  | .udp w => w.calling

/-- The window, given what has become of its connection. -/
def share : AnyConnection → AnyWindow → Option AnyWindow
  | .serial s, .serial w => some (.serial { w with connection_ := s })
  | .tcp t, .tcp w => some (.tcp { w with connection_ := t })
  | .udp u, .udp w => some (.udp { w with connection_ := u })
  | _, _ => none

/-- A frame with a tab of its class. -/
def draw : AnyTab → AnyWindow → Option AnyWindow
  | .serial tab, .serial w => (SerialConnectionWin.tabsStep w (.frame tab)).map serial
  | .tcp tab, .tcp w => (TcpConnectionWin.tabsStep w (.frame tab)).map tcp
  | .udp tab, .udp w => (UdpConnectionWin.tabsStep w (.frame tab)).map udp
  | _, _ => none

/-- What a frame hands to `write()`. -/
def lines : AnyTab → AnyWindow → List Bytes
  | .serial tab, .serial w => SerialConnectionWin.lines w (.frame tab)
  | .tcp tab, .tcp w => TcpConnectionWin.lines w (.frame tab)
  | .udp tab, .udp w => UdpConnectionWin.lines w (.frame tab)
  | _, _ => []

end AnyWindow

namespace AnyWindow

variable {P : AnyConnection → AnyEvent → AnyConnection → Prop} {w v : AnyWindow}

theorem connection_share {c : AnyConnection} (h : w.share c = some v) : v.connection = c := by
  cases c with
  | serial s =>
    cases w with
    | serial w =>
      obtain rfl := Option.some.inj h
      rfl
    | _ => cases h
  | tcp t =>
    cases w with
    | tcp w =>
      obtain rfl := Option.some.inj h
      rfl
    | _ => cases h
  | udp u =>
    cases w with
    | udp w =>
      obtain rfl := Option.some.inj h
      rfl
    | _ => cases h

/-- What a frame does to the connection of a window are calls. -/
theorem draw_brings (hP : OfCalls P) {tab : AnyTab} (h : w.draw tab = some v) :
    Brings AnyConnection.step P AnyConnection.writes w.connection v.connection (w.lines tab) := by
  cases w with
  | serial w =>
    cases tab with
    | serial tab =>
      obtain ⟨v, hv, rfl⟩ := Option.map_eq_some_iff.mp h
      have hcalls := SerialConnectionWin.tabsStep_brings
        (P := fun s e u => P (.serial s) (.serial e) (.serial u)) hP.serial hv trivial
      exact hcalls.map AnyConnection.serial AnyEvent.serial
        (fun _ _ _ hs hp => ⟨congrArg (Option.map _) hs, hp⟩) fun _ => rfl
    | _ => cases h
  | tcp w =>
    cases tab with
    | tcp tab =>
      obtain ⟨v, hv, rfl⟩ := Option.map_eq_some_iff.mp h
      have hcalls := TcpConnectionWin.tabsStep_brings
        (P := fun t e u => P (.tcp t) (.tcp e) (.tcp u)) hP.tcp hv trivial
      exact hcalls.map AnyConnection.tcp AnyEvent.tcp
        (fun _ _ _ hs hp => ⟨congrArg (Option.map _) hs, hp⟩) fun _ => rfl
    | _ => cases h
  | udp w =>
    cases tab with
    | udp tab =>
      obtain ⟨v, hv, rfl⟩ := Option.map_eq_some_iff.mp h
      have hcalls := UdpConnectionWin.tabsStep_brings
        (P := fun u e v => P (.udp u) (.udp e) (.udp v)) hP.udp hv trivial
      exact hcalls.map AnyConnection.udp AnyEvent.udp
        (fun _ _ _ hs hp => ⟨congrArg (Option.map _) hs, hp⟩) fun _ => rfl
    | _ => cases h

end AnyWindow

/-! ## The program -/

structure Program where
  app : App
  windows : List AnyWindow

namespace Program

def deviceManager_ (p : Program) : DeviceManager := p.app.deviceManager_

/-- The constructor, where that of the device manager returns. -/
def initial (file : RecentsFile) (recents : List RecentConnection) : Program :=
  ⟨.initial file recents, []⟩

/-- The constructor, which lets out what that of the device manager throws. -/
def construct (json : JsonText) (file : RecentsFile) : Except Failure Program :=
  (DeviceManager.construct json file).map fun m => initial file m.recentConnections_

/-- The program begins with the list that the file reads as. -/
theorem construct_ok {json : JsonText} {file : RecentsFile} {p : Program}
    (h : construct json file = .ok p) :
    ∃ recents, recentConnections json file = .ok recents ∧ p = initial file recents := by
  unfold construct at h
  cases hm : DeviceManager.construct json file with
  | error e =>
    rw [hm] at h
    cases h
  | ok m =>
    obtain ⟨recents, hread, rfl⟩ := DeviceManager.construct_ok hm
    rw [hm] at h
    exact ⟨recents, hread, (Except.ok.inj h).symm⟩

/-- A call of a window has not come back. -/
def hung (p : Program) : Bool := p.windows.any AnyWindow.calling

/-- The window that is stored under an identifier, and its number. -/
def windowOf (identifier : Bytes) (p : Program) : Option (Nat × AnyWindow) :=
  (p.deviceManager_.windows_.lookup identifier).bind fun n =>
    (p.deviceManager_.objects[n]?).bind fun o =>
      (p.windows[n]?).bind fun w => (w.share o.connection).map fun w => (n, w)

/-- The windows of the connections that have been made. -/
def withApp (appendNewLine : Nat → Bool) (p : Program) (app : App) : Program where
  app := app
  windows := p.windows ++ (app.deviceManager_.objects.drop p.windows.length).map fun o =>
    .initial (appendNewLine o.handle) o.connection

/-- A frame of the `n`-th window. What leaves it ends the program. -/
def withWindow (n : Nat) (w : AnyWindow) (p : Program) : Program where
  app :=
    { p.app.withManager
        { p.deviceManager_ with
          objects := p.deviceManager_.objects.modify n fun o =>
            { o with connection := w.connection } } with
      ended := w.thrown }
  windows := p.windows.set n w

/-- The parts of a frame of the program, of which a window is drawn with one of its tabs, and
what happens beside them. -/
inductive Event (json : JsonText) where
  | window (identifier : Bytes) (tab : AnyTab)
  | other (e : App.Event json)

end Program

/-- An event of the thread that draws. -/
def App.Event.onMain {json : JsonText} : App.Event json → Bool
  | .menu _ | .modal _ | .window .. => true
  | _ => false

namespace Program

def step (json : JsonText) (appendNewLine : Nat → Bool) (p : Program) :
    Event json → Option Program
  | .window identifier tab =>
      if p.hung || p.app.modalNext || p.app.ended then none
      else (p.windowOf identifier).bind fun found =>
        (found.2.draw tab).map fun w => p.withWindow found.1 w
  | .other e =>
      if e.isWindow || (p.hung && e.onMain) then none
      else (App.step json p.app e).map (p.withApp appendNewLine)

/-- The lines that an event hands to the `n`-th connection. -/
def linesTo {json : JsonText} (n : Nat) (p : Program) : Event json → List Bytes
  | .window identifier tab =>
      ((p.windowOf identifier).toList.filter fun found => found.1 == n).flatMap fun found =>
        found.2.lines tab
  | .other _ => []

end Program

/-! ## What becomes of a connection -/

namespace Program

variable {P : AnyConnection → AnyEvent → AnyConnection → Prop} {json : JsonText} {n : Nat}
  {appendNewLine : Nat → Bool} {p q : Program}

/-- What the io thread does to the `n`-th connection has the property. -/
def IoHas (P : AnyConnection → AnyEvent → AnyConnection → Prop) (n : Nat) (p : Program)
    (e : Event json) (q : Program) : Prop :=
  match e with
  | .window .. => True
  | .other e => App.IoHas P n p.app e q.app

instance [∀ c x d, Decidable (P c x d)] (p : Program) (e : Event json) (q : Program) :
    Decidable (IoHas P n p e q) :=
  match e with
  | .window .. => isTrue trivial
  | .other e => inferInstanceAs (Decidable (App.IoHas P n p.app e q.app))

theorem ioHas_anyStep (n : Nat) (p : Program) (e : Event json) (q : Program) :
    IoHas anyStep n p e q := by
  cases e with
  | window identifier tab => trivial
  | other e => exact App.ioHas_anyStep n p.app e q.app

theorem windowOf_cases {identifier : Bytes} {w : AnyWindow}
    (h : p.windowOf identifier = some (n, w)) :
    p.deviceManager_.windows_.lookup identifier = some n ∧
      ∃ o, p.deviceManager_.objects[n]? = some o ∧ w.connection = o.connection := by
  obtain ⟨k, hk, h⟩ := Option.bind_eq_some_iff.mp h
  obtain ⟨o, ho, h⟩ := Option.bind_eq_some_iff.mp h
  obtain ⟨w₀, -, h⟩ := Option.bind_eq_some_iff.mp h
  obtain ⟨v, hshare, hpair⟩ := Option.map_eq_some_iff.mp h
  obtain ⟨rfl, rfl⟩ := Prod.mk.inj hpair
  exact ⟨hk, o, ho, AnyWindow.connection_share hshare⟩

theorem grown_step (hP : OfCalls P) {e : Event json} (hs : step json appendNewLine p e = some q)
    (hio : IoHas P n p e q) :
    Grown P p.deviceManager_.objects[n]? q.deviceManager_.objects[n]? (linesTo n p e) := by
  cases e with
  | window identifier tab =>
    obtain ⟨-, hs⟩ := Option.ite_none_left_eq_some.mp hs
    obtain ⟨⟨k, w⟩, hfound, hs⟩ := Option.bind_eq_some_iff.mp hs
    obtain ⟨v, hv, rfl⟩ := Option.map_eq_some_iff.mp hs
    obtain ⟨-, o, ho, hconnection⟩ := windowOf_cases hfound
    have hcalls := AnyWindow.draw_brings hP hv
    rw [hconnection] at hcalls
    have hlines : linesTo n p (.window identifier tab : Event json) =
        if k = n then w.lines tab else [] := by
      by_cases hk : k = n <;> simp [linesTo, hfound, hk]
    rw [hlines]
    split
    · rename_i hk
      subst hk
      exact grown_modify ho hcalls
    · rename_i hk
      exact grown_modify_other hk _
  | other e =>
    obtain ⟨hfree, hs⟩ := Option.ite_none_left_eq_some.mp hs
    obtain ⟨b, hb, rfl⟩ := Option.map_eq_some_iff.mp hs
    have hwindow : e.isWindow = false := by
      rw [Bool.not_eq_true, Bool.or_eq_false_iff] at hfree
      exact hfree.1
    exact App.grownAt_step hP hb hwindow hio

/-- What becomes of the `n`-th connection in a run are calls, whose writes are the lines of the
`n`-th window. -/
theorem grown_exec (hP : OfCalls P) {es : List (Event json)}
    (he : exec (step json appendNewLine) p es = some q)
    (ha : Along (step json appendNewLine) (IoHas P n) p es) :
    Grown P p.deviceManager_.objects[n]? q.deviceManager_.objects[n]?
      (collected (step json appendNewLine) (linesTo n) p es) := by
  induction es generalizing p with
  | nil =>
    obtain rfl := Option.some.inj he
    exact .refl P _
  | cons e es ih =>
    obtain ⟨r, hr, htail⟩ := exec_cons_some he
    obtain ⟨hfirst, hrest⟩ := ha.cons hr
    rw [collected, hr]
    exact (grown_step hP hr hfirst).trans (ih htail hrest)

/-! ## What the program does -/

/-- A frame of a window, and the calls that it makes. -/
inductive Stands : Event json → App.Event json → Prop where
  | window (identifier : Bytes) (tab : AnyTab) (calls : List AnyEvent) (throws : Bool) :
      Stands (.window identifier tab) (.window identifier calls throws)
  | other (e : App.Event json) : Stands (.other e) e

theorem app_step {e : Event json} (hs : step json appendNewLine p e = some q) :
    ∃ e', Stands e e' ∧ App.step json p.app e' = some q.app := by
  cases e with
  | window identifier tab =>
    obtain ⟨hfree, hs⟩ := Option.ite_none_left_eq_some.mp hs
    obtain ⟨⟨k, w⟩, hfound, hs⟩ := Option.bind_eq_some_iff.mp hs
    obtain ⟨v, hv, rfl⟩ := Option.map_eq_some_iff.mp hs
    obtain ⟨hk, o, ho, hconnection⟩ := windowOf_cases hfound
    rw [Bool.not_eq_true, Bool.or_eq_false_iff, Bool.or_eq_false_iff] at hfree
    obtain ⟨calls, hexec, hcalls, -⟩ := AnyWindow.draw_brings
      (P := fun _ e _ => e.isIo = false) (fun _ _ _ h => h) hv
    rw [hconnection] at hexec hcalls
    refine ⟨_, .window identifier tab calls v.thrown, ?_⟩
    have hcall := DeviceManager.callObject_of (m := p.app.deviceManager_) ho calls
    rw [hexec, Option.map_some] at hcall
    have hk' : p.app.deviceManager_.windows_.lookup identifier = some k := hk
    simp only [App.step, App.drawWindow, hfree.1.2, hfree.2, Bool.false_eq_true, if_false,
      if_pos (hcalls.of_mem hexec), hk', Option.bind_some, hcall, Option.map_some]
    rfl
  | other e =>
    obtain ⟨-, hs⟩ := Option.ite_none_left_eq_some.mp hs
    obtain ⟨b, hb, rfl⟩ := Option.map_eq_some_iff.mp hs
    exact ⟨e, .other e, hb⟩

theorem app_exec {es : List (Event json)} (he : exec (step json appendNewLine) p es = some q) :
    ∃ fs, List.Forall₂ Stands es fs ∧ exec (App.step json) p.app fs = some q.app :=
  exec_follows app (fun _ _ _ hs => app_step hs) he

/-- There is a window for each object, and it is of the class of the connection. -/
def Attached (p : Program) : Prop :=
  p.windows.map (fun w => w.connection.type) =
    p.deviceManager_.objects.map fun o => o.connection.type

theorem attached_withApp (h : Attached p) {b : App}
    (hgrown : ∀ n, GrownAt anyStep n p.deviceManager_ b.deviceManager_) :
    Attached (p.withApp appendNewLine b) := by
  have hlength : p.windows.length = p.deviceManager_.objects.length := by
    have hlength := congrArg List.length h
    rwa [List.length_map, List.length_map] at hlength
  have hold : (b.deviceManager_.objects.take p.windows.length).map (fun o => o.connection.type) =
      p.deviceManager_.objects.map fun o => o.connection.type := by
    apply List.ext_getElem?
    intro n
    rw [List.getElem?_map, List.getElem?_map, List.getElem?_take, hlength]
    have hplace := hgrown n
    unfold GrownAt at hplace
    split
    · rename_i hn
      rw [List.getElem?_eq_getElem hn] at hplace ⊢
      generalize b.deviceManager_.objects[n]? = place at hplace
      cases hplace with
      | kept o o' _ hcalls => exact congrArg some (AnyConnection.type_of_brings hcalls)
    · rename_i hn
      rw [List.getElem?_eq_none (Nat.le_of_not_lt hn), Option.map_none]
  have hnew : ∀ o : Object, (AnyWindow.initial (appendNewLine o.handle) o.connection).connection =
      o.connection := by
    intro o
    cases o.connection <;> rfl
  unfold Attached withApp
  rw [List.map_append, h, ← hold, List.map_map]
  simp only [Function.comp_def, hnew]
  rw [← List.map_append, List.take_append_drop]
  rfl

theorem attached_withWindow (h : Attached p) {o : Object}
    (ho : p.deviceManager_.objects[n]? = some o) (v : AnyWindow) :
    Attached (p.withWindow n v) := by
  apply List.ext_getElem?
  intro k
  have hk := congrArg (fun types => types[k]?) h
  simp only [List.getElem?_map] at hk
  show ((p.windows.set n v).map _)[k]? = ((p.deviceManager_.objects.modify n _).map _)[k]?
  rw [List.getElem?_map, List.getElem?_map]
  by_cases hn : n = k
  · subst hn
    rw [List.getElem?_modify_eq, ho]
    have hlt : n < p.windows.length := by
      by_contra hge
      rw [List.getElem?_eq_none (Nat.le_of_not_lt hge), ho] at hk
      cases hk
    rw [List.getElem?_set_self hlt]
    rfl
  · rw [List.getElem?_modify_ne _ _ hn, List.getElem?_set_ne hn]
    exact hk

theorem keeps_attached : Keeps (step json appendNewLine) anyStep Attached := by
  intro p e q h _ hs
  cases e with
  | window identifier tab =>
    obtain ⟨-, hs⟩ := Option.ite_none_left_eq_some.mp hs
    obtain ⟨⟨k, w⟩, hfound, hs⟩ := Option.bind_eq_some_iff.mp hs
    obtain ⟨v, -, rfl⟩ := Option.map_eq_some_iff.mp hs
    obtain ⟨-, o, ho, -⟩ := windowOf_cases hfound
    exact attached_withWindow h ho v
  | other e =>
    obtain ⟨hfree, hs⟩ := Option.ite_none_left_eq_some.mp hs
    obtain ⟨b, hb, rfl⟩ := Option.map_eq_some_iff.mp hs
    rw [Bool.not_eq_true, Bool.or_eq_false_iff] at hfree
    exact attached_withApp h fun n =>
      App.grownAt_step ofCalls_anyStep hb hfree.1 (App.ioHas_anyStep n p.app e b)

end Program

end DeviceTester.Gui

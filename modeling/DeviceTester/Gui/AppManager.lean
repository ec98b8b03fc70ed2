import DeviceTester.Gui.App
import DeviceTester.Gui.Identifiers

/-!
# The program and the manager

As long as nothing has ended it, what the program does to the device manager are calls of
`add*Connection`, calls of windows, the close loop and the steps of the io thread.
-/
namespace DeviceTester.Gui

open DeviceTester.Connection DeviceTester.Config DeviceTester.Lib

namespace Teardown

/-- The steps of the io thread. -/
def heard : Event → List (Nat × AnyEvent)
  | .io n e => [(n, e)]
  | _ => []

def Event.isTick : Event → Bool
  | .tick => true
  | _ => false

/-- The idle timer does not tick. -/
def Unticked (_ : State) (e : Event) (_ : State) : Prop := e.isTick = false

/-- The main thread is not in the close loop. -/
structure Holds (m : DeviceManager) (s : State) : Prop where
  manager : s.manager = m
  idle : s.delayedDelete = []

/-- What the main thread can make of the manager while the io thread does nothing. -/
def Becomes (json : JsonText) (s : State) (m : DeviceManager) : Prop :=
  ∃ t, Brings (step json) Unticked heard s t [] ∧ Holds m t

variable {json : JsonText} {m m' : DeviceManager} {s t : State}

theorem Becomes.refl (h : Holds m s) : Becomes json s m := ⟨s, .refl s, h⟩

theorem Becomes.trans (h : Becomes json s m) (h' : ∀ t, Holds m t → Becomes json t m') :
    Becomes json s m' := by
  obtain ⟨t, ht, hm⟩ := h
  obtain ⟨u, hu, hm'⟩ := h' t hm
  exact ⟨u, ht.trans hu, hm'⟩

theorem becomes_add (h : Holds m s) {a : Answers} {opts : AnyOptions} {addToRecents : Bool}
    (hok : ∀ e, (m.add json a opts addToRecents).1 ≠ .error e) :
    Becomes json s (m.add json a opts addToRecents).2 := by
  have hstep : step json s (.add a opts addToRecents) =
      some { s with
        manager := (m.add json a opts addToRecents).2
        current := s.currentAfterAdd a opts } := by
    simp only [step, h.idle, h.manager, if_true]
    generalize m.add json a opts addToRecents = r at hok
    obtain ⟨added, m'⟩ := r
    cases added with
    | error e => exact absurd rfl (hok e)
    | ok b => rfl
  exact ⟨_, .of_step hstep rfl, rfl, h.idle⟩

theorem becomes_drawOpenRecent (h : Holds m s) (answers : Nat → Answers) (clicked : Nat → Bool) :
    Becomes json s (m.drawOpenRecent json answers clicked) := by
  refine DeviceManager.drawOpenRecent_induction (I := Becomes json s) (fun m' a opts hm' => ?_)
    answers clicked (.refl h)
  exact hm'.trans fun t ht => becomes_add ht (DeviceManager.add_false_ok a opts m')

/-- The statements of the close loop, for all of its identifiers. -/
theorem becomes_closed (identifiers : List Bytes) (hdelayed : s.delayedDelete = identifiers)
    (hstage : s.stage = .eraseWindow) :
    Becomes json s (s.manager.closeConnections identifiers) := by
  induction identifiers generalizing s with
  | nil => exact ⟨s, .refl s, rfl, hdelayed⟩
  | cons identifier rest ih =>
    obtain ⟨manager, delayedDelete, stage, current⟩ := s
    obtain rfl : delayedDelete = identifier :: rest := hdelayed
    obtain rfl : stage = .eraseWindow := hstage
    have hproceed {s t : State} (hs : s.proceed = some t) :
        Brings (step json) Unticked heard s t [] := .of_step (e := Event.proceed) hs rfl
    obtain ⟨t, ht, hm⟩ := ih (s := ⟨manager.closeConnection identifier, rest, .eraseWindow, _⟩)
      rfl rfl
    exact ⟨t, (((hproceed rfl).trans (hproceed rfl)).trans (hproceed rfl)).trans
      ((hproceed rfl).trans ht), hm⟩

theorem becomes_closeConnections (h : Holds m s) {identifiers : List Bytes}
    (hmem : ∀ identifier ∈ identifiers, identifier ∈ m.windows_) (hnodup : identifiers.Nodup) :
    Becomes json s (m.closeConnections identifiers) := by
  obtain rfl := h.manager
  have hstep : step json s (.close identifiers) =
      some { s with delayedDelete := identifiers, stage := .eraseWindow } :=
    if_pos ⟨h.idle, hmem, hnodup⟩
  have hclosed : Becomes json { s with delayedDelete := identifiers, stage := .eraseWindow }
      (s.manager.closeConnections identifiers) := becomes_closed identifiers rfl rfl
  obtain ⟨t, ht, hm⟩ := hclosed
  exact ⟨t, (Brings.of_step (e := .close identifiers) hstep rfl).trans ht, hm⟩

/-- One event of a connection after the other. -/
theorem callObject_cons {n : Nat} {e : AnyEvent} {calls : List AnyEvent}
    (h : m.callObject n (e :: calls) = some m') :
    ∃ m₁, m.callObject n [e] = some m₁ ∧ m₁.callObject n calls = some m' := by
  obtain ⟨o, d, ho, hexec, rfl⟩ := DeviceManager.callObject_cases h
  obtain ⟨c, hc, htail⟩ := exec_cons_some hexec
  have hone : exec AnyConnection.step o.connection [e] = some c := exec_cons hc []
  have hobject : (m.objects.modify n fun o => { o with connection := c })[n]? =
      some { o with connection := c } := by
    rw [List.getElem?_modify_eq, ho]
    rfl
  refine ⟨{ m with objects := m.objects.modify n fun o => { o with connection := c } }, ?_, ?_⟩
  · rw [DeviceManager.callObject_of ho, hone]
    rfl
  · rw [DeviceManager.callObject_of hobject, htail, Option.map_some, List.modify_modify_eq]
    rfl

theorem callObject_nil {n : Nat} (h : m.callObject n [] = some m') : m' = m := by
  obtain ⟨o, c, ho, hexec, rfl⟩ := DeviceManager.callObject_cases h
  obtain rfl := Option.some.inj hexec
  have hsame : (m.objects.modify n fun o' => { o' with connection := o.connection }) =
      m.objects := by
    apply List.ext_getElem?
    intro k
    rw [List.getElem?_modify]
    split
    · rename_i hk
      rw [← hk, ho]
      rfl
    · cases m.objects[k]? <;> rfl
  rw [hsame]

theorem object_callObject (h : s.manager = m) {n : Nat} {e : AnyEvent}
    (hm : m.callObject n [e] = some m') : s.object n e = some { s with manager := m' } := by
  subst h
  obtain ⟨o, d, ho, hexec, rfl⟩ := DeviceManager.callObject_cases hm
  obtain ⟨c, hc, hcd⟩ := exec_cons_some hexec
  obtain rfl := Option.some.inj hcd
  unfold State.object
  rw [ho]
  show (o.connection.step e).map _ = _
  rw [hc]
  rfl

theorem becomes_callObject (h : Holds m s) {identifier : Bytes} {n : Nat} {calls : List AnyEvent}
    (hn : m.windows_.lookup identifier = some n) (hcalls : ∀ e ∈ calls, e.isIo = false)
    (hm : m.callObject n calls = some m') : Becomes json s m' := by
  induction calls generalizing m s with
  | nil =>
    obtain rfl := callObject_nil hm
    exact .refl h
  | cons e calls ih =>
    obtain ⟨m₁, hfirst, hrest⟩ := callObject_cons hm
    have hwindows : m₁.windows_ = m.windows_ :=
      (DeviceManager.sameEntries_callObject hfirst).windows
    have hobject := object_callObject h.manager hfirst
    have hstep : step json s (.call identifier e) = some { s with manager := m₁ } := by
      simp only [step, h.idle, h.manager, hcalls e List.mem_cons_self, hn, Option.bind_some,
        hobject, and_self, if_true]
    have hmade : Becomes json s m₁ := ⟨_, .of_step hstep rfl, rfl, h.idle⟩
    refine hmade.trans fun t ht => ?_
    exact ih ht (hwindows ▸ hn) (fun e' he' => hcalls e' (List.mem_cons_of_mem e he')) hrest

end Teardown

namespace App

open Teardown

variable {json : JsonText} {a b : App} {s : State}

/-- The steps of the io thread. -/
def heard : Event json → List (Nat × AnyEvent)
  | .io n e => [(n, e)]
  | _ => []

theorem step_io (h : Holds a.deviceManager_ s) {n : Nat} {x : AnyEvent}
    (hs : step json a (.io n x) = some b) :
    Teardown.step json s (.io n x) = some { s with manager := b.deviceManager_ } := by
  obtain ⟨-, hs⟩ := Option.ite_none_left_eq_some.mp hs
  obtain ⟨hio, hs⟩ := Option.ite_none_right_eq_some.mp hs
  obtain ⟨m, hmade, rfl⟩ := Option.map_eq_some_iff.mp hs
  exact (if_pos hio).trans (object_callObject h.manager hmade)

/-- What the program does in a step, the manager can do. -/
theorem brings_step {e : Event json} (h : a.ended = false → Holds a.deviceManager_ s)
    (hs : step json a e = some b) :
    ∃ t, Brings (Teardown.step json) Unticked Teardown.heard s t (heard e) ∧
      (b.ended = false → Holds b.deviceManager_ t) := by
  have hm : Holds a.deviceManager_ s := h (step_cases hs).1
  have hmain (h : heard e = []) (hmade : b.ended = false → Becomes json s b.deviceManager_) :
      ∃ t, Brings (Teardown.step json) Unticked Teardown.heard s t (heard e) ∧
        (b.ended = false → Holds b.deviceManager_ t) := by
    rw [h]
    cases hb : b.ended with
    | true => exact ⟨s, .refl s, nofun⟩
    | false =>
      obtain ⟨t, ht, hholds⟩ := hmade hb
      exact ⟨t, ht, fun _ => hholds⟩
  have hstep := hs
  obtain ⟨-, hs⟩ := Option.ite_none_left_eq_some.mp hs
  cases e with
  | menu f =>
    obtain ⟨-, hs⟩ := Option.ite_none_left_eq_some.mp hs
    obtain ⟨c, hc, rfl⟩ := Option.map_eq_some_iff.mp hs
    obtain ⟨hclose, hnodup, hmanager, -⟩ := showMainMenu_cases hc
    refine hmain rfl fun _ => ?_
    show Becomes json s c.deviceManager_
    rw [hmanager]
    exact (becomes_drawOpenRecent hm f.answers f.recents).trans fun t ht =>
      becomes_closeConnections ht hclose hnodup
  | modal f =>
    obtain ⟨-, hs⟩ := Option.ite_none_right_eq_some.mp hs
    obtain rfl := Option.some.inj hs
    exact hmain rfl fun hb => drawModal_keeps (I := Becomes json s) f (.refl hm)
      fun _ _ hok => becomes_add hm (hok hb)
  | window identifier calls throws =>
    obtain ⟨-, hs⟩ := Option.ite_none_left_eq_some.mp hs
    obtain ⟨hcalls, hs⟩ := Option.ite_none_right_eq_some.mp hs
    obtain ⟨n, hn, hs⟩ := Option.bind_eq_some_iff.mp hs
    obtain ⟨m, hmade, rfl⟩ := Option.map_eq_some_iff.mp hs
    exact hmain rfl fun _ => becomes_callObject hm hn hcalls hmade
  | test x =>
    obtain ⟨m, hm', rfl⟩ := Option.map_eq_some_iff.mp hs
    obtain ⟨-, -, tests, -, rfl⟩ := DeviceCreate.step_test hm'
    exact hmain rfl fun _ => .refl hm
  | io n x => exact ⟨_, .of_step (step_io hm hstep) rfl, fun _ => ⟨rfl, hm.idle⟩⟩
  | changeFile file =>
    obtain rfl := Option.some.inj hs
    have hchange : Teardown.step json s (.changeFile file) =
        some { s with manager := { s.manager with file := file } } := rfl
    refine hmain rfl fun _ => ⟨_, .of_step hchange rfl, ?_, hm.idle⟩
    rw [hm.manager]
    rfl

/-- And so for whole runs. -/
theorem brings_exec {es : List (Event json)} (h : a.ended = false → Holds a.deviceManager_ s)
    (he : exec (step json) a es = some b) :
    ∃ t, Brings (Teardown.step json) Unticked Teardown.heard s t (es.map heard).flatten ∧
      (b.ended = false → Holds b.deviceManager_ t) := by
  rw [← collected_of_exec heard he]
  exact exec_brings_related (R := fun a s => a.ended = false → Holds a.deviceManager_ s)
    (fun _ _ _ _ h hs _ => brings_step h hs) h he (along_anyStep _ _)

theorem holds_start (file : RecentsFile) (recents : List RecentConnection) :
    Holds (initial file recents).deviceManager_ (start file recents) := ⟨rfl, rfl⟩

/-- In every run of the program that nothing has ended, what has been done to the device manager
is a run of the manager with its close loop and the same steps of the io thread, from the same
recents file. -/
theorem runs_of_manager (json : JsonText) (file : RecentsFile) (recents : List RecentConnection)
    (es : List (Event json)) (a : App) (he : exec (step json) (initial file recents) es = some a)
    (ha : a.ended = false) :
    ∃ fs s, exec (Teardown.step json) (start file recents) fs = some s ∧
      (fs.map Teardown.heard).flatten = (es.map heard).flatten ∧ Holds a.deviceManager_ s := by
  obtain ⟨s, ⟨fs, hfs, -, hheard⟩, hs⟩ := brings_exec (fun _ => holds_start file recents) he
  exact ⟨fs, s, hfs, hheard, hs ha⟩

/-- What the maps of the program store is stored under the identifier of its connection. -/
theorem keyed_exec {file : RecentsFile} {recents : List RecentConnection} {es : List (Event json)}
    (he : exec (step json) (initial file recents) es = some a) (ha : a.ended = false) :
    Keyed a.deviceManager_ := by
  obtain ⟨s, ⟨fs, hfs, -⟩, hs⟩ := brings_exec (fun _ => holds_start file recents) he
  have hkeyed : Keyed s.manager :=
    (keyed_step json).exec (keyed_fresh file recents) (along_anyStep _ _) hfs
  rw [(hs ha).manager] at hkeyed
  exact hkeyed

/-- Each window is stored with its connection. -/
theorem keeps_windows : Keeps (step json) anyStep
    fun a => a.ended = false → a.deviceManager_.windows_ = a.deviceManager_.connections_ := by
  refine keeps_manager (I := fun m => m.windows_ = m.connections_)
    (fun m answers opts addToRecents h hok => ?_) (fun m identifiers h => ?_)
    (fun _ _ h hs => by rw [hs.windows, hs.connections, h]) fun _ _ h => h
  · have hcases := DeviceManager.add_cases json answers opts addToRecents m
    generalize m.add json answers opts addToRecents = r at hcases hok
    obtain ⟨added, m'⟩ := r
    cases hcases with
    | inUse hin message => exact h
    | failed hin con what message hc => exact h
    | threw hin con recents file e hc hadd haccept => exact absurd rfl (hok e)
    | added hin con recents file message hc haccept =>
      have hnew : opts.identifier ∉ m.windows_ := h ▸ hin
      have hwindows : (m.withWindow opts.identifier con).windows_ =
          m.windows_.insert opts.identifier m.objects.length := if_neg hnew
      exact hwindows.trans (congrArg _ h)
  · induction identifiers generalizing m with
    | nil => exact h
    | cons identifier rest ih =>
      refine ih (m.closeConnection identifier) ?_
      obtain ⟨-, hc, hw⟩ := DeviceManager.closeConnection_maps identifier m
      rw [hc, hw, h]

/-- A listener that is entered, connected in its window and sent a datagram. -/
def heardRun : List (Event DeviceManager.kTwoTexts) :=
  enteredRun ++ [.window (text "u") [.udp (.connect ⟨none, none⟩)] false,
    .io 0 (.udp (.io (.receive 0 [104, 105]))), .menu { openFrame with close := [text "u"] },
    .io 0 (.udp (.io (.run 0)))]

set_option maxRecDepth 4000 in
theorem heard_by_manager :
    ∃ fs s, exec (Teardown.step DeviceManager.kTwoTexts)
        (start ⟨some DeviceManager.kEmptyText, true⟩ []) fs = some s ∧
      (fs.map Teardown.heard).flatten =
        [(0, .udp (.io (.receive 0 [104, 105]))), (0, .udp (.io (.run 0)))] ∧
      text "u" ∉ s.manager.connections_ := by
  obtain ⟨fs, s, hfs, hheard, hs⟩ := runs_of_manager DeviceManager.kTwoTexts
    ⟨some DeviceManager.kEmptyText, true⟩ [] heardRun _ rfl rfl
  refine ⟨fs, s, hfs, hheard, ?_⟩
  rw [hs.manager]
  decide

end App

end DeviceTester.Gui

import DeviceTester.Gui.ProgramLines
import DeviceTester.Gui.WindowDeliveries

/-!
# What the windows of the program show

The slot of a window writes to members that the window draws. In the program they hold what they
hold beside the manager: the steps of the main thread make windows, and call no slots.
-/
namespace DeviceTester.Gui

open DeviceTester.Connection DeviceTester.Config DeviceTester.Lib

/-! ## Steps of the manager that call no slot -/

namespace Windows

/-- The events that call slots or draw. -/
def visible : Event → List Event
  | .system nowS (.io n e) => [.system nowS (.io n e)]
  | .system nowS .tick => [.system nowS .tick]
  | .system _ _ => []
  | .draw identifier f => [.draw identifier f]

/-- The clock does not run backwards, where it matters. -/
def Clocked {W : Type} (matters : Prop) (s : State W) (e : Event) (t : State W) : Prop :=
  matters → ClockForward s e t

section Quiet

variable {W : Type} {kind : WindowKind W} {json : JsonText} {s t u : State W}

/-- There is a place for each object, and those of the stored windows are among them. -/
structure Sized (s : State W) : Prop where
  length : s.windows.length = s.system.manager.objects.length
  stored : ∀ n, Stores s.system.manager.windows_ n → n < s.system.manager.objects.length

/-- Windows have been made for new objects, and the others that are stored are as they were. -/
structure Extends (kind : WindowKind W) (s t : State W) : Prop where
  sized : Sized t
  grown : s.system.manager.objects.length ≤ t.system.manager.objects.length
  old : ∀ n, n < s.system.manager.objects.length → Stores t.system.manager.windows_ n →
    Stores s.system.manager.windows_ n ∧ t.windows[n]? = s.windows[n]?
  new : ∀ n, s.system.manager.objects.length ≤ n → Stores t.system.manager.windows_ n →
    t.windows[n]? = some kind.make

theorem Extends.refl (h : Sized s) : Extends kind s s where
  sized := h
  grown := Nat.le_refl _
  old _ _ hn := ⟨hn, rfl⟩
  new n hle hn := absurd (h.stored n hn) (Nat.not_lt.mpr hle)

theorem Extends.trans (h : Extends kind s t) (h' : Extends kind t u) : Extends kind s u where
  sized := h'.sized
  grown := h.grown.trans h'.grown
  old n hlt hn := by
    obtain ⟨hstored, hsame⟩ := h'.old n (hlt.trans_le h.grown) hn
    obtain ⟨hstored', hsame'⟩ := h.old n hlt hstored
    exact ⟨hstored', hsame.trans hsame'⟩
  new n hle hn := by
    by_cases hlt : n < t.system.manager.objects.length
    · obtain ⟨hstored, hsame⟩ := h'.old n hlt hn
      exact hsame.trans (h.new n hle hstored)
    · exact h'.new n (Nat.not_lt.mp hlt) hn

/-- No object is made. -/
theorem extends_same {m : Teardown.State} {nowS : Int64} (h : Sized s)
    (hobjects : m.manager.objects.length = s.system.manager.objects.length)
    (hwindows : ∀ n, Stores m.manager.windows_ n → Stores s.system.manager.windows_ n) :
    Extends kind s ⟨m, s.windows, nowS⟩ where
  sized := ⟨h.length.trans hobjects.symm, fun n hn => hobjects ▸ h.stored n (hwindows n hn)⟩
  grown := hobjects.ge
  old n _ hn := ⟨hwindows n hn, rfl⟩
  new n hle hn := absurd (h.stored n (hwindows n hn)) (Nat.not_lt.mpr hle)

/-- One is made, with a window or without. -/
theorem extends_concat {m : Teardown.State} {o : Object} {w : Option W} {nowS : Int64}
    (h : Sized s) (hobjects : m.manager.objects = s.system.manager.objects ++ [o])
    (hwindows : ∀ n, Stores m.manager.windows_ n → Stores s.system.manager.windows_ n ∨
      n = s.system.manager.objects.length ∧ w = kind.make) :
    Extends kind s ⟨m, s.windows ++ [w], nowS⟩ := by
  have hlength : m.manager.objects.length = s.system.manager.objects.length + 1 := by
    rw [hobjects, List.length_append]
    rfl
  constructor
  · constructor
    · show (s.windows ++ [w]).length = m.manager.objects.length
      rw [List.length_append, h.length, hlength]
      rfl
    · intro n hn
      show n < m.manager.objects.length
      rcases hwindows n hn with hold | ⟨rfl, -⟩
      · have hlt := h.stored n hold
        omega
      · omega
  · show _ ≤ m.manager.objects.length
    omega
  · intro n hlt hn
    refine ⟨?_, List.getElem?_append_left (h.length ▸ hlt)⟩
    rcases hwindows n hn with hold | ⟨rfl, -⟩
    · exact hold
    · exact absurd hlt (Nat.lt_irrefl _)
  · intro n hle hn
    rcases hwindows n hn with hold | ⟨rfl, rfl⟩
    · exact absurd (h.stored n hold) (Nat.not_lt.mpr hle)
    · show (s.windows ++ [kind.make])[_]? = _
      rw [← h.length]
      exact List.getElem?_concat_length

/-- A step of the main thread, or of someone else. -/
theorem extends_made {e : Teardown.Event} {m : Teardown.State} (nowS : Int64) (h : Sized s)
    (hs : Teardown.step json s.system e = some m) :
    Extends kind s ⟨m, made kind s.system s.windows e, nowS⟩ := by
  cases changes_step hs with
  | windowed a opts addToRecents con hin hc hobjects hslots hwindows =>
    have hmade : made kind s.system s.windows (.add a opts addToRecents) =
        s.windows ++ [kind.make] := by
      rw [made, if_neg hin, hc]
    rw [hmade]
    exact extends_concat h hobjects fun n hn => (hwindows n hn).imp_right fun hn => ⟨hn, rfl⟩
  | failed a opts addToRecents con what hin hc hobjects hslots hwindows =>
    have hmade : made kind s.system s.windows (.add a opts addToRecents) = s.windows ++ [none] := by
      rw [made, if_neg hin, hc]
    rw [hmade]
    exact extends_concat h hobjects fun n hn => .inl (hwindows ▸ hn)
  | inUse a opts addToRecents hin hsame =>
    have hmade : made kind s.system s.windows (.add a opts addToRecents) = s.windows := if_pos hin
    rw [hmade]
    exact extends_same h (by rw [hsame]) fun n hn => hsame ▸ hn
  | other _ hnot hlength hslots hwindows =>
    have hmade : made kind s.system s.windows e = s.windows := by
      cases e with
      | add a opts addToRecents => exact absurd rfl (hnot a opts addToRecents)
      | _ => rfl
    rw [hmade]
    exact extends_same h hlength hwindows

/-- What calls no slot only makes windows. -/
theorem brings_quiet (kind : WindowKind W) {m : Teardown.State} {matters : Prop} {nowS : Int64}
    (h : Sized s)
    (hm : Brings (Teardown.step json) Teardown.Unticked Teardown.heard s.system m [])
    (hclock : matters → s.clock.toUInt64 ≤ nowS.toUInt64) :
    ∃ t, Brings (step kind json) (Clocked matters) visible s t [] ∧ Extends kind s t ∧
      t.system = m ∧ (matters → t.clock.toUInt64 ≤ nowS.toUInt64) := by
  obtain ⟨es, he, ha, hheard⟩ := hm
  induction es generalizing s with
  | nil =>
    obtain rfl := Option.some.inj he
    exact ⟨s, .refl s, .refl h, rfl, hclock⟩
  | cons e es ih =>
    obtain ⟨u, hu, htail⟩ := exec_cons_some he
    obtain ⟨hunticked, ha'⟩ := ha.cons hu
    obtain ⟨hquiet, hrest⟩ := List.append_eq_nil_iff.mp hheard
    have hextends : Extends kind s ⟨u, made kind s.system s.windows e, nowS⟩ :=
      extends_made nowS h hu
    have hspans : spans s.system e = [] := by
      cases e with
      | io n x => cases hquiet
      | tick => cases hunticked
      | _ => rfl
    have hvisible : visible (.system nowS e) = [] := by
      cases e with
      | io n x => cases hquiet
      | tick => cases hunticked
      | _ => rfl
    have hstep : step kind json s (.system nowS e) =
        some ⟨u, made kind s.system s.windows e, nowS⟩ := by
      rw [step, hu, Option.bind_some, hspans]
      rfl
    obtain ⟨t, ht, hext, hsystem, hclock'⟩ := ih (s := ⟨u, made kind s.system s.windows e, nowS⟩)
      hextends.sized (fun _ => UInt64.le_refl _) htail ha' hrest
    have hfirst : Brings (step kind json) (Clocked matters) visible s
        ⟨u, made kind s.system s.windows e, nowS⟩ [] := by
      rw [← hvisible]
      exact .of_step hstep hclock
    exact ⟨t, hfirst.trans ht, hextends.trans hext, hsystem, hclock'⟩

/-! ## The same windows -/

/-- Two lists hold the same for the windows that are stored. -/
structure Agree (m : DeviceManager) (ws vs : List (Option W)) : Prop where
  left : ws.length = m.objects.length
  right : vs.length = m.objects.length
  same : ∀ n, Stores m.windows_ n → ws[n]? = vs[n]?

variable {m : DeviceManager} {ws ws' vs : List (Option W)} {nowS : Int64}

theorem Agree.set (h : Agree m ws vs) (n : Nat) (w : Option W) :
    Agree m (ws.set n w) (vs.set n w) where
  left := List.length_set.trans h.left
  right := List.length_set.trans h.right
  same k hk := by
    rw [List.getElem?_set, List.getElem?_set, h.left, h.right, h.same k hk]

/-- Windows that are made in both lists. -/
theorem Extends.agree (h : Extends kind s t) (hagree : Agree s.system.manager ws s.windows) :
    Agree t.system.manager
      (ws ++ List.replicate (t.system.manager.objects.length - ws.length) kind.make) t.windows := by
  have hold := hagree.left
  have hgrown := h.grown
  constructor
  · rw [List.length_append, List.length_replicate]
    omega
  · exact h.sized.length
  · intro n hn
    by_cases hlt : n < ws.length
    · obtain ⟨hstored, hsame⟩ := h.old n (hold ▸ hlt) hn
      rw [List.getElem?_append_left hlt, hsame]
      exact hagree.same n hstored
    · have hbound := h.sized.stored n hn
      rw [h.new n (by omega) hn, List.getElem?_append_right (Nat.not_lt.mp hlt),
        List.getElem?_replicate, if_pos (by omega)]

theorem callSlot_agree {data : Bytes} {window : Nat} (h : Agree m ws vs)
    (hs : callSlot kind nowS m data ws window = some ws') :
    ∃ vs', callSlot kind nowS m data vs window = some vs' ∧ Agree m ws' vs' := by
  unfold callSlot at hs ⊢
  obtain ⟨hstored, hs⟩ := Option.ite_none_right_eq_some.mp hs
  rw [if_pos hstored, ← h.same window hstored]
  split at hs
  · obtain ⟨w, hw, rfl⟩ := Option.map_eq_some_iff.mp hs
    rw [hw]
    exact ⟨_, rfl, h.set window (some w)⟩
  · cases hs

theorem processData_agree {span : Nat × Bytes} (h : Agree m ws vs)
    (hs : processData kind nowS m ws span = some ws') :
    ∃ vs', processData kind nowS m vs span = some vs' ∧ Agree m ws' vs' := by
  unfold processData at hs ⊢
  obtain ⟨hstored, hs⟩ := Option.ite_none_right_eq_some.mp hs
  rw [if_pos hstored]
  exact foldlM_simulates (f := callSlot kind nowS m span.2)
    (fun _ _ _ _ h hs => callSlot_agree h hs) h hs

end Quiet

end Windows

/-! ## The program with what its windows show -/

/-- A manager outside the close loop. -/
def Teardown.State.ofManager (m : DeviceManager) : Teardown.State := ⟨m, [], .eraseWindow, []⟩

/-- The program, what the slots of its windows write to, and the second that the clock last
read. -/
structure Screen (W : Type) where
  program : Program
  data : List (Option W)
  clock : Int64

namespace Screen

def initial (W : Type) (file : RecentsFile) (recents : List RecentConnection) (clock : Int64) :
    Screen W :=
  ⟨.initial file recents, [], clock⟩

inductive Event (json : JsonText) where
  /-- An event of the program, and the reading of the clock. -/
  | program (nowS : Int64) (e : Program.Event json)
  /-- The idle timer. -/
  | tick (nowS : Int64)
  /-- The text of a window is drawn. -/
  | draw (identifier : Bytes) (f : RawTextOutput.Frame)

section Model

variable {W : Type} (kind : WindowKind W) {json : JsonText}

/-- The calls of `processData` that an event makes. -/
def spans (m : DeviceManager) : Program.Event json → List (Nat × Bytes)
  | .other (.io n e) => Windows.spans (.ofManager m) (.io n e)
  | _ => []

/-- The windows of the connections that have been made. -/
def made (p : Program) (data : List (Option W)) : List (Option W) :=
  data ++ List.replicate (p.deviceManager_.objects.length - data.length) kind.make

def step (json : JsonText) (appendNewLine : Nat → Bool) (s : Screen W) :
    Event json → Option (Screen W)
  | .program nowS e =>
      (Program.step json appendNewLine s.program e).bind fun p =>
        ((spans s.program.deviceManager_ e).foldlM
          (Windows.processData kind nowS s.program.deviceManager_) (made kind p s.data)).map
            fun data => ⟨p, data, nowS⟩
  | .tick nowS =>
      if s.program.app.ended then none
      else
        ((Windows.spans (.ofManager s.program.deviceManager_) .tick).foldlM
          (Windows.processData kind nowS s.program.deviceManager_) s.data).map
            fun data => ⟨s.program, data, nowS⟩
  | .draw identifier f =>
      if s.program.hung || s.program.app.modalNext || s.program.app.ended then none
      else (s.program.deviceManager_.windows_.lookup identifier).bind fun n =>
        match s.data[n]? with
        | some (some w) => some { s with data := s.data.set n (some (kind.draw f w)) }
        | _ => none

/-- The events that call slots or draw. -/
def visible : Event json → List Windows.Event
  | .program nowS (.other (.io n e)) => [.system nowS (.io n e)]
  | .program _ _ => []
  | .tick nowS => [.system nowS .tick]
  | .draw identifier f => [.draw identifier f]

end Model

/-- The clock does not run backwards. -/
def ClockForward {W : Type} {json : JsonText} (s : Screen W) (_ : Event json) (t : Screen W) :
    Prop :=
  s.clock.toUInt64 ≤ t.clock.toUInt64

instance {W : Type} {json : JsonText} (s : Screen W) (e : Event json) (t : Screen W) :
    Decidable (ClockForward s e t) :=
  inferInstanceAs (Decidable (s.clock.toUInt64 ≤ t.clock.toUInt64))

/-! ### What it has to do with the windows of a manager -/

/-- The windows beside the manager are those of the program. -/
structure Mirrors {W : Type} (matters : Prop) (s : Screen W) (r : Windows.State W) : Prop where
  holds : Teardown.Holds s.program.deviceManager_ r.system
  sized : Windows.Sized r
  agree : Windows.Agree s.program.deviceManager_ s.data r.windows
  clock : matters → r.clock.toUInt64 ≤ s.clock.toUInt64

variable {W : Type} {kind : WindowKind W} {json : JsonText} {appendNewLine : Nat → Bool}
  {s t : Screen W} {r : Windows.State W} {matters : Prop}

theorem spans_holds {m : DeviceManager} {u : Teardown.State} (h : Teardown.Holds m u)
    (e : Teardown.Event) : Windows.spans (.ofManager m) e = Windows.spans u e := by
  obtain rfl := h.manager
  cases e <;> rfl

/-- A part of a frame, a step of a test, or someone else. -/
theorem mirrors_quiet (h : Mirrors matters s r) {p : Program} {nowS : Int64} {e : App.Event json}
    (hquiet : App.heard e = []) (hs : App.step json s.program.app e = some p.app)
    (hclock : matters → s.clock.toUInt64 ≤ nowS.toUInt64) :
    ∃ u, Brings (Windows.step kind json) (Windows.Clocked matters) Windows.visible r u [] ∧
      (p.app.ended = false → Mirrors matters ⟨p, made kind p s.data, nowS⟩ u) := by
  obtain ⟨m, hm, hholds⟩ := App.brings_step (fun _ => h.holds) hs
  rw [hquiet] at hm
  obtain ⟨u, hu, hextends, rfl, hclock'⟩ := Windows.brings_quiet kind h.sized hm
    fun hmatters => UInt64.le_trans (h.clock hmatters) (hclock hmatters)
  refine ⟨u, hu, fun hrunning => ?_⟩
  have hheld := hholds hrunning
  have hagree := h.agree
  rw [← h.holds.manager] at hagree
  have hmade := hextends.agree hagree
  rw [hheld.manager] at hmade
  exact ⟨hheld, hextends.sized, hmade, hclock'⟩

/-- Slots are called, and nothing else is done to the windows. -/
theorem mirrors_visible (h : Mirrors matters s r) {p : Program} {nowS : Int64}
    {e : Teardown.Event} {data : List (Option W)}
    (hm : Teardown.step json r.system e = some { r.system with manager := p.deviceManager_ })
    (hsame : Windows.made kind r.system r.windows e = r.windows)
    (hobjects : p.deviceManager_.objects.length = s.program.deviceManager_.objects.length)
    (hwindows : p.deviceManager_.windows_ = s.program.deviceManager_.windows_)
    (hdata : (Windows.spans (.ofManager s.program.deviceManager_) e).foldlM
      (Windows.processData kind nowS s.program.deviceManager_) s.data = some data)
    (hclock : matters → s.clock.toUInt64 ≤ nowS.toUInt64) :
    ∃ u, Brings (Windows.step kind json) (Windows.Clocked matters) Windows.visible r u
        (Windows.visible (.system nowS e)) ∧
      Mirrors matters ⟨p, data, nowS⟩ u := by
  obtain ⟨ws, hws, hagree⟩ := foldlM_simulates
    (f := Windows.processData kind nowS s.program.deviceManager_)
    (fun _ _ _ _ h hs => Windows.processData_agree h hs) h.agree hdata
  have hstep : Windows.step kind json r (.system nowS e) =
      some ⟨{ r.system with manager := p.deviceManager_ }, ws, nowS⟩ := by
    rw [Windows.step, hm, Option.bind_some, hsame, ← spans_holds h.holds, h.holds.manager, hws]
    rfl
  have hlength : ws.length = p.deviceManager_.objects.length := hagree.right.trans hobjects.symm
  refine ⟨_, .of_step hstep fun hmatters => UInt64.le_trans (h.clock hmatters) (hclock hmatters),
    ⟨rfl, h.holds.idle⟩, ⟨hlength, fun n hn => ?_⟩, ⟨hagree.left.trans hobjects.symm, hlength,
      fun n hn => hagree.same n ?_⟩, fun _ => UInt64.le_refl _⟩
  · have hstored := h.sized.stored n
    rw [h.holds.manager, ← hwindows, ← hobjects] at hstored
    exact hstored hn
  · rw [← hwindows]
    exact hn

theorem mirrors_draw (h : Mirrors matters s r) {identifier : Bytes} {f : RawTextOutput.Frame}
    (hs : step kind json appendNewLine s (.draw identifier f) = some t) :
    ∃ u, Brings (Windows.step kind json) (Windows.Clocked matters) Windows.visible r u
        [.draw identifier f] ∧
      Mirrors matters t u := by
  obtain ⟨-, hs⟩ := Option.ite_none_left_eq_some.mp hs
  obtain ⟨n, hn, hs⟩ := Option.bind_eq_some_iff.mp hs
  have hsame := h.agree.same n ⟨identifier, hn⟩
  split at hs
  · rename_i w hw
    obtain rfl := Option.some.inj hs
    have hstep : Windows.step kind json r (.draw identifier f) =
        some { r with windows := r.windows.set n (some (kind.draw f w)) } := by
      rw [Windows.step, if_pos h.holds.idle, h.holds.manager, hn, Option.bind_some, ← hsame, hw]
    refine ⟨_, .of_step hstep fun _ => UInt64.le_refl _, h.holds,
      ⟨List.length_set.trans h.sized.length, h.sized.stored⟩, ?_, h.clock⟩
    exact h.agree.set n (some (kind.draw f w))
  · cases hs

/-- A step of the io thread. -/
theorem mirrors_io (h : Mirrors matters s r) {p : Program} {nowS : Int64} {n : Nat} {x : AnyEvent}
    {data : List (Option W)} (hs : App.step json s.program.app (.io n x) = some p.app)
    (hdata : (Windows.spans (.ofManager s.program.deviceManager_) (.io n x)).foldlM
      (Windows.processData kind nowS s.program.deviceManager_) (made kind p s.data) = some data)
    (hclock : matters → s.clock.toUInt64 ≤ nowS.toUInt64) :
    ∃ u, Brings (Windows.step kind json) (Windows.Clocked matters) Windows.visible r u
        [.system nowS (.io n x)] ∧
      Mirrors matters ⟨p, data, nowS⟩ u := by
  have hsame : s.program.deviceManager_.SameEntries p.deviceManager_ := by
    cases (App.step_cases hs).2 with
    | quiet _ _ _ hsame _ => exact hsame
  have hobjects : p.deviceManager_.objects.length = s.program.deviceManager_.objects.length := by
    have hlength := congrArg List.length hsame.handles
    rwa [List.length_map, List.length_map] at hlength
  have hmade : made kind p s.data = s.data := by
    rw [made, hobjects, h.agree.left, Nat.sub_self]
    exact List.append_nil _
  rw [hmade] at hdata
  exact mirrors_visible h (App.step_io h.holds hs) rfl hobjects hsame.windows hdata hclock

/-- What the program does in a step, the manager and its windows can do. -/
theorem mirrors_step {e : Event json} (h : s.program.app.ended = false → Mirrors matters s r)
    (hs : step kind json appendNewLine s e = some t) (hclock : matters → ClockForward s e t) :
    ∃ u, Brings (Windows.step kind json) (Windows.Clocked matters) Windows.visible r u (visible e) ∧
      (t.program.app.ended = false → Mirrors matters t u) := by
  cases e with
  | program nowS e =>
    obtain ⟨p, hp, hs⟩ := Option.bind_eq_some_iff.mp hs
    obtain ⟨data, hdata, rfl⟩ := Option.map_eq_some_iff.mp hs
    obtain ⟨e', hstands, happ⟩ := Program.app_step hp
    have hm := h (App.step_cases happ).1
    have hquiet (hspans : spans s.program.deviceManager_ e = []) (hheard : App.heard e' = []) :
        ∃ u, Brings (Windows.step kind json) (Windows.Clocked matters) Windows.visible r u [] ∧
          (p.app.ended = false → Mirrors matters ⟨p, data, nowS⟩ u) := by
      rw [hspans] at hdata
      obtain rfl := Option.some.inj hdata
      exact mirrors_quiet hm hheard happ hclock
    cases hstands with
    | window identifier tab calls throws => exact hquiet rfl rfl
    | other _ =>
      cases e' with
      | io n x =>
        obtain ⟨u, hu, hmirrors⟩ := mirrors_io hm happ hdata hclock
        exact ⟨u, hu, fun _ => hmirrors⟩
      | _ => exact hquiet rfl rfl
  | tick nowS =>
    obtain ⟨hrunning, hs⟩ := Option.ite_none_left_eq_some.mp hs
    obtain ⟨data, hdata, rfl⟩ := Option.map_eq_some_iff.mp hs
    have hm := h (Bool.eq_false_iff.mpr hrunning)
    have hstep : Teardown.step json r.system .tick =
        some { r.system with manager := s.program.deviceManager_ } := by
      rw [← hm.holds.manager]
      rfl
    obtain ⟨u, hu, hmirrors⟩ := mirrors_visible hm hstep rfl rfl rfl hdata hclock
    exact ⟨u, hu, fun _ => hmirrors⟩
  | draw identifier f =>
    obtain ⟨hfree, -⟩ := Option.ite_none_left_eq_some.mp hs
    rw [Bool.not_eq_true, Bool.or_eq_false_iff] at hfree
    obtain ⟨u, hu, hmirrors⟩ := mirrors_draw (h hfree.2) hs
    exact ⟨u, hu, fun _ => hmirrors⟩

theorem mirrors_initial (file : RecentsFile) (recents : List RecentConnection) (clock : Int64) :
    Mirrors matters (initial W file recents clock) (Windows.start W file recents clock) where
  holds := App.holds_start file recents
  sized := by
    refine ⟨rfl, fun n hn => ?_⟩
    obtain ⟨_, hn⟩ := hn
    cases hn
  agree := ⟨rfl, rfl, fun _ _ => rfl⟩
  clock _ := UInt64.le_refl _

/-- And so for whole runs. -/
theorem mirrors_exec {file : RecentsFile} {recents : List RecentConnection} {clock : Int64}
    {es : List (Event json)}
    (he : exec (step kind json appendNewLine) (initial W file recents clock) es = some s)
    (hclock : Along (step kind json appendNewLine) (fun s e t => matters → ClockForward s e t)
      (initial W file recents clock) es) :
    ∃ u, Brings (Windows.step kind json) (Windows.Clocked matters) Windows.visible
        (Windows.start W file recents clock) u (es.map visible).flatten ∧
      (s.program.app.ended = false → Mirrors matters s u) := by
  rw [← collected_of_exec visible he]
  exact exec_brings_related
    (R := fun s r => s.program.app.ended = false → Mirrors matters s r)
    (fun _ _ _ _ h hs hc => mirrors_step h hs hc) (fun _ => mirrors_initial file recents clock) he
    hclock

/-- In every run of the program that nothing has ended: the window under an identifier has been
given what the connection with that identifier has handed over, all of it, in order, and nothing
else. Its text is what stays of that since it was cleared: the characters that can be printed,
white space, and the one that deletes. Where the clock has not run backwards, its plot draws the
last 100 points of a series that counts all the bytes. What the windows stand for is kept beside
the manager, in a run with the same steps of the io thread and of the idle timer and the same
draws. -/
theorem shows_deliveries (json : JsonText) (appendNewLine : Nat → Bool) (file : RecentsFile)
    (recents : List RecentConnection) (clock : Int64) (es : List (Event json))
    (s : Screen WindowData)
    (he : exec (step windowData json appendNewLine) (initial WindowData file recents clock) es =
      some s)
    (hs : s.program.app.ended = false) :
    ∃ fs r, exec (Windows.step seen json) (Windows.start Seen file recents clock) fs = some r ∧
      (fs.map Windows.visible).flatten = (es.map visible).flatten ∧
      ∀ identifier n, s.program.deviceManager_.windows_.lookup identifier = some n →
        ∃ o w a, s.program.deviceManager_.objects[n]? = some o ∧ s.data[n]? = some (some w) ∧
          r.windows[n]? = some (some a) ∧ Windows.ShowsConnection identifier o w a ∧
          (Along (step windowData json appendNewLine) ClockForward
            (initial WindowData file recents clock) es → Windows.DrawsThroughput o w a) := by
  generalize hmatters : Along (step windowData json appendNewLine) ClockForward
    (initial WindowData file recents clock) es = matters
  have hclock : Along (step windowData json appendNewLine)
      (fun s e t => matters → ClockForward s e t) (initial WindowData file recents clock) es := by
    by_cases h : matters
    · exact Along.imp (I := fun _ => True) (fun _ _ _ _ hforward _ => ⟨trivial, fun _ => hforward⟩)
        trivial (hmatters ▸ h)
    · exact along_of_forall (fun _ _ _ h' => absurd h' h) _ _
  obtain ⟨u, ⟨fs, hfs, hclocked, hvisible⟩, hmirrors⟩ := mirrors_exec he hclock
  obtain ⟨hholds, -, hagree, -⟩ := hmirrors hs
  obtain ⟨r, hr, halike, hforward⟩ := Windows.exec_seen hfs
  refine ⟨fs, r, hr, hvisible, fun identifier n hn => ?_⟩
  rw [← hholds.manager] at hn ⊢
  obtain ⟨o, w, a, ho, hw, ha, hshows, hdraws⟩ := halike.shows hr hn
  refine ⟨o, w, a, ho, ?_, ha, hshows, fun h => hdraws (hforward ?_)⟩
  · rw [hholds.manager] at hn
    rw [hagree.same n ⟨identifier, hn⟩, hw]
  · exact Along.imp (I := fun _ => True) (fun _ _ _ _ hc _ => ⟨trivial, hc h⟩) trivial hclocked

/-- A recent listener is opened, connected and sent a datagram with a control character, and is
idle afterwards. -/
def listenerRun : List (Event noJson) :=
  [.program 5 (.other (.menu Program.recentFrame)),
    .program 5 (.other (.modal (Program.noPopup noJson))),
    .program 5 (.window (text "u") (.udp (.overview (some ⟨none, none⟩)))),
    .program 6 (.other (.io 0 (.udp (.io (.receive 0 [104, 0, 105]))))),
    .program 6 (.other (.io 0 (.udp (.io (.run 0))))), .tick 7, .draw (text "u") ⟨false, true⟩]

def kListener : List RecentConnection :=
  [⟨text "udp", .udp { UdpOptions.withIdentifier (text "u") with listenProtocol := .ipv4 }⟩]

set_option maxRecDepth 4000 in
theorem listener_shown :
    ∃ s o w a, exec (step windowData noJson fun _ => true)
        (initial WindowData ⟨none, true⟩ kListener 5) listenerRun = some s ∧
      s.data[0]? = some (some w) ∧ (w.rawText_.draw ⟨false, false⟩).2 = text "hi" ∧
      o.connection.delivered = [[104, 0, 105]] ∧ Windows.DrawsThroughput o w a := by
  obtain ⟨fs, r, -, -, hshows⟩ := shows_deliveries noJson (fun _ => true) ⟨none, true⟩ kListener 5
    listenerRun _ rfl rfl
  obtain ⟨o, w, a, ho, hw, -, -, hdraws⟩ := hshows (text "u") 0 rfl
  obtain rfl := Option.some.inj (ho.symm.trans rfl)
  obtain rfl := Option.some.inj (Option.some.inj (hw.symm.trans rfl))
  exact ⟨_, _, _, a, rfl, rfl, rfl, rfl, hdraws (by decide)⟩

end Screen

end DeviceTester.Gui

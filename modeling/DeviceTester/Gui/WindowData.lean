import DeviceTester.Gui.Identifiers
import DeviceTester.Gui.ThroughputSeries

/-!
# What the windows show

The slot that `ConnectionWin` connects to its device hands each span to the text of the window
and to the plot of its throughput. A slot whose window has been destroyed, and a device that has
been, are not spoken of any further.
-/
namespace DeviceTester.Gui

open DeviceTester.Lib DeviceTester.Connection DeviceTester.Config

/-! ## `RawTextOutput` -/

/-- `std::isprint`, in the "C" locale. -/
def isPrint (x : UInt8) : Bool := decide (32 ≤ x) && decide (x ≤ 126)

/-- `std::isspace`, in the "C" locale. -/
def isSpace (x : UInt8) : Bool := x == 32 || (decide (9 ≤ x) && decide (x ≤ 13))

structure RawTextOutput where
  rawOutput_ : Bytes
  autoScroll_ : Bool

namespace RawTextOutput

/-- The constructor. -/
def initial : RawTextOutput := ⟨[], true⟩

/-- A character that `addData` takes out. The one that deletes is not among them. -/
def isRemoved (x : UInt8) : Bool := !isPrint x && !isSpace x && x != 127

def addData (data : Bytes) (r : RawTextOutput) : RawTextOutput :=
  { r with rawOutput_ := r.rawOutput_ ++ data.filter fun x => !isRemoved x }

/-- What is clicked in a frame. -/
structure Frame where
  clear : Bool
  autoscroll : Bool
  deriving DecidableEq, Repr

/-- `draw`, and the text that is drawn: the C string ends at the first NUL. -/
def draw (f : Frame) (r : RawTextOutput) : RawTextOutput × Bytes :=
  let r := if f.clear then { r with rawOutput_ := [] } else r
  let r := if f.autoscroll then { r with autoScroll_ := !r.autoScroll_ } else r
  (r, r.rawOutput_.takeWhile fun x => x != 0)

end RawTextOutput

/-- The characters that stay in the text: those that can be printed, white space, and the one that
deletes. -/
def isKept (x : UInt8) : Bool := isPrint x || isSpace x || x == 127

/-- What stays of a text. -/
def keptPart (data : Bytes) : Bytes := data.filter isKept

theorem addData_keeps (data : Bytes) (r : RawTextOutput) :
    r.addData data = { r with rawOutput_ := r.rawOutput_ ++ keptPart data } := by
  have hkept (x : UInt8) : (!RawTextOutput.isRemoved x) = isKept x := by
    simp only [RawTextOutput.isRemoved, isKept, bne, Bool.not_and, Bool.not_not]
  simp only [RawTextOutput.addData, keptPart, hkept]

theorem keptPart_append (data more : Bytes) :
    keptPart (data ++ more) = keptPart data ++ keptPart more :=
  List.filter_append _ _

/-- What stays has no NUL that would end it. -/
theorem takeWhile_keptPart (data : Bytes) :
    (keptPart data).takeWhile (fun x => x != 0) = keptPart data := by
  rw [List.takeWhile_eq_self_iff]
  intro x hx
  have hkept := (List.mem_filter.mp hx).2
  by_cases h : x = 0
  · subst h
    exact absurd hkept (by decide)
  · simpa using h

/-! ## A window and what it stands for -/

/-- The members of `ConnectionWin` that its slot writes to. -/
structure WindowData where
  rawText_ : RawTextOutput
  dataThroughput_ : PlotThroughput

/-- What a system of windows uses of a window. -/
structure WindowKind (W : Type) where
  make : Option W
  /-- The slot, called at a second. -/
  onData : Int64 → Bytes → W → Option W
  /-- The tab with the text is drawn. -/
  draw : RawTextOutput.Frame → W → W

def callOf (nowS : Int64) (data : Bytes) : PlotThroughput.Call := ⟨nowS, .ofNat data.length⟩

def windowData : WindowKind WindowData where
  make := (PlotThroughput.construct 100).map fun plot => ⟨.initial, plot⟩
  onData nowS data w :=
    (w.dataThroughput_.addData (callOf nowS data)).map fun plot =>
      ⟨w.rawText_.addData data, plot⟩
  draw f w := { w with rawText_ := (w.rawText_.draw f).1 }

/-- All spans that a window has been given, and the bytes since its text was cleared. -/
structure Seen where
  log : List (Int64 × Bytes)
  since : Bytes

def seen : WindowKind Seen where
  make := some ⟨[], []⟩
  onData nowS data s := some ⟨s.log ++ [(nowS, data)], s.since ++ data⟩
  draw f s := if f.clear then { s with since := [] } else s

def Seen.calls (s : Seen) : List PlotThroughput.Call := s.log.map fun entry => callOf entry.1 entry.2

/-- The bytes of all spans. -/
def Seen.bytes (s : Seen) : Bytes := (s.log.map Prod.snd).flatten

/-- The window has the text that is to be seen, and a plot that has had all calls. -/
structure WindowData.Shows (w : WindowData) (s : Seen) : Prop where
  text : w.rawText_.rawOutput_ = keptPart s.since
  plot : ∃ fresh, PlotThroughput.construct 100 = some fresh ∧
    exec PlotThroughput.addData fresh s.calls = some w.dataThroughput_

theorem shows_make {w : WindowData} (h : windowData.make = some w) :
    ∃ s, seen.make = some s ∧ w.Shows s := by
  have hmake : (PlotThroughput.construct 100).map (fun plot => ⟨.initial, plot⟩) = some w := h
  obtain ⟨plot, hplot, rfl⟩ := Option.map_eq_some_iff.mp hmake
  exact ⟨⟨[], []⟩, rfl, rfl, plot, hplot, rfl⟩

theorem shows_onData {w w' : WindowData} {s : Seen} {nowS : Int64} {data : Bytes} (hs : w.Shows s)
    (h : windowData.onData nowS data w = some w') :
    ∃ s', seen.onData nowS data s = some s' ∧ w'.Shows s' := by
  obtain ⟨plot, hplot, rfl⟩ := Option.map_eq_some_iff.mp h
  obtain ⟨fresh, hfresh, hexec⟩ := hs.plot
  refine ⟨_, rfl, ?_, fresh, hfresh, ?_⟩
  · rw [addData_keeps, hs.text]
    exact (keptPart_append s.since data).symm
  · rw [Seen.calls, List.map_append, exec_append]
    show (exec PlotThroughput.addData fresh s.calls).bind _ = _
    rw [hexec]
    show exec PlotThroughput.addData w.dataThroughput_ [callOf nowS data] = _
    rw [exec_cons hplot]
    rfl

theorem shows_draw {w : WindowData} {s : Seen} (hs : w.Shows s) (f : RawTextOutput.Frame) :
    (windowData.draw f w).Shows (seen.draw f s) := by
  obtain ⟨clear, autoscroll⟩ := f
  cases clear with
  | true =>
    refine ⟨?_, hs.plot⟩
    cases autoscroll <;> rfl
  | false =>
    refine ⟨?_, hs.plot⟩
    cases autoscroll <;> exact hs.text

/-- The text that is drawn while it is not cleared is all there is of it. -/
theorem draw_shows {w : WindowData} {s : Seen} (hs : w.Shows s) (autoscroll : Bool) :
    (w.rawText_.draw ⟨false, autoscroll⟩).2 = keptPart s.since := by
  have hdrawn : (w.rawText_.draw ⟨false, autoscroll⟩).2 =
      w.rawText_.rawOutput_.takeWhile fun x => x != 0 := by
    cases autoscroll <;> rfl
  rw [hdrawn, hs.text, takeWhile_keptPart]

/-! ## The windows of a manager -/

namespace Windows

/-- The manager, the window made for the `n`-th connection where one was, and the second that
the clock last read. -/
structure State (W : Type) where
  system : Teardown.State
  windows : List (Option W)
  clock : Int64

def start (W : Type) (file : RecentsFile) (recents : List RecentConnection) (clock : Int64) :
    State W :=
  ⟨Teardown.start file recents, [], clock⟩

inductive Event where
  /-- An event of the manager, and the reading of the clock. -/
  | system (nowS : Int64) (e : Teardown.Event)
  /-- The tab with the text of a window is drawn. -/
  | draw (identifier : Bytes) (f : RawTextOutput.Frame)

/-- The calls of `processData` that an event makes: the device and the span. -/
def spans (s : Teardown.State) : Teardown.Event → List (Nat × Bytes)
  | .io n e =>
      match s.manager.objects[n]? with
      | some o => (o.connection.handed e).map fun data => (o.handle, data)
      | none => []
  | .tick => s.manager.devices_.entries.map fun entry => (entry.2, [])
  | _ => []

section Model

variable {W : Type} (kind : WindowKind W)

/-- A slot is called. Its window has to be there still. -/
def callSlot (nowS : Int64) (m : DeviceManager) (data : Bytes) (windows : List (Option W))
    (window : Nat) : Option (List (Option W)) :=
  if Stores m.windows_ window then
    match windows[window]? with
    | some (some w) => (kind.onData nowS data w).map fun w' => windows.set window (some w')
    | _ => none
  else none

/-- The windows whose slots are connected to a device. -/
def slotsOf (m : DeviceManager) (device : Nat) : List Nat :=
  (m.slots.filter fun slot => slot.1 == device).map Prod.snd

/-- `DeviceConnection::processData` of a device that is there still. -/
def processData (nowS : Int64) (m : DeviceManager) (windows : List (Option W))
    (span : Nat × Bytes) : Option (List (Option W)) :=
  if Stores m.devices_ span.1 then
    (slotsOf m span.1).foldlM (callSlot kind nowS m span.2) windows
  else none

/-- A call of `add*Connection` whose connection is configured makes a window. -/
def made (s : Teardown.State) (windows : List (Option W)) : Teardown.Event → List (Option W)
  | .add a opts _ =>
      if opts.identifier ∈ s.manager.connections_ then windows
      else
        match DeviceManager.configure a opts with
        | .returned _ => windows ++ [kind.make]
        | .threw _ _ => windows ++ [none]
  | _ => windows

def step (json : JsonText) (s : State W) : Event → Option (State W)
  | .system nowS e =>
      (Teardown.step json s.system e).bind fun t =>
        ((spans s.system e).foldlM (processData kind nowS s.system.manager)
          (made kind s.system s.windows e)).map fun windows => ⟨t, windows, nowS⟩
  | .draw identifier f =>
      if s.system.delayedDelete = [] then
        (s.system.manager.windows_.lookup identifier).bind fun n =>
          match s.windows[n]? with
          | some (some w) => some { s with windows := s.windows.set n (some (kind.draw f w)) }
          | _ => none
      else none

end Model

/-! ## One kind of window follows another -/

/-- What windows of one kind do, windows of another kind can follow. -/
structure Follows {W W' : Type} (kind : WindowKind W) (kind' : WindowKind W')
    (R : W → W' → Prop) : Prop where
  make : ∀ w, kind.make = some w → ∃ v, kind'.make = some v ∧ R w v
  makes : ∀ v, kind'.make = some v → ∃ w, kind.make = some w
  onData : ∀ nowS data w w' v, R w v → kind.onData nowS data w = some w' →
    ∃ v', kind'.onData nowS data v = some v' ∧ R w' v'
  draw : ∀ f w v, R w v → R (kind.draw f w) (kind'.draw f v)

/-- Where one of two lists has a window, the other has the one that belongs to it. -/
structure Paired {W W' : Type} (R : W → W' → Prop) (ws : List (Option W))
    (vs : List (Option W')) : Prop where
  length : ws.length = vs.length
  related : ∀ (n : Nat) (w : W), ws[n]? = some (some w) → ∃ v, vs[n]? = some (some v) ∧ R w v
  back : ∀ (n : Nat) (v : W'), vs[n]? = some (some v) → ∃ w, ws[n]? = some (some w)

section Simulation

variable {W W' : Type} {kind : WindowKind W} {kind' : WindowKind W'} {R : W → W' → Prop}
variable {ws ws' : List (Option W)} {vs : List (Option W')} {m : DeviceManager} {nowS : Int64}

theorem getElem?_set_cases {α : Type} {l : List α} {n k : Nat} {x y : α}
    (h : (l.set n x)[k]? = some y) : n = k ∧ x = y ∨ n ≠ k ∧ l[k]? = some y := by
  by_cases hkn : n = k
  · subst hkn
    have hlt : n < l.length := by
      have hlt := (List.getElem?_eq_some_iff.mp h).1
      rwa [List.length_set] at hlt
    rw [List.getElem?_set_self hlt] at h
    exact .inl ⟨rfl, Option.some.inj h⟩
  · rw [List.getElem?_set_ne hkn] at h
    exact .inr ⟨hkn, h⟩

theorem getElem?_concat_cases {α : Type} {l : List α} {x y : α} {n : Nat}
    (h : (l ++ [x])[n]? = some y) : l[n]? = some y ∨ n = l.length ∧ x = y := by
  by_cases hlt : n < l.length
  · rw [List.getElem?_append_left hlt] at h
    exact .inl h
  · have hle := (List.getElem?_eq_some_iff.mp h).1
    rw [List.length_append, List.length_singleton] at hle
    obtain rfl : n = l.length := by omega
    rw [List.getElem?_concat_length] at h
    exact .inr ⟨rfl, Option.some.inj h⟩

theorem Paired.set (h : Paired R ws vs) {n : Nat} (hn : n < ws.length) {w : W} {v : W'}
    (hr : R w v) : Paired R (ws.set n (some w)) (vs.set n (some v)) := by
  refine ⟨?_, fun k w' hk => ?_, fun k v' hk => ?_⟩
  · rw [List.length_set, List.length_set, h.length]
  · rcases getElem?_set_cases hk with ⟨rfl, heq⟩ | ⟨hne, hold⟩
    · obtain rfl := Option.some.inj heq
      exact ⟨v, List.getElem?_set_self (h.length ▸ hn), hr⟩
    · rw [List.getElem?_set_ne hne]
      exact h.related k w' hold
  · rcases getElem?_set_cases hk with ⟨rfl, -⟩ | ⟨hne, hold⟩
    · exact ⟨w, List.getElem?_set_self hn⟩
    · rw [List.getElem?_set_ne hne]
      exact h.back k v' hold

theorem Paired.concat (h : Paired R ws vs) {w : Option W} {v : Option W'}
    (hr : ∀ x, w = some x → ∃ y, v = some y ∧ R x y) (hback : ∀ y, v = some y → ∃ x, w = some x) :
    Paired R (ws ++ [w]) (vs ++ [v]) := by
  refine ⟨?_, fun k x hk => ?_, fun k y hk => ?_⟩
  · rw [List.length_append, List.length_append, h.length]
    rfl
  · rcases getElem?_concat_cases hk with hold | ⟨rfl, rfl⟩
    · obtain ⟨y, hy, hxy⟩ := h.related k x hold
      exact ⟨y, (List.getElem?_append_left (List.getElem?_eq_some_iff.mp hy).1).trans hy, hxy⟩
    · obtain ⟨y, rfl, hxy⟩ := hr x rfl
      rw [h.length, List.getElem?_concat_length]
      exact ⟨y, rfl, hxy⟩
  · rcases getElem?_concat_cases hk with hold | ⟨rfl, rfl⟩
    · obtain ⟨x, hx⟩ := h.back k y hold
      exact ⟨x, (List.getElem?_append_left (List.getElem?_eq_some_iff.mp hx).1).trans hx⟩
    · obtain ⟨x, rfl⟩ := hback y rfl
      rw [← h.length, List.getElem?_concat_length]
      exact ⟨x, rfl⟩

theorem callSlot_follows (hkind : Follows kind kind' R) (h : Paired R ws vs) {data : Bytes}
    {window : Nat} (hcall : callSlot kind nowS m data ws window = some ws') :
    ∃ vs', callSlot kind' nowS m data vs window = some vs' ∧ Paired R ws' vs' := by
  simp only [callSlot, Option.ite_none_right_eq_some] at hcall
  obtain ⟨hpresent, hcall⟩ := hcall
  split at hcall
  · rename_i w hw
    obtain ⟨w', hdata, rfl⟩ := Option.map_eq_some_iff.mp hcall
    obtain ⟨v, hv, hr⟩ := h.related window w hw
    obtain ⟨v', hdata', hr'⟩ := hkind.onData nowS data w w' v hr hdata
    have hlt : window < ws.length := (List.getElem?_eq_some_iff.mp hw).1
    refine ⟨vs.set window (some v'), ?_, h.set hlt hr'⟩
    simp only [callSlot, if_pos hpresent, hv, hdata']
    rfl
  · cases hcall

theorem processData_follows (hkind : Follows kind kind' R) (h : Paired R ws vs)
    {span : Nat × Bytes} (hdata : processData kind nowS m ws span = some ws') :
    ∃ vs', processData kind' nowS m vs span = some vs' ∧ Paired R ws' vs' := by
  simp only [processData, Option.ite_none_right_eq_some] at hdata
  obtain ⟨hpresent, hdata⟩ := hdata
  obtain ⟨vs', hfold, h'⟩ :=
    foldlM_simulates (R := Paired R) (f := callSlot kind nowS m span.2)
      (g := callSlot kind' nowS m span.2) (fun _ _ _ _ h hcall => callSlot_follows hkind h hcall) h hdata
  refine ⟨vs', ?_, h'⟩
  rw [processData, if_pos hpresent]
  exact hfold

theorem made_follows (hkind : Follows kind kind' R) (h : Paired R ws vs) (s : Teardown.State)
    (e : Teardown.Event) : Paired R (made kind s ws e) (made kind' s vs e) := by
  cases e with
  | add a opts addToRecents =>
    simp only [made]
    split
    · exact h
    · split
      · exact h.concat hkind.make hkind.makes
      · exact h.concat (fun w hw => by cases hw) (fun v hv => by cases hv)
  | _ => exact h

/-- The states have the same manager and clock, and windows that belong together. -/
structure Alike (R : W → W' → Prop) (s : State W) (r : State W') : Prop where
  system : r.system = s.system
  clock : r.clock = s.clock
  windows : Paired R s.windows r.windows

theorem step_follows (hkind : Follows kind kind' R) {json : JsonText} {s t : State W} {r : State W'}
    {e : Event} (h : Alike R s r) (hs : step kind json s e = some t) :
    ∃ u, step kind' json r e = some u ∧ Alike R t u := by
  cases e with
  | system nowS e =>
    obtain ⟨t', ht', hs⟩ := Option.bind_eq_some_iff.mp hs
    obtain ⟨ws, hws, rfl⟩ := Option.map_eq_some_iff.mp hs
    obtain ⟨vs, hvs, hpaired⟩ :=
      foldlM_simulates (R := Paired R) (f := processData kind nowS s.system.manager)
        (g := processData kind' nowS s.system.manager)
        (fun _ _ _ _ h hdata => processData_follows hkind h hdata)
        (made_follows hkind h.windows s.system e) hws
    refine ⟨⟨t', vs, nowS⟩, ?_, rfl, rfl, hpaired⟩
    simp only [step, h.system, ht', hvs, Option.bind_some, Option.map_some]
  | draw identifier f =>
    simp only [step, Option.ite_none_right_eq_some] at hs
    obtain ⟨hidle, hs⟩ := hs
    obtain ⟨n, hn, hs⟩ := Option.bind_eq_some_iff.mp hs
    split at hs
    · rename_i w hw
      obtain rfl := Option.some.inj hs
      obtain ⟨v, hv, hr⟩ := h.windows.related n w hw
      have hlt : n < s.windows.length := (List.getElem?_eq_some_iff.mp hw).1
      refine ⟨{ r with windows := r.windows.set n (some (kind'.draw f v)) }, ?_, h.system, h.clock,
        h.windows.set hlt (hkind.draw f w v hr)⟩
      simp only [step, h.system, hidle, if_true, hn, Option.bind_some, hv]
    · cases hs

end Simulation

theorem windowData_follows_seen : Follows windowData seen WindowData.Shows where
  make _ h := shows_make h
  makes _ _ := ⟨_, rfl⟩
  onData _ _ _ _ _ hs h := shows_onData hs h
  draw f _ _ hs := shows_draw hs f

end Windows

end DeviceTester.Gui

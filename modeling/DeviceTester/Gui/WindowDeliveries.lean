import DeviceTester.Gui.WindowData

/-!
# The windows and the connections

Every window stands for what its own connection has handed over. The plots count each byte in
the second in which it came, while the clock does not run backwards.
-/
namespace DeviceTester.Gui

open DeviceTester.Lib DeviceTester.Connection DeviceTester.Config

namespace Windows

/-! ## What there is to be seen -/

/-- More spans that a window has been given. -/
def takes (entries : List (Int64 × Bytes)) (a : Seen) : Seen :=
  ⟨a.log ++ entries, a.since ++ (entries.map Prod.snd).flatten⟩

/-- More spans for each window. -/
def grow (extra : Nat → List (Int64 × Bytes)) (ws : List (Option Seen)) : List (Option Seen) :=
  ws.mapIdx fun n w => w.map (takes (extra n))

section Grow

variable {ws ws' : List (Option Seen)} {m : DeviceManager} {nowS : Int64}

theorem getElem?_grow (extra : Nat → List (Int64 × Bytes)) (ws : List (Option Seen)) (n : Nat) :
    (grow extra ws)[n]? = ws[n]?.map (Option.map (takes (extra n))) :=
  List.getElem?_mapIdx

theorem takes_takes (first second : List (Int64 × Bytes)) (a : Seen) :
    takes second (takes first a) = takes (first ++ second) a := by
  simp [takes]

theorem grow_grow (first second : Nat → List (Int64 × Bytes)) (ws : List (Option Seen)) :
    grow second (grow first ws) = grow (fun n => first n ++ second n) ws := by
  apply List.ext_getElem?
  intro n
  simp only [getElem?_grow, Option.map_map]
  congr 1
  funext w
  cases w with
  | none => rfl
  | some a => exact congrArg some (takes_takes (first n) (second n) a)

theorem grow_nil (ws : List (Option Seen)) : grow (fun _ => []) ws = ws := by
  apply List.ext_getElem?
  intro n
  rw [getElem?_grow]
  cases ws[n]? with
  | none => rfl
  | some w =>
    cases w with
    | none => rfl
    | some a => simp [takes]

theorem callSlot_seen {data : Bytes} {window : Nat}
    (h : callSlot seen nowS m data ws window = some ws') :
    ws' = grow (fun n => List.replicate (List.count n [window]) (nowS, data)) ws := by
  simp only [callSlot, Option.ite_none_right_eq_some] at h
  obtain ⟨-, h⟩ := h
  split at h
  · rename_i a ha
    obtain rfl := Option.some.inj h
    have hlt : window < ws.length := (List.getElem?_eq_some_iff.mp ha).1
    apply List.ext_getElem?
    intro n
    rw [getElem?_grow]
    by_cases hn : window = n
    · subst hn
      rw [List.getElem?_set_self hlt, ha]
      simp [takes]
    · rw [List.getElem?_set_ne hn]
      cases ws[n]? with
      | none => rfl
      | some w =>
        cases w with
        | none => rfl
        | some b => simp [takes, hn]
  · cases h

/-- The calls of the slots of one device. -/
theorem foldlM_callSlot_seen {data : Bytes} (windows : List Nat)
    (h : windows.foldlM (callSlot seen nowS m data) ws = some ws') :
    ws' = grow (fun n => List.replicate (windows.count n) (nowS, data)) ws := by
  induction windows generalizing ws with
  | nil =>
    obtain rfl := Option.some.inj h
    exact (grow_nil ws).symm
  | cons window windows ih =>
    rw [List.foldlM_cons] at h
    obtain ⟨ws₁, hfirst, hrest⟩ := Option.bind_eq_some_iff.mp h
    obtain rfl := callSlot_seen hfirst
    rw [ih hrest, grow_grow]
    congr 1
    funext n
    rw [List.replicate_append_replicate, ← List.count_append]
    rfl

/-- What the calls of `processData` give to each window. -/
theorem foldlM_processData_seen (spans : List (Nat × Bytes))
    (h : spans.foldlM (processData seen nowS m) ws = some ws') :
    ws' = grow (fun n => spans.flatMap fun span =>
      List.replicate ((slotsOf m span.1).count n) (nowS, span.2)) ws := by
  induction spans generalizing ws with
  | nil =>
    obtain rfl := Option.some.inj h
    exact (grow_nil ws).symm
  | cons span spans ih =>
    rw [List.foldlM_cons] at h
    obtain ⟨ws₁, hfirst, hrest⟩ := Option.bind_eq_some_iff.mp h
    simp only [processData, Option.ite_none_right_eq_some] at hfirst
    obtain rfl := foldlM_callSlot_seen _ hfirst.2
    rw [ih hrest, grow_grow]
    rfl

end Grow

section Deliveries

variable {json : JsonText} {s t : Teardown.State} {e : Teardown.Event}

theorem delivered_configure {a : Answers} {opts : AnyOptions} {con : AnyConnection}
    (h : DeviceManager.configure a opts = .returned con) : con.delivered = [] := by
  cases opts with
  | serial o =>
    obtain rfl := Outcome.returned.inj h
    rfl
  | tcp o =>
    have hkept := Tcp.delivered_step (t := (Tcp.initial o.identifier).setOptions o)
      (e := .applyOptions a.resolve) rfl
    simp only [DeviceManager.configure, DeviceManager.configureTcp] at h
    split at h
    · rename_i t ht
      obtain rfl := Outcome.returned.inj h
      rw [ht] at hkept
      exact hkept
    · cases h
  | udp o =>
    have hkept := Udp.delivered_applyOptions
      ((Udp.initial o.identifier a.rx a.receive).setOptions o) a.calls a.fromString
    simp only [DeviceManager.configure, DeviceManager.configureUdp] at h
    split at h
    · rename_i u hu
      obtain rfl := Outcome.returned.inj h
      rw [hu] at hkept
      exact hkept
    · cases h

/-- What a step of the manager does to its objects, its slots and its windows. -/
inductive Changes (s t : DeviceManager) : Teardown.Event → Prop where
  /-- A connection is made with its window. -/
  | windowed (a : Answers) (opts : AnyOptions) (addToRecents : Bool) (con : AnyConnection)
      (hin : opts.identifier ∉ s.connections_) (hc : DeviceManager.configure a opts = .returned con)
      (hobjects : t.objects = s.objects ++ [⟨con, s.objects.length⟩])
      (hslots : t.slots = s.slots ++ [(s.objects.length, s.objects.length)])
      (hwindows : ∀ n, Stores t.windows_ n → Stores s.windows_ n ∨ n = s.objects.length) :
      Changes s t (.add a opts addToRecents)
  /-- A connection is made that cannot be configured. -/
  | failed (a : Answers) (opts : AnyOptions) (addToRecents : Bool) (con : AnyConnection)
      (what : Bytes) (hin : opts.identifier ∉ s.connections_)
      (hc : DeviceManager.configure a opts = .threw con what)
      (hobjects : t.objects = s.objects ++ [⟨con, s.objects.length⟩])
      (hslots : t.slots = s.slots) (hwindows : t.windows_ = s.windows_) :
      Changes s t (.add a opts addToRecents)
  /-- The identifier is in use. -/
  | inUse (a : Answers) (opts : AnyOptions) (addToRecents : Bool)
      (hin : opts.identifier ∈ s.connections_) (hsame : t = s) : Changes s t (.add a opts addToRecents)
  | other (e : Teardown.Event) (hnot : ∀ a opts addToRecents, e ≠ .add a opts addToRecents)
      (hlength : t.objects.length = s.objects.length) (hslots : t.slots = s.slots)
      (hwindows : ∀ n, Stores t.windows_ n → Stores s.windows_ n) : Changes s t e

theorem changes_add {a : Answers} {opts : AnyOptions} {addToRecents : Bool}
    (hs : Teardown.step json s (.add a opts addToRecents) = some t) :
    Changes s.manager t.manager (.add a opts addToRecents) := by
  have hadd : (s.manager.add json a opts addToRecents).2 = t.manager := by
    simp only [Teardown.step, Option.ite_none_right_eq_some] at hs
    obtain ⟨-, hs⟩ := hs
    split at hs
    · cases hs
    · rename_i m hm
      obtain rfl := Option.some.inj hs
      rw [hm]
  have hcases := DeviceManager.add_cases json a opts addToRecents s.manager
  rw [hadd] at hcases
  have hwindows (con : AnyConnection) (n : Nat)
      (hn : Stores (s.manager.withWindow opts.identifier con).windows_ n) :
      Stores s.manager.windows_ n ∨ n = s.manager.objects.length := by
    have heq : (s.manager.withWindow opts.identifier con).windows_ =
        if opts.identifier ∈ s.manager.windows_ then s.manager.windows_
        else s.manager.windows_.insert opts.identifier s.manager.objects.length := rfl
    rw [heq] at hn
    split at hn
    · exact .inl hn
    · rcases hn.of_insert with rfl | ⟨k, -, hk⟩
      · exact .inr rfl
      · exact .inl ⟨k, hk⟩
  generalize (s.manager.add json a opts addToRecents).1 = added at hcases
  generalize t.manager = m at hcases ⊢
  cases hcases with
  | inUse hin message => exact .inUse a opts addToRecents hin rfl
  | failed hin con what message hc => exact .failed a opts addToRecents con what hin hc rfl rfl rfl
  | threw hin con recents file error hc hto haccept =>
    exact .windowed a opts addToRecents con hin hc rfl rfl (hwindows con)
  | added hin con recents file message hc haccept =>
    exact .windowed a opts addToRecents con hin hc rfl rfl (hwindows con)

theorem object_frame {n : Nat} {io : AnyEvent} (h : s.object n io = some t) :
    t.manager.objects.length = s.manager.objects.length ∧ t.manager.slots = s.manager.slots ∧
      t.manager.windows_ = s.manager.windows_ := by
  obtain ⟨o, c, -, -, rfl⟩ := Teardown.object_cases h
  exact ⟨List.length_modify _ _ _, rfl, rfl⟩

theorem changes_step (hs : Teardown.step json s e = some t) : Changes s.manager t.manager e := by
  cases e with
  | add a opts addToRecents => exact changes_add hs
  | call identifier io =>
    simp only [Teardown.step, Option.ite_none_right_eq_some] at hs
    obtain ⟨n, -, hn⟩ := Option.bind_eq_some_iff.mp hs.2
    obtain ⟨hlength, hslots, hwindows⟩ := object_frame hn
    exact .other _ (by simp) hlength hslots fun _ hn => hwindows ▸ hn
  | close identifiers =>
    simp only [Teardown.step, Option.ite_none_right_eq_some, Option.some.injEq] at hs
    obtain ⟨-, rfl⟩ := hs
    exact .other _ (by simp) rfl rfl fun _ hn => hn
  | proceed =>
    simp only [Teardown.step, Teardown.State.proceed] at hs
    split at hs
    · cases hs
    · obtain rfl := Option.some.inj hs
      exact .other _ (by simp) rfl rfl fun _ hn => hn.of_erase
    · rename_i identifier _ _ _
      obtain rfl := Option.some.inj hs
      have hframe : ∀ m : DeviceManager,
          (m.disconnectConnection identifier).objects.length = m.objects.length ∧
            (m.disconnectConnection identifier).slots = m.slots ∧
            (m.disconnectConnection identifier).windows_ = m.windows_ := by
        intro m
        unfold DeviceManager.disconnectConnection
        split
        · exact ⟨rfl, rfl, rfl⟩
        · exact ⟨List.length_modify _ _ _, rfl, rfl⟩
      obtain ⟨hlength, hslots, hwindows⟩ := hframe s.manager
      exact .other _ (by simp) hlength hslots fun _ hn => hwindows ▸ hn
    · obtain rfl := Option.some.inj hs
      exact .other _ (by simp) rfl rfl fun _ hn => hn
    · obtain rfl := Option.some.inj hs
      exact .other _ (by simp) rfl rfl fun _ hn => hn
  | io n io =>
    simp only [Teardown.step, Option.ite_none_right_eq_some] at hs
    obtain ⟨hlength, hslots, hwindows⟩ := object_frame hs.2
    exact .other _ (by simp) hlength hslots fun _ hn => hwindows ▸ hn
  | tick =>
    obtain rfl := Option.some.inj hs
    exact .other _ (by simp) rfl rfl fun _ hn => hn
  | changeFile file =>
    obtain rfl := Option.some.inj hs
    exact .other _ (by simp) rfl rfl fun _ hn => hn

/-- The spans that are meant for one device, as bytes. -/
def bytesFor (n : Nat) (spans : List (Nat × Bytes)) : Bytes :=
  ((spans.filter fun span => span.1 == n).map Prod.snd).flatten

theorem bytesFor_map (k n : Nat) (handed : List Bytes) :
    bytesFor n (handed.map fun data => (k, data)) = if k = n then handed.flatten else [] := by
  by_cases h : k = n
  · simp [bytesFor, List.filter_map, Function.comp_def, h]
  · simp [bytesFor, List.filter_map, Function.comp_def, h]

theorem delivered_io (hwired : Teardown.Wired s.manager) {k : Nat} {io : AnyEvent}
    (hs : s.object k io = some t) {n : Nat} {o o' : Object}
    (ho : s.manager.objects[n]? = some o) (ho' : t.manager.objects[n]? = some o') :
    o'.connection.delivered.flatten =
      o.connection.delivered.flatten ++ bytesFor n (spans s (.io k io)) := by
  obtain ⟨p, c, hp, hc, rfl⟩ := Teardown.object_cases hs
  have hspans : spans s (.io k io) = (p.connection.handed io).map fun data => (k, data) := by
    simp only [spans, hp, hwired.handles k p hp]
  rw [hspans, bytesFor_map]
  by_cases hk : k = n
  · subst hk
    obtain rfl := Option.some.inj (hp.symm.trans ho)
    rw [List.getElem?_modify_eq, hp] at ho'
    obtain rfl := Option.some.inj ho'
    rw [if_pos rfl, ← List.flatten_append]
    exact congrArg List.flatten (AnyConnection.delivered_step hc)
  · rw [List.getElem?_modify_ne _ _ hk] at ho'
    obtain rfl := Option.some.inj (ho.symm.trans ho')
    rw [if_neg hk, List.append_nil]

/-- What the connection of a device hands over are the spans that its device is called with, and
those of the idle timer are empty. -/
theorem delivered_spans (hwired : Teardown.Wired s.manager) (hs : Teardown.step json s e = some t)
    {n : Nat} {o o' : Object} (ho : s.manager.objects[n]? = some o)
    (ho' : t.manager.objects[n]? = some o') :
    o'.connection.delivered.flatten =
      o.connection.delivered.flatten ++ bytesFor n (spans s e) := by
  have hkept (hnot : ∀ io, e ≠ .io n io) : o'.connection.delivered = o.connection.delivered := by
    by_contra hd
    obtain ⟨io, he, -⟩ := Teardown.delivers_cases hs ho ho' hd
    exact hnot io he
  cases e with
  | io k io =>
    simp only [Teardown.step, Option.ite_none_right_eq_some] at hs
    exact delivered_io hwired hs.2 ho ho'
  | tick =>
    have hempty : bytesFor n (spans s .tick) = [] := by
      simp [bytesFor, spans, List.filter_map, Function.comp_def]
    rw [hkept (by simp), hempty, List.append_nil]
  | _ =>
    rw [hkept (by simp)]
    exact (List.append_nil _).symm

end Deliveries

/-- The connection of each window has delivered what the window has been given, and the slot of
the window is the only one of its device. -/
structure Accurate (s : State Seen) : Prop where
  linked : Teardown.Linked s.system
  length : s.windows.length = s.system.manager.objects.length
  bounded : ∀ slot ∈ s.system.manager.slots, slot.1 < s.system.manager.objects.length
  slotted : ∀ (n : Nat) (a : Seen), s.windows[n]? = some (some a) → slotsOf s.system.manager n = [n]
  made : ∀ n, Stores s.system.manager.windows_ n → ∃ a, s.windows[n]? = some (some a)
  shown : ∀ (n : Nat) (a : Seen) (o : Object), s.windows[n]? = some (some a) →
    s.system.manager.objects[n]? = some o → a.bytes = o.connection.delivered.flatten

section Accuracy

variable {json : JsonText} {s t : State Seen} {nowS : Int64} {e : Teardown.Event}
variable {file : RecentsFile} {recents : List RecentConnection} {clock : Int64}

theorem accurate_start : Accurate (start Seen file recents clock) where
  linked := Teardown.linked_start file recents
  length := rfl
  bounded _ h := by cases h
  slotted _ _ h := by cases h
  made _ h := by
    obtain ⟨_, h⟩ := h
    cases h
  shown _ _ _ h := by cases h

/-- The entries that the spans for one device make in the log of its window. -/
def entriesFor (nowS : Int64) (n : Nat) (spans : List (Nat × Bytes)) : List (Int64 × Bytes) :=
  (spans.filter fun span => span.1 == n).map fun span => (nowS, span.2)

theorem bytes_takes (entries : List (Int64 × Bytes)) (a : Seen) :
    (takes entries a).bytes = a.bytes ++ (entries.map Prod.snd).flatten := by
  simp [Seen.bytes, takes]

theorem map_entriesFor (nowS : Int64) (n : Nat) (spans : List (Nat × Bytes)) :
    ((entriesFor nowS n spans).map Prod.snd).flatten = bytesFor n spans := by
  simp [entriesFor, bytesFor, Function.comp_def]

/-- The slot of a window is called once for each span for its device, and for no other one. -/
theorem count_slotsOf (h : Accurate s) {n : Nat} {a : Seen} (ha : s.windows[n]? = some (some a))
    (device : Nat) :
    (slotsOf s.system.manager device).count n = if device = n then 1 else 0 := by
  by_cases hd : device = n
  · subst hd
    rw [h.slotted device a ha, if_pos rfl]
    exact List.count_singleton_self
  · rw [if_neg hd, List.count_eq_zero]
    intro hmem
    obtain ⟨⟨device', window⟩, hslot, rfl⟩ := List.mem_map.mp hmem
    obtain ⟨hslot, hdevice⟩ := List.mem_filter.mp hslot
    have hsame := h.linked.wired.slots device' window hslot
    exact hd ((beq_iff_eq.mp hdevice).symm.trans hsame)

theorem flatMap_entries (h : Accurate s) {n : Nat} {a : Seen}
    (ha : s.windows[n]? = some (some a)) (nowS : Int64) (spans : List (Nat × Bytes)) :
    (spans.flatMap fun span => List.replicate ((slotsOf s.system.manager span.1).count n)
      (nowS, span.2)) = entriesFor nowS n spans := by
  induction spans with
  | nil => rfl
  | cons span spans ih =>
    rw [List.flatMap_cons, ih, count_slotsOf h ha]
    by_cases hd : span.1 = n
    · simp [entriesFor, hd]
    · simp [entriesFor, hd]

/-- The windows after a step that makes none: each has been given the spans for its device. -/
theorem windows_other (h : Accurate s) (hnot : ∀ a opts addToRecents, e ≠ .add a opts addToRecents)
    (hs : step seen json s (.system nowS e) = some t) :
    Teardown.step json s.system e = some t.system ∧ t.clock = nowS ∧
      t.windows.length = s.windows.length ∧
      (∀ (n : Nat) (a : Seen), s.windows[n]? = some (some a) →
        t.windows[n]? = some (some (takes (entriesFor nowS n (spans s.system e)) a))) ∧
      ∀ (n : Nat) (a' : Seen), t.windows[n]? = some (some a') →
        ∃ a, s.windows[n]? = some (some a) := by
  obtain ⟨u, hu, hs⟩ := Option.bind_eq_some_iff.mp hs
  obtain ⟨ws, hws, rfl⟩ := Option.map_eq_some_iff.mp hs
  have hmade : made seen s.system s.windows e = s.windows := by
    cases e with
    | add a opts addToRecents => exact absurd rfl (hnot a opts addToRecents)
    | _ => rfl
  rw [hmade] at hws
  obtain rfl := foldlM_processData_seen _ hws
  refine ⟨hu, rfl, List.length_mapIdx, fun n a ha => ?_, fun n a' ha' => ?_⟩
  · show (grow _ _)[n]? = _
    rw [getElem?_grow, ha, ← flatMap_entries h ha]
    rfl
  · change (grow _ _)[n]? = _ at ha'
    rw [getElem?_grow] at ha'
    obtain ⟨w, hw, hmap⟩ := Option.map_eq_some_iff.mp ha'
    obtain ⟨a, rfl, -⟩ := Option.map_eq_some_iff.mp hmap
    exact ⟨a, hw⟩

theorem windows_add {a : Answers} {opts : AnyOptions} {addToRecents : Bool}
    (hs : step seen json s (.system nowS (.add a opts addToRecents)) = some t) :
    Teardown.step json s.system (.add a opts addToRecents) = some t.system ∧ t.clock = nowS ∧
      t.windows = made seen s.system s.windows (.add a opts addToRecents) := by
  obtain ⟨u, hu, hs⟩ := Option.bind_eq_some_iff.mp hs
  obtain ⟨ws, hws, rfl⟩ := Option.map_eq_some_iff.mp hs
  obtain rfl := Option.some.inj hws
  exact ⟨hu, rfl, rfl⟩

theorem accurate_other (h : Accurate s)
    (hnot : ∀ a opts addToRecents, e ≠ .add a opts addToRecents)
    (hs : step seen json s (.system nowS e) = some t) : Accurate t := by
  obtain ⟨hu, -, hlength, hkept, hback⟩ := windows_other h hnot hs
  have hlinked : Teardown.Linked t.system := Teardown.linked_step json _ _ _ h.linked trivial hu
  have hchanges := changes_step hu
  cases hchanges with
  | windowed a opts addToRecents => exact absurd rfl (hnot a opts addToRecents)
  | failed a opts addToRecents => exact absurd rfl (hnot a opts addToRecents)
  | inUse a opts addToRecents => exact absurd rfl (hnot a opts addToRecents)
  | other _ _ hobjects hslots hwindows =>
    have hsame : ∀ n, slotsOf t.system.manager n = slotsOf s.system.manager n := by
      intro n
      rw [slotsOf, hslots, slotsOf]
    refine ⟨hlinked, ?_, ?_, fun n a' ha' => ?_, fun n hn => ?_, fun n a' o' ha' ho' => ?_⟩
    · rw [hlength, h.length, hobjects]
    · rw [hslots, hobjects]
      exact h.bounded
    · obtain ⟨a, ha⟩ := hback n a' ha'
      rw [hsame, h.slotted n a ha]
    · obtain ⟨a, ha⟩ := h.made n (hwindows n hn)
      exact ⟨_, hkept n a ha⟩
    · obtain ⟨a, ha⟩ := hback n a' ha'
      obtain rfl := Option.some.inj (Option.some.inj ((hkept n a ha).symm.trans ha'))
      have hlt : n < s.system.manager.objects.length := by
        rw [← hobjects]
        exact (List.getElem?_eq_some_iff.mp ho').1
      have ho : s.system.manager.objects[n]? = some s.system.manager.objects[n] :=
        List.getElem?_eq_getElem hlt
      rw [bytes_takes, map_entriesFor, h.shown n a _ ha ho,
        delivered_spans h.linked.wired hu ho ho']

/-- A slot of the new device leaves those of the others. -/
theorem slotsOf_concat {m m' : DeviceManager} {k n : Nat} (h : m'.slots = m.slots ++ [(k, k)]) :
    slotsOf m' n = slotsOf m n ++ if k = n then [k] else [] := by
  rw [slotsOf, slotsOf, h, List.filter_append, List.map_append]
  by_cases hk : k = n
  · simp [hk]
  · simp [hk]

theorem slotsOf_new (h : Accurate s) : slotsOf s.system.manager s.system.manager.objects.length = [] := by
  rw [slotsOf, List.map_eq_nil_iff, List.filter_eq_nil_iff]
  intro slot hslot hdevice
  have hlt := h.bounded slot hslot
  rw [beq_iff_eq.mp hdevice] at hlt
  exact Nat.lt_irrefl _ hlt

theorem accurate_add {a : Answers} {opts : AnyOptions} {addToRecents : Bool} (h : Accurate s)
    (hs : step seen json s (.system nowS (.add a opts addToRecents)) = some t) : Accurate t := by
  obtain ⟨hu, -, hwindows⟩ := windows_add hs
  have hlinked : Teardown.Linked t.system := Teardown.linked_step json _ _ _ h.linked trivial hu
  have hchanges := changes_step hu
  cases hchanges with
  | windowed _ _ _ con hin hc hobjects hslots hstored =>
    have hmade : t.windows = s.windows ++ [some ⟨[], []⟩] := by
      simp [hwindows, made, hin, hc, seen]
    have hlength : t.windows.length = t.system.manager.objects.length := by
      rw [hmade, hobjects, List.length_append, List.length_append, h.length]
      rfl
    refine ⟨hlinked, hlength, ?_, fun n b hb => ?_, fun n hn => ?_, fun n b o hb ho => ?_⟩
    · intro slot hslot
      rw [hslots] at hslot
      rw [hobjects, List.length_append, List.length_singleton]
      rcases List.mem_append.mp hslot with hold | hnew
      · exact Nat.lt_succ_of_lt (h.bounded slot hold)
      · rw [List.mem_singleton.mp hnew]
        exact Nat.lt_succ_self _
    · rw [hmade] at hb
      rw [slotsOf_concat hslots]
      rcases getElem?_concat_cases hb with hold | ⟨rfl, -⟩
      · have hlt : n < s.windows.length := (List.getElem?_eq_some_iff.mp hold).1
        have hne : s.system.manager.objects.length ≠ n := by
          rw [← h.length]
          omega
        rw [h.slotted n b hold, if_neg hne, List.append_nil]
      · rw [h.length, slotsOf_new h, if_pos rfl]
        rfl
    · rw [hmade]
      rcases hstored n hn with hold | rfl
      · obtain ⟨b, hb⟩ := h.made n hold
        exact ⟨b, (List.getElem?_append_left (List.getElem?_eq_some_iff.mp hb).1).trans hb⟩
      · rw [← h.length, List.getElem?_concat_length]
        exact ⟨_, rfl⟩
    · rw [hmade] at hb
      rw [hobjects] at ho
      rcases getElem?_concat_cases hb with hold | ⟨rfl, hnew⟩
      · have hlt : n < s.windows.length := (List.getElem?_eq_some_iff.mp hold).1
        rw [List.getElem?_append_left (h.length ▸ hlt)] at ho
        exact h.shown n b o hold ho
      · rw [h.length, List.getElem?_concat_length] at ho
        obtain rfl := Option.some.inj ho
        obtain rfl := Option.some.inj hnew
        show [] = con.delivered.flatten
        rw [delivered_configure hc]
        rfl
  | failed _ _ _ con what hin hc hobjects hslots hstored =>
    have hmade : t.windows = s.windows ++ [none] := by
      simp [hwindows, made, hin, hc]
    have hlength : t.windows.length = t.system.manager.objects.length := by
      rw [hmade, hobjects, List.length_append, List.length_append, h.length]
      rfl
    have hold : ∀ (n : Nat) (b : Seen), t.windows[n]? = some (some b) →
        s.windows[n]? = some (some b) := by
      intro n b hb
      rw [hmade] at hb
      rcases getElem?_concat_cases hb with hold | ⟨-, hnew⟩
      · exact hold
      · cases hnew
    refine ⟨hlinked, hlength, ?_, fun n b hb => ?_, fun n hn => ?_, fun n b o hb ho => ?_⟩
    · intro slot hslot
      rw [hslots] at hslot
      rw [hobjects, List.length_append, List.length_singleton]
      exact Nat.lt_succ_of_lt (h.bounded slot hslot)
    · rw [slotsOf, hslots]
      exact h.slotted n b (hold n b hb)
    · rw [hstored] at hn
      obtain ⟨b, hb⟩ := h.made n hn
      rw [hmade]
      exact ⟨b, (List.getElem?_append_left (List.getElem?_eq_some_iff.mp hb).1).trans hb⟩
    · have hb' := hold n b hb
      have hlt : n < s.windows.length := (List.getElem?_eq_some_iff.mp hb').1
      rw [hobjects, List.getElem?_append_left (h.length ▸ hlt)] at ho
      exact h.shown n b o hb' ho
  | inUse _ _ _ hin hsame =>
    have hmade : t.windows = s.windows := by simp [hwindows, made, hin]
    refine ⟨hlinked, ?_, ?_, ?_, ?_, ?_⟩
    · rw [hmade, hsame, h.length]
    · rw [hsame]
      exact h.bounded
    · rw [hmade, hsame]
      exact h.slotted
    · rw [hmade, hsame]
      exact h.made
    · rw [hmade, hsame]
      exact h.shown
  | other _ hnot => exact absurd rfl (hnot a opts addToRecents)

/-- Drawing a window clears its text at most. -/
theorem windows_draw {identifier : Bytes} {f : RawTextOutput.Frame}
    (hs : step seen json s (.draw identifier f) = some t) :
    ∃ (n : Nat) (a : Seen), s.windows[n]? = some (some a) ∧
      t = { s with windows := s.windows.set n (some (seen.draw f a)) } := by
  simp only [step, Option.ite_none_right_eq_some] at hs
  obtain ⟨-, hs⟩ := hs
  obtain ⟨n, -, hs⟩ := Option.bind_eq_some_iff.mp hs
  split at hs
  · rename_i a ha
    exact ⟨n, a, ha, (Option.some.inj hs).symm⟩
  · cases hs

theorem log_draw (f : RawTextOutput.Frame) (a : Seen) : (seen.draw f a).log = a.log := by
  show (if f.clear then _ else _ : Seen).log = _
  split <;> rfl

/-- The logs are the same after a window has been drawn. -/
theorem logs_draw {identifier : Bytes} {f : RawTextOutput.Frame}
    (hs : step seen json s (.draw identifier f) = some t) :
    t.system = s.system ∧ t.clock = s.clock ∧ t.windows.length = s.windows.length ∧
      (∀ (n : Nat) (a' : Seen), t.windows[n]? = some (some a') →
        ∃ a, s.windows[n]? = some (some a) ∧ a'.log = a.log) ∧
      ∀ (n : Nat) (a : Seen), s.windows[n]? = some (some a) → ∃ a', t.windows[n]? = some (some a') := by
  obtain ⟨k, b, hb, rfl⟩ := windows_draw hs
  have hlt : k < s.windows.length := (List.getElem?_eq_some_iff.mp hb).1
  refine ⟨rfl, rfl, List.length_set, fun n a' ha' => ?_, fun n a ha => ?_⟩
  · by_cases hn : k = n
    · subst hn
      rw [List.getElem?_set_self hlt] at ha'
      obtain rfl := Option.some.inj (Option.some.inj ha')
      exact ⟨b, hb, log_draw f b⟩
    · rw [List.getElem?_set_ne hn] at ha'
      exact ⟨a', ha', rfl⟩
  · by_cases hn : k = n
    · subst hn
      exact ⟨_, List.getElem?_set_self hlt⟩
    · exact ⟨a, (List.getElem?_set_ne hn).trans ha⟩

theorem accurate_step (json : JsonText) : Keeps (step seen json) anyStep Accurate := by
  intro s e t h _ hs
  cases e with
  | system nowS e =>
    by_cases hnot : ∀ a opts addToRecents, e ≠ .add a opts addToRecents
    · exact accurate_other h hnot hs
    · push Not at hnot
      obtain ⟨a, opts, addToRecents, rfl⟩ := hnot
      exact accurate_add h hs
  | draw identifier f =>
    obtain ⟨hsystem, -, hlength, hback, hkept⟩ := logs_draw hs
    refine ⟨hsystem ▸ h.linked, ?_, ?_, fun n a' ha' => ?_, fun n hn => ?_,
      fun n a' o ha' ho => ?_⟩
    · rw [hlength, hsystem, h.length]
    · rw [hsystem]
      exact h.bounded
    · obtain ⟨a, ha, -⟩ := hback n a' ha'
      rw [hsystem, h.slotted n a ha]
    · rw [hsystem] at hn
      obtain ⟨a, ha⟩ := h.made n hn
      exact hkept n a ha
    · obtain ⟨a, ha, hlog⟩ := hback n a' ha'
      rw [hsystem] at ho
      rw [Seen.bytes, hlog]
      exact h.shown n a o ha ho

/-! ## The clock -/

/-- The clock does not run backwards. -/
def ClockForward {W : Type} (s : State W) (_ : Event) (t : State W) : Prop :=
  s.clock.toUInt64 ≤ t.clock.toUInt64

instance {W : Type} (s : State W) (e : Event) (t : State W) : Decidable (ClockForward s e t) :=
  inferInstanceAs (Decidable (s.clock.toUInt64 ≤ t.clock.toUInt64))

/-- The calls of a window are in the order of their seconds, none of which is past the clock. -/
def InTime (clock : Int64) (a : Seen) : Prop :=
  (a.calls.Pairwise fun c d => c.x ≤ d.x) ∧ ∀ c ∈ a.calls, c.x ≤ clock.toUInt64

theorem InTime.takes {clock : Int64} {a : Seen} (h : InTime clock a)
    (hforward : clock.toUInt64 ≤ nowS.toUInt64) {entries : List (Int64 × Bytes)}
    (hnow : ∀ entry ∈ entries, entry.1 = nowS) : InTime nowS (takes entries a) := by
  have hcalls : (Windows.takes entries a).calls =
      a.calls ++ entries.map fun entry => callOf entry.1 entry.2 := by
    simp [Seen.calls, Windows.takes]
  have hnew : ∀ c ∈ entries.map (fun entry => callOf entry.1 entry.2), c.x = nowS.toUInt64 := by
    intro c hc
    obtain ⟨entry, hentry, rfl⟩ := List.mem_map.mp hc
    show entry.1.toUInt64 = _
    rw [hnow entry hentry]
  rw [InTime, hcalls]
  constructor
  · refine List.pairwise_append.mpr ⟨h.1, ?_, fun c hc d hd => ?_⟩
    · refine List.Pairwise.imp_of_mem (R := fun _ _ => True) ?_ (List.pairwise_of_forall fun _ _ => trivial)
      intro c d hc hd _
      rw [hnew c hc, hnew d hd]
      exact UInt64.le_refl _
    · rw [hnew d hd]
      exact UInt64.le_trans (h.2 c hc) hforward
  · intro c hc
    rcases List.mem_append.mp hc with hold | hlast
    · exact UInt64.le_trans (h.2 c hold) hforward
    · rw [hnew c hlast]
      exact UInt64.le_refl _

/-- Accurate, and in time. -/
def Timely (s : State Seen) : Prop :=
  Accurate s ∧ ∀ (n : Nat) (a : Seen), s.windows[n]? = some (some a) → InTime s.clock a

theorem timely_step (json : JsonText) : Keeps (step seen json) ClockForward Timely := by
  intro s e t h hforward hs
  have haccurate := accurate_step json s e t h.1 trivial hs
  refine ⟨haccurate, fun n a' ha' => ?_⟩
  cases e with
  | system nowS e =>
    by_cases hnot : ∀ a opts addToRecents, e ≠ .add a opts addToRecents
    · obtain ⟨-, hclock, -, hkept, hback⟩ := windows_other h.1 hnot hs
      obtain ⟨a, ha⟩ := hback n a' ha'
      obtain rfl := Option.some.inj (Option.some.inj ((hkept n a ha).symm.trans ha'))
      rw [ClockForward, hclock] at hforward
      rw [hclock]
      refine (h.2 n a ha).takes hforward fun entry hentry => ?_
      obtain ⟨span, -, rfl⟩ := List.mem_map.mp hentry
      rfl
    · push Not at hnot
      obtain ⟨a, opts, addToRecents, rfl⟩ := hnot
      obtain ⟨-, hclock, hwindows⟩ := windows_add hs
      rw [ClockForward, hclock] at hforward
      rw [hclock]
      have hnew : s.windows[n]? = some (some a') ∨ a' = ⟨[], []⟩ := by
        rw [hwindows] at ha'
        simp only [made] at ha'
        split at ha'
        · exact .inl ha'
        · split at ha'
          · rcases getElem?_concat_cases ha' with hold | ⟨-, heq⟩
            · exact .inl hold
            · exact .inr (Option.some.inj heq).symm
          · rcases getElem?_concat_cases ha' with hold | ⟨-, heq⟩
            · exact .inl hold
            · cases heq
      rcases hnew with hold | rfl
      · obtain ⟨hsorted, hbound⟩ := h.2 n a' hold
        exact ⟨hsorted, fun c hc => UInt64.le_trans (hbound c hc) hforward⟩
      · exact ⟨.nil, fun c hc => by cases hc⟩
  | draw identifier f =>
    obtain ⟨-, hclock, -, hback, -⟩ := logs_draw hs
    obtain ⟨a, ha, hlog⟩ := hback n a' ha'
    have hcalls : a'.calls = a.calls := by rw [Seen.calls, hlog, Seen.calls]
    rw [InTime, hcalls, hclock]
    exact h.2 n a ha

end Accuracy

/-! ## Runs -/

theorem sum_dataSize (a : Seen) :
    (a.calls.map PlotThroughput.Call.dataSize).sum = .ofNat a.bytes.length := by
  obtain ⟨log, since⟩ := a
  induction log with
  | nil => rfl
  | cons entry log ih =>
    have htail : ((log.map fun entry => callOf entry.1 entry.2).map
        PlotThroughput.Call.dataSize).sum = .ofNat (log.map Prod.snd).flatten.length := ih
    simp only [Seen.calls, Seen.bytes, List.map_cons, List.sum_cons, htail, List.flatten_cons,
      List.length_append, UInt64.ofNat_add]
    rfl

/-- What the window under an identifier shows of its connection, given what it stands for. -/
structure ShowsConnection (identifier : Bytes) (o : Object) (w : WindowData) (a : Seen) : Prop where
  named : o.connection.identifier = identifier
  complete : a.bytes = o.connection.delivered.flatten
  text : ∀ autoscroll, (w.rawText_.draw ⟨false, autoscroll⟩).2 = keptPart a.since

/-- The throughput that a window draws: the last 100 points of a series that has all the bytes that
its connection has delivered, as 64 bits count them, by the seconds in which it was given them. -/
def DrawsThroughput (o : Object) (w : WindowData) (a : Seen) : Prop :=
  ∃ plot series, w.dataThroughput_.drawPlot = some plot ∧
    plot.throughput.map Point.pair = series.rtake 100 ∧
    IsHistogram (a.calls.map PlotThroughput.Call.sample) series ∧
    (series.map Prod.snd).sum = .ofNat o.connection.delivered.flatten.length

theorem keyed_windows {json : JsonText} {file : RecentsFile} {recents : List RecentConnection}
    {clock : Int64} {es : List Event} {s : State Seen}
    (he : exec (step seen json) (start Seen file recents clock) es = some s) :
    Teardown.Keyed s.system.manager := by
  have hk : Keeps (step seen json) anyStep fun s => Teardown.Keyed s.system.manager := by
    intro s e t h _ hs
    cases e with
    | system nowS e =>
      obtain ⟨u, hu, hs⟩ := Option.bind_eq_some_iff.mp hs
      obtain ⟨ws, -, rfl⟩ := Option.map_eq_some_iff.mp hs
      exact Teardown.keyed_step json _ _ _ h trivial hu
    | draw identifier f => exact (logs_draw hs).1 ▸ h
  exact hk.exec (Teardown.keyed_fresh file recents) (along_anyStep _ _) he

section Runs

variable {json : JsonText} {file : RecentsFile} {recents : List RecentConnection} {clock : Int64}
  {es : List Event} {s : State WindowData} {r : State Seen}

/-- What the windows stand for, beside a run of the windows. -/
theorem exec_seen
    (he : exec (step windowData json) (start WindowData file recents clock) es = some s) :
    ∃ r, exec (step seen json) (start Seen file recents clock) es = some r ∧
      Alike WindowData.Shows s r ∧
      (Along (step windowData json) ClockForward (start WindowData file recents clock) es →
        Along (step seen json) ClockForward (start Seen file recents clock) es) := by
  have hfollow : ∀ s r e t, Alike WindowData.Shows s r → step windowData json s e = some t →
      ∃ u, step seen json r e = some u ∧ Alike WindowData.Shows t u :=
    fun _ _ _ _ h hs => step_follows windowData_follows_seen h hs
  have hstart : Alike WindowData.Shows (start WindowData file recents clock)
      (start Seen file recents clock) :=
    ⟨rfl, rfl, rfl, fun _ _ h => (by cases h), fun _ _ h => (by cases h)⟩
  obtain ⟨r, hr, halike⟩ := exec_simulates hfollow hstart he
  refine ⟨r, hr, halike, fun hforward => ?_⟩
  refine hforward.simulates hfollow (fun s r e t u h h' hstep => ?_) hstart he
  rw [ClockForward, h.clock, h'.clock]
  exact hstep

/-- What a window shows, given the run of what the windows stand for. -/
theorem Alike.shows (halike : Alike WindowData.Shows s r)
    (hr : exec (step seen json) (start Seen file recents clock) es = some r) {identifier : Bytes}
    {n : Nat} (hn : s.system.manager.windows_.lookup identifier = some n) :
    ∃ o w a, s.system.manager.objects[n]? = some o ∧ s.windows[n]? = some (some w) ∧
      r.windows[n]? = some (some a) ∧ ShowsConnection identifier o w a ∧
      (Along (step seen json) ClockForward (start Seen file recents clock) es →
        DrawsThroughput o w a) := by
  have haccurate : Accurate r :=
    (accurate_step json).exec accurate_start (along_anyStep _ _) hr
  have hkeyed := keyed_windows hr
  rw [← halike.system] at hn ⊢
  obtain ⟨o, ho, hnamed⟩ := hkeyed.windows identifier n hn
  obtain ⟨a, ha⟩ := haccurate.made n ⟨identifier, hn⟩
  obtain ⟨w, hw⟩ := halike.windows.back n a ha
  obtain ⟨a', ha', hshows⟩ := halike.windows.related n w hw
  obtain rfl := Option.some.inj (Option.some.inj (ha.symm.trans ha'))
  have hcomplete : a.bytes = o.connection.delivered.flatten := haccurate.shown n a o ha ho
  refine ⟨o, w, a, ho, hw, ha, ⟨hnamed, hcomplete, draw_shows hshows⟩, fun hforward => ?_⟩
  have htimely : Timely r :=
    (timely_step json).exec (P := ClockForward) ⟨accurate_start, fun _ _ h => by cases h⟩ hforward hr
  obtain ⟨fresh, hfresh, hexec⟩ := hshows.plot
  obtain ⟨plot, series, hplot, hdrawn, hhistogram, hsum⟩ :=
    PlotThroughput.series_of_exec hfresh (by decide) (htimely.2 n a ha).1 hexec
  refine ⟨plot, series, hplot, hdrawn, hhistogram, ?_⟩
  rw [hsum, sum_dataSize, hcomplete]

end Runs

/-- In every run: the window under an identifier has been given what the connection with that
identifier has handed over, all of it, in order, and nothing else. Its text is what stays of that
since it was cleared: the characters that can be printed, white space, and the one that deletes.
Where the clock has not run backwards, its plot draws the last 100 points of a series that has one
point for each second and adds up to the bytes there were. -/
theorem windows_show_deliveries (json : JsonText) (file : RecentsFile)
    (recents : List RecentConnection) (clock : Int64) (es : List Event) (s : State WindowData)
    (he : exec (step windowData json) (start WindowData file recents clock) es = some s) :
    ∃ r, exec (step seen json) (start Seen file recents clock) es = some r ∧
      ∀ identifier n, s.system.manager.windows_.lookup identifier = some n →
        ∃ o w a, s.system.manager.objects[n]? = some o ∧ s.windows[n]? = some (some w) ∧
          r.windows[n]? = some (some a) ∧ ShowsConnection identifier o w a ∧
          (Along (step windowData json) ClockForward (start WindowData file recents clock) es →
            DrawsThroughput o w a) := by
  obtain ⟨r, hr, halike, hclock⟩ := exec_seen he
  refine ⟨r, hr, fun identifier n hn => ?_⟩
  obtain ⟨o, w, a, ho, hw, ha, hshows, hdraws⟩ := halike.shows hr hn
  exact ⟨o, w, a, ho, hw, ha, hshows, fun hforward => hdraws (hclock hforward)⟩

/-- A connection that is sent a datagram with a control character, and is idle afterwards. -/
def datagramRun : List Event :=
  [.system 5 (.add ⟨[], false, fun _ _ => .ok [], ⟨none, none⟩, .ok⟩
      (.udp { UdpOptions.withIdentifier (text "a") with listenProtocol := .ipv4 }) false),
    .system 5 (.call (text "a") (.udp (.connect ⟨none, none⟩))),
    .system 6 (.io 0 (.udp (.io (.receive 0 [104, 0, 105])))),
    .system 6 (.io 0 (.udp (.io (.run 0)))), .system 7 .tick]

theorem datagram_shown :
    ∃ s w, exec (step windowData noJson) (start WindowData ⟨none, true⟩ [] 5) datagramRun = some s ∧
      s.windows[0]? = some (some w) ∧ (w.rawText_.draw ⟨false, false⟩).2 = text "hi" ∧
      ∃ o a, o.connection.delivered = [[104, 0, 105]] ∧ DrawsThroughput o w a := by
  obtain ⟨r, hr, hshows⟩ := windows_show_deliveries noJson ⟨none, true⟩ [] 5 datagramRun _ rfl
  obtain ⟨o, w, a, ho, hw, ha, hconnection, hdraws⟩ := hshows (text "a") 0 rfl
  obtain rfl := Option.some.inj (ho.symm.trans rfl)
  refine ⟨_, w, rfl, hw, ?_, _, a, rfl, hdraws (by decide)⟩
  obtain rfl := Option.some.inj (hr.symm.trans rfl)
  obtain rfl := Option.some.inj (Option.some.inj (ha.symm.trans rfl))
  exact hconnection.text false

end Windows

end DeviceTester.Gui

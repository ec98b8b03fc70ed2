import DeviceTester.Gui.DeviceManager

/-!
# Closing a connection while the io thread runs

A connection refers to its device, and the slots of the device to the window, without
keeping them alive. `drawMenu` takes the window, the connection and the device out of
their maps one after the other, and leaves the slot connected. A handler that is
already queued keeps the connection.
-/
namespace DeviceTester.Gui

open DeviceTester.Lib DeviceTester.Connection DeviceTester.Config

/-- A public call on a connection, or something that happens to its operations. -/
inductive AnyEvent where
  | serial (e : Serial.Event)
  | tcp (e : Tcp.Event)
  | udp (e : Udp.Event)

def AnyEvent.isIo : AnyEvent → Bool
  | serial (.io _) => true
  | tcp (.io _) => true
  | udp (.io _) => true
  | _ => false

namespace AnyConnection

def step : AnyConnection → AnyEvent → Option AnyConnection
  | serial s, .serial e => (s.step e).map serial
  | tcp t, .tcp e => (t.step e).map tcp
  | udp u, .udp e => (u.step e).map udp
  | _, _ => none

/-- What a step hands to `handle_.processData`. -/
def handed : AnyConnection → AnyEvent → List Bytes
  | serial s, .serial e => s.handed e
  | tcp t, .tcp e => t.handed e
  | udp u, .udp e => u.handed e
  | _, _ => []

theorem delivered_step {c d : AnyConnection} {e : AnyEvent} (h : c.step e = some d) :
    d.delivered = c.delivered ++ c.handed e := by
  cases c with
  | serial s =>
    cases e with
    | serial e =>
      obtain ⟨u, hu, rfl⟩ := Option.map_eq_some_iff.mp h
      exact Serial.delivered_step hu
    | tcp e => cases h
    | udp e => cases h
  | tcp t =>
    cases e with
    | serial e => cases h
    | tcp e =>
      obtain ⟨u, hu, rfl⟩ := Option.map_eq_some_iff.mp h
      exact Tcp.delivered_step hu
    | udp e => cases h
  | udp u =>
    cases e with
    | serial e => cases h
    | tcp e => cases h
    | udp e =>
      obtain ⟨v, hv, rfl⟩ := Option.map_eq_some_iff.mp h
      exact Udp.delivered_step hv

/-- Only a completion hands something over. -/
theorem isIo_of_handed {c : AnyConnection} {e : AnyEvent} (h : c.handed e ≠ []) :
    e.isIo = true := by
  cases e with
  | serial e => cases e <;> cases c <;> first | rfl | exact absurd rfl h
  | tcp e => cases e <;> cases c <;> first | rfl | exact absurd rfl h
  | udp e => cases e <;> cases c <;> first | rfl | exact absurd rfl h

end AnyConnection

namespace Teardown

/-- The next statement of the close loop. -/
inductive Stage where
  | eraseWindow
  | disconnect
  | eraseConnection
  | eraseDevice
  deriving DecidableEq, Repr

/-- The manager, the identifiers that the close loop still has to take, and where it
is with the first of them. `current` holds the connections that were added under an
identifier without a window, whose close has not begun and whose device no later call
has overwritten. -/
structure State where
  manager : DeviceManager
  delayedDelete : List Bytes
  stage : Stage
  current : List Nat

def start (file : RecentsFile) (recents : List RecentConnection) : State :=
  ⟨.fresh file recents, [], .eraseWindow, []⟩

inductive Event where
  /-- The main thread. -/
  | add (a : Answers) (opts : AnyOptions) (addToRecents : Bool)
  | call (identifier : Bytes) (e : AnyEvent)
  | close (identifiers : List Bytes)
  | proceed
  /-- The io thread. -/
  | io (n : Nat) (e : AnyEvent)
  | tick
  /-- Someone else. -/
  | changeFile (file : RecentsFile)

namespace State

/-- `current` after a call of `add*Connection`. -/
def currentAfterAdd (a : Answers) (opts : AnyOptions) (s : State) : List Nat :=
  if opts.identifier ∈ s.manager.connections_ then s.current
  else
    let kept := s.current.filter fun n =>
      decide (s.manager.devices_.lookup opts.identifier ≠ some n)
    match DeviceManager.configure a opts with
    | .threw _ _ => kept
    | .returned _ =>
        if opts.identifier ∈ s.manager.windows_ then kept
        else kept ++ [s.manager.objects.length]

/-- `current` after `windows_.erase`. -/
def currentAfterErase (identifier : Bytes) (s : State) : List Nat :=
  s.current.filter fun n => decide (s.manager.windows_.lookup identifier ≠ some n)

/-- An event of the `n`-th connection. -/
def object (n : Nat) (e : AnyEvent) (s : State) : Option State :=
  match s.manager.objects[n]? with
  | none => none
  | some o => (o.connection.step e).map fun c =>
      { s with manager :=
        { s.manager with
          objects := s.manager.objects.modify n fun o => { o with connection := c } } }

/-- The statements of the close loop, for one identifier after the other. -/
def proceed (s : State) : Option State :=
  match s.delayedDelete, s.stage with
  | [], _ => none
  | identifier :: _, .eraseWindow =>
      some { s with
        manager := s.manager.eraseWindow identifier
        stage := .disconnect
        current := s.currentAfterErase identifier }
  | identifier :: _, .disconnect =>
      some { s with
        manager := s.manager.disconnectConnection identifier
        stage := .eraseConnection }
  | identifier :: _, .eraseConnection =>
      some { s with
        manager := s.manager.eraseConnection identifier
        stage := .eraseDevice }
  | identifier :: rest, .eraseDevice =>
      some { s with
        manager := s.manager.eraseDevice identifier
        delayedDelete := rest
        stage := .eraseWindow }

end State

/-- A window makes the public calls on its connection. The main thread does nothing
else while it is in the close loop, and an assertion ends the program. -/
def step (json : JsonText) (s : State) : Event → Option State
  | .add a opts addToRecents =>
      if s.delayedDelete = [] then
        match s.manager.add json a opts addToRecents with
        | (.error .assertion, _) => none
        | (_, m) => some { s with manager := m, current := s.currentAfterAdd a opts }
      else none
  | .call identifier e =>
      if s.delayedDelete = [] ∧ e.isIo = false then
        (s.manager.windows_.lookup identifier).bind fun n => s.object n e
      else none
  | .close identifiers =>
      if s.delayedDelete = [] ∧ (∀ identifier ∈ identifiers, identifier ∈ s.manager.windows_) ∧
          identifiers.Nodup then
        some { s with delayedDelete := identifiers, stage := .eraseWindow }
      else none
  | .proceed => s.proceed
  | .io n e => if e.isIo then s.object n e else none
  | .tick => some s
  | .changeFile file => some { s with manager := { s.manager with file := file } }

/-- The devices whose `processData` a step invokes: that of a connection which delivers
something, or all of them when the idle timer ticks. -/
inductive Invokes (s t : State) : Event → Nat → Prop where
  | delivery {e : Event} {n : Nat} {o o' : Object} (ho : s.manager.objects[n]? = some o)
      (ho' : t.manager.objects[n]? = some o')
      (hd : o'.connection.delivered ≠ o.connection.delivered) : Invokes s t e o.handle
  | tick {device : Nat} (hd : Stores s.manager.devices_ device) : Invokes s t .tick device

/-- `processData` is invoked on devices in `devices_` only, and a slot that it calls
belongs to a window in `windows_`. -/
def InvokesPresent (s : State) (e : Event) (t : State) : Prop :=
  ∀ device, Invokes s t e device →
    Stores s.manager.devices_ device ∧
      ∀ window, (device, window) ∈ s.manager.slots → Stores s.manager.windows_ window

/-- The handler of a successful read runs only for a current connection, and the idle
timer ticks only while every device is that of a current connection. -/
def OnTime (s : State) (e : Event) (_ : State) : Prop :=
  match e with
  | .io n io =>
      ∀ o, s.manager.objects[n]? = some o → o.connection.handed io ≠ [] → n ∈ s.current
  | .tick => ∀ device, Stores s.manager.devices_ device → device ∈ s.current
  | _ => True

/-! ## What a step invokes -/

variable {json : JsonText} {s t : State} {e : Event}

theorem object_cases {n : Nat} {e : AnyEvent} (h : s.object n e = some t) :
    ∃ o c, s.manager.objects[n]? = some o ∧ o.connection.step e = some c ∧
      t = { s with manager :=
        { s.manager with
          objects := s.manager.objects.modify n fun o => { o with connection := c } } } := by
  unfold State.object at h
  split at h
  · cases h
  · rename_i o ho
    obtain ⟨c, hc, rfl⟩ := Option.map_eq_some_iff.mp h
    exact ⟨o, c, ho, hc, rfl⟩

/-- An event of a connection leaves the other connections alone. -/
theorem object_delivers {n k : Nat} {e : AnyEvent} {o o' : Object} (h : s.object n e = some t)
    (ho : s.manager.objects[k]? = some o) (ho' : t.manager.objects[k]? = some o')
    (hd : o'.connection.delivered ≠ o.connection.delivered) :
    k = n ∧ o.connection.handed e ≠ [] := by
  obtain ⟨p, c, hp, hc, rfl⟩ := object_cases h
  by_cases hk : n = k
  · subst hk
    obtain rfl := Option.some.inj (hp.symm.trans ho)
    rw [List.getElem?_modify_eq, hp] at ho'
    obtain rfl := Option.some.inj ho'
    refine ⟨rfl, fun hnil => hd ?_⟩
    rw [AnyConnection.delivered_step hc, hnil, List.append_nil]
  · rw [List.getElem?_modify_ne _ _ hk] at ho'
    obtain rfl := Option.some.inj (ho.symm.trans ho')
    exact absurd rfl hd

theorem delivers_cases {n : Nat} {o o' : Object} (hs : step json s e = some t)
    (ho : s.manager.objects[n]? = some o) (ho' : t.manager.objects[n]? = some o')
    (hd : o'.connection.delivered ≠ o.connection.delivered) :
    ∃ io, e = .io n io ∧ o.connection.handed io ≠ [] := by
  -- all other events leave what the object has delivered
  have hkept (h : t.manager.objects[n]? = some o) : ∃ io, e = .io n io ∧ o.connection.handed io ≠ [] := by
    obtain rfl := Option.some.inj (h.symm.trans ho')
    exact absurd rfl hd
  cases e with
  | add a opts addToRecents =>
    obtain ⟨added, hadded⟩ := DeviceManager.add_objects json a opts addToRecents s.manager
    simp only [step, Option.ite_none_right_eq_some] at hs
    obtain ⟨-, hs⟩ := hs
    split at hs
    · cases hs
    · rename_i m hm
      obtain rfl := Option.some.inj hs
      rw [hm] at hadded
      refine hkept ?_
      rw [hadded, List.getElem?_append_left (List.getElem?_eq_some_iff.mp ho).1, ho]
  | call identifier io =>
    simp only [step, Option.ite_none_right_eq_some] at hs
    obtain ⟨⟨-, hio⟩, hs⟩ := hs
    obtain ⟨k, -, hk⟩ := Option.bind_eq_some_iff.mp hs
    obtain ⟨-, hhanded⟩ := object_delivers hk ho ho' hd
    cases hio.symm.trans (AnyConnection.isIo_of_handed hhanded)
  | close identifiers =>
    simp only [step, Option.ite_none_right_eq_some, Option.some.injEq] at hs
    obtain ⟨-, rfl⟩ := hs
    exact hkept ho
  | proceed =>
    simp only [step, State.proceed] at hs
    split at hs
    · cases hs
    · obtain rfl := Option.some.inj hs
      exact hkept ho
    · rename_i identifier _ _ _
      obtain rfl := Option.some.inj hs
      obtain ⟨p, hp, -, hdel⟩ := DeviceManager.getElem?_disconnect identifier ho
      obtain rfl := Option.some.inj (hp.symm.trans ho')
      exact absurd hdel hd
    · obtain rfl := Option.some.inj hs
      exact hkept ho
    · obtain rfl := Option.some.inj hs
      exact hkept ho
  | io k io =>
    simp only [step, Option.ite_none_right_eq_some] at hs
    obtain ⟨-, hs⟩ := hs
    obtain ⟨rfl, hhanded⟩ := object_delivers hs ho ho' hd
    exact ⟨io, rfl, hhanded⟩
  | tick =>
    obtain rfl := Option.some.inj hs
    exact hkept ho
  | changeFile file =>
    obtain rfl := Option.some.inj hs
    exact hkept ho

theorem invokes_of_handed {n : Nat} {io : AnyEvent} {o : Object}
    (hs : step json s (.io n io) = some t) (ho : s.manager.objects[n]? = some o)
    (hhanded : o.connection.handed io ≠ []) : Invokes s t (.io n io) o.handle := by
  simp only [step, Option.ite_none_right_eq_some] at hs
  obtain ⟨p, c, hp, hc, rfl⟩ := object_cases hs.2
  obtain rfl := Option.some.inj (hp.symm.trans ho)
  have hn : (s.manager.objects.modify n fun o => { o with connection := c })[n]? =
      some { p with connection := c } := by
    rw [List.getElem?_modify_eq, hp]
    rfl
  refine .delivery ho hn fun hsame => hhanded ?_
  exact List.append_right_eq_self.mp ((AnyConnection.delivered_step hc).symm.trans hsame)

/-! ## Devices, windows and slots -/

/-- The `n`-th connection delivers to the `n`-th device, the only slot of which is that
of the `n`-th window, and each is in its map once at most. -/
structure Wired (m : DeviceManager) : Prop where
  handles : ∀ (n : Nat) (o : Object), m.objects[n]? = some o → o.handle = n
  devices : OneKey m.devices_
  windows : OneKey m.windows_
  deviceMade : ∀ n, Stores m.devices_ n → n < m.objects.length
  windowMade : ∀ n, Stores m.windows_ n → n < m.objects.length
  slots : ∀ device window, (device, window) ∈ m.slots → device = window
  connected : ∀ device, Stores m.devices_ device → (device, device) ∈ m.slots

variable {m : DeviceManager}

theorem wired_fresh (file : RecentsFile) (recents : List RecentConnection) :
    Wired (.fresh file recents) where
  handles _ _ h := by cases h
  devices := oneKey_empty
  windows := oneKey_empty
  deviceMade _ h := by
    obtain ⟨_, h⟩ := h
    cases h
  windowMade _ h := by
    obtain ⟨_, h⟩ := h
    cases h
  slots _ _ h := by cases h
  connected _ h := by
    obtain ⟨_, h⟩ := h
    cases h

namespace Wired

/-- Devices and windows may leave their maps. -/
theorem erase (h : Wired m) {m' : DeviceManager} (identifier : Bytes)
    (ho : m'.objects = m.objects) (hs : m'.slots = m.slots)
    (hd : m'.devices_ = m.devices_ ∨ m'.devices_ = m.devices_.erase identifier)
    (hw : m'.windows_ = m.windows_ ∨ m'.windows_ = m.windows_.erase identifier) : Wired m' := by
  have hdevices : OneKey m'.devices_ ∧ ∀ n, Stores m'.devices_ n → Stores m.devices_ n := by
    rcases hd with hd | hd
    · rw [hd]
      exact ⟨h.devices, fun _ hn => hn⟩
    · rw [hd]
      exact ⟨h.devices.erase identifier, fun _ hn => hn.of_erase⟩
  have hwindows : OneKey m'.windows_ ∧ ∀ n, Stores m'.windows_ n → Stores m.windows_ n := by
    rcases hw with hw | hw
    · rw [hw]
      exact ⟨h.windows, fun _ hn => hn⟩
    · rw [hw]
      exact ⟨h.windows.erase identifier, fun _ hn => hn.of_erase⟩
  constructor
  · rw [ho]
    exact h.handles
  · exact hdevices.1
  · exact hwindows.1
  · rw [ho]
    exact fun n hn => h.deviceMade n (hdevices.2 n hn)
  · rw [ho]
    exact fun n hn => h.windowMade n (hwindows.2 n hn)
  · rw [hs]
    exact h.slots
  · rw [hs]
    exact fun n hn => h.connected n (hdevices.2 n hn)

theorem deviceFresh (h : Wired m) : ¬ Stores m.devices_ m.objects.length :=
  fun hn => Nat.lt_irrefl _ (h.deviceMade _ hn)

theorem windowFresh (h : Wired m) : ¬ Stores m.windows_ m.objects.length :=
  fun hn => Nat.lt_irrefl _ (h.windowMade _ hn)

theorem appendObject (h : Wired m) (con : AnyConnection) :
    Wired { m with objects := m.objects ++ [⟨con, m.objects.length⟩] } := by
  have hlength (o : Object) : (m.objects ++ [o]).length = m.objects.length + 1 :=
    List.length_append
  refine ⟨fun n o ho => ?_, h.devices, h.windows, fun n hn => ?_, fun n hn => ?_, h.slots,
    h.connected⟩
  · by_cases hn : n < m.objects.length
    · rw [List.getElem?_append_left hn] at ho
      exact h.handles n o ho
    · have hlt := (List.getElem?_eq_some_iff.mp ho).1
      rw [hlength] at hlt
      obtain rfl : n = m.objects.length := by omega
      rw [List.getElem?_concat_length] at ho
      obtain rfl := Option.some.inj ho
      rfl
  · rw [hlength]
    exact Nat.lt_succ_of_lt (h.deviceMade n hn)
  · rw [hlength]
    exact Nat.lt_succ_of_lt (h.windowMade n hn)

/-- A call that cannot configure its connection takes the new device out again. -/
theorem failed (h : Wired m) (identifier : Bytes) (con : AnyConnection) :
    Wired { m.makeDevice identifier con with
      devices_ := (m.makeDevice identifier con).devices_.erase identifier } :=
  (h.appendObject con).erase identifier rfl rfl (.inr erase_insert) (.inl rfl)

theorem withWindow (h : Wired m) (identifier : Bytes) (con : AnyConnection) :
    Wired (m.withWindow identifier con) := by
  have hlength : (m.withWindow identifier con).objects.length = m.objects.length + 1 :=
    List.length_append
  have hdevice : (m.withWindow identifier con).devices_ =
    m.devices_.insert identifier m.objects.length := rfl
  have hwindow : (m.withWindow identifier con).windows_ =
    if identifier ∈ m.windows_ then m.windows_
    else m.windows_.insert identifier m.objects.length := rfl
  have hslot : (m.withWindow identifier con).slots =
    m.slots ++ [(m.objects.length, m.objects.length)] := rfl
  constructor
  · exact (h.appendObject con).handles
  · rw [hdevice]
    exact h.devices.insert h.deviceFresh identifier
  · rw [hwindow]
    split
    · exact h.windows
    · exact h.windows.insert h.windowFresh identifier
  · intro n hn
    rw [hdevice] at hn
    rw [hlength]
    rcases hn.of_insert with rfl | ⟨k, -, hk⟩
    · exact Nat.lt_succ_self _
    · exact Nat.lt_succ_of_lt (h.deviceMade n ⟨k, hk⟩)
  · intro n hn
    rw [hwindow] at hn
    rw [hlength]
    split at hn
    · exact Nat.lt_succ_of_lt (h.windowMade n hn)
    · rcases hn.of_insert with rfl | ⟨k, -, hk⟩
      · exact Nat.lt_succ_self _
      · exact Nat.lt_succ_of_lt (h.windowMade n ⟨k, hk⟩)
  · intro device window hmem
    rw [hslot] at hmem
    rcases List.mem_append.mp hmem with hold | hnew
    · exact h.slots device window hold
    · obtain ⟨rfl, rfl⟩ := Prod.mk.inj (List.mem_singleton.mp hnew)
      rfl
  · intro device hd
    rw [hdevice] at hd
    rw [hslot]
    rcases hd.of_insert with rfl | ⟨k, -, hk⟩
    · exact List.mem_append_right _ (List.mem_singleton.mpr rfl)
    · exact List.mem_append_left _ (h.connected device ⟨k, hk⟩)

/-- What becomes of a connection leaves the device that it delivers to. -/
theorem modifyObject (h : Wired m) (n : Nat) (f : AnyConnection → AnyConnection) :
    Wired { m with
      objects := m.objects.modify n fun o => { o with connection := f o.connection } } := by
  have hlength :
      (m.objects.modify n fun o => { o with connection := f o.connection }).length =
        m.objects.length :=
    List.length_modify _ _ _
  refine ⟨fun k o ho => ?_, h.devices, h.windows, fun k hk => ?_, fun k hk => ?_, h.slots,
    h.connected⟩
  · by_cases hk : n = k
    · subst hk
      rw [List.getElem?_modify_eq] at ho
      obtain ⟨o', ho', rfl⟩ := Option.map_eq_some_iff.mp ho
      exact h.handles n o' ho'
    · rw [List.getElem?_modify_ne _ _ hk] at ho
      exact h.handles k o ho
  · rw [hlength]
    exact h.deviceMade k hk
  · rw [hlength]
    exact h.windowMade k hk

end Wired

/-! ## The current connections -/

/-- The current connections are those whose device and window are both in their maps.
The close loop goes on with an identifier that has no window any more. -/
structure Linked (s : State) : Prop where
  wired : Wired s.manager
  current : ∀ n ∈ s.current, ∃ identifier,
    s.manager.devices_.lookup identifier = some n ∧ s.manager.windows_.lookup identifier = some n
  complete : ∀ n, Stores s.manager.devices_ n → Stores s.manager.windows_ n → n ∈ s.current
  closing : ∀ identifier rest, s.delayedDelete = identifier :: rest → s.stage ≠ .eraseWindow →
    identifier ∉ s.manager.windows_

theorem linked_start (file : RecentsFile) (recents : List RecentConnection) :
    Linked (start file recents) where
  wired := wired_fresh file recents
  current _ h := by cases h
  complete _ h := by
    obtain ⟨_, h⟩ := h
    cases h
  closing _ _ h := by cases h

theorem mem_currentAfterAdd_of_threw {a : Answers} {opts : AnyOptions} {con : AnyConnection}
    {what : Bytes} (hin : opts.identifier ∉ s.manager.connections_)
    (hc : DeviceManager.configure a opts = .threw con what) (n : Nat) :
    n ∈ s.currentAfterAdd a opts ↔
      n ∈ s.current ∧ s.manager.devices_.lookup opts.identifier ≠ some n := by
  simp [State.currentAfterAdd, hin, hc]

theorem mem_currentAfterAdd_of_returned {a : Answers} {opts : AnyOptions} {con : AnyConnection}
    (hin : opts.identifier ∉ s.manager.connections_)
    (hc : DeviceManager.configure a opts = .returned con) (n : Nat) :
    n ∈ s.currentAfterAdd a opts ↔
      (n ∈ s.current ∧ s.manager.devices_.lookup opts.identifier ≠ some n) ∨
        (opts.identifier ∉ s.manager.windows_ ∧ n = s.manager.objects.length) := by
  rw [State.currentAfterAdd, if_neg hin, hc]
  by_cases hw : opts.identifier ∈ s.manager.windows_
  · simp [hw]
  · simp [hw]

namespace Linked

theorem withRecents (h : Linked s) (connections : Map Nat) (recents : List RecentConnection)
    (file : RecentsFile) :
    Linked { s with manager :=
      { s.manager with
        connections_ := connections, recentConnections_ := recents, file := file } } :=
  ⟨⟨h.wired.handles, h.wired.devices, h.wired.windows, h.wired.deviceMade, h.wired.windowMade,
    h.wired.slots, h.wired.connected⟩, h.current, h.complete, h.closing⟩

theorem failed (h : Linked s) (hidle : s.delayedDelete = []) {a : Answers} {opts : AnyOptions}
    {con : AnyConnection} {what : Bytes} (hin : opts.identifier ∉ s.manager.connections_)
    (hc : DeviceManager.configure a opts = .threw con what) :
    Linked { s with
      manager := { s.manager.makeDevice opts.identifier con with
        devices_ := (s.manager.makeDevice opts.identifier con).devices_.erase opts.identifier }
      current := s.currentAfterAdd a opts } := by
  have herase : (s.manager.makeDevice opts.identifier con).devices_.erase opts.identifier =
    s.manager.devices_.erase opts.identifier := erase_insert
  refine ⟨h.wired.failed opts.identifier con, fun n hn => ?_, fun n hd hw => ?_, fun _ _ hl => ?_⟩
  · obtain ⟨hn, hne⟩ := (mem_currentAfterAdd_of_threw hin hc n).mp hn
    obtain ⟨identifier, hd, hw⟩ := h.current n hn
    refine ⟨identifier, ?_, hw⟩
    rw [herase]
    refine lookup_erase_eq_some.mpr ⟨fun heq => ?_, hd⟩
    rw [heq] at hd
    exact hne hd
  · rw [herase] at hd
    refine (mem_currentAfterAdd_of_threw hin hc n).mpr ⟨h.complete n hd.of_erase hw, ?_⟩
    exact h.wired.devices.ne_of_stores_erase hd
  · cases hidle.symm.trans hl

theorem entered (h : Linked s) (hidle : s.delayedDelete = []) {a : Answers} {opts : AnyOptions}
    {con : AnyConnection} (hin : opts.identifier ∉ s.manager.connections_)
    (hc : DeviceManager.configure a opts = .returned con) :
    Linked { s with
      manager := s.manager.withWindow opts.identifier con
      current := s.currentAfterAdd a opts } := by
  have hdevice : (s.manager.withWindow opts.identifier con).devices_ =
    s.manager.devices_.insert opts.identifier s.manager.objects.length := rfl
  have hwindow : (s.manager.withWindow opts.identifier con).windows_ =
    if opts.identifier ∈ s.manager.windows_ then s.manager.windows_
    else s.manager.windows_.insert opts.identifier s.manager.objects.length := rfl
  refine ⟨h.wired.withWindow opts.identifier con, fun n hn => ?_, fun n hd hw => ?_,
    fun _ _ hl => ?_⟩
  · rw [hdevice, hwindow]
    rcases (mem_currentAfterAdd_of_returned hin hc n).mp hn with ⟨hn, hne⟩ | ⟨hnew, rfl⟩
    · -- an older connection keeps its device and its window
      obtain ⟨identifier, hd, hw⟩ := h.current n hn
      have hid : identifier ≠ opts.identifier := by
        intro heq
        rw [heq] at hd
        exact hne hd
      refine ⟨identifier, (AList.lookup_insert_ne hid).trans hd, ?_⟩
      split
      · exact hw
      · exact (AList.lookup_insert_ne hid).trans hw
    · refine ⟨opts.identifier, AList.lookup_insert _, ?_⟩
      rw [if_neg hnew]
      exact AList.lookup_insert _
  · rw [hdevice] at hd
    rw [hwindow] at hw
    refine (mem_currentAfterAdd_of_returned hin hc n).mpr ?_
    rcases hd.of_insert with rfl | ⟨identifier, hid, hd⟩
    · -- the new device: its window is there unless there was one already
      refine .inr ⟨fun hold => ?_, rfl⟩
      rw [if_pos hold] at hw
      exact h.wired.windowFresh hw
    · have hne : n ≠ s.manager.objects.length := by
        intro heq
        rw [heq] at hd
        exact h.wired.deviceFresh ⟨identifier, hd⟩
      have hw' : Stores s.manager.windows_ n := by
        split at hw
        · exact hw
        · rcases hw.of_insert with hn | ⟨k, -, hk⟩
          · exact absurd hn.symm hne
          · exact ⟨k, hk⟩
      refine .inl ⟨h.complete n ⟨identifier, hd⟩ hw', fun hold => hid ?_⟩
      exact h.wired.devices hd hold
  · cases hidle.symm.trans hl

theorem eraseWindow (h : Linked s) {identifier : Bytes} {rest : List Bytes}
    (hl : s.delayedDelete = identifier :: rest) :
    Linked { s with
      manager := s.manager.eraseWindow identifier
      stage := .disconnect
      current := s.currentAfterErase identifier } := by
  have hmem (n : Nat) : n ∈ s.currentAfterErase identifier ↔
      n ∈ s.current ∧ s.manager.windows_.lookup identifier ≠ some n := by
    simp [State.currentAfterErase]
  refine ⟨h.wired.erase identifier rfl rfl (.inl rfl) (.inr rfl), fun n hn => ?_,
    fun n hd hw => ?_, fun identifier' rest' hl' _ => ?_⟩
  · obtain ⟨hn, hne⟩ := (hmem n).mp hn
    obtain ⟨k, hd, hw⟩ := h.current n hn
    refine ⟨k, hd, lookup_erase_eq_some.mpr ⟨fun heq => ?_, hw⟩⟩
    rw [heq] at hw
    exact hne hw
  · refine (hmem n).mpr ⟨h.complete n hd hw.of_erase, ?_⟩
    exact h.wired.windows.ne_of_stores_erase hw
  · obtain ⟨rfl, -⟩ := List.cons.inj (hl.symm.trans hl')
    exact fun hw => (AList.mem_erase.mp hw).1 rfl

theorem modifyObject (h : Linked s) (n : Nat) (f : AnyConnection → AnyConnection) :
    Linked { s with manager :=
      { s.manager with
        objects := s.manager.objects.modify n fun o => { o with connection := f o.connection } } } :=
  ⟨h.wired.modifyObject n f, h.current, h.complete, h.closing⟩

theorem disconnect (h : Linked s) (identifier : Bytes) :
    Linked { s with manager := s.manager.disconnectConnection identifier } := by
  unfold DeviceManager.disconnectConnection
  split
  · exact h
  · exact h.modifyObject _ AnyConnection.disconnect

/-- The loop goes on to the next statement for the same identifier. -/
theorem advance (h : Linked s) (hstage : s.stage ≠ .eraseWindow) (stage : Stage) :
    Linked { s with stage := stage } :=
  ⟨h.wired, h.current, h.complete, fun identifier rest hl _ => h.closing identifier rest hl hstage⟩

theorem eraseDevice (h : Linked s) {identifier : Bytes} {rest : List Bytes}
    (hl : s.delayedDelete = identifier :: rest) (hstage : s.stage ≠ .eraseWindow) :
    Linked { s with
      manager := s.manager.eraseDevice identifier
      delayedDelete := rest
      stage := .eraseWindow } := by
  refine ⟨h.wired.erase identifier rfl rfl (.inr rfl) (.inl rfl), fun n hn => ?_,
    fun n hd hw => h.complete n hd.of_erase hw, fun _ _ _ hs => absurd rfl hs⟩
  -- the window of a current connection is still there, so its identifier is another one
  obtain ⟨k, hd, hw⟩ := h.current n hn
  have hgone := AList.lookup_eq_none.mpr (h.closing identifier rest hl hstage)
  refine ⟨k, lookup_erase_eq_some.mpr ⟨fun heq => ?_, hd⟩, hw⟩
  rw [heq, hgone] at hw
  cases hw

theorem proceed (h : Linked s) (hs : s.proceed = some t) : Linked t := by
  unfold State.proceed at hs
  split at hs
  · cases hs
  · rename_i identifier rest hl hstage
    obtain rfl := Option.some.inj hs
    exact h.eraseWindow hl
  · rename_i identifier rest hl hstage
    obtain rfl := Option.some.inj hs
    refine (h.disconnect identifier).advance ?_ .eraseConnection
    exact fun hw => by cases hstage.symm.trans hw
  · rename_i identifier rest hl hstage
    obtain rfl := Option.some.inj hs
    refine (h.withRecents _ s.manager.recentConnections_ s.manager.file).advance ?_ .eraseDevice
    exact fun hw => by cases hstage.symm.trans hw
  · rename_i identifier rest hl hstage
    obtain rfl := Option.some.inj hs
    refine h.eraseDevice hl ?_
    exact fun hw => by cases hstage.symm.trans hw

theorem object (h : Linked s) {n : Nat} {e : AnyEvent} (hs : s.object n e = some t) : Linked t := by
  obtain ⟨o, c, -, -, rfl⟩ := object_cases hs
  exact h.modifyObject n fun _ => c

theorem add (h : Linked s) (hidle : s.delayedDelete = []) (json : JsonText) (a : Answers)
    (opts : AnyOptions) (addToRecents : Bool) :
    Linked { s with
      manager := (s.manager.add json a opts addToRecents).2
      current := s.currentAfterAdd a opts } := by
  have hcases := DeviceManager.add_cases json a opts addToRecents s.manager
  generalize s.manager.add json a opts addToRecents = r at hcases ⊢
  obtain ⟨added, m⟩ := r
  cases hcases with
  | inUse hin message =>
    have hsame : s.currentAfterAdd a opts = s.current := if_pos hin
    rw [hsame]
    exact h
  | failed hin con what message hc => exact h.failed hidle hin hc
  | threw hin con recents file e hc hadd haccept =>
    exact (h.entered hidle hin hc).withRecents s.manager.connections_ recents file
  | added hin con recents file message hc haccept =>
    exact (h.entered hidle hin hc).withRecents _ recents file

end Linked

theorem linked_step (json : JsonText) : Keeps (step json) anyStep Linked := by
  intro s e t h _ hs
  cases e with
  | add a opts addToRecents =>
    simp only [step, Option.ite_none_right_eq_some] at hs
    obtain ⟨hidle, hs⟩ := hs
    have hadd := h.add hidle json a opts addToRecents
    split at hs
    · cases hs
    · rename_i m hm
      obtain rfl := Option.some.inj hs
      rw [hm] at hadd
      exact hadd
  | call identifier io =>
    simp only [step, Option.ite_none_right_eq_some] at hs
    obtain ⟨-, hs⟩ := hs
    obtain ⟨n, -, hn⟩ := Option.bind_eq_some_iff.mp hs
    exact h.object hn
  | close identifiers =>
    simp only [step, Option.ite_none_right_eq_some, Option.some.injEq] at hs
    obtain ⟨-, rfl⟩ := hs
    exact ⟨h.wired, h.current, h.complete, fun _ _ _ hstage => absurd rfl hstage⟩
  | proceed => exact h.proceed hs
  | io n io =>
    simp only [step, Option.ite_none_right_eq_some] at hs
    exact h.object hs.2
  | tick =>
    obtain rfl := Option.some.inj hs
    exact h
  | changeFile file =>
    obtain rfl := Option.some.inj hs
    exact h.withRecents s.manager.connections_ s.manager.recentConnections_ file

/-! ## What is invoked is present -/

/-- A device is in `devices_` with the windows of all its slots exactly when it is that
of a current connection. -/
theorem Linked.present_iff (h : Linked s) (n : Nat) :
    (Stores s.manager.devices_ n ∧
      ∀ window, (n, window) ∈ s.manager.slots → Stores s.manager.windows_ window) ↔
      n ∈ s.current := by
  constructor
  · intro hpresent
    obtain ⟨hdevice, hslots⟩ := hpresent
    exact h.complete n hdevice (hslots n (h.wired.connected n hdevice))
  · intro hn
    obtain ⟨identifier, hdevice, hwindow⟩ := h.current n hn
    refine ⟨⟨identifier, hdevice⟩, fun window hslot => ?_⟩
    rw [← h.wired.slots n window hslot]
    exact ⟨identifier, hwindow⟩

theorem onTime_of_invokesPresent (h : Linked s) (hs : step json s e = some t)
    (hpresent : InvokesPresent s e t) : OnTime s e t := by
  cases e with
  | io n io =>
    intro o ho hhanded
    have hn := hpresent o.handle (invokes_of_handed hs ho hhanded)
    rw [h.present_iff, h.wired.handles n o ho] at hn
    exact hn
  | tick =>
    intro device hdevice
    exact (h.present_iff device).mp (hpresent device (.tick hdevice))
  | _ => trivial

theorem invokesPresent_of_onTime (h : Linked s) (hs : step json s e = some t)
    (htime : OnTime s e t) : InvokesPresent s e t := by
  intro device hinvokes
  rw [h.present_iff]
  cases hinvokes with
  | delivery ho ho' hd =>
    obtain ⟨io, rfl, hhanded⟩ := delivers_cases hs ho ho' hd
    rw [h.wired.handles _ _ ho]
    exact htime _ ho hhanded
  | tick hdevice => exact htime device hdevice

/-- In a run from a fresh manager, `processData` is invoked on devices and calls slots
of windows that are present exactly when every successful read and every tick is on time. -/
theorem along_invokesPresent_iff (json : JsonText) (file : RecentsFile)
    (recents : List RecentConnection) (es : List Event) :
    Along (step json) InvokesPresent (start file recents) es ↔
      Along (step json) OnTime (start file recents) es :=
  along_congr (linked_step json)
    (fun _ _ _ h hs => ⟨onTime_of_invokesPresent h hs, invokesPresent_of_onTime h hs⟩)
    (linked_start file recents) es

/-- A datagram has arrived on a connection when its window is told to close it. -/
def closeRun : List Event :=
  [.add ⟨[], false, fun _ _ => .ok [], ⟨none, none⟩, .ok⟩
      (.udp { UdpOptions.withIdentifier (text "a") with listenProtocol := .ipv4 }) false,
    .call (text "a") (.udp (.connect ⟨none, none⟩)), .io 0 (.udp (.io (.receive 0 [1]))),
    .close [text "a"], .proceed, .proceed, .proceed, .proceed]

/-- The handler of the receive runs after the close. -/
theorem queued_receive_invokes_absent :
    ¬ Along (step noJson) InvokesPresent (start ⟨none, true⟩ [])
      (closeRun ++ [.io 0 (.udp (.io (.run 0)))]) := by
  intro h
  have hlast := ((along_append _ closeRun _).mp h).2 _ rfl
  obtain ⟨⟨identifier, hdevice⟩, -⟩ := (hlast.cons rfl).1 _ (.delivery (n := 0) rfl rfl (by decide))
  cases hdevice

end Teardown

end DeviceTester.Gui

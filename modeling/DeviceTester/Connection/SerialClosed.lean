import DeviceTester.Connection.SerialConnect

/-!
# A serial port never stays open

`Serial::open` and `Serial::applyOptions` end with a port that the last round has closed and that
`serial_.open` has refused. So no other call ever finds the port open.
-/
namespace DeviceTester.Connection.Serial

open DeviceTester.Lib

variable {device : Device} {s u : Serial}

theorem isOpen_setPortOptions (device : Device) (s : Serial) :
    (s.setPortOptions device).state.serial_.isOpen = s.serial_.isOpen := by
  have hset : ∀ (set : PortSettings → PortSettings) (s : Serial),
      (s.serialSetOption device set).state.serial_.isOpen = s.serial_.isOpen := by
    intro set s
    unfold serialSetOption callDevice
    split <;> rfl
  unfold setPortOptions
  iterate 4 refine Outcome.andThen_keeps (fun s : Serial => s.serial_.isOpen) ?_ (hset _)
  exact hset _ s

/-- Where `open` ends, and where `applyOptions` ends that has found the port open, the port is
closed. The induction is on the depth of the recursion. -/
theorem recursion_closes (device : Device) (depth : Nat) :
    (∀ s o, openPort device depth s = some o → o.state.serial_.isOpen = false) ∧
      ∀ s o, s.serial_.isOpen = true → applyOptions device depth s = some o →
        o.state.serial_.isOpen = false := by
  induction depth with
  | zero => exact ⟨fun _ _ h => (by cases h), fun _ _ _ h => (by cases h)⟩
  | succ depth ih =>
    obtain ⟨ihOpen, ihApply⟩ := ih
    constructor
    · intro s o h
      cases hs : s.serial_.isOpen with
      | true =>
        rw [openPort_of_open hs] at h
        exact ihApply s o hs h
      | false =>
        cases hd : device s.deviceCalls with
        | none =>
          rw [openPort_of_closed hs hd] at h
          exact ihApply s.opened o rfl h
        | some what =>
          -- the only way out: `serial_.open` refuses
          rw [openPort] at h
          simp only [hs, Bool.not_false, if_true, serialOpen, callDevice, hd] at h
          obtain rfl := Option.some.inj h
          exact hs
    · intro s o hs h
      rw [applyOptions_of_open hs] at h
      obtain ⟨opened, hopened, rfl⟩ := Option.map_eq_some_iff.mp h
      obtain ⟨t, what, rfl⟩ := (recursion_throws device depth).1 _ _ hopened
      exact ihOpen _ _ hopened

theorem isOpen_applyOptions {depth : Nat} {o : Outcome Bytes Serial}
    (hs : s.serial_.isOpen = false) (h : applyOptions device depth s = some o) :
    o.state.serial_.isOpen = false := by
  cases depth with
  | zero => cases h
  | succ depth =>
    rw [applyOptions_of_closed hs] at h
    obtain rfl := Option.some.inj h
    rw [isOpen_setPortOptions, hs]

/-- The port is closed, and nothing has been started, handed over or sent. -/
structure Idle (s : Serial) : Prop where
  closed : s.serial_.isOpen = false
  pending : s.pending = []
  delivered : s.delivered = []
  wire : s.wire = []

/-- What an idle object has done with its port so far. -/
def traffic (s : Serial) : Nat × List Bytes × Bytes := (s.pending.length, s.delivered, s.wire)

theorem Idle.of_traffic (hs : s.Idle) (hclosed : u.serial_.isOpen = false)
    (htraffic : u.traffic = s.traffic) : u.Idle := by
  obtain ⟨hpending, hrest⟩ := Prod.mk.inj htraffic
  obtain ⟨hdelivered, hwire⟩ := Prod.mk.inj hrest
  rw [hs.pending] at hpending
  exact ⟨hclosed, List.eq_nil_of_length_eq_zero hpending, hdelivered.trans hs.delivered,
    hwire.trans hs.wire⟩

theorem traffic_disconnect (s : Serial) : s.disconnect.traffic = s.traffic := by
  unfold disconnect
  split
  · simp [traffic]
  · rfl

theorem traffic_recursion (device : Device) (depth : Nat) :
    (∀ s o, openPort device depth s = some o → o.state.traffic = s.traffic) ∧
      ∀ s o, applyOptions device depth s = some o → o.state.traffic = s.traffic :=
  recursion_keeps traffic (callDevice_keeps traffic fun _ _ _ => rfl) traffic_disconnect depth

/-- `connect()` throws where it ends, and has closed the port again. -/
theorem Idle.connect {depth : Nat} {o : Outcome Bytes Serial} (hs : s.Idle)
    (h : s.connect device depth = some o) : (∃ t what, o = .threw t what) ∧ o.state.Idle := by
  obtain ⟨opened, hopened, rfl⟩ := Option.map_eq_some_iff.mp h
  obtain ⟨t, what, rfl⟩ := (recursion_throws device depth).1 s opened hopened
  have hclosed : t.serial_.isOpen = false := (recursion_closes device depth).1 s _ hopened
  have htraffic : t.traffic = s.traffic := (traffic_recursion device depth).1 s _ hopened
  exact ⟨⟨t, what, rfl⟩, hs.of_traffic hclosed htraffic⟩

theorem Idle.step {e : Event} (hs : s.Idle) (h : step s e = some u) : u.Idle := by
  cases e with
  | connect device depth =>
    obtain ⟨o, ho, rfl⟩ := Option.map_eq_some_iff.mp h
    exact (hs.connect ho).2
  | disconnect =>
    obtain rfl := Option.some.inj h
    have hsame : s.disconnect = s := by simp [disconnect, hs.closed]
    exact hsame.symm ▸ hs
  | applyOptions device depth =>
    obtain ⟨o, ho, rfl⟩ := Option.map_eq_some_iff.mp h
    have hclosed : o.state.serial_.isOpen = false := isOpen_applyOptions hs.closed ho
    exact hs.of_traffic hclosed ((traffic_recursion device depth).2 s o ho)
  | setOptions options =>
    obtain rfl := Option.some.inj h
    exact ⟨hs.closed, hs.pending, hs.delivered, hs.wire⟩
  | write data =>
    obtain rfl := Option.some.inj h
    have hsame : s.write data = s := by simp [write, hs.closed]
    exact hsame.symm ▸ hs
  | io x =>
    -- no operation has been started that could complete
    cases x with
    | receive i data =>
      obtain ⟨stamp, hop, -⟩ := io_receive h
      simp [hs.pending] at hop
    | finish i r =>
      obtain ⟨kind, stamp, hop, -⟩ := io_finish h
      simp [hs.pending] at hop
    | run i =>
      obtain ⟨kind, stamp, r, hop, -⟩ := io_run h
      simp [hs.pending] at hop

/-- In every run of an object, whatever devices it meets, the port is closed after each call,
`connect()` throws wherever it ends, and no byte is ever read, handed over or written. -/
theorem stays_idle (identifier rx : Bytes) (es : List Event) (u : Serial)
    (he : exec step (initial identifier rx) es = some u) :
    u.Idle ∧ ∀ device depth o, u.connect device depth = some o → ∃ t what, o = .threw t what := by
  have hinitial : (initial identifier rx).Idle := ⟨rfl, rfl, rfl, rfl⟩
  have hk : Keeps step anyStep Idle := fun _ _ _ hs _ h => hs.step h
  have hu : u.Idle := hk.exec hinitial (along_anyStep _ _) he
  exact ⟨hu, fun _ _ _ h => (hu.connect h).1⟩

/-- A device that can be opened once, with options applied before and data written after. -/
def refusedRun : List Event :=
  [.applyOptions (fun _ => none) 1,
    .connect (fun n => if n < 6 then none else some (text "open: Device or resource busy")) 3,
    .write (text "ab")]

theorem refused_idle :
    ∃ u, exec step (initial (text "gps") []) refusedRun = some u ∧ u.Idle ∧
      u.serial_.generation = 1 :=
  ⟨_, rfl, (stays_idle (text "gps") [] refusedRun _ rfl).1, rfl⟩

end DeviceTester.Connection.Serial

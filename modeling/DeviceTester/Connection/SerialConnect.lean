import DeviceTester.Connection.Serial

/-!
# `Serial::open` and `Serial::applyOptions` call each other

On a device that accepts every call, `applyOptions` closes the port it finds
open and calls `open`, which opens it and calls `applyOptions` again. Each round
makes one more call on the device. The recursion is left only through an
exception of `serial_.open`, so the calls that enter it never return.
-/
namespace DeviceTester.Connection.Serial

open DeviceTester.Lib

variable {device : Device} {s : Serial}

/-- The device accepts the call at hand and all later ones. -/
def Accepts (device : Device) (s : Serial) : Prop :=
  ∀ k, device (s.deviceCalls + k) = none

/-- The state after `serial_.open` has succeeded. -/
def opened (s : Serial) : Serial :=
  { s with
    serial_ := ⟨true, s.serial_.generation + 1, {}⟩
    deviceCalls := s.deviceCalls + 1 }

@[simp] theorem deviceCalls_disconnect : s.disconnect.deviceCalls = s.deviceCalls := by
  unfold disconnect
  split <;> rfl

@[simp] theorem isOpen_disconnect : s.disconnect.serial_.isOpen = false := by
  unfold disconnect
  cases h : s.serial_.isOpen <;> simp [h]

theorem accepts_opened (h : Accepts device s) : Accepts device s.opened := by
  intro k
  have hk := h (k + 1)
  rwa [Nat.add_comm k 1, ← Nat.add_assoc] at hk

theorem serialOpen_accepted (h : device s.deviceCalls = none) :
    s.serialOpen device = .returned s.opened := by
  simp [serialOpen, callDevice, h, opened]

theorem openPort_of_open (h : s.serial_.isOpen = true) (depth : Nat) :
    openPort device (depth + 1) s = applyOptions device depth s := by
  simp [openPort, h]

theorem openPort_of_closed (hc : s.serial_.isOpen = false) (h : device s.deviceCalls = none)
    (depth : Nat) : openPort device (depth + 1) s = applyOptions device depth s.opened := by
  simp [openPort, hc, serialOpen_accepted h]

theorem applyOptions_of_open (h : s.serial_.isOpen = true) (depth : Nat) :
    applyOptions device (depth + 1) s =
      (openPort device depth s.disconnect).map fun o => o.andThen (setPortOptions device) := by
  simp [applyOptions, isConnected, h]

theorem applyOptions_of_closed (h : s.serial_.isOpen = false) (depth : Nat) :
    applyOptions device (depth + 1) s = some (s.setPortOptions device) := by
  simp [applyOptions, isConnected, h]

/-- No depth of recursion is enough. The induction is on the depth: a round of
`open` and `applyOptions` is back at the closed port it began with. -/
theorem recursion_none (device : Device) (depth : Nat) :
    (∀ s, Accepts device s → openPort device depth s = none) ∧
      ∀ s, Accepts device s → s.serial_.isOpen = true → applyOptions device depth s = none := by
  induction depth with
  | zero => exact ⟨fun _ _ => rfl, fun _ _ _ => rfl⟩
  | succ depth ih =>
    obtain ⟨ihOpen, ihApply⟩ := ih
    constructor
    · intro s h
      cases hs : s.serial_.isOpen with
      | true =>
        rw [openPort_of_open hs]
        exact ihApply s h hs
      | false =>
        rw [openPort_of_closed hs (h 0)]
        exact ihApply s.opened (accepts_opened h) rfl
    · intro s h hs
      have hd : Accepts device s.disconnect := by
        intro k
        rw [deviceCalls_disconnect]
        exact h k
      rw [applyOptions_of_open hs, ihOpen _ hd]
      rfl

theorem openPort_none (h : Accepts device s) (depth : Nat) : openPort device depth s = none :=
  (recursion_none device depth).1 s h

theorem connect_none (h : Accepts device s) (depth : Nat) : connect device depth s = none := by
  unfold connect
  rw [openPort_none h]
  rfl

/-- From a closed port, `open` ends with the first refusal of the device. -/
theorem openPort_throws_closed (device : Device) (k : Nat) :
    ∀ (s : Serial) (what : Bytes), s.serial_.isOpen = false →
      (∀ j < k, device (s.deviceCalls + j) = none) → device (s.deviceCalls + k) = some what →
      ∃ depth t, openPort device depth s = some (.threw t what) := by
  induction k with
  | zero =>
    intro s what hs _ hk
    refine ⟨1, { s with deviceCalls := s.deviceCalls + 1 }, ?_⟩
    rw [Nat.add_zero] at hk
    simp [openPort, hs, serialOpen, callDevice, hk]
  | succ k ih =>
    intro s what hs hlt hk
    have hc : s.opened.disconnect.deviceCalls = s.deviceCalls + 1 := deviceCalls_disconnect
    obtain ⟨depth, t, ht⟩ := ih s.opened.disconnect what isOpen_disconnect
      (fun j hj => by
        have h := hlt (j + 1) (Nat.succ_lt_succ hj)
        rwa [hc, Nat.add_assoc, Nat.add_comm 1 j])
      (by rwa [hc, Nat.add_assoc, Nat.add_comm 1 k])
    refine ⟨depth + 2, t, ?_⟩
    rw [openPort_of_closed hs (hlt 0 (Nat.succ_pos k)), applyOptions_of_open rfl, ht]
    rfl

theorem openPort_throws (k : Nat) (what : Bytes)
    (hlt : ∀ j < k, device (s.deviceCalls + j) = none)
    (hk : device (s.deviceCalls + k) = some what) :
    ∃ depth t, openPort device depth s = some (.threw t what) := by
  cases hs : s.serial_.isOpen with
  | false => exact openPort_throws_closed device k s what hs hlt hk
  | true =>
    obtain ⟨depth, t, ht⟩ := openPort_throws_closed device k s.disconnect what
      isOpen_disconnect (by simpa using hlt) (by simpa using hk)
    refine ⟨depth + 2, t, ?_⟩
    rw [openPort_of_open hs, applyOptions_of_open hs, ht]
    rfl

/-- `open` ends exactly when the device refuses some call, and then it throws. -/
theorem openPort_ends_iff :
    Ends (fun depth => openPort device depth s) ↔ ∃ k, device (s.deviceCalls + k) ≠ none := by
  constructor
  · intro h
    by_contra hn
    push Not at hn
    exact not_ends_of_none (openPort_none hn) h
  · intro h
    have hk := Nat.find_spec h
    obtain ⟨what, hw⟩ := Option.ne_none_iff_exists'.mp hk
    obtain ⟨depth, t, ht⟩ := openPort_throws (Nat.find h) what
      (fun j hj => not_not.mp (Nat.find_min h hj)) hw
    exact ⟨_, depth, ht⟩

/-- The recursion is left through an exception only. -/
theorem recursion_throws (device : Device) (depth : Nat) :
    (∀ s o, openPort device depth s = some o → ∃ t what, o = .threw t what) ∧
      ∀ s o, s.serial_.isOpen = true → applyOptions device depth s = some o →
        ∃ t what, o = .threw t what := by
  induction depth with
  | zero => exact ⟨fun _ _ h => (by cases h), fun _ _ _ h => (by cases h)⟩
  | succ depth ih =>
    obtain ⟨ihOpen, ihApply⟩ := ih
    constructor
    · intro s o h
      cases hs : s.serial_.isOpen with
      | true =>
        rw [openPort_of_open hs] at h
        exact ihApply s o hs h
      | false =>
        cases hd : device s.deviceCalls with
        | none =>
          rw [openPort_of_closed hs hd] at h
          exact ihApply s.opened o rfl h
        | some what =>
          refine ⟨{ s with deviceCalls := s.deviceCalls + 1 }, what, ?_⟩
          rw [openPort] at h
          simp only [hs, Bool.not_false, if_true, serialOpen, callDevice, hd] at h
          exact (Option.some.inj h).symm
    · intro s o hs h
      rw [applyOptions_of_open hs] at h
      obtain ⟨opened, hopened, rfl⟩ := Option.map_eq_some_iff.mp h
      obtain ⟨t, what, rfl⟩ := ihOpen _ _ hopened
      exact ⟨t, what, rfl⟩

theorem connect_throws {depth : Nat} {o : Outcome Bytes Serial}
    (h : s.connect device depth = some o) : ∃ t what, o = .threw t what := by
  obtain ⟨opened, hopened, rfl⟩ := Option.map_eq_some_iff.mp h
  obtain ⟨t, what, rfl⟩ := (recursion_throws device depth).1 s opened hopened
  exact ⟨t, what, rfl⟩

/-- An attempt that throws has started nothing. -/
theorem pending_connect_of_threw {depth : Nat} {t : Serial} {what : Bytes}
    (h : s.connect device depth = some (.threw t what)) (hp : s.pending = []) : t.pending = [] := by
  obtain ⟨opened, hopened, heq⟩ := Option.map_eq_some_iff.mp h
  obtain ⟨t', what', rfl⟩ := (recursion_throws device depth).1 s opened hopened
  obtain ⟨rfl, rfl⟩ := Outcome.threw.inj heq
  have hcall (effect : SerialPort → SerialPort) (s : Serial) :
      (callDevice device effect s).state.pending.length = s.pending.length :=
    callDevice_keeps (fun s => s.pending.length) (fun _ _ _ => rfl) effect s
  have hdisconnect : ∀ s : Serial, s.disconnect.pending.length = s.pending.length := by
    intro s
    unfold disconnect
    split
    · exact List.length_map _
    · rfl
  have hlen := (recursion_keeps (fun s => s.pending.length) hcall hdisconnect depth).1 s _ hopened
  rw [hp] at hlen
  exact List.eq_nil_of_length_eq_zero hlen

theorem delivered_connect_of_threw {depth : Nat} {t : Serial} {what : Bytes}
    (h : s.connect device depth = some (.threw t what)) : t.delivered = s.delivered := by
  obtain ⟨opened, hopened, heq⟩ := Option.map_eq_some_iff.mp h
  obtain ⟨t', what', rfl⟩ := (recursion_throws device depth).1 s opened hopened
  obtain ⟨rfl, rfl⟩ := Outcome.threw.inj heq
  exact (delivered_recursion device depth).1 s _ hopened

/-! ## The three calls -/

inductive Call where
  | connect
  | openPort
  | applyOptions
  deriving DecidableEq

def Call.run (device : Device) (s : Serial) : Call → Nat → Option (Outcome Bytes Serial)
  | .connect, depth => s.connect device depth
  | .openPort, depth => Serial.openPort device depth s
  | .applyOptions, depth => Serial.applyOptions device depth s

/-- The settings that the options ask for. -/
def PortSettings.ofOptions (o : SerialOptions) : PortSettings where
  baudRate := some o.baudRate
  parity := some o.parity
  charSize := some o.charSize
  flowControl := some o.flowControl
  stopBits := some o.stopBits

/-- What `connect()` is to leave: the port open, the five options set on it and
one read in flight. -/
def Connected (s : Serial) : Prop :=
  s.isConnected = true ∧ s.serial_.settings = PortSettings.ofOptions s.options_ ∧
    (s.pending.countP fun op => op.kind.isRead && op.result.isNone) = 1

/-- The device can be opened: every `open` and every `set_option` succeeds. -/
def Works (device : Device) : Prop := ∀ n, device n = none

/-- The call ends, and `connect()` ends with a normal return to a connected object. -/
def EndsAsPromised (device : Device) (c : Call) (s : Serial) : Prop :=
  ∃ o, EndsWith (c.run device s) o ∧ (c = .connect → ∃ t, o = .returned t ∧ Connected t)

/-- On a working device only `applyOptions()` on a closed port ends. -/
theorem endsAsPromised_iff (works : Works device) (c : Call) (s : Serial) :
    EndsAsPromised device c s ↔ c = .applyOptions ∧ s.isConnected = false := by
  have hacc : Accepts device s := fun k => works _
  constructor
  · intro hends
    obtain ⟨o, ⟨depth, hd⟩, -⟩ := hends
    cases c with
    | connect =>
      change connect device depth s = some o at hd
      rw [connect_none hacc] at hd
      cases hd
    | openPort =>
      change openPort device depth s = some o at hd
      rw [openPort_none hacc] at hd
      cases hd
    | applyOptions =>
      refine ⟨rfl, Bool.eq_false_iff.mpr fun hs => ?_⟩
      change applyOptions device depth s = some o at hd
      rw [(recursion_none device depth).2 s hacc hs] at hd
      cases hd
  · rintro ⟨rfl, hs⟩
    exact ⟨_, ⟨1, applyOptions_of_closed hs 0⟩, fun h => by cases h⟩

theorem applyOptions_closed_ends :
    Works (fun _ => none) ∧ EndsAsPromised (fun _ => none) .applyOptions (initial [] []) :=
  ⟨fun _ => rfl, (endsAsPromised_iff (fun _ => rfl) _ _).mpr ⟨rfl, rfl⟩⟩

/-- `connect()` on a fresh object and a working device does not return. -/
theorem connect_runs_on :
    Works (fun _ => none) ∧
      ¬ EndsAsPromised (fun _ => none) .connect (initial (text "gps") []) := by
  refine ⟨fun _ => rfl, ?_⟩
  intro hends
  obtain ⟨o, ⟨depth, hd⟩, -⟩ := hends
  change connect (fun _ => none) depth (initial (text "gps") []) = some o at hd
  rw [connect_none (fun _ => rfl)] at hd
  cases hd

end DeviceTester.Connection.Serial

import DeviceTester.Connection.Options
import DeviceTester.Lib.Run
import Mathlib.Data.List.Chain

/-!
# The idle timer of `gui::DeviceManager`

The timer is made to expire one second after the manager, and nothing sets its expiry again. A
wait becomes due at the expiry, or at once where that is past. Its handler runs some time after
it has become due, and starts the next wait as its last act. Times are nanoseconds of the
timer's clock.
-/
namespace DeviceTester.Gui

open DeviceTester.Connection DeviceTester.Lib

/-- One execution of the idle handler, which calls `processData` on the devices. -/
structure Execution where
  time : Nat
  devices : List Bytes
  deriving DecidableEq, Repr

/-- `startIdleTimer()` is to be called, a wait has been started, or no wait follows. -/
inductive IdleLoop where
  | start
  | waiting (started due : Nat)
  | ended
  deriving DecidableEq, Repr

structure IdleTimer where
  now : Nat
  expiry : Nat
  shouldStop_ : Bool
  devices_ : List Bytes
  loop : IdleLoop
  executions : List Execution
  deriving DecidableEq, Repr

namespace IdleTimer

/-- `std::chrono::seconds(1)`. -/
def second : Nat := 1000000000

/-- The timer as the constructor makes it. -/
def construct (now : Nat) : IdleTimer where
  now := now
  expiry := now + second
  shouldStop_ := false
  devices_ := []
  loop := .start
  executions := []

def startIdleTimer (s : IdleTimer) : IdleTimer :=
  if s.shouldStop_ then { s with loop := .ended }
  else { s with loop := .waiting s.now (max s.now s.expiry) }

/-- The handler up to its call of `startIdleTimer()`. -/
def idle (s : IdleTimer) : IdleTimer :=
  { s with executions := s.executions ++ [⟨s.now, s.devices_⟩], loop := .start }

inductive Event where
  /-- Time passes. -/
  | pass (duration : Nat)
  /-- The main thread. -/
  | setDevices (devices : List Bytes)
  | stop
  /-- The constructor first, and then the handler. -/
  | startIdleTimer
  | execute
  deriving DecidableEq, Repr

def step (s : IdleTimer) : Event → Option IdleTimer
  | .pass duration => some { s with now := s.now + duration }
  | .setDevices devices => some { s with devices_ := devices }
  | .stop => some { s with shouldStop_ := true }
  | .startIdleTimer => if s.loop = .start then some s.startIdleTimer else none
  | .execute =>
      match s.loop with
      | .waiting _ due => if due ≤ s.now then some s.idle else none
      | _ => none

/-- Consecutive executions are at least one second apart. -/
def Spaced (s : IdleTimer) : Prop :=
  s.executions.IsChain fun first next => first.time + second ≤ next.time

/-- How long the handler took to start the next wait, and how late that wait is handled. -/
def heldUp (s : IdleTimer) (last : Execution) : Nat :=
  match s.loop with
  | .waiting started due => (started - last.time) + (s.now - due)
  | _ => 0

/-- Every execution but the first is held up for at least a second. -/
def HeldUp (s : IdleTimer) (e : Event) (_ : IdleTimer) : Prop :=
  e = .execute → ∀ last ∈ s.executions.getLast?, second ≤ s.heldUp last

instance (s : IdleTimer) : Decidable (Spaced s) :=
  inferInstanceAs (Decidable (List.IsChain _ _))

instance (s : IdleTimer) (e : Event) (t : IdleTimer) : Decidable (HeldUp s e t) :=
  inferInstanceAs (Decidable (_ → _))

variable {s t : IdleTimer}

theorem step_execute (h : step s .execute = some t) :
    ∃ started due, s.loop = .waiting started due ∧ due ≤ s.now ∧ t = s.idle := by
  simp only [step] at h
  split at h
  · rename_i started due hloop
    simp only [Option.ite_none_right_eq_some, Option.some.injEq] at h
    exact ⟨started, due, hloop, h.1, h.2.symm⟩
  · cases h

/-- After the first execution the expiry is past, so a wait is due as soon as it is started. -/
structure Expired (s : IdleTimer) : Prop where
  executed : ∀ last ∈ s.executions.getLast?, s.expiry ≤ last.time ∧ last.time ≤ s.now
  waiting : ∀ started due, s.loop = .waiting started due →
    due = max started s.expiry ∧ started ≤ s.now ∧
      ∀ last ∈ s.executions.getLast?, last.time ≤ started

theorem expired_construct (now : Nat) : Expired (construct now) := by
  constructor
  · intro last hlast
    cases hlast
  · intro started due hloop
    cases hloop

theorem expired_step : Keeps step anyStep Expired := by
  intro s e t h _ hs
  cases e with
  | pass duration =>
    obtain rfl := Option.some.inj hs
    constructor
    · intro last hlast
      have hpast := h.executed last hlast
      exact ⟨hpast.1, Nat.le_add_right_of_le hpast.2⟩
    · intro started due hloop
      obtain ⟨hdue, hstarted, hlast⟩ := h.waiting started due hloop
      exact ⟨hdue, Nat.le_add_right_of_le hstarted, hlast⟩
  | setDevices devices => exact Option.some.inj hs ▸ ⟨h.executed, h.waiting⟩
  | stop => exact Option.some.inj hs ▸ ⟨h.executed, h.waiting⟩
  | startIdleTimer =>
    simp only [step, Option.ite_none_right_eq_some, Option.some.injEq] at hs
    obtain ⟨-, rfl⟩ := hs
    unfold startIdleTimer
    split
    · exact ⟨h.executed, fun _ _ hloop => by cases hloop⟩
    · refine ⟨h.executed, ?_⟩
      intro started due hloop
      cases hloop
      refine ⟨rfl, Nat.le_refl s.now, ?_⟩
      intro last hlast
      exact (h.executed last hlast).2
  | execute =>
    obtain ⟨started, due, hloop, hdue, rfl⟩ := step_execute hs
    constructor
    · intro last hlast
      obtain rfl : Execution.mk s.now s.devices_ = last := by
        simpa [idle] using hlast
      have hmax := (h.waiting started due hloop).1
      show s.expiry ≤ s.now ∧ s.now ≤ s.now
      omega
    · intro started due hloop
      cases hloop

/-- The time between two executions is what the later one is held up for. -/
theorem heldUp_eq (h : Expired s) {started due : Nat} (hloop : s.loop = .waiting started due)
    (hdue : due ≤ s.now) {last : Execution} (hlast : last ∈ s.executions.getLast?) :
    last.time + s.heldUp last = s.now := by
  have hexecuted := h.executed last hlast
  obtain ⟨hmax, -, hstarted⟩ := h.waiting started due hloop
  have hle := hstarted last hlast
  have hheld : s.heldUp last = (started - last.time) + (s.now - due) := by
    rw [heldUp, hloop]
  omega

theorem spaced_step_iff (s : IdleTimer) (e : Event) (t : IdleTimer) (h : Expired s)
    (hs : step s e = some t) : Spaced t ↔ Spaced s ∧ HeldUp s e t := by
  by_cases he : e = .execute
  · subst he
    obtain ⟨started, due, hloop, hdue, rfl⟩ := step_execute hs
    show List.IsChain _ (s.executions ++ [⟨s.now, s.devices_⟩]) ↔ _
    rw [List.isChain_append]
    apply and_congr_right
    intro _
    constructor
    · rintro ⟨-, hlast⟩ - last hmem
      have hspaced : last.time + second ≤ s.now := hlast last hmem _ rfl
      have heq := heldUp_eq h hloop hdue hmem
      omega
    · intro hheld
      refine ⟨List.isChain_singleton _, ?_⟩
      intro last hmem next hnext
      obtain rfl : Execution.mk s.now s.devices_ = next := Option.some.inj hnext
      have hle := hheld rfl last hmem
      have heq := heldUp_eq h hloop hdue hmem
      show last.time + second ≤ s.now
      omega
  · have hsame : t.executions = s.executions := by
      cases e with
      | execute => exact absurd rfl he
      | startIdleTimer =>
        simp only [step, Option.ite_none_right_eq_some, Option.some.injEq] at hs
        obtain ⟨-, rfl⟩ := hs
        unfold startIdleTimer
        split <;> rfl
      | _ => exact Option.some.inj hs ▸ rfl
    have hheld : HeldUp s e t := fun h => absurd h he
    unfold Spaced
    rw [hsame]
    exact (and_iff_left hheld).symm

/-- The idle handler is executed at least a second after its last execution exactly where it is
held up that long. The timer itself only puts off the first execution. -/
theorem executions_spaced_iff (now : Nat) {es : List Event}
    (h : exec step (construct now) es = some s) :
    Spaced s ↔ Along step HeldUp (construct now) es := by
  have hfirst : Spaced (construct now) := List.isChain_nil
  rw [holds_iff_along expired_step spaced_step_iff (expired_construct now) h]
  exact and_iff_right hfirst

/-- An io thread that is busy for a second after each execution. -/
def busyRun : List Event :=
  [.startIdleTimer, .pass second, .execute, .startIdleTimer, .pass second, .execute]

theorem busyRun_spaced :
    ∃ s, exec step (construct 0) busyRun = some s ∧ s.executions.length = 2 ∧ Spaced s :=
  ⟨_, rfl, rfl, (@executions_spaced_iff _ 0 busyRun rfl).mpr (by decide)⟩

/-- The second wait is handled as soon as it is started. -/
theorem prompt_not_spaced :
    ∃ s, exec step (construct 0) [.startIdleTimer, .pass second, .execute, .startIdleTimer,
      .execute] = some s ∧ s.executions = [⟨second, []⟩, ⟨second, []⟩] ∧ ¬ Spaced s := by
  refine ⟨_, rfl, rfl, ?_⟩
  decide

end IdleTimer

end DeviceTester.Gui

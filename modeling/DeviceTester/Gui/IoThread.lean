import DeviceTester.Lib.Run

/-!
# The thread that runs the `io_context`

`DeviceManager` starts its io thread in the member initialisers and arms the first
wait of the idle timer at the end of the constructor. `io_context::run()` counts
the work that is outstanding. Where it finds none it marks the context stopped,
and nothing restarts it.
-/
namespace DeviceTester.Gui.IoThread

open DeviceTester.Lib

/-- Where the main thread is: before `refreshRecents()` and before `startIdleTimer()` in
the constructor, past it, in the destructor, or in an exception of the constructor. -/
inductive Main where
  | construct
  | arm
  | constructed
  | destroy
  | failed
  deriving DecidableEq, Repr

/-- Where the io thread is in `ioThread()`. In `run()` it waits for work, or runs
the idle handler, which arms the timer again as its last act, or another handler. -/
inductive Io where
  | test
  | call
  | inRun
  | idleHandler (rearmed : Bool)
  | handler
  | sleep
  | ended
  deriving DecidableEq, Repr

/-- The two threads, the flag and the context. `waits` counts the waits of the idle
timer and `ops` the other operations, each until its handler has returned. -/
structure State where
  main : Main
  io : Io
  shouldStop_ : Bool
  stopped : Bool
  waits : Nat
  ops : Nat
  deriving DecidableEq, Repr

namespace State

def outstanding (s : State) : Nat := s.waits + s.ops

/-- The context loses one unit of work, and is stopped when it was the last. -/
def stopIfIdle (s : State) : State :=
  { s with stopped := s.stopped || decide (s.outstanding = 0) }

def startIdleTimer (s : State) : State :=
  if s.shouldStop_ then s else { s with waits := s.waits + 1 }

/-- Entering `io_context_.run()`. -/
def run (s : State) : State :=
  if s.stopped then { s with io := .sleep }
  else if s.outstanding = 0 then { s with stopped := true, io := .sleep }
  else { s with io := .inRun }

end State

/-- The members initialised, the io thread started. -/
def initial : State := ⟨.construct, .test, false, false, 0, 0⟩

inductive Event where
  /-- The main thread. -/
  | refreshRecents (ok : Bool)
  | armIdleTimer
  | startWork
  | destroy
  | stopContext
  /-- The io thread. -/
  | testFlag
  | enterRun
  | runIdle
  | rearm
  | idleDone
  | runHandler
  | handlerStarts
  | handlerDone
  | handlerThrows
  | returnFromRun
  | wake
  deriving DecidableEq, Repr

/-- Handlers other than the idle handler may start operations and may throw. -/
def step (s : State) : Event → Option State
  | .refreshRecents ok =>
      if s.main = .construct then some { s with main := if ok then .arm else .failed } else none
  | .armIdleTimer =>
      if s.main = .arm then some { s.startIdleTimer with main := .constructed } else none
  | .startWork => if s.main = .constructed then some { s with ops := s.ops + 1 } else none
  | .destroy =>
      if s.main = .constructed then some { s with main := .destroy, shouldStop_ := true } else none
  | .stopContext => if s.main = .destroy then some { s with stopped := true } else none
  | .testFlag =>
      if s.io = .test then some { s with io := if s.shouldStop_ then .ended else .call } else none
  | .enterRun => if s.io = .call then some s.run else none
  | .runIdle =>
      if s.io = .inRun ∧ s.stopped = false ∧ 0 < s.waits then
        some { s with io := .idleHandler false }
      else none
  | .rearm =>
      if s.io = .idleHandler false then some { s.startIdleTimer with io := .idleHandler true }
      else none
  | .idleDone =>
      if s.io = .idleHandler true then
        some { s with waits := s.waits - 1, io := .inRun }.stopIfIdle
      else none
  | .runHandler =>
      if s.io = .inRun ∧ s.stopped = false ∧ 0 < s.ops then some { s with io := .handler } else none
  | .handlerStarts => if s.io = .handler then some { s with ops := s.ops + 1 } else none
  | .handlerDone =>
      if s.io = .handler then some { s with ops := s.ops - 1, io := .inRun }.stopIfIdle else none
  | .handlerThrows =>
      if s.io = .handler then some { s with ops := s.ops - 1, io := .sleep }.stopIfIdle else none
  | .returnFromRun => if s.io = .inRun ∧ s.stopped = true then some { s with io := .sleep } else none
  | .wake => if s.io = .sleep then some { s with io := .test } else none

/-- The constructor has armed the first wait. -/
def Main.armed : Main → Bool
  | constructed => true
  | destroy => true
  | _ => false

/-- `run()` is entered only once the first wait has been armed. -/
def EntersArmed (s : State) (e : Event) (_ : State) : Prop :=
  e = .enterRun → s.main.armed = true

/-- The context that has work outstanding is not stopped. -/
def Serves (s : State) : Prop := ¬ (s.stopped = true ∧ 0 < s.outstanding)

instance (s : State) (e : Event) (t : State) : Decidable (EntersArmed s e t) :=
  inferInstanceAs (Decidable (e = .enterRun → s.main.armed = true))

variable {s t : State} {e : Event}

/-- As long as `run()` is entered armed: the io thread waits for the constructor
outside of `run()`, and then a wait is always outstanding, next to the one whose
handler has armed it. -/
structure Good (s : State) : Prop where
  unarmed : s.main.armed = false →
    s.outstanding = 0 ∧ s.stopped = false ∧ (s.io = .test ∨ s.io = .call)
  constructed : s.main = .constructed →
    s.stopped = false ∧ 1 ≤ s.waits ∧ (s.io = .idleHandler true → 2 ≤ s.waits)
  flag : s.shouldStop_ = decide (s.main = .destroy)

/-- Once `run()` has been entered with nothing outstanding: the context is stopped,
and the io thread runs no handler any more. -/
structure Bad (s : State) : Prop where
  stopped : s.stopped = true
  io : s.io = .test ∨ s.io = .call ∨ s.io = .sleep ∨ s.io = .ended
  constructed : s.main = .constructed → 1 ≤ s.waits
  flag : s.shouldStop_ = decide (s.main = .destroy)

theorem good_initial : Good initial where
  unarmed _ := ⟨rfl, rfl, .inl rfl⟩
  constructed h := by cases h
  flag := rfl

theorem Good.armed_of_io (h : Good s) {io : Io} (hio : s.io = io) (hne : io ≠ .test ∧ io ≠ .call) :
    s.main.armed = true := by
  rw [← Bool.not_eq_false]
  intro hm
  rcases (h.unarmed hm).2.2 with ht | hc
  · exact hne.1 (hio.symm.trans ht)
  · exact hne.2 (hio.symm.trans hc)

theorem Good.of_armed (ha : s.main.armed = true)
    (hc : s.main = .constructed →
      s.stopped = false ∧ 1 ≤ s.waits ∧ (s.io = .idleHandler true → 2 ≤ s.waits))
    (hf : s.shouldStop_ = decide (s.main = .destroy)) : Good s := by
  refine ⟨fun hm => ?_, hc, hf⟩
  rw [ha] at hm
  cases hm

/-- Past the constructor the io thread may go anywhere but to the end of the idle handler. -/
theorem Good.moved (h : Good s) (ha : s.main.armed = true) {io : Io}
    (hio : io = .idleHandler true → s.io = .idleHandler true) (ops : Nat) :
    Good { s with io := io, ops := ops } := by
  refine .of_armed ha (fun hm => ?_) h.flag
  obtain ⟨hst, hwait, hidle⟩ := h.constructed hm
  exact ⟨hst, hwait, fun heq => hidle (hio heq)⟩

/-- A wait is outstanding, so the context is not stopped. -/
theorem Good.stopIfIdle (h : Good s) (ha : s.main.armed = true) : Good s.stopIfIdle := by
  refine .of_armed ha (fun hm => ?_) h.flag
  obtain ⟨hst, hwait, hidle⟩ := h.constructed hm
  refine ⟨?_, hwait, hidle⟩
  have hpos : ¬ s.outstanding = 0 := by
    unfold State.outstanding
    omega
  rw [State.stopIfIdle, hst, Bool.false_or]
  exact decide_eq_false hpos

/-- An armed context has work outstanding whenever `run()` is entered. -/
theorem good_enterRun (h : Good s) (ha : s.main.armed = true) : Good s.run := by
  unfold State.run
  split
  · exact h.moved ha (fun hr => by cases hr) s.ops
  · split
    · rename_i hzero
      refine .of_armed ha (fun hm => ?_) h.flag
      have hwait := (h.constructed hm).2.1
      unfold State.outstanding at hzero
      omega
    · exact h.moved ha (fun hr => by cases hr) s.ops

/-- The idle handler has armed the next wait before its own is over. -/
theorem good_idleDone (h : Good s) (hio : s.io = .idleHandler true) :
    Good { s with waits := s.waits - 1, io := .inRun }.stopIfIdle := by
  have ha := h.armed_of_io hio (by decide)
  refine Good.stopIfIdle (.of_armed ha (fun hm => ?_) h.flag) ha
  obtain ⟨hst, -, htwo⟩ := h.constructed hm
  exact ⟨hst, Nat.le_sub_of_add_le (htwo hio), fun hr => by cases hr⟩

theorem good_armIdleTimer (h : Good s) (hm : s.main = .arm) :
    Good { s.startIdleTimer with main := .constructed } := by
  obtain ⟨hzero, hst, hio⟩ := h.unarmed (by rw [hm]; rfl)
  have hf : s.shouldStop_ = false := by
    rw [h.flag, hm]
    rfl
  have hstart : s.startIdleTimer = { s with waits := s.waits + 1 } := by
    rw [State.startIdleTimer, if_neg (Bool.eq_false_iff.mp hf)]
  rw [hstart]
  refine .of_armed rfl (fun _ => ⟨hst, Nat.le_add_left 1 s.waits, fun hidle => ?_⟩) hf
  change s.io = .idleHandler true at hidle
  rcases hio with hio | hio
  · cases hio.symm.trans hidle
  · cases hio.symm.trans hidle

theorem good_rearm (h : Good s) (hio : s.io = .idleHandler false) :
    Good { s.startIdleTimer with io := .idleHandler true } := by
  have ha := h.armed_of_io hio (by decide)
  unfold State.startIdleTimer
  split
  · rename_i hf
    -- only the destructor sets the flag
    refine .of_armed ha (fun hm => ?_) h.flag
    rw [h.flag, show s.main = .constructed from hm] at hf
    cases hf
  · refine .of_armed ha (fun hm => ?_) h.flag
    obtain ⟨hst, hwait, -⟩ := h.constructed hm
    exact ⟨hst, Nat.le_succ_of_le hwait, fun _ => Nat.succ_le_succ hwait⟩

theorem good_testFlag (h : Good s) : Good { s with io := if s.shouldStop_ then .ended else .call } := by
  cases ha : s.main.armed with
  | true =>
    refine h.moved ha ?_ s.ops
    split
    · exact fun hr => by cases hr
    · exact fun hr => by cases hr
  | false =>
    obtain ⟨hzero, hst, -⟩ := h.unarmed ha
    have hf : s.shouldStop_ = false := by
      rw [h.flag, decide_eq_false_iff_not]
      intro hm
      rw [hm] at ha
      cases ha
    refine ⟨fun _ => ⟨hzero, hst, .inr (if_neg ?_)⟩, fun hm => ?_, h.flag⟩
    · rw [hf]
      exact Bool.false_ne_true
    · rw [show s.main = .constructed from hm] at ha
      cases ha

theorem good_refreshRecents (h : Good s) (hm : s.main = .construct) (ok : Bool) :
    Good { s with main := if ok then .arm else .failed } := by
  have hunarmed := h.unarmed (by rw [hm]; rfl)
  have hflag := h.flag
  rw [hm] at hflag
  cases ok with
  | true => exact ⟨fun _ => hunarmed, fun hm' => (by cases hm'), hflag⟩
  | false => exact ⟨fun _ => hunarmed, fun hm' => (by cases hm'), hflag⟩

theorem good_step : Keeps step EntersArmed Good := by
  intro s e t h hc hs
  cases e <;> simp only [step, Option.ite_none_right_eq_some, Option.some.injEq] at hs <;>
    obtain ⟨hm, rfl⟩ := hs
  case refreshRecents ok => exact good_refreshRecents h hm ok
  case armIdleTimer => exact good_armIdleTimer h hm
  case startWork => exact h.moved (by rw [hm]; rfl) id (s.ops + 1)
  case destroy => exact .of_armed rfl (fun hm' => by cases hm') rfl
  case stopContext =>
    refine .of_armed (by rw [hm]; rfl) (fun hm' => ?_) h.flag
    cases hm.symm.trans hm'
  case testFlag => exact good_testFlag h
  case enterRun => exact good_enterRun h (hc rfl)
  case rearm => exact good_rearm h hm
  case idleDone => exact good_idleDone h hm
  case runIdle =>
    exact h.moved (h.armed_of_io hm.1 (by decide)) (fun hr => by cases hr) s.ops
  case runHandler =>
    exact h.moved (h.armed_of_io hm.1 (by decide)) (fun hr => by cases hr) s.ops
  case returnFromRun =>
    exact h.moved (h.armed_of_io hm.1 (by decide)) (fun hr => by cases hr) s.ops
  case wake => exact h.moved (h.armed_of_io hm (by decide)) (fun hr => by cases hr) s.ops
  case handlerStarts => exact h.moved (h.armed_of_io hm (by decide)) id (s.ops + 1)
  case handlerDone =>
    have ha := h.armed_of_io hm (by decide)
    exact (h.moved ha (fun hr => by cases hr) (s.ops - 1)).stopIfIdle ha
  case handlerThrows =>
    have ha := h.armed_of_io hm (by decide)
    exact (h.moved ha (fun hr => by cases hr) (s.ops - 1)).stopIfIdle ha

/-- Entering `run()` before the first wait is armed stops the context. -/
theorem bad_of_enterRun (h : Good s) (ha : s.main.armed = false) : Bad s.run := by
  obtain ⟨hzero, hst, -⟩ := h.unarmed ha
  have hrun : s.run = { s with stopped := true, io := .sleep } := by
    simp [State.run, hst, hzero]
  rw [hrun]
  refine ⟨rfl, .inr (.inr (.inl rfl)), fun hm => ?_, h.flag⟩
  change s.main = .constructed at hm
  rw [hm] at ha
  cases ha

theorem bad_of_not_entersArmed (s : State) (e : Event) (t : State) (h : Good s)
    (hc : ¬ EntersArmed s e t) (hs : step s e = some t) : Bad t := by
  obtain ⟨rfl, ha⟩ := Classical.not_imp.mp hc
  simp only [step, Option.ite_none_right_eq_some, Option.some.injEq] at hs
  obtain ⟨-, rfl⟩ := hs
  exact bad_of_enterRun h (Bool.eq_false_iff.mpr ha)

theorem bad_step : Keeps step anyStep Bad := by
  intro s e t h _ hs
  obtain ⟨hst, hio, hconstructed, hflag⟩ := h
  cases e with
  | enterRun =>
    simp only [step, Option.ite_none_right_eq_some, Option.some.injEq] at hs
    obtain ⟨-, rfl⟩ := hs
    rw [State.run, if_pos hst]
    exact ⟨hst, .inr (.inr (.inl rfl)), hconstructed, hflag⟩
  | _ =>
    -- no event of a handler can happen, and nothing restarts the context
    simp only [step, Option.ite_none_right_eq_some, Option.some.injEq] at hs
    obtain ⟨hm, rfl⟩ := hs
    constructor <;> grind [State.startIdleTimer]

theorem constructed_of_armed (ha : s.main.armed = true) (hf : s.shouldStop_ = false)
    (hflag : s.shouldStop_ = decide (s.main = .destroy)) : s.main = .constructed := by
  rw [hf] at hflag
  cases hm : s.main with
  | constructed => rfl
  | destroy => simp [hm] at hflag
  | construct => simp [hm, Main.armed] at ha
  | arm => simp [hm, Main.armed] at ha
  | failed => simp [hm, Main.armed] at ha

/-- In a state past the constructor, with `should_stop_` false, the context serves its
work exactly when the io thread has entered `run()` only with the first wait armed. -/
theorem serves_iff_entersArmed {es : List Event} (h : exec step initial es = some s)
    (ha : s.main.armed = true) (hf : s.shouldStop_ = false) :
    Serves s ↔ Along step EntersArmed initial es := by
  rcases along_or_of_leave good_step bad_of_not_entersArmed bad_step good_initial h with
    ⟨halong, hgood⟩ | ⟨halong, hbad⟩
  · refine iff_of_true ?_ halong
    intro hidle
    have hst := hidle.1
    rw [(hgood.constructed (constructed_of_armed ha hf hgood.flag)).1] at hst
    cases hst
  · refine iff_of_false (fun hserves => hserves ⟨hbad.stopped, ?_⟩) halong
    have hwait := hbad.constructed (constructed_of_armed ha hf hbad.flag)
    rw [State.outstanding]
    omega

/-- The main thread finishes the constructor first. -/
def lateRun : List Event :=
  [.refreshRecents true, .armIdleTimer, .testFlag, .enterRun, .startWork, .runIdle, .rearm, .idleDone]

theorem lateRun_serves : ∃ s, exec step initial lateRun = some s ∧ Serves s :=
  ⟨_, rfl, (@serves_iff_entersArmed _ lateRun rfl rfl rfl).mpr (by decide)⟩

/-- The io thread is the faster one. -/
def earlyRun : List Event :=
  [.testFlag, .enterRun, .refreshRecents true, .armIdleTimer]

theorem earlyRun_stopped :
    ∃ s, exec step initial earlyRun = some s ∧ s.main.armed = true ∧ s.shouldStop_ = false ∧
      ¬ Serves s :=
  ⟨_, rfl, rfl, rfl, fun h => h ⟨rfl, by decide⟩⟩

end DeviceTester.Gui.IoThread

import DeviceTester.Connection.Tcp

/-!
# Completions of operations from before a reconnect

A handler of `Tcp` carries no mark of the `connect()` it belongs to. What keeps an
old one from acting is `should_run_` alone, which `connect()` raises again, and a
read that had finished before its socket was closed delivers without asking for it.
-/
namespace DeviceTester.Connection.Tcp

open DeviceTester.Lib

variable {t u : Tcp} {i : Nat}

/-- The connect or read whose completion the event runs, with its position, if it
was started before the most recent call of `connect()` or `disconnect()`. -/
def staleOp (t : Tcp) : Event → Option (Nat × Operation TcpOp)
  | .io (.run i) =>
      (t.pending[i]?.filter fun op => !op.kind.isWrite && decide (op.stamp < t.calls)).map (i, ·)
  | _ => none

/-- The completion of the operation at `i` changes none of the flags, the socket
and the buffer, starts no operation and delivers no byte. -/
structure Undisturbed (i : Nat) (t u : Tcp) : Prop where
  shouldRun : u.shouldRun_ = t.shouldRun_
  isConnected : u.isConnected_ = t.isConnected_
  socket : u.socket_ = t.socket_
  bufferRx : u.bufferRx_ = t.bufferRx_
  pending : u.pending = t.pending.eraseIdx i
  delivered : u.delivered.flatten = t.delivered.flatten

/-- A stale completion, if the step runs one, disturbs nothing. -/
def StaleHarmless (t : Tcp) (e : Event) (u : Tcp) : Prop :=
  ∀ p ∈ staleOp t e, Undisturbed p.1 t u

/-- The completion of `op` finds nothing to act on: `should_run_` is down, and if
`op` is a read that succeeded the buffer is empty. -/
def Quiet (t : Tcp) (op : Operation TcpOp) : Prop :=
  t.shouldRun_ = false ∧ (op.kind.isRead = true → op.result.any Result.isOk = true → t.bufferRx_ = [])

def StaleQuiet (t : Tcp) (e : Event) (_ : Tcp) : Prop := ∀ p ∈ staleOp t e, Quiet t p.2

theorem staleOp_run {p : Nat × Operation TcpOp} {e : Event} (h : p ∈ staleOp t e) :
    e = .io (.run p.1) ∧ t.pending[p.1]? = some p.2 ∧ p.2.kind.isWrite = false := by
  unfold staleOp at h
  split at h
  · obtain ⟨op, hop, rfl⟩ := Option.map_eq_some_iff.mp h
    obtain ⟨hop, hq⟩ := Option.filter_eq_some_iff.mp hop
    simp only [Bool.and_eq_true, Bool.not_eq_true'] at hq
    exact ⟨rfl, hop, hq.1⟩
  · cases h

/-- A handler that starts an operation disturbs. -/
theorem not_undisturbed_of_started {op : Operation TcpOp}
    (h : u.pending = t.pending.eraseIdx i ++ [op]) : ¬ Undisturbed i t u := by
  intro hu
  have hlen := congrArg List.length (h.symm.trans hu.pending)
  simp at hlen

theorem not_undisturbed_of_lowered (ht : t.shouldRun_ = true) (hu : u.shouldRun_ = false) :
    ¬ Undisturbed i t u := by
  intro h
  have hrun := h.shouldRun
  rw [ht, hu] at hrun
  cases hrun

theorem shouldRun_disconnect_beginConnect (t : Tcp) (endpointIter : List Endpoint) :
    (t.disconnect.beginConnect endpointIter).shouldRun_ = false := by
  unfold beginConnect
  split
  · exact shouldRun_disconnect
  · exact shouldRun_disconnect

/-- While `should_run_` is up every completion of a connect acts. -/
theorem handleConnect_disturbs (ht : t.shouldRun_ = true) (r : Result)
    (endpointIter : List Endpoint) :
    ¬ Undisturbed i t
      ({ t with pending := t.pending.eraseIdx i }.handleConnect r endpointIter) := by
  simp only [handleConnect, ht, Bool.not_true, Bool.false_eq_true, if_false]
  split
  · unfold beginConnect
    split
    · exact not_undisturbed_of_started rfl
    · exact not_undisturbed_of_lowered ht shouldRun_disconnect
  · cases r with
    | error code =>
      exact not_undisturbed_of_lowered ht (shouldRun_disconnect_beginConnect _ _)
    | ok n => exact not_undisturbed_of_started rfl

theorem handleConnect_undisturbed (r : Result) (endpointIter : List Endpoint) :
    Undisturbed i t ({ t with pending := t.pending.eraseIdx i }.handleConnect r endpointIter) ↔
      t.shouldRun_ = false := by
  constructor
  · intro h
    rw [← Bool.not_eq_true]
    exact fun ht => handleConnect_disturbs ht r endpointIter h
  · intro hrun
    have h : { t with pending := t.pending.eraseIdx i }.handleConnect r endpointIter =
        { t with pending := t.pending.eraseIdx i } := by
      simp [handleConnect, hrun]
    rw [h]
    exact ⟨rfl, rfl, rfl, rfl, rfl, rfl⟩

theorem handleRead_error_undisturbed (hc : Coherent t) (code : ErrorCode) :
    Undisturbed i t ({ t with pending := t.pending.eraseIdx i }.handleRead (.error code)) ↔
      t.shouldRun_ = false := by
  constructor
  · intro h
    exact h.shouldRun.symm.trans shouldRun_disconnect
  · intro hrun
    have hcon : t.isConnected = false := by
      rw [hc.isConnected_eq, Bool.eq_false_iff]
      intro h
      rw [(hc h).1] at hrun
      cases hrun
    have hcon' : ({ t with pending := t.pending.eraseIdx i } : Tcp).isConnected = false := hcon
    rw [handleRead, disconnect_of_not_connected hcon']
    exact ⟨hrun.symm, rfl, rfl, rfl, rfl, rfl⟩

theorem handleRead_ok_undisturbed (n : Nat) :
    Undisturbed i t ({ t with pending := t.pending.eraseIdx i }.handleRead (.ok n)) ↔
      t.shouldRun_ = false ∧ t.bufferRx_ = [] := by
  rcases Bool.eq_false_or_eq_true ({ t with pending := t.pending.eraseIdx i } : Tcp).shouldRun_
    with hrun | hrun
  · rw [handleRead_ok_of_running hrun]
    refine iff_of_false (not_undisturbed_of_started rfl) ?_
    intro hq
    obtain ⟨hstop, -⟩ := hq
    cases hrun.symm.trans hstop
  · rw [handleRead_ok_of_stopped hrun]
    constructor
    · intro h
      exact ⟨hrun, h.bufferRx.symm⟩
    · intro hq
      obtain ⟨-, hb⟩ := hq
      exact ⟨rfl, rfl, rfl, hb.symm, rfl, by simp [hb]⟩

theorem undisturbed_iff_quiet (hc : Coherent t) {op : Operation TcpOp}
    (hop : t.pending[i]? = some op) (hw : op.kind.isWrite = false) (hs : t.io (.run i) = some u) :
    Undisturbed i t u ↔ Quiet t op := by
  obtain ⟨kind, stamp, r, hop', rfl⟩ := io_run hs
  obtain rfl : op = ⟨kind, stamp, some r⟩ := Option.some.inj (hop.symm.trans hop')
  cases kind with
  | connect endpointIter =>
    rw [handle, handleConnect_undisturbed]
    simp [Quiet, TcpOp.isRead]
  | read delimiter =>
    cases r with
    | ok n =>
      rw [handle, handleRead_ok_undisturbed]
      simp [Quiet, TcpOp.isRead, Result.isOk]
    | error code =>
      rw [handle, handleRead_error_undisturbed hc]
      simp [Quiet, Result.isOk]
  | write buffer => cases hw

theorem staleHarmless_iff_staleQuiet (t : Tcp) (e : Event) (u : Tcp) (hc : Coherent t)
    (hs : step t e = some u) : StaleHarmless t e u ↔ StaleQuiet t e u := by
  refine forall₂_congr fun p hp => ?_
  obtain ⟨rfl, hop, hw⟩ := staleOp_run hp
  exact undisturbed_iff_quiet hc hop hw hs

/-- In a run of a `Tcp` the stale completions are harmless exactly when each of
them finds `should_run_` down and, for a successful read, the buffer empty. -/
theorem along_staleHarmless_iff (identifier : Bytes) (es : List Event) :
    Along step StaleHarmless (initial identifier) es ↔
      Along step StaleQuiet (initial identifier) es :=
  along_congr coherent_step staleHarmless_iff_staleQuiet (coherent_initial identifier) es

/-- A server that answers, and the options of the object applied once it is connected. -/
def reconnectRun : List Event :=
  let resolve : Resolver := fun _ _ => .ok [⟨text "127.0.0.1", 4001⟩]
  [.connect resolve, .io (.finish 0 (.ok 0)), .io (.run 0), .applyOptions resolve, .io (.run 0)]

/-- The aborted read of the old connection lowers `should_run_`, so the completion
of the new connect will be ignored. -/
theorem reconnectRun_not_staleHarmless :
    ¬ Along step StaleHarmless (initial []) reconnectRun := by
  intro h
  have hlast := ((((h.cons rfl).2.cons rfl).2.cons rfl).2.cons rfl).2.cons rfl
  have hrun := (hlast.1 _ rfl).shouldRun
  cases hrun

end DeviceTester.Connection.Tcp

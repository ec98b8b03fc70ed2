import DeviceTester.Connection.Udp

/-!
# Completions of receives on a socket that has been closed

`applyOptions()` closes and reopens `socket_` while the receive that was in flight
still has to complete. Its handler calls `disconnect()` for the error it is given,
on the socket as it finds it.
-/
namespace DeviceTester.Connection.Udp

open DeviceTester.Lib

variable {u v : Udp} {i : Nat}

/-- Whether an operation was started on a socket that has been closed since. -/
def onClosedSocket (u : Udp) (op : Operation UdpOp) : Bool :=
  !u.socket_.isOpen || op.stamp != u.socket_.generation

/-- The receive whose completion the event runs, with its position, if its socket
has been closed since. -/
def staleReceive (u : Udp) : Event → Option (Nat × Operation UdpOp)
  | .io (.run i) =>
      (u.pending[i]?.filter fun op => op.kind.isReceive && u.onClosedSocket op).map (i, ·)
  | _ => none

/-- The completion of the operation at `i` leaves the open socket open, does not
clear `should_receive_` for it and starts nothing on it. -/
structure Spared (i : Nat) (u v : Udp) : Prop where
  socket : v.socket_ = u.socket_
  shouldReceive : v.shouldReceive_ = u.shouldReceive_
  pending : v.pending = u.pending.eraseIdx i

/-- A stale completion, if the step runs one, spares a socket opened later. -/
def StaleHarmless (u : Udp) (e : Event) (v : Udp) : Prop :=
  ∀ p ∈ u.staleReceive e, u.socket_.isOpen = true → Spared p.1 u v

/-- No socket is open, or the receive succeeded and `should_receive_` is down. -/
def StaleQuiet (u : Udp) (e : Event) (_ : Udp) : Prop :=
  ∀ p ∈ u.staleReceive e,
    u.socket_.isOpen = true → p.2.result.any Result.isOk = true ∧ u.shouldReceive_ = false

theorem staleReceive_run {p : Nat × Operation UdpOp} {e : Event} (h : p ∈ u.staleReceive e) :
    e = .io (.run p.1) ∧ u.pending[p.1]? = some p.2 ∧ p.2.kind.isReceive = true := by
  unfold staleReceive at h
  split at h
  · obtain ⟨op, hop, rfl⟩ := Option.map_eq_some_iff.mp h
    obtain ⟨hop, hq⟩ := Option.filter_eq_some_iff.mp hop
    rw [Bool.and_eq_true] at hq
    exact ⟨rfl, hop, hq.1⟩
  · cases h

theorem handleRead_spares_iff (ho : u.socket_.isOpen = true) (r : Result) :
    Spared i u ({ u with pending := u.pending.eraseIdx i }.handleRead r) ↔
      r.isOk = true ∧ u.shouldReceive_ = false := by
  cases r with
  | error code =>
    refine iff_of_false (fun h => ?_) (by simp [Result.isOk])
    have hopen := congrArg UdpSocket.isOpen h.socket
    rw [ho] at hopen
    cases hopen
  | ok n =>
    rcases Bool.eq_false_or_eq_true ({ u with pending := u.pending.eraseIdx i } : Udp).shouldReceive_
      with hrec | hrec
    · rw [handleRead_ok_of_receiving hrec]
      refine iff_of_false (fun h => ?_) (fun h => by cases hrec.symm.trans h.2)
      have hlen := congrArg List.length h.pending
      simp [startRead, start] at hlen
    · rw [handleRead_ok_of_stopped hrec]
      exact ⟨fun _ => ⟨rfl, hrec⟩, fun _ => ⟨rfl, rfl, rfl⟩⟩

theorem staleHarmless_iff_staleQuiet {e : Event} (hs : step u e = some v) :
    StaleHarmless u e v ↔ StaleQuiet u e v := by
  refine forall₂_congr fun p hp => forall_congr' fun ho => ?_
  obtain ⟨rfl, hop, hr⟩ := staleReceive_run hp
  obtain ⟨kind, stamp, r, hop', rfl⟩ := io_run hs
  obtain ⟨i, op⟩ := p
  obtain rfl : op = ⟨kind, stamp, some r⟩ := Option.some.inj (hop.symm.trans hop')
  cases kind with
  | send buffer endpoint => cases hr
  | receive => exact handleRead_spares_iff ho r

/-! ## `applyOptions()` on a listening object -/

/-- The number of receives outstanding, on whatever socket they were started. -/
def receives (u : Udp) : Nat := outstanding (fun op _ => op.isReceive) u.pending

/-- The number of receives outstanding on the open socket. -/
def currentReceives (u : Udp) : Nat :=
  outstanding (fun op stamp => op.isReceive && stamp == u.socket_.generation) u.pending

/-- All completions of receives on sockets before the last one have run. -/
def Settled (u : Udp) : Prop :=
  ∀ op ∈ u.pending, op.kind.isReceive = true → op.stamp = u.socket_.generation

instance (u : Udp) : Decidable (Settled u) :=
  inferInstanceAs (Decidable (∀ op ∈ u.pending, op.kind.isReceive = true →
    op.stamp = u.socket_.generation))

/-- The socket is open and has its one receive outstanding. -/
def Listening (u : Udp) : Prop := u.socket_.isOpen = true ∧ u.currentReceives = 1

/-- A step of the operating system or of the thread of the event loop. -/
def IoStep (_ : Udp) (e : Event) (_ : Udp) : Prop := ∃ x, e = .io x

/-- Where completions lead from a reopened socket: to a closed one, or to one
with more than one receive. -/
def Spoiled (u : Udp) : Prop :=
  (u.socket_.isOpen = false ∧ u.shouldReceive_ = false) ∨ (u.shouldReceive_ = true ∧ 2 ≤ u.receives)

theorem receives_eq_current (hs : Settled u) : u.receives = u.currentReceives := by
  refine List.countP_congr fun op hop => ?_
  simpa using hs op hop

theorem Spoiled.not_listening (h : Spoiled u) (hs : Settled u) : ¬ Listening u := by
  intro hl
  obtain ⟨ho, hone⟩ := hl
  rcases h with ⟨hc, -⟩ | ⟨-, htwo⟩
  · rw [ho] at hc
    cases hc
  · rw [receives_eq_current hs] at htwo
    omega

theorem Spoiled.congr (h : Spoiled u) (ho : v.socket_.isOpen = u.socket_.isOpen)
    (hr : v.shouldReceive_ = u.shouldReceive_) (hn : v.receives = u.receives) : Spoiled v := by
  rw [Spoiled, ho, hr, hn]
  exact h

theorem spoiled_disconnect (u : Udp) : Spoiled u.disconnect := .inl ⟨rfl, rfl⟩

/-- The completion of a receive starts another one or closes the socket. -/
theorem spoiled_handleRead {stamp : Nat} {r : Result} (h : Spoiled u)
    (hop : u.pending[i]? = some ⟨.receive, stamp, some r⟩) :
    Spoiled ({ u with pending := u.pending.eraseIdx i }.handleRead r) := by
  cases r with
  | error code => exact spoiled_disconnect _
  | ok n =>
    rcases h with ⟨hc, hrec⟩ | ⟨hrec, htwo⟩
    · have hrec' : ({ u with pending := u.pending.eraseIdx i } : Udp).shouldReceive_ = false := hrec
      rw [handleRead_ok_of_stopped hrec']
      exact .inl ⟨hc, hrec⟩
    · have hrec' : ({ u with pending := u.pending.eraseIdx i } : Udp).shouldReceive_ = true := hrec
      rw [handleRead_ok_of_receiving hrec']
      have herase := outstanding_eraseIdx (p := fun op _ => UdpOp.isReceive op) hop
      refine .inr ⟨hrec, ?_⟩
      simp only [receives, startRead, start, outstanding_append, outstanding_cons, outstanding_nil,
        Operation.kind_begin, UdpOp.isReceive, if_true] at htwo herase ⊢
      omega

theorem spoiled_step : Keeps step IoStep Spoiled := by
  intro u e v h hio hs
  obtain ⟨e, rfl⟩ := hio
  cases e with
  | receive i data =>
    obtain ⟨stamp, hop, rfl⟩ := io_receive hs
    exact h.congr rfl rfl (outstanding_set hop rfl rfl)
  | finish i r =>
    obtain ⟨kind, stamp, hop, rfl⟩ := io_finish hs
    exact h.congr rfl rfl (outstanding_set hop rfl rfl)
  | run i =>
    obtain ⟨kind, stamp, r, hop, rfl⟩ := io_run hs
    cases kind with
    | receive => exact spoiled_handleRead h hop
    | send buffer endpoint =>
      have herase := outstanding_eraseIdx (p := fun op _ => UdpOp.isReceive op) hop
      exact h.congr rfl rfl herase.symm

/-- Reopening leaves the old receive to complete next to the new one. -/
theorem spoiled_applyOptions (hl : Listening u) (hp : u.options_.listenProtocol ≠ .none)
    {calls : SocketCalls} (ho : calls.openError = none) (hb : calls.bindError = none)
    (fromString : FromString) : Spoiled (u.applyOptions calls fromString).state := by
  obtain ⟨endpoint, hc⟩ := connect_accepted (u := u.disconnect) hp rfl ho hb
  have hpos : 0 < u.receives := by
    have hle : u.currentReceives ≤ u.receives := by
      refine List.countP_mono_left fun op _ hcur => ?_
      exact (Bool.and_eq_true _ _ ▸ hcur).1
    rw [hl.2] at hle
    omega
  have hsp : Spoiled (u.disconnect.connect calls) := by
    rw [hc]
    refine .inr ⟨rfl, ?_⟩
    simp only [receives, startRead, start, disconnect, outstanding_append, outstanding_cancel,
      outstanding_cons, outstanding_nil, Operation.kind_begin, UdpOp.isReceive, if_true] at hpos ⊢
    omega
  unfold applyOptions
  rw [if_pos (show u.isConnected = true from hl.1)]
  generalize u.disconnect.connect calls = w at hsp
  dsimp only
  split
  · split
    · exact hsp.congr rfl rfl rfl
    · exact hsp
  · exact hsp

/-- Stale completions are harmless in a run exactly when each of them finds no
socket open or succeeds with `should_receive_` down. After `applyOptions()` on a
listening object that can be reopened, this leaves it listening in no run. -/
theorem stale_receives_spare_iff (identifier rx : Bytes) (receive : Bool) (es : List Event) :
    (Along step StaleHarmless (initial identifier rx receive) es ↔
      Along step StaleQuiet (initial identifier rx receive) es) ∧
    ∀ u calls fromString, Listening u → u.options_.listenProtocol ≠ .none →
      calls.openError = none → calls.bindError = none →
      ∀ v, Reaches step IoStep (u.applyOptions calls fromString).state v → Settled v →
        ¬ Listening v := by
  constructor
  · refine along_congr (I := fun _ => True) (fun _ _ _ _ _ _ => trivial) ?_ trivial es
    intro u e v _ hs
    exact staleHarmless_iff_staleQuiet hs
  · intro u calls fromString hl hp ho hb v hv hs
    exact (spoiled_step.reaches (spoiled_applyOptions hl hp ho hb fromString) hv).not_listening hs

def kListenOptions : UdpOptions :=
  { UdpOptions.withIdentifier [] with listenProtocol := .ipv4, listenPort := 5000 }

def kAccepted : SocketCalls := ⟨none, none⟩

/-- An object that listens on a port, and has its options applied. -/
def reopenRun : List Event :=
  [.setOptions kListenOptions, .connect kAccepted, .applyOptions kAccepted fun _ => .ok [],
    .io (.run 0)]

theorem reopened_not_listening :
    ∃ u v, exec step (initial [] [] false) (reopenRun.take 2) = some u ∧ Listening u ∧
      Reaches step IoStep (u.applyOptions kAccepted fun _ => .ok []).state v ∧ Settled v ∧
      ¬ Listening v := by
  have hrun : Reaches step IoStep
      ((((initial [] [] false).setOptions kListenOptions).connect kAccepted).applyOptions kAccepted
        fun _ => .ok []).state _ :=
    .head (e := .io (.run 0)) rfl ⟨_, rfl⟩ (.refl _ _)
  have hsettled : Settled ((((((initial [] [] false).setOptions kListenOptions).connect
      kAccepted).applyOptions kAccepted fun _ => .ok []).state.io (.run 0)).getD
        (initial [] [] false)) := by
    decide
  exact ⟨_, _, rfl, ⟨rfl, rfl⟩, hrun, hsettled,
    (stale_receives_spare_iff [] [] false []).2 _ _ _ ⟨rfl, rfl⟩ (by decide) rfl rfl _ hrun hsettled⟩

/-- The aborted receive of the old socket closes the new one. -/
theorem reopenRun_not_staleHarmless :
    ¬ Along step StaleHarmless (initial [] [] false) reopenRun := by
  intro h
  have hlast := (((h.cons rfl).2.cons rfl).2.cons rfl).2.cons rfl
  have hopen := congrArg UdpSocket.isOpen (hlast.1 _ rfl rfl).socket
  cases hopen

end DeviceTester.Connection.Udp

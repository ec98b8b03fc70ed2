import DeviceTester.Connection.Tcp
import DeviceTester.Connection.UdpReceiving

/-!
# What runs after `disconnect()`

The operations that were outstanding still complete after `disconnect()` has returned, and
their handlers call `beginConnect`, `startRead` and `disconnect()` themselves.
-/
namespace DeviceTester.Connection

open DeviceTester.Lib

namespace Tcp

variable {t u : Tcp} {e : Event}

/-- Connect attempts and reads. -/
def receives : TcpOp → Bool := fun op => op.isConnect || op.isRead

/-- The operations a step leaves as they are: all but the one whose handler it runs. -/
def remaining (t : Tcp) : Event → List (Operation TcpOp)
  | .io (.run i) => t.pending.eraseIdx i
  | _ => t.pending

/-- The object is not connected after the step, which starts no connect attempt and no read. -/
structure StaysDisconnected (t : Tcp) (e : Event) (u : Tcp) : Prop where
  isConnected : u.isConnected = false
  starts : kindsOf receives u.pending = kindsOf receives (t.remaining e)

def isConnectCall : Event → Bool
  | .connect _ => true
  | _ => false

/-- What `disconnect()` leaves behind. -/
structure Stopped (t : Tcp) : Prop where
  shouldRun : t.shouldRun_ = false
  isConnected : t.isConnected_ = false

theorem Stopped.isConnected_eq (h : Stopped t) : t.isConnected = false := by
  simp [Tcp.isConnected, h.isConnected]

theorem Stopped.disconnect (h : Stopped t) : Stopped t.disconnect ∧ t.disconnect.pending = t.pending := by
  rw [disconnect_of_not_connected h.isConnected_eq]
  exact ⟨⟨rfl, h.isConnected⟩, rfl⟩

/-- No handler starts anything but the rest of a write. -/
theorem Stopped.handle (h : Stopped t) (r : Result) (kind : TcpOp) :
    Stopped (t.handle r kind) ∧
      kindsOf receives (t.handle r kind).pending = kindsOf receives t.pending := by
  cases kind with
  | connect endpointIter =>
    have heq : t.handle r (.connect endpointIter) = t := by
      simp [Tcp.handle, handleConnect, h.shouldRun]
    rw [heq]
    exact ⟨h, rfl⟩
  | read delimiter =>
    cases r with
    | error code =>
      obtain ⟨hstopped, hpending⟩ := h.disconnect
      exact ⟨hstopped, congrArg _ hpending⟩
    | ok n =>
      rw [Tcp.handle, handleRead_ok_of_stopped h.shouldRun]
      exact ⟨⟨h.shouldRun, h.isConnected⟩, rfl⟩
  | write bufferTx =>
    cases r with
    | error code => exact ⟨h, rfl⟩
    | ok n =>
      simp only [Tcp.handle, handleWrite]
      split
      · exact ⟨⟨h.shouldRun, h.isConnected⟩, kindsOf_append_of_not rfl⟩
      · exact ⟨h, rfl⟩

theorem Stopped.step (h : Stopped t) (hnot : isConnectCall e = false) (hs : step t e = some u) :
    Stopped u ∧ kindsOf receives u.pending = kindsOf receives (t.remaining e) := by
  cases e with
  | connect resolve => cases hnot
  | disconnect =>
    obtain rfl := Option.some.inj hs
    obtain ⟨hstopped, hpending⟩ := h.disconnect
    exact ⟨hstopped, congrArg _ hpending⟩
  | applyOptions resolve =>
    obtain rfl := Option.some.inj hs
    rw [applyOptions, if_neg (by rw [h.isConnected_eq]; exact Bool.false_ne_true)]
    exact ⟨h, rfl⟩
  | setOptions opts =>
    obtain rfl := Option.some.inj hs
    exact ⟨⟨h.shouldRun, h.isConnected⟩, rfl⟩
  | write data =>
    obtain rfl := Option.some.inj hs
    exact ⟨⟨h.shouldRun, h.isConnected⟩, kindsOf_append_of_not rfl⟩
  | io x =>
    cases x with
    | receive i data =>
      obtain ⟨_, _, _, _, _, rfl⟩ := io_receive hs
      exact ⟨⟨h.shouldRun, h.isConnected⟩, rfl⟩
    | finish i r =>
      obtain ⟨kind, stamp, hop, _, rfl⟩ := io_finish hs
      have hset : kindsOf receives (t.pending.set i ⟨kind, stamp, some r⟩) =
          kindsOf receives t.pending := kindsOf_set hop rfl
      cases kind <;> cases r <;> exact ⟨⟨h.shouldRun, h.isConnected⟩, hset⟩
    | run i =>
      obtain ⟨kind, stamp, r, _, rfl⟩ := io_run hs
      have hstopped : Stopped { t with pending := t.pending.eraseIdx i } :=
        ⟨h.shouldRun, h.isConnected⟩
      exact hstopped.handle r kind

theorem Stopped.along (h : Stopped t) {es : List Event} (hes : ∀ e ∈ es, isConnectCall e = false) :
    Along Tcp.step StaysDisconnected t es := by
  induction es generalizing t with
  | nil => trivial
  | cons e es ih =>
    intro u hu
    obtain ⟨hstopped, hkinds⟩ := h.step (hes e List.mem_cons_self) hu
    refine ⟨⟨hstopped.isConnected_eq, hkinds⟩, ?_⟩
    exact ih hstopped fun e he => hes e (List.mem_cons_of_mem _ he)

theorem stopped_disconnect (h : Coherent t) : Stopped t.disconnect :=
  ⟨shouldRun_disconnect, h.isConnected_disconnect⟩

end Tcp

namespace Udp

variable {u v : Udp} {e : Event}

def remaining (u : Udp) : Event → List (Operation UdpOp)
  | .io (.run i) => u.pending.eraseIdx i
  | _ => u.pending

/-- The object is not connected after the step, which starts no receive. -/
structure StaysDisconnected (u : Udp) (e : Event) (v : Udp) : Prop where
  isConnected : v.isConnected = false
  starts : kindsOf UdpOp.isReceive v.pending = kindsOf UdpOp.isReceive (u.remaining e)

/-- `connect()` and `write()`, which open the socket. -/
def isOpeningCall : Event → Bool
  | .connect _ => true
  | .write _ _ => true
  | _ => false

/-- What `disconnect()` leaves behind. -/
structure Stopped (u : Udp) : Prop where
  shouldReceive : u.shouldReceive_ = false
  closed : u.socket_.isOpen = false

theorem stopped_disconnect (u : Udp) : Stopped u.disconnect := ⟨rfl, rfl⟩

theorem Stopped.handle (h : Stopped u) (r : Result) (kind : UdpOp) :
    Stopped (u.handle r kind) ∧
      kindsOf UdpOp.isReceive (u.handle r kind).pending = kindsOf UdpOp.isReceive u.pending := by
  cases kind with
  | send buffer endpoint => exact ⟨h, rfl⟩
  | receive =>
    cases r with
    | error code => exact ⟨stopped_disconnect u, kindsOf_cancel⟩
    | ok n =>
      rw [Udp.handle, handleRead_ok_of_stopped h.shouldReceive]
      exact ⟨⟨h.shouldReceive, h.closed⟩, rfl⟩

theorem Stopped.step (h : Stopped u) (hnot : isOpeningCall e = false) (hs : step u e = some v) :
    Stopped v ∧ kindsOf UdpOp.isReceive v.pending = kindsOf UdpOp.isReceive (u.remaining e) := by
  cases e with
  | connect calls => cases hnot
  | write answer data => cases hnot
  | disconnect =>
    obtain rfl := Option.some.inj hs
    exact ⟨stopped_disconnect u, kindsOf_cancel⟩
  | applyOptions calls fromString =>
    obtain rfl := Option.some.inj hs
    obtain ⟨endpoint, hstate⟩ := applyOptions_state u calls fromString
    rw [if_neg (by rw [isConnected, h.closed]; exact Bool.false_ne_true)] at hstate
    rw [hstate]
    exact ⟨⟨h.shouldReceive, h.closed⟩, rfl⟩
  | setOptions options =>
    obtain rfl := Option.some.inj hs
    exact ⟨⟨h.shouldReceive, h.closed⟩, rfl⟩
  | io x =>
    cases x with
    | receive i data =>
      obtain ⟨stamp, hop, rfl⟩ := io_receive hs
      exact ⟨⟨h.shouldReceive, h.closed⟩, kindsOf_set hop rfl⟩
    | finish i r =>
      obtain ⟨kind, stamp, hop, rfl⟩ := io_finish hs
      exact ⟨⟨h.shouldReceive, h.closed⟩, kindsOf_set hop rfl⟩
    | run i =>
      obtain ⟨kind, stamp, r, _, rfl⟩ := io_run hs
      have hstopped : Stopped { u with pending := u.pending.eraseIdx i } :=
        ⟨h.shouldReceive, h.closed⟩
      exact hstopped.handle r kind

theorem Stopped.along (h : Stopped u) {es : List Event} (hes : ∀ e ∈ es, isOpeningCall e = false) :
    Along Udp.step StaysDisconnected u es := by
  induction es generalizing u with
  | nil => trivial
  | cons e es ih =>
    intro v hv
    obtain ⟨hstopped, hkinds⟩ := h.step (hes e List.mem_cons_self) hv
    refine ⟨⟨hstopped.closed, hkinds⟩, ?_⟩
    exact ih hstopped fun e he => hes e (List.mem_cons_of_mem _ he)

end Udp

/-- After `disconnect()`, whatever completes and is called until the next `connect()` (or
`write()`, for `Udp`), the object stays disconnected, and no connect attempt, read or
receive is started. For `Udp` this is so from every state, reachable or not. -/
theorem stays_disconnected {identifier : Bytes} {t : Tcp}
    (ht : Reaches Tcp.step anyStep (Tcp.initial identifier) t) (u : Udp)
    (es : List Tcp.Event) (hes : ∀ e ∈ es, Tcp.isConnectCall e = false)
    (fs : List Udp.Event) (hfs : ∀ e ∈ fs, Udp.isOpeningCall e = false) :
    (t.disconnect.isConnected = false ∧ Along Tcp.step Tcp.StaysDisconnected t.disconnect es) ∧
      u.disconnect.isConnected = false ∧
        Along Udp.step Udp.StaysDisconnected u.disconnect fs := by
  have hstopped := Tcp.stopped_disconnect (Tcp.coherent_of_reaches ht)
  exact ⟨⟨hstopped.isConnected_eq, hstopped.along hes⟩, rfl, (Udp.stopped_disconnect u).along hfs⟩

/-- One attempt is pending, and another one has succeeded, when `disconnect()` is called. -/
theorem dialing_stays_disconnected :
    ∃ t, Reaches Tcp.step anyStep (Tcp.initial []) t ∧ t.pending.length = 2 ∧
      t.disconnect.isConnected = false ∧
        Along Tcp.step Tcp.StaysDisconnected t.disconnect [.io (.run 0), .io (.finish 0 (.ok 0)),
          .io (.run 0)] := by
  have hrun : Reaches Tcp.step anyStep (Tcp.initial []) _ :=
    .head (e := .connect fun _ _ => .ok [⟨[], 4001⟩]) rfl trivial
      (.head (e := .connect fun _ _ => .ok [⟨[], 4002⟩]) rfl trivial
        (.head (e := .io (.finish 0 (.ok 0))) rfl trivial (.refl _ _)))
  obtain ⟨hdisconnected, halong⟩ := (stays_disconnected hrun (Udp.initial [] [] false)
    [.io (.run 0), .io (.finish 0 (.ok 0)), .io (.run 0)] (by decide) [] (by decide)).1
  exact ⟨_, hrun, rfl, hdisconnected, halong⟩

end DeviceTester.Connection

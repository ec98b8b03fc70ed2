import DeviceTester.Connection.TcpServerManager
import DeviceTester.Lib.Call

/-!
# `connection::TcpServer`

The acceptor, the accepts started on it whose handler has not run, and the manager of the clients
that were accepted. The handler of an accept starts the next one. No other code does.
-/
namespace DeviceTester.Connection

open DeviceTester.Lib

inductive TcpServerOptions.Protocol where
  | ipv4
  | ipv6
  deriving DecidableEq, Repr

structure TcpServerOptions extends Options where
  protocol : TcpServerOptions.Protocol
  port : UInt16
  deriving DecidableEq, Repr

/-- `TcpServerOptions{identifier}`: the members left out are value-initialised. -/
def TcpServerOptions.withIdentifier (identifier : Bytes) : TcpServerOptions where
  identifier := identifier
  protocol := .ipv4
  port := 0

/-- `tcp::acceptor`. `generation` counts how often it was replaced by an open one. -/
structure Acceptor where
  isOpen : Bool
  generation : Nat
  deriving DecidableEq, Repr

structure TcpServer where
  acceptor_ : Acceptor
  options_ : TcpServerOptions
  manager_ : TcpServerManager
  pending : List (Operation Unit)
  deriving DecidableEq

/-- What the constructor of `tcp::acceptor` throws for a protocol and a port, if it throws. -/
abbrev Listen := TcpServerOptions.Protocol → UInt16 → Option Bytes

namespace TcpServer

def initial (identifier : Bytes) : TcpServer where
  acceptor_ := ⟨false, 0⟩
  options_ := .withIdentifier identifier
  manager_ := .initial
  pending := []

def isConnected (s : TcpServer) : Bool := s.acceptor_.isOpen

/-- `acceptor_.close`. -/
def closeAcceptor (s : TcpServer) : TcpServer :=
  { s with
    acceptor_ := { s.acceptor_ with isOpen := false }
    pending := s.pending.map Operation.cancel }

def disconnect (s : TcpServer) : TcpServer :=
  { s with manager_ := s.manager_.stopAll }.closeAcceptor

def connect (listen : Listen) (s : TcpServer) : Outcome Bytes TcpServer :=
  let s := s.disconnect
  match listen s.options_.protocol s.options_.port with
  | some what => .threw s what
  | none => .returned { s with acceptor_ := ⟨true, s.acceptor_.generation + 1⟩ }

def startAccept (s : TcpServer) : TcpServer :=
  { s with
    pending := s.pending ++ [.begin s.acceptor_.isOpen () s.acceptor_.generation] }

/-- The handler that `startAccept` passes on. -/
def handleAccept (s : TcpServer) (r : Result) : TcpServer :=
  if !s.acceptor_.isOpen then s
  else if r.isOk then { s with manager_ := s.manager_.start .accepted }.startAccept
  else s.startAccept

def write (s : TcpServer) (_ : Bytes) : TcpServer := s

def applyOptions (listen : Listen) (s : TcpServer) : Outcome Bytes TcpServer :=
  if s.acceptor_.isOpen then s.connect listen else .returned s

def setOptions (s : TcpServer) (options : TcpServerOptions) : TcpServer :=
  { s with options_ := options }

/-- An accept in flight finishes, with a socket or an error, or its handler runs. -/
def io (s : TcpServer) : IoEvent → Option TcpServer
  | .receive _ _ => none
  | .finish i r =>
      match s.pending[i]? with
      | some ⟨_, stamp, none⟩ => some { s with pending := s.pending.set i ⟨(), stamp, some r⟩ }
      | _ => none
  | .run i =>
      match s.pending[i]? with
      | some ⟨_, _, some r⟩ => some ({ s with pending := s.pending.eraseIdx i }.handleAccept r)
      | _ => none

inductive Event where
  | connect (listen : Listen)
  | disconnect
  | applyOptions (listen : Listen)
  | setOptions (options : TcpServerOptions)
  | write (data : Bytes)
  | io (e : IoEvent)
  /-- What happens to an operation of the `i`-th client. -/
  | client (i : Nat) (e : IoEvent)

def step (s : TcpServer) : Event → Option TcpServer
  | .connect listen => some (s.connect listen).state
  | .disconnect => some s.disconnect
  | .applyOptions listen => some (s.applyOptions listen).state
  | .setOptions options => some (s.setOptions options)
  | .write data => some (s.write data)
  | .io e => s.io e
  | .client i e => (s.manager_.io i e).map fun m => { s with manager_ := m }

/-- An open acceptor has one accept outstanding or with its completion waiting, and no socket is
handed to the manager while the acceptor is closed. -/
def Accepts (s : TcpServer) (_ : Event) (t : TcpServer) : Prop :=
  (t.acceptor_.isOpen = true → t.pending.length = 1) ∧
    (s.acceptor_.isOpen = false → t.manager_.clients.length = s.manager_.clients.length)

/-- A call of `connect()` cannot open the acceptor. -/
def NeverListens (s : TcpServer) : Event → TcpServer → Prop
  | .connect listen, _ => listen s.options_.protocol s.options_.port ≠ none
  | _, _ => True

instance (s : TcpServer) (e : Event) (t : TcpServer) : Decidable (Accepts s e t) :=
  inferInstanceAs (Decidable (_ ∧ _))

variable {s t : TcpServer} {e : Event}

/-! ## Nothing but an accept starts an accept -/

theorem length_pending_disconnect (s : TcpServer) :
    s.disconnect.pending.length = s.pending.length :=
  List.length_map _

theorem length_pending_connect (listen : Listen) (s : TcpServer) :
    (s.connect listen).state.pending.length = s.pending.length := by
  unfold connect
  dsimp only
  split
  · exact length_pending_disconnect s
  · exact length_pending_disconnect s

theorem length_pending_handleAccept (s : TcpServer) (r : Result) :
    (s.handleAccept r).pending.length ≤ s.pending.length + 1 := by
  unfold handleAccept startAccept
  split
  · omega
  · split
    · rw [List.length_append, List.length_singleton]
    · rw [List.length_append, List.length_singleton]

theorem io_cases {x : IoEvent} (h : s.io x = some t) :
    (∃ i op r, s.pending[i]? = some op ∧
        t = { s with pending := s.pending.set i ⟨(), op.stamp, some r⟩ }) ∨
      ∃ i op r, s.pending[i]? = some op ∧
        t = { s with pending := s.pending.eraseIdx i }.handleAccept r := by
  cases x with
  | receive i data => cases h
  | finish i r =>
    simp only [io] at h
    split at h
    · rename_i kind stamp hop
      exact .inl ⟨i, _, r, hop, (Option.some.inj h).symm⟩
    · cases h
  | run i =>
    simp only [io] at h
    split at h
    · rename_i kind stamp r hop
      exact .inr ⟨i, _, r, hop, (Option.some.inj h).symm⟩
    · cases h

/-- The number of accepts never grows. -/
theorem length_pending_step (h : step s e = some t) : t.pending.length ≤ s.pending.length := by
  cases e with
  | connect listen =>
    obtain rfl := Option.some.inj h
    exact Nat.le_of_eq (length_pending_connect listen s)
  | disconnect =>
    obtain rfl := Option.some.inj h
    exact Nat.le_of_eq (length_pending_disconnect s)
  | applyOptions listen =>
    obtain rfl := Option.some.inj h
    unfold applyOptions
    split
    · exact Nat.le_of_eq (length_pending_connect listen s)
    · exact Nat.le_refl _
  | setOptions options => exact Option.some.inj h ▸ Nat.le_refl _
  | write data => exact Option.some.inj h ▸ Nat.le_refl _
  | io x =>
    rcases io_cases h with ⟨i, op, r, hop, rfl⟩ | ⟨i, op, r, hop, rfl⟩
    · exact Nat.le_of_eq List.length_set
    · have hle := length_pending_handleAccept { s with pending := s.pending.eraseIdx i } r
      have hi : i < s.pending.length := (List.getElem?_eq_some_iff.mp hop).1
      have herase : (s.pending.eraseIdx i).length = s.pending.length - 1 :=
        List.length_eraseIdx_of_lt hi
      show _ ≤ s.pending.length
      dsimp only at hle
      omega
  | client i x =>
    obtain ⟨m, -, rfl⟩ := Option.map_eq_some_iff.mp h
    exact Nat.le_refl _

theorem noAccepts_step : Keeps step anyStep fun s => s.pending = [] := by
  intro s e t h _ hs
  have hle := length_pending_step hs
  rw [h] at hle
  exact List.eq_nil_of_length_eq_zero (Nat.le_zero.mp hle)

/-- No accept is ever outstanding: `connect()` does not start one. -/
theorem no_accept_of_reaches {identifier : Bytes}
    (h : Reaches step anyStep (initial identifier) s) : s.pending = [] :=
  noAccepts_step.reaches rfl h

/-! ## What the manager is handed -/

theorem length_clients_stopAll (m : TcpServerManager) :
    m.stopAll.clients.length = m.clients.length :=
  List.length_mapIdx

theorem length_clients_handle (m : TcpServerManager) (i : Nat) (c : TcpServerClient)
    (kind : ClientOp) (r : Result) : (m.handle i c kind r).clients.length = m.clients.length := by
  cases kind with
  | read =>
    cases r with
    | ok n => exact List.length_modify _ _ _
    | error code =>
      simp only [TcpServerManager.handle]
      split
      · exact List.length_modify _ _ _
      · rfl
  | write bufferTx =>
    simp only [TcpServerManager.handle]
    split
    · exact List.length_modify _ _ _
    · rfl

theorem length_clients_io {m n : TcpServerManager} {i : Nat} {x : IoEvent}
    (h : m.io i x = some n) : n.clients.length = m.clients.length := by
  rcases TcpServerManager.io_cases h with ⟨c, d, -, -, rfl⟩ | ⟨k, c, kind, stamp, r, -, -, -, rfl⟩
  · exact List.length_modify _ _ _
  · rw [length_clients_handle]
    exact List.length_modify _ _ _

/-- A closed acceptor: the handler of an accept does nothing. -/
theorem length_clients_step (hclosed : s.acceptor_.isOpen = false) (h : step s e = some t) :
    t.manager_.clients.length = s.manager_.clients.length := by
  cases e with
  | connect listen =>
    obtain rfl := Option.some.inj h
    unfold connect
    dsimp only
    split
    · exact length_clients_stopAll s.manager_
    · exact length_clients_stopAll s.manager_
  | disconnect =>
    obtain rfl := Option.some.inj h
    exact length_clients_stopAll s.manager_
  | applyOptions listen =>
    obtain rfl := Option.some.inj h
    rw [applyOptions, hclosed]
    rfl
  | setOptions options => exact Option.some.inj h ▸ rfl
  | write data => exact Option.some.inj h ▸ rfl
  | io x =>
    rcases io_cases h with ⟨i, op, r, hop, rfl⟩ | ⟨i, op, r, hop, rfl⟩
    · rfl
    · rw [handleAccept]
      simp [hclosed]
  | client i x =>
    obtain ⟨m, hm, rfl⟩ := Option.map_eq_some_iff.mp h
    exact length_clients_io hm

/-! ## When the acceptor accepts -/

/-- The acceptor has not been opened, and no accept was started. -/
structure Idle (s : TcpServer) : Prop where
  closed : s.acceptor_.isOpen = false
  pending : s.pending = []

/-- As long as nothing has opened it, only a `connect()` that can listen opens the acceptor. -/
theorem isOpen_step_iff (h : Idle s) (hs : step s e = some t) :
    t.acceptor_.isOpen = false ↔ NeverListens s e t := by
  cases e with
  | connect listen =>
    obtain rfl := Option.some.inj hs
    unfold connect NeverListens
    dsimp only
    cases hlisten : listen s.disconnect.options_.protocol s.disconnect.options_.port with
    | some what =>
      have hsame : listen s.options_.protocol s.options_.port = some what := hlisten
      rw [hsame]
      exact iff_of_true rfl (Option.some_ne_none what)
    | none =>
      have hsame : listen s.options_.protocol s.options_.port = none := hlisten
      rw [hsame]
      exact iff_of_false Bool.noConfusion (fun hne => hne rfl)
  | disconnect =>
    obtain rfl := Option.some.inj hs
    exact iff_of_true rfl trivial
  | applyOptions listen =>
    obtain rfl := Option.some.inj hs
    rw [applyOptions, h.closed]
    exact iff_of_true h.closed trivial
  | setOptions options => exact Option.some.inj hs ▸ iff_of_true h.closed trivial
  | write data => exact Option.some.inj hs ▸ iff_of_true h.closed trivial
  | io x =>
    rcases io_cases hs with ⟨i, op, r, hop, -⟩ | ⟨i, op, r, hop, -⟩
    · rw [h.pending] at hop
      cases hop
    · rw [h.pending] at hop
      cases hop
  | client i x =>
    obtain ⟨m, -, rfl⟩ := Option.map_eq_some_iff.mp hs
    exact iff_of_true h.closed trivial

theorem accepts_iff_closed (h : Idle s) (hs : step s e = some t) :
    Accepts s e t ↔ t.acceptor_.isOpen = false := by
  have hnone : t.pending = [] := noAccepts_step s e t h.pending trivial hs
  constructor
  · intro haccepts
    rw [← Bool.not_eq_true]
    intro hopen
    have hlength := haccepts.1 hopen
    rw [hnone] at hlength
    cases hlength
  · intro hclosed
    refine ⟨fun hopen => ?_, fun _ => length_clients_step h.closed hs⟩
    rw [hclosed] at hopen
    cases hopen

/-- An accept is outstanding wherever the acceptor is open, and nothing is accepted where it is
closed, exactly in the runs in which no `connect()` can open the acceptor. -/
theorem accepts_iff_never_listens (identifier : Bytes) (es : List Event) :
    Along step Accepts (initial identifier) es ↔
      Along step NeverListens (initial identifier) es := by
  have hidle : Idle (initial identifier) := ⟨rfl, rfl⟩
  refine along_iff_of_first (fun s e t h hs haccepts => ?_) (fun s e t h hs => ?_) hidle es
  · exact ⟨(accepts_iff_closed h hs).mp haccepts, noAccepts_step s e t h.pending trivial hs⟩
  · rw [accepts_iff_closed h hs, isOpen_step_iff h hs]

/-- A port that can be listened on, and no accept is started. -/
theorem opened_accepts_nothing :
    ∃ s, exec step (initial (text "s")) [.connect fun _ _ => none] = some s ∧
      s.acceptor_.isOpen = true ∧ s.pending = [] ∧
      ¬ Along step Accepts (initial (text "s")) [.connect fun _ _ => none] := by
  refine ⟨_, rfl, rfl, rfl, ?_⟩
  intro h
  have hone := (h _ rfl).1.1 rfl
  cases hone

end TcpServer

end DeviceTester.Connection

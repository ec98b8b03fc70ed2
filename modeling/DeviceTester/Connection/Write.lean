import DeviceTester.Connection.Serial
import DeviceTester.Connection.Tcp
import DeviceTester.Lib.Backlog

/-!
# What `write()` puts on the wire

`Tcp` and `Serial` handle a write that was transferred in part in the same way:
`handleWrite` starts the rest again. Whatever was written in the meantime goes
out before it.
-/
namespace DeviceTester.Connection

open DeviceTester.Lib

/-! ## `Tcp` -/

namespace Tcp

variable {t u : Tcp} {i : Nat}

/-- The buffer of a write. -/
def bufferTx : TcpOp → Option Bytes
  | .write buffer => some buffer
  | _ => none

/-- The bytes handed to `write()`. -/
def writtenBy : Event → Bytes
  | .write data => data
  | _ => []

/-- The connection is written to, nothing fails, and no later bytes overtake the
unsent rest of a write. -/
def WritesInOrder (t : Tcp) (e : Event) (_ : Tcp) : Prop :=
  match e with
  | .write _ => True
  | .io x => Succeeds t.pending x ∧ KeepsOrder bufferTx t.pending x
  | _ => False

instance (t : Tcp) (e : Event) (u : Tcp) : Decidable (WritesInOrder t e u) := by
  unfold WritesInOrder
  split <;> infer_instance

/-- What is on the wire and what is still to follow. -/
def outgoing (t : Tcp) : Bytes := t.wire ++ backlog bufferTx t.pending

theorem backlog_start (t : Tcp) (op : TcpOp) :
    backlog bufferTx (t.start op).pending =
      backlog bufferTx t.pending ++ (bufferTx op).getD [] := by
  rw [start, backlog_append, backlog_cons, backlog_nil, List.append_nil, unsent_begin]

/-- A handler that is given no error starts the rest of a write and no other. -/
theorem handle_ok_backlog (ho : t.socket_.isOpen = true) (op : TcpOp) (stamp n : Nat) :
    (t.handle (.ok n) op).socket_.isOpen = true ∧ (t.handle (.ok n) op).wire = t.wire ∧
      backlog bufferTx (t.handle (.ok n) op).pending =
        backlog bufferTx t.pending ++ unsent bufferTx ⟨op, stamp, some (.ok n)⟩ := by
  cases op with
  | connect endpointIter =>
    simp only [handle, handleConnect, ho, Bool.not_true, Bool.false_eq_true, if_false]
    split
    · exact ⟨ho, rfl, (List.append_nil _).symm⟩
    · exact ⟨ho, rfl, backlog_start _ _⟩
  | read delimiter =>
    rcases Bool.eq_false_or_eq_true t.shouldRun_ with hrun | hrun
    · rw [handle, handleRead_ok_of_running hrun]
      exact ⟨ho, rfl, backlog_start _ _⟩
    · rw [handle, handleRead_ok_of_stopped hrun]
      exact ⟨ho, rfl, (List.append_nil _).symm⟩
  | write buffer =>
    simp only [handle, handleWrite]
    split
    · exact ⟨ho, rfl, backlog_start _ _⟩
    · rename_i hlen
      have hrest : buffer.drop n = [] := by
        rw [← not_not.mp hlen, List.drop_length]
      exact ⟨ho, rfl, by simp [unsent, bufferTx, hrest]⟩

theorem finished_outgoing (t : Tcp) (op : TcpOp) (r : Result) :
    (t.finished op r).socket_.isOpen = t.socket_.isOpen ∧ (t.finished op r).pending = t.pending ∧
      (t.finished op r).wire = t.wire ++ sent bufferTx op r := by
  cases op with
  | connect endpointIter => cases r <;> simp [finished, sent, bufferTx]
  | read delimiter => cases r <;> simp [finished, sent, bufferTx]
  | write buffer => cases r <;> simp [finished, sent, bufferTx]

theorem outgoing_step {e : Event} (ho : t.socket_.isOpen = true) (hc : WritesInOrder t e u)
    (hs : step t e = some u) :
    u.socket_.isOpen = true ∧ u.outgoing = t.outgoing ++ writtenBy e := by
  cases e with
  | connect resolve => exact hc.elim
  | disconnect => exact hc.elim
  | applyOptions resolve => exact hc.elim
  | setOptions opts => exact hc.elim
  | write data =>
    obtain rfl : t.write data = u := Option.some.inj hs
    refine ⟨ho, ?_⟩
    rw [outgoing, outgoing, write, backlog_start, List.append_assoc]
    rfl
  | io x =>
    have hnone : writtenBy (.io x) = [] := rfl
    obtain ⟨hok, hk⟩ := hc
    rw [hnone, List.append_nil]
    cases x with
    | receive i data =>
      obtain ⟨delimiter, stamp, -, -, -, rfl⟩ := io_receive hs
      exact ⟨ho, rfl⟩
    | finish i r =>
      obtain ⟨kind, stamp, hop, -, rfl⟩ := io_finish hs
      obtain ⟨hopen, hpending, hwire⟩ :=
        finished_outgoing { t with pending := t.pending.set i ⟨kind, stamp, some r⟩ } kind r
      refine ⟨hopen.trans ho, ?_⟩
      rw [outgoing, hwire, hpending, List.append_assoc, backlog_finish hop hk]
      rfl
    | run i =>
      obtain ⟨kind, stamp, r, hop, rfl⟩ := io_run hs
      cases r with
      | error code => cases hok _ hop
      | ok n =>
        obtain ⟨hopen, hwire, hbacklog⟩ :=
          handle_ok_backlog (t := { t with pending := t.pending.eraseIdx i }) ho kind stamp n
        refine ⟨hopen, ?_⟩
        rw [outgoing, hwire, hbacklog, backlog_run hop hk]
        rfl

/-- Once no write is outstanding, what has gone out is what was written, in order. -/
theorem wire_of_writes {es : List Event} (ho : t.socket_.isOpen = true)
    (ht : outstanding (fun op _ => op.isWrite) t.pending = 0) (ha : Along step WritesInOrder t es)
    (he : exec step t es = some u) (hu : outstanding (fun op _ => op.isWrite) u.pending = 0) :
    u.wire = t.wire ++ (es.map writtenBy).flatten := by
  have hrun := (exec_appends outgoing writtenBy ho ha he fun _ _ _ => outgoing_step).2
  have hnone : ∀ op : TcpOp, op.isWrite = false → bufferTx op = none := by
    intro op hop
    cases op with
    | write buffer => cases hop
    | connect endpointIter => rfl
    | read delimiter => rfl
  rwa [outgoing, outgoing, backlog_of_no_write hnone ht, backlog_of_no_write hnone hu,
    List.append_nil, List.append_nil] at hrun

end Tcp

/-! ## `Serial` -/

namespace Serial

variable {s u : Serial} {i : Nat}

/-- The buffer of a write. -/
def bufferTx : SerialOp → Option Bytes
  | .write buffer => some buffer
  | .read => none

/-- The bytes handed to `write()`. -/
def writtenBy : Event → Bytes
  | .write data => data
  | _ => []

/-- The connection is written to, nothing fails, and no later bytes overtake the
unsent rest of a write. -/
def WritesInOrder (s : Serial) (e : Event) (_ : Serial) : Prop :=
  match e with
  | .write _ => True
  | .io x => Succeeds s.pending x ∧ KeepsOrder bufferTx s.pending x
  | _ => False

instance (s : Serial) (e : Event) (u : Serial) : Decidable (WritesInOrder s e u) := by
  unfold WritesInOrder
  split <;> infer_instance

/-- What is on the wire and what is still to follow. -/
def outgoing (s : Serial) : Bytes := s.wire ++ backlog bufferTx s.pending

theorem backlog_start (s : Serial) (op : SerialOp) :
    backlog bufferTx (s.start op).pending =
      backlog bufferTx s.pending ++ (bufferTx op).getD [] := by
  rw [start, backlog_append, backlog_cons, backlog_nil, List.append_nil, unsent_begin]

/-- A handler that is given no error starts the rest of a write and no other. -/
theorem handle_ok_backlog (ho : s.serial_.isOpen = true) (op : SerialOp) (stamp n : Nat) :
    (s.handle (.ok n) op).serial_.isOpen = true ∧ (s.handle (.ok n) op).wire = s.wire ∧
      backlog bufferTx (s.handle (.ok n) op).pending =
        backlog bufferTx s.pending ++ unsent bufferTx ⟨op, stamp, some (.ok n)⟩ := by
  cases op with
  | read => exact ⟨ho, rfl, backlog_start _ _⟩
  | write buffer =>
    simp only [handle, handleWrite]
    split
    · exact ⟨ho, rfl, backlog_start _ _⟩
    · rename_i hlen
      have hrest : buffer.drop n = [] := by
        rw [← not_not.mp hlen, List.drop_length]
      exact ⟨ho, rfl, by simp [unsent, bufferTx, hrest]⟩

theorem finished_outgoing (s : Serial) (op : SerialOp) (r : Result) :
    (s.finished op r).serial_.isOpen = s.serial_.isOpen ∧ (s.finished op r).pending = s.pending ∧
      (s.finished op r).wire = s.wire ++ sent bufferTx op r := by
  cases op with
  | read => cases r <;> simp [finished, sent, bufferTx]
  | write buffer => cases r <;> simp [finished, sent, bufferTx]

theorem outgoing_step {e : Event} (ho : s.serial_.isOpen = true) (hc : WritesInOrder s e u)
    (hs : step s e = some u) :
    u.serial_.isOpen = true ∧ u.outgoing = s.outgoing ++ writtenBy e := by
  cases e with
  | connect device depth => exact hc.elim
  | disconnect => exact hc.elim
  | applyOptions device depth => exact hc.elim
  | setOptions options => exact hc.elim
  | write data =>
    obtain rfl : s.write data = u := Option.some.inj hs
    have hopen : s.write data = s.start (.write data) := by simp [write, ho]
    rw [hopen]
    refine ⟨ho, ?_⟩
    rw [outgoing, outgoing, backlog_start, List.append_assoc]
    rfl
  | io x =>
    have hnone : writtenBy (.io x) = [] := rfl
    obtain ⟨hok, hk⟩ := hc
    rw [hnone, List.append_nil]
    cases x with
    | receive i data =>
      obtain ⟨stamp, hop, rfl⟩ := io_receive hs
      exact ⟨ho, congrArg (s.wire ++ ·) (backlog_set_of_not_write rfl hop)⟩
    | finish i r =>
      obtain ⟨kind, stamp, hop, -, rfl⟩ := io_finish hs
      obtain ⟨hopen, hpending, hwire⟩ :=
        finished_outgoing { s with pending := s.pending.set i ⟨kind, stamp, some r⟩ } kind r
      refine ⟨hopen.trans ho, ?_⟩
      rw [outgoing, hwire, hpending, List.append_assoc, backlog_finish hop hk]
      rfl
    | run i =>
      obtain ⟨kind, stamp, r, hop, rfl⟩ := io_run hs
      cases r with
      | error code => cases hok _ hop
      | ok n =>
        obtain ⟨hopen, hwire, hbacklog⟩ :=
          handle_ok_backlog (s := { s with pending := s.pending.eraseIdx i }) ho kind stamp n
        refine ⟨hopen, ?_⟩
        rw [outgoing, hwire, hbacklog, backlog_run hop hk]
        rfl

/-- Once no write is outstanding, what has gone out is what was written, in order. -/
theorem wire_of_writes {es : List Event} (ho : s.serial_.isOpen = true)
    (ht : outstanding (fun op _ => op.isWrite) s.pending = 0) (ha : Along step WritesInOrder s es)
    (he : exec step s es = some u) (hu : outstanding (fun op _ => op.isWrite) u.pending = 0) :
    u.wire = s.wire ++ (es.map writtenBy).flatten := by
  have hrun := (exec_appends outgoing writtenBy ho ha he fun _ _ _ => outgoing_step).2
  have hnone : ∀ op : SerialOp, op.isWrite = false → bufferTx op = none := by
    intro op hop
    cases op with
    | write buffer => cases hop
    | read => rfl
  rwa [outgoing, outgoing, backlog_of_no_write hnone ht, backlog_of_no_write hnone hu,
    List.append_nil, List.append_nil] at hrun

end Serial

/-- On an open connection on which nothing fails, and on which no later bytes overtake
the unsent rest of a write, the wire carries what was written, in the order of the calls. -/
theorem writes_reach_wire_in_order (t u : Tcp) (es : List Tcp.Event) (s v : Serial)
    (fs : List Serial.Event) :
    (t.socket_.isOpen = true → outstanding (fun op _ => op.isWrite) t.pending = 0 →
      Along Tcp.step Tcp.WritesInOrder t es → exec Tcp.step t es = some u →
      outstanding (fun op _ => op.isWrite) u.pending = 0 →
      u.wire = t.wire ++ (es.map Tcp.writtenBy).flatten) ∧
    (s.serial_.isOpen = true → outstanding (fun op _ => op.isWrite) s.pending = 0 →
      Along Serial.step Serial.WritesInOrder s fs → exec Serial.step s fs = some v →
      outstanding (fun op _ => op.isWrite) v.pending = 0 →
      v.wire = s.wire ++ (fs.map Serial.writtenBy).flatten) := by
  constructor
  · exact fun ho ht ha he hu => Tcp.wire_of_writes ho ht ha he hu
  · exact fun ho hs ha he hv => Serial.wire_of_writes ho hs ha he hv

/-- A connected `Tcp` with its read in flight, and an open port with none. -/
def openTcp : Tcp :=
  { Tcp.initial [] with
    socket_ := ⟨true, some ⟨text "127.0.0.1", 4001⟩⟩
    endpoints_ := [⟨text "127.0.0.1", 4001⟩]
    isConnected_ := true
    pending := [⟨.read 0, 1, none⟩]
    calls := 1 }

def openSerial : Serial := { Serial.initial [] [] with serial_ := ⟨true, 1, {}⟩ }

/-- Two writes, the second one after the rest of the first has been started again. -/
def restFirstTcp : List Tcp.Event :=
  [.write (text "ab"), .io (.finish 1 (.ok 1)), .io (.run 1), .write (text "c"),
    .io (.finish 1 (.ok 1)), .io (.run 1), .io (.finish 1 (.ok 1)), .io (.run 1)]

def restFirstSerial : List Serial.Event :=
  [.write (text "ab"), .io (.finish 0 (.ok 1)), .io (.run 0), .write (text "c"),
    .io (.finish 0 (.ok 1)), .io (.run 0), .io (.finish 0 (.ok 1)), .io (.run 0)]

theorem rest_first_in_order :
    ∃ u v, exec Tcp.step openTcp restFirstTcp = some u ∧
      exec Serial.step openSerial restFirstSerial = some v ∧
      u.wire = text "abc" ∧ v.wire = text "abc" := by
  refine ⟨_, _, rfl, rfl, ?_⟩
  obtain ⟨htcp, hserial⟩ :=
    writes_reach_wire_in_order openTcp _ restFirstTcp openSerial _ restFirstSerial
  constructor
  · exact htcp rfl rfl (by decide) rfl rfl
  · exact hserial rfl rfl (by decide) rfl rfl

/-- The second write is called before the rest of the first is started again. -/
def overtakenRun : List Tcp.Event :=
  [.write (text "ab"), .write (text "c"), .io (.finish 1 (.ok 1)), .io (.run 1),
    .io (.finish 1 (.ok 1)), .io (.run 1), .io (.finish 1 (.ok 1)), .io (.run 1)]

theorem overtaken_out_of_order :
    Reaches Tcp.step anyStep (Tcp.initial []) openTcp ∧
      ∃ u, exec Tcp.step openTcp overtakenRun = some u ∧
        outstanding (fun op _ => op.isWrite) u.pending = 0 ∧ u.wire = text "acb" ∧
        u.wire ≠ openTcp.wire ++ (overtakenRun.map Tcp.writtenBy).flatten := by
  constructor
  · exact ⟨[.connect fun _ _ => .ok [⟨text "127.0.0.1", 4001⟩], .io (.finish 0 (.ok 0)),
      .io (.run 0)], rfl, along_anyStep _ _⟩
  · exact ⟨_, rfl, rfl, rfl, by decide⟩

end DeviceTester.Connection

import DeviceTester.Connection.Write
import DeviceTester.Lib.Interleave

/-!
# What is transferred, whatever overtakes whatever

The rest of a write is started again behind the writes that were called in the meantime. This
mixes the buffers, and does nothing else to them: in every run the bytes transferred are parts of
the buffers that were written, each from its first byte on and in its own order. Where no write
fails they are all of each. An object that is closed and connected again may send the rest of a
buffer to another peer than its beginning, so this is about all transfers of the object taken
together.
-/
namespace DeviceTester.Connection

open DeviceTester.Lib

/-- No handler of a write runs with an error while there are bytes left to send. -/
def NoneDropped {κ : Type*} (buffer : κ → Option Bytes) (ops : List (Operation κ)) : IoEvent → Prop
  | .run i => ∀ op ∈ ops[i]?, unsent buffer op ≠ [] → op.result.any Result.isOk = true
  | _ => True

instance {κ : Type*} (buffer : κ → Option Bytes) (ops : List (Operation κ)) :
    DecidablePred (NoneDropped buffer ops)
  | .receive _ _ => isTrue trivial
  | .finish _ _ => isTrue trivial
  | .run i => inferInstanceAs (Decidable (∀ op ∈ ops[i]?, unsent buffer op ≠ [] →
      op.result.any Result.isOk = true))

/-! ## `Tcp` -/

namespace Tcp

variable {t u v : Tcp} {i : Nat}

/-- The unsent rests of the writes that are outstanding. -/
def unsentRests (t : Tcp) : List Bytes := rests bufferTx t.pending

/-- The buffers handed to `write()`. -/
def writes : Event → List Bytes
  | .write data => [data]
  | _ => []

/-- A step that drops no bytes. -/
def Lossless (t : Tcp) (e : Event) (_ : Tcp) : Prop :=
  match e with
  | .io x => NoneDropped bufferTx t.pending x
  | _ => True

instance (t : Tcp) (e : Event) (u : Tcp) : Decidable (Lossless t e u) :=
  match e with
  | .io x => inferInstanceAs (Decidable (NoneDropped bufferTx t.pending x))
  | .connect _ | .disconnect | .applyOptions _ | .setOptions _ | .write _ => isTrue trivial

/-- Neither the rests nor the wire are touched. -/
structure SameWrites (t u : Tcp) : Prop where
  rests : u.unsentRests = t.unsentRests
  wire : u.wire = t.wire

theorem SameWrites.trans (h : SameWrites t u) (h' : SameWrites u v) : SameWrites t v :=
  ⟨h'.rests.trans h.rests, h'.wire.trans h.wire⟩

theorem unsentRests_start (t : Tcp) (op : TcpOp) :
    (t.start op).unsentRests = t.unsentRests ++ full [(bufferTx op).getD []] := by
  rw [unsentRests, start, rests_append, rests_begin]
  rfl

/-- An operation that is no write has been started, at most. -/
theorem sameWrites_of_started {b : Bool} {op : TcpOp} {n : Nat}
    (hp : u.pending = t.pending ++ [.begin b op n]) (hop : bufferTx op = none)
    (hw : u.wire = t.wire) : SameWrites t u := by
  refine ⟨?_, hw⟩
  rw [unsentRests, hp, rests_append, rests_begin, hop]
  exact List.append_nil _

theorem sameWrites_disconnect (t : Tcp) : SameWrites t t.disconnect := by
  unfold disconnect
  split
  · exact ⟨rfl, rfl⟩
  · exact ⟨rests_cancel t.pending, rfl⟩

theorem sameWrites_beginConnect (t : Tcp) (endpointIter : List Endpoint) :
    SameWrites t (t.beginConnect endpointIter) := by
  unfold beginConnect
  split
  · exact sameWrites_of_started rfl rfl rfl
  · exact sameWrites_disconnect t

theorem sameWrites_connect (t : Tcp) (resolve : Resolver) :
    SameWrites t (t.connect resolve).state := by
  rcases connect_cases t resolve with ⟨what, h⟩ | ⟨endpoints, -, h⟩
  · rw [h]
    exact sameWrites_disconnect t
  · rw [h, Outcome.state_returned]
    have hflags : SameWrites t
        { t.disconnect with endpoints_ := endpoints, shouldRun_ := true } :=
      ⟨(sameWrites_disconnect t).rests, (sameWrites_disconnect t).wire⟩
    exact hflags.trans (sameWrites_beginConnect _ endpoints)

theorem sameWrites_applyOptions (t : Tcp) (resolve : Resolver) :
    SameWrites t (t.applyOptions resolve).state := by
  unfold applyOptions
  split
  · exact sameWrites_connect t resolve
  · exact ⟨rfl, rfl⟩

/-- A handler that is no handler of a write. -/
theorem sameWrites_handle {kind : TcpOp} (h : bufferTx kind = none) (t : Tcp) (r : Result) :
    SameWrites t (t.handle r kind) := by
  cases kind with
  | connect endpointIter =>
    simp only [handle, handleConnect]
    split
    · exact ⟨rfl, rfl⟩
    · split
      · exact sameWrites_beginConnect t _
      · cases r with
        | error code => exact (sameWrites_disconnect t).trans (sameWrites_beginConnect _ _)
        | ok n => exact sameWrites_of_started rfl rfl rfl
  | read delimiter =>
    cases r with
    | error code => exact sameWrites_disconnect t
    | ok n =>
      simp only [handle, handleRead]
      split
      · exact sameWrites_of_started rfl rfl rfl
      · exact ⟨rfl, rfl⟩
  | write buffer => cases h

/-- What a step of the system does to the writes. -/
def MovesBy (t : Tcp) (e : Event) (u : Tcp) : Prop :=
  ∃ sent lost, Moves t.unsentRests ⟨writes e, sent, lost⟩ u.unsentRests ∧
    u.wire = t.wire ++ sent ∧ (Lossless t e u → lost = [])

theorem SameWrites.movesBy {e : Event} (h : SameWrites t u) (he : writes e = []) :
    MovesBy t e u := by
  refine ⟨[], [], ?_, ?_, fun _ => rfl⟩
  · rw [he, h.rests]
    exact .keep (List.Perm.refl _)
  · rw [h.wire, List.append_nil]

theorem movesBy_finish {r : Result} (h : t.io (.finish i r) = some u) :
    MovesBy t (.io (.finish i r)) u := by
  obtain ⟨kind, stamp, hop, -, rfl⟩ := io_finish h
  obtain ⟨-, hpending, hwire⟩ :=
    finished_outgoing { t with pending := t.pending.set i ⟨kind, stamp, some r⟩ } kind r
  refine ⟨sent bufferTx kind r, [], ?_, hwire, fun _ => rfl⟩
  rw [unsentRests, unsentRests, hpending]
  exact moves_finish hop

theorem movesBy_run (h : t.io (.run i) = some u) : MovesBy t (.io (.run i)) u := by
  obtain ⟨kind, stamp, r, hop, rfl⟩ := io_run h
  have herase : t.unsentRests.Perm (full [unsent bufferTx ⟨kind, stamp, some r⟩] ++
      { t with pending := t.pending.eraseIdx i }.unsentRests) := rests_eraseIdx hop
  cases hb : bufferTx kind with
  | none =>
    have hunsent : unsent bufferTx ⟨kind, stamp, some r⟩ = [] := by simp [unsent, hb]
    obtain ⟨hrests, hwire⟩ :=
      sameWrites_handle hb { t with pending := t.pending.eraseIdx i } r
    refine ⟨[], [], ?_, hwire.trans (List.append_nil _).symm, fun _ => rfl⟩
    rw [hunsent] at herase
    rw [hrests]
    exact .keep herase.symm
  | some buffer =>
    obtain rfl : kind = .write buffer := by
      cases kind with
      | write b => exact congrArg TcpOp.write (Option.some.inj hb)
      | _ => cases hb
    cases r with
    | ok n =>
      have hunsent : unsent bufferTx ⟨.write buffer, stamp, some (.ok n)⟩ = buffer.drop n := rfl
      rw [hunsent] at herase
      simp only [handle, handleWrite]
      split
      · -- the rest goes to the end of the queue
        refine ⟨[], [], .keep ?_, (List.append_nil _).symm, fun _ => rfl⟩
        rw [unsentRests_start]
        exact (herase.trans List.perm_append_comm).symm
      · rename_i hlen
        rw [← not_not.mp hlen, List.drop_length] at herase
        exact ⟨[], [], .keep herase.symm, (List.append_nil _).symm, fun _ => rfl⟩
    | error code =>
      have hunsent : unsent bufferTx ⟨.write buffer, stamp, some (.error code)⟩ = buffer := rfl
      rw [hunsent] at herase
      by_cases hne : buffer = []
      · subst hne
        exact ⟨[], [], .keep herase.symm, (List.append_nil _).symm, fun _ => rfl⟩
      · rw [full_of_ne_nil hne] at herase
        refine ⟨[], [buffer], .lose herase, (List.append_nil _).symm, fun hlossless => ?_⟩
        have hok := hlossless _ hop hne
        cases hok

theorem movesBy_step {e : Event} (h : step t e = some u) : MovesBy t e u := by
  cases e with
  | connect resolve => exact Option.some.inj h ▸ (sameWrites_connect t resolve).movesBy rfl
  | disconnect => exact Option.some.inj h ▸ (sameWrites_disconnect t).movesBy rfl
  | applyOptions resolve =>
    exact Option.some.inj h ▸ (sameWrites_applyOptions t resolve).movesBy rfl
  | setOptions opts =>
    obtain rfl := Option.some.inj h
    exact SameWrites.movesBy ⟨rfl, rfl⟩ rfl
  | write data =>
    obtain rfl := Option.some.inj h
    refine ⟨[], [], .write data ?_, (List.append_nil _).symm, fun _ => rfl⟩
    rw [write, unsentRests_start]
    exact List.Perm.refl _
  | io x =>
    cases x with
    | receive i data =>
      obtain ⟨_, _, _, _, _, rfl⟩ := io_receive h
      exact SameWrites.movesBy ⟨rfl, rfl⟩ rfl
    | finish i r => exact movesBy_finish h
    | run i => exact movesBy_run h

end Tcp

/-! ## `Serial` -/

namespace Serial

variable {s u : Serial} {i : Nat}

/-- The unsent rests of the writes that are outstanding. -/
def unsentRests (s : Serial) : List Bytes := rests bufferTx s.pending

/-- The buffers handed to `write()`. -/
def writes : Event → List Bytes
  | .write data => [data]
  | _ => []

/-- A step that drops no bytes: `write()` finds the port open. -/
def Lossless (s : Serial) (e : Event) (_ : Serial) : Prop :=
  match e with
  | .write _ => s.serial_.isOpen = true
  | .io x => NoneDropped bufferTx s.pending x
  | _ => True

instance (s : Serial) (e : Event) (u : Serial) : Decidable (Lossless s e u) :=
  match e with
  | .write _ => inferInstanceAs (Decidable (s.serial_.isOpen = true))
  | .io x => inferInstanceAs (Decidable (NoneDropped bufferTx s.pending x))
  | .connect .. | .disconnect | .applyOptions .. | .setOptions _ => isTrue trivial

/-- What a call on the device and `disconnect()` leave alone. -/
def sameWrites (s : Serial) : List Bytes × Bytes := (s.unsentRests, s.wire)

theorem sameWrites_disconnect (s : Serial) : sameWrites s.disconnect = sameWrites s := by
  unfold disconnect
  split
  · exact congrArg (·, s.wire) (rests_cancel s.pending)
  · rfl

theorem sameWrites_recursion (device : Device) (depth : Nat) :
    (∀ s o, openPort device depth s = some o → sameWrites o.state = sameWrites s) ∧
      ∀ s o, applyOptions device depth s = some o → sameWrites o.state = sameWrites s :=
  recursion_keeps sameWrites (callDevice_keeps sameWrites fun _ _ _ => rfl) sameWrites_disconnect
    depth

theorem unsentRests_start (s : Serial) (op : SerialOp) :
    (s.start op).unsentRests = s.unsentRests ++ full [(bufferTx op).getD []] := by
  rw [unsentRests, start, rests_append, rests_begin]
  rfl

theorem sameWrites_asyncReadSome (s : Serial) : sameWrites s.asyncReadSome = sameWrites s := by
  have hrests : s.asyncReadSome.unsentRests = s.unsentRests :=
    (unsentRests_start s .read).trans (List.append_nil _)
  exact congrArg (·, s.wire) hrests

/-- What a step of the system does to the writes. -/
def MovesBy (s : Serial) (e : Event) (u : Serial) : Prop :=
  ∃ sent lost, Moves s.unsentRests ⟨writes e, sent, lost⟩ u.unsentRests ∧
    u.wire = s.wire ++ sent ∧ (Lossless s e u → lost = [])

theorem movesBy_of_sameWrites {e : Event} (h : sameWrites u = sameWrites s) (he : writes e = []) :
    MovesBy s e u := by
  obtain ⟨hrests, hwire⟩ := Prod.mk.inj h
  refine ⟨[], [], ?_, ?_, fun _ => rfl⟩
  · rw [he, hrests]
    exact .keep (List.Perm.refl _)
  · rw [hwire, List.append_nil]

theorem movesBy_finish {r : Result} (h : s.io (.finish i r) = some u) :
    MovesBy s (.io (.finish i r)) u := by
  obtain ⟨kind, stamp, hop, -, rfl⟩ := io_finish h
  obtain ⟨-, hpending, hwire⟩ :=
    finished_outgoing { s with pending := s.pending.set i ⟨kind, stamp, some r⟩ } kind r
  refine ⟨sent bufferTx kind r, [], ?_, hwire, fun _ => rfl⟩
  rw [unsentRests, unsentRests, hpending]
  exact moves_finish hop

theorem movesBy_run (h : s.io (.run i) = some u) : MovesBy s (.io (.run i)) u := by
  obtain ⟨kind, stamp, r, hop, rfl⟩ := io_run h
  have herase : s.unsentRests.Perm (full [unsent bufferTx ⟨kind, stamp, some r⟩] ++
      { s with pending := s.pending.eraseIdx i }.unsentRests) := rests_eraseIdx hop
  cases kind with
  | read =>
    have hsame : sameWrites ({ s with pending := s.pending.eraseIdx i }.handle r .read) =
        sameWrites { s with pending := s.pending.eraseIdx i } := by
      cases r with
      | ok n => exact sameWrites_asyncReadSome _
      | error code => rfl
    obtain ⟨hrests, hwire⟩ := Prod.mk.inj hsame
    refine ⟨[], [], ?_, hwire.trans (List.append_nil _).symm, fun _ => rfl⟩
    rw [hrests]
    exact .keep herase.symm
  | write buffer =>
    cases r with
    | ok n =>
      have hunsent : unsent bufferTx ⟨.write buffer, stamp, some (.ok n)⟩ = buffer.drop n := rfl
      rw [hunsent] at herase
      simp only [handle, handleWrite]
      split
      · -- the rest goes to the end of the queue
        refine ⟨[], [], .keep ?_, (List.append_nil _).symm, fun _ => rfl⟩
        rw [unsentRests_start]
        exact (herase.trans List.perm_append_comm).symm
      · rename_i hlen
        rw [← not_not.mp hlen, List.drop_length] at herase
        exact ⟨[], [], .keep herase.symm, (List.append_nil _).symm, fun _ => rfl⟩
    | error code =>
      have hunsent : unsent bufferTx ⟨.write buffer, stamp, some (.error code)⟩ = buffer := rfl
      rw [hunsent] at herase
      by_cases hne : buffer = []
      · subst hne
        exact ⟨[], [], .keep herase.symm, (List.append_nil _).symm, fun _ => rfl⟩
      · rw [full_of_ne_nil hne] at herase
        refine ⟨[], [buffer], .lose herase, (List.append_nil _).symm, fun hlossless => ?_⟩
        have hok := hlossless _ hop hne
        cases hok

theorem movesBy_step {e : Event} (h : step s e = some u) : MovesBy s e u := by
  cases e with
  | connect device depth =>
    obtain ⟨o, ho, rfl⟩ := Option.map_eq_some_iff.mp h
    obtain ⟨opened, hopened, rfl⟩ := Option.map_eq_some_iff.mp ho
    refine movesBy_of_sameWrites ?_ rfl
    refine Outcome.andThen_keeps sameWrites ?_ fun t => sameWrites_asyncReadSome t
    exact (sameWrites_recursion device depth).1 s opened hopened
  | disconnect =>
    exact Option.some.inj h ▸ movesBy_of_sameWrites (sameWrites_disconnect s) rfl
  | applyOptions device depth =>
    obtain ⟨o, ho, rfl⟩ := Option.map_eq_some_iff.mp h
    exact movesBy_of_sameWrites ((sameWrites_recursion device depth).2 s o ho) rfl
  | setOptions options =>
    obtain rfl := Option.some.inj h
    exact movesBy_of_sameWrites rfl rfl
  | write data =>
    obtain rfl := Option.some.inj h
    cases hopen : s.serial_.isOpen with
    | true =>
      have hstart : s.write data = s.start (.write data) := by simp [write, hopen]
      rw [hstart]
      refine ⟨[], [], .write data ?_, (List.append_nil _).symm, fun _ => rfl⟩
      rw [unsentRests_start]
      exact List.Perm.refl _
    | false =>
      have hsame : s.write data = s := by simp [write, hopen]
      rw [hsame]
      refine ⟨[], [data], .refuse data, (List.append_nil _).symm, fun hlossless => ?_⟩
      cases hopen.symm.trans hlossless
  | io x =>
    cases x with
    | receive i data =>
      obtain ⟨stamp, hop, rfl⟩ := io_receive h
      refine movesBy_of_sameWrites ?_ rfl
      have hrests : rests bufferTx (s.pending.set i ⟨.read, stamp, some (.ok data.length)⟩) =
          rests bufferTx s.pending := by
        obtain ⟨before, after, hl, -, -, hset⟩ := split_getElem? hop
        rw [hset, hl, rests_append, rests_append, rests_cons, rests_cons]
        rfl
      exact congrArg (·, s.wire) hrests
    | finish i r => exact movesBy_finish h
    | run i => exact movesBy_run h

end Serial

/-- In every run, whatever is called and whatever completes in whatever order: the bytes that the
object transfers, over all its connections and in the order of the transfers, are prefixes of the
buffers written, each in its own order, mixed in some way. Where no bytes of a write are dropped
and none is outstanding in the end, they are all of each. -/
theorem wire_mixes_writes (t u : Tcp) (es : List Tcp.Event) (s v : Serial)
    (fs : List Serial.Event) :
    (t.unsentRests = [] → exec Tcp.step t es = some u →
      ∃ sent, u.wire = t.wire ++ sent ∧
        (∃ parts, List.Forall₂ (· <+: ·) parts (es.map Tcp.writes).flatten ∧
          Interleaves parts sent) ∧
        (Along Tcp.step Tcp.Lossless t es → u.unsentRests = [] →
          Interleaves (es.map Tcp.writes).flatten sent)) ∧
    (s.unsentRests = [] → exec Serial.step s fs = some v →
      ∃ sent, v.wire = s.wire ++ sent ∧
        (∃ parts, List.Forall₂ (· <+: ·) parts (fs.map Serial.writes).flatten ∧
          Interleaves parts sent) ∧
        (Along Serial.step Serial.Lossless s fs → v.unsentRests = [] →
          Interleaves (fs.map Serial.writes).flatten sent)) := by
  constructor
  · intro ht he
    exact exec_interleaves Tcp.unsentRests Tcp.wire Tcp.writes (fun t => filled_rests t.pending)
      (fun _ _ _ h => Tcp.movesBy_step h) ht he
  · intro hs he
    exact exec_interleaves Serial.unsentRests Serial.wire Serial.writes
      (fun s => filled_rests s.pending) (fun _ _ _ h => Serial.movesBy_step h) hs he

/-- Two writes, the second sent before the rest of the first. -/
theorem overtaken_mixes_writes :
    ∃ u v, exec Tcp.step openTcp overtakenRun = some u ∧
      exec Serial.step openSerial restFirstSerial = some v ∧
      Interleaves [text "ab", text "c"] u.wire ∧ Interleaves [text "ab", text "c"] v.wire := by
  obtain ⟨htcp, hserial⟩ :=
    wire_mixes_writes openTcp _ overtakenRun openSerial _ restFirstSerial
  obtain ⟨sent, hwire, -, hall⟩ := htcp rfl rfl
  obtain ⟨sent', hwire', -, hall'⟩ := hserial rfl rfl
  refine ⟨_, _, rfl, rfl, ?_, ?_⟩
  · rw [hwire]
    exact hall (by decide) rfl
  · rw [hwire']
    exact hall' (by decide) rfl

end DeviceTester.Connection

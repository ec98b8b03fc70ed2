import DeviceTester.Connection.Options
import DeviceTester.Lib.Operation
import DeviceTester.Lib.Run
import Mathlib.Data.Finset.Basic

/-!
# `connection::TcpServerManager` and its clients

The clients a server has accepted, the operations each has outstanding on its socket, and the
set the manager holds. A client is named by its position among the clients ever started: the
accept handler makes it and passes it to `start`, once.
-/
namespace DeviceTester.Connection

open DeviceTester.Lib

inductive ClientOp where
  | read
  | write (bufferTx : Bytes)
  deriving DecidableEq, Repr

/-- `socket_`, what the last read has put into `rx_buffer_`, and what the client has started. -/
structure TcpServerClient where
  isOpen : Bool
  rxBuffer_ : Bytes
  pending : List (Operation ClientOp)
  deriving DecidableEq, Repr

namespace TcpServerClient

/-- The client the accept handler makes of an accepted socket. -/
def accepted : TcpServerClient := ⟨true, [], []⟩

/-- The length of `rx_buffer_`. -/
def rxBufferSize : Nat := 1024

def begin (c : TcpServerClient) (op : ClientOp) : TcpServerClient :=
  { c with pending := c.pending ++ [.begin c.isOpen op 0] }

def startRead (c : TcpServerClient) : TcpServerClient := c.begin .read

def start (c : TcpServerClient) : TcpServerClient := c.startRead

/-- `socket_.close`. -/
def stop (c : TcpServerClient) : TcpServerClient :=
  { c with isOpen := false, pending := c.pending.map Operation.cancel }

def write (c : TcpServerClient) (data : Bytes) : TcpServerClient := c.begin (.write data)

/-- The handler of the `k`-th operation is about to run. -/
def retire (c : TcpServerClient) (k : Nat) : TcpServerClient :=
  { c with pending := c.pending.eraseIdx k }

/-- The number of reads outstanding, in flight or with their completion waiting. -/
def reads (c : TcpServerClient) : Nat := outstanding (fun op _ => op = .read) c.pending

/-- What an operation in flight may finish with besides data. `operation_aborted` is what
cancelling gives, and `async_write` succeeds when all is written. -/
def mayFinish : ClientOp → Result → Bool
  | .read, .ok _ => false
  | .write bufferTx, .ok n => n = bufferTx.length
  | _, .error code => code ≠ .operationAborted

/-- What the operating system does to a client's operations. -/
def complete (c : TcpServerClient) : IoEvent → Option TcpServerClient
  | .receive k data =>
      match c.pending[k]? with
      | some ⟨.read, stamp, none⟩ =>
          if data ≠ [] ∧ data.length ≤ rxBufferSize then
            some { c with
              rxBuffer_ := data
              pending := c.pending.set k ⟨.read, stamp, some (.ok data.length)⟩ }
          else none
      | _ => none
  | .finish k r =>
      match c.pending[k]? with
      | some ⟨kind, stamp, none⟩ =>
          if mayFinish kind r then
            some { c with pending := c.pending.set k ⟨kind, stamp, some r⟩ }
          else none
      | _ => none
  | .run _ => none

end TcpServerClient

/-- `clients` are all that were ever started, and `delivered` is what was handed to
`handler_`, with the client it came from. -/
structure TcpServerManager where
  clients : List TcpServerClient
  connections_ : Finset Nat
  delivered : List (Nat × Bytes)
  deriving DecidableEq

namespace TcpServerManager

def initial : TcpServerManager := ⟨[], ∅, []⟩

def modify (m : TcpServerManager) (i : Nat) (f : TcpServerClient → TcpServerClient) :
    TcpServerManager :=
  { m with clients := m.clients.modify i f }

def start (m : TcpServerManager) (client : TcpServerClient) : TcpServerManager :=
  { m with
    clients := m.clients ++ [client.start]
    connections_ := insert m.clients.length m.connections_ }

def stop (m : TcpServerManager) (i : Nat) : TcpServerManager :=
  { m with connections_ := m.connections_.erase i }.modify i .stop

def stopAll (m : TcpServerManager) : TcpServerManager :=
  { m with
    clients := m.clients.mapIdx fun i c => if i ∈ m.connections_ then c.stop else c
    connections_ := ∅ }

/-- The call `handler_.processData(client, data)`, which is logged. Its body, which leaves the
client out and calls a pure virtual function, is not. -/
def processData (m : TcpServerManager) (i : Nat) (data : Bytes) : TcpServerManager :=
  { m with delivered := m.delivered ++ [(i, data)] }

/-- The completion handler of an operation of `c`, the `i`-th client. -/
def handle (m : TcpServerManager) (i : Nat) (c : TcpServerClient) :
    ClientOp → Result → TcpServerManager
  | .read, .ok bytesTransferred =>
      (m.processData i (c.rxBuffer_.take bytesTransferred)).modify i .startRead
  | .read, .error code => if code ≠ .operationAborted then m.stop i else m
  | .write _, r => if r ≠ .error .operationAborted then m.stop i else m

inductive Event where
  | start
  | stop (i : Nat)
  | stopAll
  | write (i : Nat) (data : Bytes)
  | io (i : Nat) (e : IoEvent)

def io (m : TcpServerManager) (i : Nat) (e : IoEvent) : Option TcpServerManager :=
  m.clients[i]?.bind fun c =>
    match e with
    | .run k =>
        match c.pending[k]? with
        | some ⟨kind, _, some r⟩ =>
            some ((m.modify i fun c => c.retire k).handle i c kind r)
        | _ => none
    | e => (c.complete e).map fun c' => m.modify i fun _ => c'

def act (m : TcpServerManager) : Event → Option TcpServerManager
  | .start => some (m.start .accepted)
  | .stop i => if i < m.clients.length then some (m.stop i) else none
  | .stopAll => some m.stopAll
  | .write i data =>
      if i < m.clients.length then some (m.modify i fun c => c.write data) else none
  | .io i e => m.io i e

/-- Whether the handler that runs is that of a read or write that failed. -/
def failure (m : TcpServerManager) (i : Nat) : IoEvent → Bool
  | .run k =>
      match m.clients[i]?.bind fun c => c.pending[k]? with
      | some ⟨_, _, some (.error _)⟩ => true
      | _ => false
  | _ => false

/-- The clients that were started and since then neither passed to `stop` or `stopAll` by the
server nor had a read or write fail, when they were `live` before the event. -/
def liveAfter (m : TcpServerManager) (live : Finset Nat) : Event → Finset Nat
  | .start => insert m.clients.length live
  | .stop i => live.erase i
  | .stopAll => ∅
  | .write _ _ => live
  | .io i e => if m.failure i e then live.erase i else live

/-- The manager, and beside it the clients it should hold. -/
structure Watched where
  manager : TcpServerManager
  live : Finset Nat
  deriving DecidableEq

def step (s : Watched) (e : Event) : Option Watched :=
  (s.manager.act e).map fun m => ⟨m, s.manager.liveAfter s.live e⟩

/-- What the set and the clients agree on: the manager holds exactly the clients it should, a
held client is open with one read outstanding, and one that is no longer held is closed. -/
structure Tracks (s : Watched) : Prop where
  connections : s.manager.connections_ = s.live
  started : ∀ i ∈ s.manager.connections_, i < s.manager.clients.length
  held : ∀ i c, s.manager.clients[i]? = some c → i ∈ s.manager.connections_ →
    c.isOpen = true ∧ c.reads = 1
  released : ∀ i c, s.manager.clients[i]? = some c → i ∉ s.manager.connections_ →
    c.isOpen = false

/-- No handler of a successful write runs while its client is held. -/
def SparesWriters (s : Watched) : Event → Watched → Prop
  | .io i (.run k), _ => i ∈ s.manager.connections_ →
      match s.manager.clients[i]?.bind fun c => c.pending[k]? with
      | some ⟨.write _, _, some (.ok _)⟩ => False
      | _ => True
  | _, _ => True

end TcpServerManager

/-! ## One client -/

namespace TcpServerClient

variable {c d : TcpServerClient} {e : IoEvent} {k : Nat}

@[simp] theorem reads_startRead (c : TcpServerClient) : c.startRead.reads = c.reads + 1 := by
  simp [reads, startRead, begin]

@[simp] theorem reads_write (c : TcpServerClient) (data : Bytes) :
    (c.write data).reads = c.reads := by
  simp [reads, write, begin]

theorem reads_retire {kind : ClientOp} {stamp : Nat} {result : Option Result}
    (h : c.pending[k]? = some ⟨kind, stamp, result⟩) :
    c.reads = (c.retire k).reads + if kind = .read then 1 else 0 := by
  have hsplit := outstanding_eraseIdx (p := fun op (_ : Nat) => decide (op = ClientOp.read)) h
  simpa [reads, retire] using hsplit

/-- An open client has no cancelled operation. -/
def Unaborted (c : TcpServerClient) : Prop :=
  c.isOpen = true → ∀ op ∈ c.pending, op.result ≠ some (.error .operationAborted)

theorem Unaborted.begin (h : Unaborted c) (op : ClientOp) : Unaborted (c.begin op) := by
  intro ho op' hop
  rcases List.mem_append.mp hop with hold | hnew
  · exact h ho op' hold
  · obtain rfl := List.mem_singleton.mp hnew
    have hopen : c.isOpen = true := ho
    simp [Operation.begin, hopen]

theorem Unaborted.stop : Unaborted c.stop := by
  intro ho
  cases ho

theorem Unaborted.retire (h : Unaborted c) (k : Nat) : Unaborted (c.retire k) :=
  fun ho op hop => h ho op (List.mem_of_mem_eraseIdx hop)

theorem Unaborted.set {op : Operation ClientOp} (h : Unaborted c)
    (hop : op.result ≠ some (.error .operationAborted)) :
    Unaborted { c with pending := c.pending.set k op } := by
  intro ho op' hmem
  rcases List.mem_or_eq_of_mem_set hmem with hold | rfl
  · exact h ho op' hold
  · exact hop

/-- The operating system finishes an operation, and does not cancel one. -/
theorem complete_cases (h : c.complete e = some d) :
    d.isOpen = c.isOpen ∧ d.reads = c.reads ∧ (Unaborted c → Unaborted d) := by
  cases e with
  | receive k data =>
    simp only [complete] at h
    split at h
    · rename_i stamp hop
      split at h
      · obtain rfl := Option.some.inj h
        exact ⟨rfl, outstanding_set hop rfl rfl, fun hc => hc.set (by simp)⟩
      · cases h
    · cases h
  | finish k r =>
    simp only [complete] at h
    split at h
    · rename_i kind stamp hop
      split at h
      · rename_i hmay
        obtain rfl := Option.some.inj h
        refine ⟨rfl, outstanding_set hop rfl rfl, fun hc => hc.set ?_⟩
        rintro ⟨rfl⟩
        cases kind <;> simp [mayFinish] at hmay
      · cases h
    · cases h
  | run k => cases h

end TcpServerClient

/-! ## The manager and its clients -/

namespace TcpServerManager

variable {m n : TcpServerManager} {s t : Watched} {e : Event} {i : Nat}

/-- What is said of a client that is held, or not. -/
def Fits (held : Prop) (c : TcpServerClient) : Prop :=
  (held → c.isOpen = true ∧ c.reads = 1) ∧ (¬ held → c.isOpen = false)

/-- The part of `Tracks` that is about the manager alone. -/
structure Sound (m : TcpServerManager) : Prop where
  started : ∀ i ∈ m.connections_, i < m.clients.length
  fits : ∀ i c, m.clients[i]? = some c → Fits (i ∈ m.connections_) c

theorem tracks_iff : Tracks s ↔ s.manager.connections_ = s.live ∧ Sound s.manager := by
  constructor
  · intro h
    exact ⟨h.connections, h.started, fun i c hc => ⟨h.held i c hc, h.released i c hc⟩⟩
  · rintro ⟨hlive, h⟩
    exact ⟨hlive, h.started, fun i c hc => (h.fits i c hc).1, fun i c hc => (h.fits i c hc).2⟩

/-- An update of the `i`-th client that leaves the other clients held or not as they were. -/
theorem Sound.modify {f : TcpServerClient → TcpServerClient} {connections : Finset Nat}
    {delivered : List (Nat × Bytes)} (h : Sound m)
    (hothers : ∀ j, j ≠ i → (j ∈ connections ↔ j ∈ m.connections_))
    (hi : i ∈ connections → i ∈ m.connections_)
    (hf : ∀ c, m.clients[i]? = some c → Fits (i ∈ connections) (f c)) :
    Sound ⟨m.clients.modify i f, connections, delivered⟩ := by
  constructor
  · intro j hj
    rw [List.length_modify]
    by_cases hij : j = i
    · subst hij
      exact h.started j (hi hj)
    · exact h.started j ((hothers j hij).mp hj)
  · intro j c hc
    obtain ⟨b, hb, rfl⟩ : ∃ b, m.clients[j]? = some b ∧ (if i = j then f b else b) = c := by
      simpa [List.getElem?_modify] using hc
    by_cases hij : i = j
    · subst hij
      simpa using hf b hb
    · have hfits := h.fits j b hb
      rw [← hothers j (Ne.symm hij)] at hfits
      simpa [hij] using hfits

/-- A client is closed and taken out of the set. -/
theorem Sound.release {f : TcpServerClient → TcpServerClient} (h : Sound m)
    (hf : ∀ c, (f c).isOpen = false) :
    Sound ⟨m.clients.modify i f, m.connections_.erase i, m.delivered⟩ := by
  have hout : i ∉ m.connections_.erase i := Finset.notMem_erase i _
  apply h.modify
  · intro j hj
    simp [hj]
  · intro hi
    exact absurd hi hout
  · intro c _
    exact ⟨fun hi => absurd hi hout, fun _ => hf c⟩

theorem Sound.stop (h : Sound m) (i : Nat) : Sound (m.stop i) :=
  h.release fun _ => rfl

/-- An update that keeps a client's socket and its reads. -/
theorem Sound.keep {f : TcpServerClient → TcpServerClient} (h : Sound m)
    (hf : ∀ c, m.clients[i]? = some c → (f c).isOpen = c.isOpen ∧ (f c).reads = c.reads) :
    Sound (m.modify i f) := by
  apply h.modify (fun _ _ => Iff.rfl) id
  intro c hc
  obtain ⟨hopen, hreads⟩ := hf c hc
  rw [Fits, hopen, hreads]
  exact h.fits i c hc

theorem Sound.start (h : Sound m) : Sound (m.start .accepted) := by
  constructor
  · intro j hj
    simp only [TcpServerManager.start, List.length_append, List.length_singleton]
    rcases Finset.mem_insert.mp hj with rfl | hold
    · omega
    · have hlt := h.started j hold
      omega
  · intro j c hc
    simp only [TcpServerManager.start] at hc ⊢
    by_cases hj : j < m.clients.length
    · rw [List.getElem?_append_left hj] at hc
      have hmem : j ∈ insert m.clients.length m.connections_ ↔ j ∈ m.connections_ := by
        simp [Nat.ne_of_lt hj]
      rw [hmem]
      exact h.fits j c hc
    · obtain ⟨rfl, rfl⟩ : j = m.clients.length ∧ TcpServerClient.accepted.start = c := by
        rw [List.getElem?_append_right (by omega), List.getElem?_singleton] at hc
        split at hc
        · exact ⟨by omega, Option.some.inj hc⟩
        · cases hc
      refine ⟨fun _ => ⟨rfl, rfl⟩, fun hnot => ?_⟩
      simp at hnot

theorem Sound.stopAll (h : Sound m) : Sound m.stopAll := by
  constructor
  · intro j hj
    cases hj
  · intro j c hc
    obtain ⟨b, hb, rfl⟩ : ∃ b, m.clients[j]? = some b ∧
        (if j ∈ m.connections_ then b.stop else b) = c := by
      simpa [TcpServerManager.stopAll, List.getElem?_mapIdx] using hc
    refine ⟨fun hheld => absurd hheld (Finset.notMem_empty j), fun _ => ?_⟩
    split
    · rfl
    · rename_i hnot
      exact (h.fits j b hb).2 hnot

theorem io_cases {x : IoEvent} (h : m.io i x = some n) :
    (∃ c d, m.clients[i]? = some c ∧ c.complete x = some d ∧ n = m.modify i fun _ => d) ∨
      ∃ k c kind stamp r, x = .run k ∧ m.clients[i]? = some c ∧
        c.pending[k]? = some ⟨kind, stamp, some r⟩ ∧
        n = (m.modify i fun c => c.retire k).handle i c kind r := by
  obtain ⟨c, hc, h⟩ := Option.bind_eq_some_iff.mp h
  cases x with
  | receive k data =>
    obtain ⟨d, hd, rfl⟩ := Option.map_eq_some_iff.mp h
    exact .inl ⟨c, d, hc, hd, rfl⟩
  | finish k r =>
    obtain ⟨d, hd, rfl⟩ := Option.map_eq_some_iff.mp h
    exact .inl ⟨c, d, hc, hd, rfl⟩
  | run k =>
    simp only at h
    split at h
    · rename_i kind stamp r hop
      exact .inr ⟨k, c, kind, stamp, r, rfl, hc, hop, (Option.some.inj h).symm⟩
    · cases h

theorem failure_eq_false {x : IoEvent} {c d : TcpServerClient} (h : c.complete x = some d) :
    m.failure i x = false := by
  cases x with
  | receive k data => rfl
  | finish k r => rfl
  | run k => cases h

/-- No open client has a cancelled operation. -/
def Unaborted (m : TcpServerManager) : Prop := ∀ c ∈ m.clients, c.Unaborted

theorem Unaborted.modify {f : TcpServerClient → TcpServerClient} {connections : Finset Nat}
    {delivered : List (Nat × Bytes)} (h : Unaborted m)
    (hf : ∀ c, m.clients[i]? = some c → c.Unaborted → (f c).Unaborted) :
    Unaborted ⟨m.clients.modify i f, connections, delivered⟩ := by
  intro c hc
  obtain ⟨j, hj⟩ := List.mem_iff_getElem?.mp hc
  obtain ⟨b, hb, rfl⟩ : ∃ b, m.clients[j]? = some b ∧ (if i = j then f b else b) = c := by
    simpa [List.getElem?_modify] using hj
  have hold : b.Unaborted := h b (List.mem_of_getElem? hb)
  by_cases hij : i = j
  · subst hij
    simpa using hf b hb hold
  · simpa [hij] using hold

theorem Unaborted.stop (h : Unaborted m) (i : Nat) : Unaborted (m.stop i) :=
  h.modify fun _ _ _ => TcpServerClient.Unaborted.stop

theorem Unaborted.handle (h : Unaborted m) (c : TcpServerClient) (kind : ClientOp) (r : Result) :
    Unaborted (m.handle i c kind r) := by
  cases kind with
  | read =>
    cases r with
    | ok bytesTransferred => exact h.modify fun c _ hc => hc.begin .read
    | error code =>
      simp only [TcpServerManager.handle]
      split
      · exact h.stop i
      · exact h
  | write bufferTx =>
    simp only [TcpServerManager.handle]
    split
    · exact h.stop i
    · exact h

theorem Unaborted.act (h : Unaborted m) (hs : m.act e = some n) : Unaborted n := by
  cases e with
  | start =>
    obtain rfl := Option.some.inj hs
    intro c hc
    rcases List.mem_append.mp hc with hold | hnew
    · exact h c hold
    · obtain rfl := List.mem_singleton.mp hnew
      exact TcpServerClient.Unaborted.begin (fun _ op hop => absurd hop List.not_mem_nil) .read
  | stop i =>
    simp only [TcpServerManager.act, Option.ite_none_right_eq_some, Option.some.injEq] at hs
    exact hs.2 ▸ h.stop i
  | stopAll =>
    obtain rfl := Option.some.inj hs
    intro c hc
    obtain ⟨j, hj, rfl⟩ := List.mem_mapIdx.mp hc
    split
    · exact TcpServerClient.Unaborted.stop
    · exact h _ (List.getElem_mem hj)
  | write i data =>
    simp only [TcpServerManager.act, Option.ite_none_right_eq_some, Option.some.injEq] at hs
    exact hs.2 ▸ h.modify fun c _ hc => hc.begin _
  | io i x =>
    rcases io_cases hs with ⟨c, d, hc, hd, rfl⟩ | ⟨k, c, kind, stamp, r, rfl, hc, hop, rfl⟩
    · apply h.modify
      intro b hb hold
      obtain rfl : c = b := Option.some.inj (hc.symm.trans hb)
      exact (TcpServerClient.complete_cases hd).2.2 hold
    · apply Unaborted.handle
      exact h.modify fun b _ hold => hold.retire k

/-! ## The step -/

section Run

variable {c : TcpServerClient} {kind : ClientOp} {stamp k : Nat} {r : Result}

theorem failure_run (hc : m.clients[i]? = some c)
    (hop : c.pending[k]? = some ⟨kind, stamp, some r⟩) : m.failure i (.run k) = !r.isOk := by
  cases r <;> simp [failure, hc, hop, Result.isOk]

theorem Sound.stop_retire (h : Sound m) (i k : Nat) :
    Sound ((m.modify i fun c => c.retire k).stop i) := by
  unfold TcpServerManager.stop TcpServerManager.modify
  rw [List.modify_modify_eq]
  exact h.release fun _ => rfl

theorem Sound.retire_of_released (h : Sound m) (hi : i ∉ m.connections_) (k : Nat) :
    Sound (m.modify i fun c => c.retire k) := by
  apply h.modify (fun _ _ => Iff.rfl) id
  intro c hc
  exact ⟨fun hheld => absurd hheld hi, fun _ => (h.fits i c hc).2 hi⟩

/-- The read of a client is started again in the handler of the one before. -/
theorem Sound.startRead_retire (h : Sound m) (hc : m.clients[i]? = some c)
    (hop : c.pending[k]? = some ⟨.read, stamp, some r⟩) (data : Bytes) :
    Sound (((m.modify i fun c => c.retire k).processData i data).modify i .startRead) := by
  have hkeep : Sound (m.modify i fun c => (c.retire k).startRead) := by
    apply h.keep
    intro b hb
    obtain rfl : c = b := Option.some.inj (hc.symm.trans hb)
    refine ⟨rfl, ?_⟩
    rw [TcpServerClient.reads_startRead, TcpServerClient.reads_retire hop, if_pos rfl]
  have hmodify : ((m.modify i fun c => c.retire k).processData i data).modify i .startRead =
      (m.modify i fun c => (c.retire k).startRead).processData i data := by
    simp only [TcpServerManager.modify, processData]
    rw [List.modify_modify_eq]
    rfl
  rw [hmodify]
  exact ⟨hkeep.started, hkeep.fits⟩

/-- The handler of a failed operation. -/
theorem tracks_run_error {live : Finset Nat} {code : ErrorCode} (h : Sound m)
    (hlive : m.connections_ = live) (hu : Unaborted m) (hc : m.clients[i]? = some c)
    (hop : c.pending[k]? = some ⟨kind, stamp, some (.error code)⟩) :
    Tracks ⟨(m.modify i fun c => c.retire k).handle i c kind (.error code), live.erase i⟩ := by
  subst hlive
  by_cases hcode : code = .operationAborted
  · subst hcode
    have hreleased : i ∉ m.connections_ := by
      intro hheld
      have hopen : c.isOpen = true := ((h.fits i c hc).1 hheld).1
      exact hu c (List.mem_of_getElem? hc) hopen _ (List.mem_of_getElem? hop) rfl
    have hhandle : (m.modify i fun c => c.retire k).handle i c kind (.error .operationAborted) =
        m.modify i fun c => c.retire k := by
      cases kind <;> simp [handle]
    rw [hhandle, tracks_iff]
    exact ⟨(Finset.erase_eq_of_notMem hreleased).symm, h.retire_of_released hreleased k⟩
  · have hhandle : (m.modify i fun c => c.retire k).handle i c kind (.error code) =
        (m.modify i fun c => c.retire k).stop i := by
      cases kind <;> simp [handle, hcode]
    rw [hhandle, tracks_iff]
    exact ⟨rfl, h.stop_retire i k⟩

/-- The handler of a successful read. -/
theorem tracks_run_read {live : Finset Nat} {n : Nat} (h : Sound m)
    (hlive : m.connections_ = live) (hc : m.clients[i]? = some c)
    (hop : c.pending[k]? = some ⟨.read, stamp, some (.ok n)⟩) :
    Tracks ⟨(m.modify i fun c => c.retire k).handle i c .read (.ok n), live⟩ := by
  rw [tracks_iff]
  exact ⟨hlive, h.startRead_retire hc hop _⟩

/-- The handler of a successful write releases its client, whether it is held or not. -/
theorem tracks_run_write_iff {live : Finset Nat} {bufferTx : Bytes} {n : Nat} (h : Sound m)
    (hlive : m.connections_ = live) :
    Tracks ⟨(m.modify i fun c => c.retire k).handle i c (.write bufferTx) (.ok n), live⟩ ↔
      i ∉ m.connections_ := by
  have hhandle : (m.modify i fun c => c.retire k).handle i c (.write bufferTx) (.ok n) =
      (m.modify i fun c => c.retire k).stop i := by
    simp [handle]
  rw [hhandle, tracks_iff, and_iff_left (h.stop_retire i k), ← hlive]
  exact Finset.erase_eq_self

end Run

/-- One step keeps the manager's set right exactly when it spares the writers. -/
theorem tracks_step_iff (h : Tracks s) (hu : Unaborted s.manager) (hs : step s e = some t) :
    Tracks t ↔ SparesWriters s e t := by
  obtain ⟨n, hact, rfl⟩ := Option.map_eq_some_iff.mp hs
  obtain ⟨hlive, hsound⟩ := tracks_iff.mp h
  cases e with
  | start =>
    obtain rfl := Option.some.inj hact
    refine iff_of_true (tracks_iff.mpr ⟨?_, hsound.start⟩) trivial
    simp [TcpServerManager.start, liveAfter, hlive]
  | stop i =>
    simp only [act, Option.ite_none_right_eq_some, Option.some.injEq] at hact
    obtain ⟨-, rfl⟩ := hact
    refine iff_of_true (tracks_iff.mpr ⟨?_, hsound.stop i⟩) trivial
    simp [TcpServerManager.stop, TcpServerManager.modify, liveAfter, hlive]
  | stopAll =>
    obtain rfl := Option.some.inj hact
    exact iff_of_true (tracks_iff.mpr ⟨rfl, hsound.stopAll⟩) trivial
  | write i data =>
    simp only [act, Option.ite_none_right_eq_some, Option.some.injEq] at hact
    obtain ⟨-, rfl⟩ := hact
    refine iff_of_true (tracks_iff.mpr ⟨hlive, hsound.keep fun c _ => ?_⟩) trivial
    exact ⟨rfl, TcpServerClient.reads_write c data⟩
  | io i x =>
    rcases io_cases hact with ⟨c, d, hc, hd, rfl⟩ | ⟨k, c, kind, stamp, r, rfl, hc, hop, rfl⟩
    · have hfail : s.manager.failure i x = false := failure_eq_false hd
      have hspared : SparesWriters s (.io i x) ⟨s.manager.modify i fun _ => d, s.live⟩ := by
        cases x with
        | receive k data => trivial
        | finish k r => trivial
        | run k => cases hd
      simp only [liveAfter, hfail]
      refine iff_of_true (tracks_iff.mpr ⟨hlive, hsound.keep fun b hb => ?_⟩) hspared
      obtain rfl : c = b := Option.some.inj (hc.symm.trans hb)
      exact ⟨(TcpServerClient.complete_cases hd).1, (TcpServerClient.complete_cases hd).2.1⟩
    · have hread : s.manager.clients[i]?.bind (fun c => c.pending[k]?) =
          some ⟨kind, stamp, some r⟩ := by
        rw [hc]
        exact hop
      simp only [liveAfter, failure_run hc hop, SparesWriters, hread]
      cases r with
      | error code =>
        refine iff_of_true (tracks_run_error hsound hlive hu hc hop) fun _ => ?_
        cases kind <;> trivial
      | ok n =>
        cases kind with
        | read => exact iff_of_true (tracks_run_read hsound hlive hc hop) fun _ => trivial
        | write bufferTx => exact tracks_run_write_iff hsound hlive

def initialWatched : Watched := ⟨initial, ∅⟩

theorem tracks_initial : Tracks initialWatched := by
  rw [tracks_iff]
  refine ⟨rfl, fun i hi => ?_, fun i c hc => ?_⟩
  · cases hi
  · cases hc

/-- All along a run, the manager holds exactly the clients it should, each open with one read
outstanding and every other closed, exactly when no handler of a successful write runs while
its client is held. -/
theorem connections_tracked_iff (es : List Event) :
    Along step (fun _ _ t => Tracks t) initialWatched es ↔
      Along step SparesWriters initialWatched es := by
  have hkeep : ∀ s e t, (Tracks s ∧ Unaborted s.manager) → step s e = some t → Tracks t →
      Tracks t ∧ Unaborted t.manager := by
    intro s e t h hs ht
    obtain ⟨n, hact, rfl⟩ := Option.map_eq_some_iff.mp hs
    exact ⟨ht, h.2.act hact⟩
  apply along_iff_of_first hkeep
  · intro s e t h hs
    exact tracks_step_iff h.1 h.2 hs
  · exact ⟨tracks_initial, fun c hc => absurd hc List.not_mem_nil⟩

/-- One client is started and answered, and the answer is sent in full. -/
def answeredRun : List Event :=
  [.start, .write 0 [0x4f, 0x4b], .io 0 (.finish 1 (.ok 2)), .io 0 (.run 1)]

theorem answeredRun_releases :
    ¬ Along step (fun _ _ t => Tracks t) initialWatched answeredRun ∧
      ∃ t, exec step initialWatched answeredRun = some t ∧ t.live = {0} ∧
        t.manager.connections_ = ∅ := by
  constructor
  · intro h
    have htracks : Tracks _ := ((((h.cons rfl).2.cons rfl).2.cons rfl).2.cons rfl).1
    have hconn := htracks.connections
    revert hconn
    decide
  · exact ⟨_, rfl, rfl, rfl⟩

end TcpServerManager

end DeviceTester.Connection

import DeviceTester.Connection.TcpServerManager

/-!
# What the clients of a server send

Each client has a buffer of its own and one read outstanding at most, so nothing that a client
sends is overwritten. The handler of a write that has not been cancelled passes its client to
`stop`: what a client sends after the first answer is not read.
-/
namespace DeviceTester.Connection

open DeviceTester.Lib

namespace TcpServerClient

variable {c d : TcpServerClient} {k : Nat}

/-- A read that has its data, and whose handler has not run. -/
def hasArrived (op : Operation ClientOp) : Bool :=
  op.kind == .read && op.result.any Result.isOk

/-- The number of bytes that a read reports. -/
def bytesTransferred (op : Operation ClientOp) : Nat :=
  match op.result with
  | some (.ok n) => n
  | _ => 0

/-- What has arrived and not been handed over. -/
def waiting (c : TcpServerClient) : List Bytes :=
  (c.pending.filter hasArrived).map fun op => c.rxBuffer_.take (bytesTransferred op)

/-- Nothing is in flight on the closed socket. -/
def Ended (c : TcpServerClient) : Prop := c.isOpen = false ∧ ∀ op ∈ c.pending, op.result ≠ none

/-- What the handler of an operation hands over. -/
def handedBy (c : TcpServerClient) : ClientOp → Result → List Bytes
  | .read, .ok bytesTransferred => [c.rxBuffer_.take bytesTransferred]
  | _, _ => []

/-- `arrived` has arrived and `handed` has been handed over. -/
structure Moves (c d : TcpServerClient) (arrived handed : List Bytes) : Prop where
  reads : d.reads ≤ 1
  waiting : handed ++ d.waiting = c.waiting ++ arrived

theorem hasArrived_begin (isOpen : Bool) (op : ClientOp) (stamp : Nat) :
    hasArrived (.begin isOpen op stamp) = false := by
  cases isOpen <;> simp [hasArrived, Operation.begin, Result.isOk]

@[simp] theorem waiting_begin (c : TcpServerClient) (op : ClientOp) :
    (c.begin op).waiting = c.waiting := by
  simp [waiting, begin, hasArrived_begin]

theorem filter_hasArrived_cancel (ops : List (Operation ClientOp)) :
    (ops.map Operation.cancel).filter hasArrived = ops.filter hasArrived := by
  induction ops with
  | nil => rfl
  | cons op ops ih =>
    obtain ⟨kind, stamp, result⟩ := op
    rw [List.map_cons, List.filter_cons, List.filter_cons, ih]
    cases result with
    | none => simp [hasArrived, Operation.cancel, Result.isOk]
    | some r => simp [hasArrived, Operation.cancel]

@[simp] theorem waiting_stop (c : TcpServerClient) : c.stop.waiting = c.waiting := by
  unfold waiting
  rw [stop, filter_hasArrived_cancel]

@[simp] theorem reads_stop (c : TcpServerClient) : c.stop.reads = c.reads := outstanding_cancel

theorem ended_stop (c : TcpServerClient) : c.stop.Ended := by
  refine ⟨rfl, fun op hop => ?_⟩
  obtain ⟨op, -, rfl⟩ := List.mem_map.mp hop
  exact Option.some_ne_none _

theorem Ended.begin (h : c.Ended) (op : ClientOp) : (c.begin op).Ended := by
  refine ⟨h.1, fun op' hop => ?_⟩
  rcases List.mem_append.mp hop with hold | hnew
  · exact h.2 op' hold
  · obtain rfl := List.mem_singleton.mp hnew
    simp [Operation.begin, h.1]

theorem Ended.retire (h : c.Ended) (k : Nat) : (c.retire k).Ended :=
  ⟨h.1, fun op hop => h.2 op (List.mem_of_mem_eraseIdx hop)⟩

/-- The operating system has nothing left to finish. -/
theorem Ended.complete (h : c.Ended) (e : IoEvent) : c.complete e = none := by
  cases e with
  | receive k data =>
    simp only [TcpServerClient.complete]
    split
    · rename_i stamp hop
      exact absurd rfl (h.2 _ (List.mem_of_getElem? hop))
    · rfl
  | finish k r =>
    simp only [TcpServerClient.complete]
    split
    · rename_i kind stamp hop
      exact absurd rfl (h.2 _ (List.mem_of_getElem? hop))
    · rfl
  | run k => rfl

/-- Beside one read no other operation is a read. -/
theorem others_of_one (hc : c.reads ≤ 1) {stamp : Nat} {result : Option Result}
    (hop : c.pending[k]? = some ⟨.read, stamp, result⟩) :
    (c.retire k).reads = 0 ∧ (c.retire k).waiting = [] := by
  have hsplit := reads_retire hop
  rw [if_pos rfl] at hsplit
  have hnone : (c.retire k).reads = 0 := by omega
  refine ⟨hnone, ?_⟩
  rw [reads, outstanding_eq_zero] at hnone
  rw [waiting, List.map_eq_nil_iff, List.filter_eq_nil_iff]
  intro op hmem harrived
  have hread : op.kind = .read := beq_iff_eq.mp (Bool.and_eq_true_iff.mp harrived).1
  exact absurd hread (of_decide_eq_false (hnone op hmem))

theorem moves_receive {data : Bytes} (hc : c.reads ≤ 1)
    (h : c.complete (.receive k data) = some d) : c.Moves d [data] [] := by
  have hreads := (complete_cases h).2.1
  simp only [complete] at h
  split at h
  · rename_i stamp hop
    split at h
    · obtain rfl := Option.some.inj h
      obtain ⟨before, after, hl, -, herase, hset⟩ := split_getElem? hop
      have hnone := (others_of_one hc hop).2
      rw [waiting, List.map_eq_nil_iff, retire, herase, List.filter_append,
        List.append_eq_nil_iff] at hnone
      refine ⟨hreads ▸ hc, ?_⟩
      rw [waiting, waiting, hset, hl]
      simp [hnone.1, hnone.2, hasArrived, Result.isOk, bytesTransferred]
    · cases h
  · cases h

theorem moves_finish {r : Result} (hc : c.reads ≤ 1) (h : c.complete (.finish k r) = some d) :
    c.Moves d [] [] := by
  have hreads := (complete_cases h).2.1
  simp only [complete] at h
  split at h
  · rename_i kind stamp hop
    split at h
    · rename_i hmay
      obtain rfl := Option.some.inj h
      obtain ⟨before, after, hl, -, -, hset⟩ := split_getElem? hop
      have hnot : hasArrived ⟨kind, stamp, some r⟩ = false := by
        cases kind with
        | read => cases r <;> simp [mayFinish, hasArrived, Result.isOk] at hmay ⊢
        | write bufferTx => rfl
      have hflight : hasArrived ⟨kind, stamp, none⟩ = false := Bool.and_false _
      refine ⟨hreads ▸ hc, ?_⟩
      rw [waiting, waiting, hset, hl]
      simp [hnot, hflight]
    · cases h
  · cases h

/-- A handler that is about to run takes what has arrived for it, if it is that of a read. -/
theorem moves_retire {kind : ClientOp} {stamp : Nat} {r : Result} (hc : c.reads ≤ 1)
    (hop : c.pending[k]? = some ⟨kind, stamp, some r⟩) :
    c.Moves (c.retire k) [] (c.handedBy kind r) := by
  have hreads : (c.retire k).reads ≤ 1 := by
    have hsplit := reads_retire hop
    omega
  obtain ⟨before, after, hl, -, herase, -⟩ := split_getElem? hop
  refine ⟨hreads, ?_⟩
  by_cases harrived : hasArrived ⟨kind, stamp, some r⟩ = true
  · obtain ⟨hkind, hok⟩ := Bool.and_eq_true_iff.mp harrived
    obtain rfl : kind = .read := beq_iff_eq.mp hkind
    cases r with
    | error code => cases hok
    | ok n =>
      have hnone := (others_of_one hc hop).2
      rw [hnone]
      rw [waiting, List.map_eq_nil_iff, retire, herase, List.filter_append,
        List.append_eq_nil_iff] at hnone
      rw [waiting, hl, List.filter_append, List.filter_cons, if_pos harrived, hnone.1, hnone.2]
      rfl
  · have hrest : (c.retire k).waiting = c.waiting := by
      rw [waiting, waiting, retire, herase, hl, List.filter_append, List.filter_append,
        List.filter_cons, if_neg harrived]
    rw [hrest, List.append_nil]
    cases kind with
    | write bufferTx => rfl
    | read =>
      cases r with
      | ok n => exact absurd rfl harrived
      | error code => rfl

end TcpServerClient

namespace TcpServerManager

variable {m n : TcpServerManager} {e : Event} {i j : Nat}

/-! ## What is handed over -/

/-- What has been passed to `handler_` with a client. -/
def deliveredFrom (m : TcpServerManager) (i : Nat) : List Bytes :=
  (m.delivered.filter fun entry => entry.1 == i).map Prod.snd

/-- What has arrived for a client and not been handed over. -/
def waitingFrom (m : TcpServerManager) (i : Nat) : List Bytes :=
  (m.clients[i]?.map TcpServerClient.waiting).getD []

/-- What has been handed over and what waits for it. -/
def accounted (m : TcpServerManager) (i : Nat) : List Bytes := m.deliveredFrom i ++ m.waitingFrom i

/-- What an event brings for a client. -/
def arrivals (i : Nat) : Event → List Bytes
  | .io j (.receive _ data) => if j = i then [data] else []
  | _ => []

/-- No client has two reads outstanding. -/
def Single (m : TcpServerManager) : Prop :=
  ∀ (i : Nat) (c : TcpServerClient), m.clients[i]? = some c → c.reads ≤ 1

/-- No client has two reads outstanding, and what has arrived is accounted for. -/
def Accounts (m n : TcpServerManager) (e : Event) : Prop :=
  Single n ∧ ∀ i, n.accounted i = m.accounted i ++ arrivals i e

theorem getElem?_modify_cases {f : TcpServerClient → TcpServerClient} {c : TcpServerClient}
    (h : (m.clients.modify j f)[i]? = some c) :
    ∃ b, m.clients[i]? = some b ∧ (i = j ∧ c = f b ∨ i ≠ j ∧ c = b) := by
  rw [List.getElem?_modify] at h
  obtain ⟨b, hb, rfl⟩ := Option.map_eq_some_iff.mp h
  refine ⟨b, hb, ?_⟩
  by_cases hij : j = i
  · exact .inl ⟨hij.symm, if_pos hij⟩
  · exact .inr ⟨Ne.symm hij, if_neg hij⟩

/-- An update of one client. -/
theorem accounted_modify (f : TcpServerClient → TcpServerClient) (connections : Finset Nat)
    {c : TcpServerClient} {arrived handed : List Bytes} (h : Single m)
    (hc : m.clients[j]? = some c) (hf : c.Moves (f c) arrived handed) :
    Single ⟨m.clients.modify j f, connections, m.delivered ++ handed.map fun data => (j, data)⟩ ∧
      ∀ i, accounted ⟨m.clients.modify j f, connections,
          m.delivered ++ handed.map fun data => (j, data)⟩ i =
        m.accounted i ++ if j = i then arrived else [] := by
  constructor
  · intro i b hb
    obtain ⟨b', hb', ⟨rfl, rfl⟩ | ⟨-, rfl⟩⟩ := getElem?_modify_cases hb
    · obtain rfl := Option.some.inj (hc.symm.trans hb')
      exact hf.reads
    · exact h i _ hb'
  · intro i
    simp only [accounted, deliveredFrom, waitingFrom, List.filter_append, List.map_append,
      List.append_assoc]
    congr 1
    by_cases hji : j = i
    · subst hji
      have hhanded : ((handed.map fun data => (j, data)).filter fun entry => entry.1 == j).map
          Prod.snd = handed := by
        rw [List.filter_eq_self.mpr, List.map_map]
        · exact List.map_id _
        · intro entry hentry
          obtain ⟨data, -, rfl⟩ := List.mem_map.mp hentry
          exact beq_self_eq_true j
      rw [hhanded, if_pos rfl, List.getElem?_modify, hc]
      simpa using hf.waiting
    · have hhanded : (handed.map fun data => (j, data)).filter (fun entry => entry.1 == i) = [] := by
        rw [List.filter_eq_nil_iff]
        intro entry hentry
        obtain ⟨data, -, rfl⟩ := List.mem_map.mp hentry
        simpa using hji
      rw [hhanded, if_neg hji, List.getElem?_modify_ne f m.clients hji, List.append_nil]
      rfl

/-- An update of one client that hands nothing over, on a socket that hears nothing. -/
theorem accounted_quiet (f : TcpServerClient → TcpServerClient) (connections : Finset Nat)
    {c : TcpServerClient} (h : Single m) (hc : m.clients[j]? = some c)
    (hf : c.Moves (f c) [] []) :
    Single ⟨m.clients.modify j f, connections, m.delivered⟩ ∧
      ∀ i, accounted ⟨m.clients.modify j f, connections, m.delivered⟩ i = m.accounted i := by
  have hmodify := accounted_modify f connections h hc hf
  simpa using hmodify

theorem moves_quiet {c d : TcpServerClient} (hreads : d.reads ≤ 1) (hwaiting : d.waiting = c.waiting) :
    c.Moves d [] [] :=
  ⟨hreads, hwaiting.trans (List.append_nil _).symm⟩

theorem accounts_stop (h : Single m) (hj : j < m.clients.length) :
    Single (m.stop j) ∧ ∀ i, (m.stop j).accounted i = m.accounted i := by
  obtain ⟨c, hc⟩ : ∃ c, m.clients[j]? = some c := ⟨_, List.getElem?_eq_getElem hj⟩
  have hone : c.stop.reads ≤ 1 := c.reads_stop ▸ h j c hc
  exact accounted_quiet _ _ h hc (moves_quiet hone c.waiting_stop)

theorem accounts_stopAll (h : Single m) :
    Single m.stopAll ∧ ∀ i, m.stopAll.accounted i = m.accounted i := by
  have hclient : ∀ i, m.stopAll.clients[i]? =
      m.clients[i]?.map fun c => if i ∈ m.connections_ then c.stop else c := by
    intro i
    exact List.getElem?_mapIdx
  constructor
  · intro i d hd
    rw [hclient] at hd
    obtain ⟨c, hc, rfl⟩ := Option.map_eq_some_iff.mp hd
    split
    · exact c.reads_stop ▸ h i c hc
    · exact h i c hc
  · intro i
    have hwaiting : m.stopAll.waitingFrom i = m.waitingFrom i := by
      rw [waitingFrom, waitingFrom, hclient, Option.map_map]
      congr 1
      apply Option.map_congr
      intro c _
      show TcpServerClient.waiting (if i ∈ m.connections_ then c.stop else c) = c.waiting
      split
      · exact c.waiting_stop
      · rfl
    rw [accounted, accounted, hwaiting]
    rfl

theorem accounts_start (h : Single m) :
    Single (m.start .accepted) ∧ ∀ i, (m.start .accepted).accounted i = m.accounted i := by
  have hfresh : TcpServerClient.accepted.start.reads = 1 := rfl
  constructor
  · intro i c hc
    by_cases hi : i < m.clients.length
    · exact h i c ((List.getElem?_append_left hi).symm.trans hc)
    · rw [TcpServerManager.start, List.getElem?_append_right (Nat.le_of_not_lt hi)] at hc
      obtain rfl := List.mem_singleton.mp (List.mem_of_getElem? hc)
      exact Nat.le_of_eq hfresh
  · intro i
    have hwaiting : (m.start .accepted).waitingFrom i = m.waitingFrom i := by
      rw [waitingFrom, waitingFrom, TcpServerManager.start]
      by_cases hi : i < m.clients.length
      · rw [List.getElem?_append_left hi]
      · have hle := Nat.le_of_not_lt hi
        rw [List.getElem?_append_right hle, List.getElem?_eq_none hle]
        cases i - m.clients.length <;> rfl
    rw [accounted, accounted, hwaiting]
    rfl

theorem accounts_complete {x : IoEvent} {c d : TcpServerClient} (h : Single m)
    (hc : m.clients[j]? = some c) (hd : c.complete x = some d) :
    Accounts m (m.modify j fun _ => d) (.io j x) := by
  cases x with
  | receive k data =>
    have hmodify := accounted_modify (fun _ => d) m.connections_ h hc
      (TcpServerClient.moves_receive (h j c hc) hd)
    rw [List.map_nil, List.append_nil] at hmodify
    exact hmodify
  | finish k r =>
    obtain ⟨hsingle, hsame⟩ := accounted_quiet (fun _ => d) m.connections_ h hc
      (TcpServerClient.moves_finish (h j c hc) hd)
    exact ⟨hsingle, fun i => (hsame i).trans (List.append_nil _).symm⟩
  | run k => cases hd

/-- The handler of an operation: what it hands over had arrived, and it reads on or stops. -/
theorem accounts_run {c : TcpServerClient} {k stamp : Nat} {kind : ClientOp} {r : Result}
    (h : Single m) (hc : m.clients[j]? = some c)
    (hop : c.pending[k]? = some ⟨kind, stamp, some r⟩) :
    Accounts m ((m.modify j fun c => c.retire k).handle j c kind r) (.io j (.run k)) := by
  have hlt : j < (m.clients.modify j fun c => c.retire k).length := by
    rw [List.length_modify]
    exact (List.getElem?_eq_some_iff.mp hc).1
  obtain ⟨hsingle, hretired⟩ := accounted_modify (fun c => c.retire k) m.connections_ h hc
    (TcpServerClient.moves_retire (h j c hc) hop)
  have hlater {n : TcpServerManager} (hn : Single n ∧ ∀ i, n.accounted i = accounted
      ⟨m.clients.modify j fun c => c.retire k, m.connections_,
        m.delivered ++ (c.handedBy kind r).map fun data => (j, data)⟩ i) :
      Accounts m n (.io j (.run k)) := by
    refine ⟨hn.1, fun i => (hn.2 i).trans ((hretired i).trans ?_)⟩
    rw [ite_self]
    rfl
  have hstopped (hnone : c.handedBy kind r = []) :
      Accounts m ((m.modify j fun c => c.retire k).stop j) (.io j (.run k)) := by
    apply hlater
    rw [hnone] at hsingle ⊢
    rw [List.map_nil, List.append_nil] at hsingle ⊢
    exact accounts_stop hsingle hlt
  have hleft (hnone : c.handedBy kind r = []) :
      Accounts m (m.modify j fun c => c.retire k) (.io j (.run k)) := by
    apply hlater
    rw [hnone] at hsingle ⊢
    rw [List.map_nil, List.append_nil] at hsingle ⊢
    exact ⟨hsingle, fun _ => rfl⟩
  cases kind with
  | read =>
    cases r with
    | ok bytesTransferred =>
      apply hlater
      have hretire : (m.clients.modify j fun c => c.retire k)[j]? = some (c.retire k) := by
        rw [List.getElem?_modify, hc]
        simp
      have hone : (c.retire k).startRead.reads ≤ 1 := by
        rw [TcpServerClient.reads_startRead, (TcpServerClient.others_of_one (h j c hc) hop).1]
      exact accounted_quiet _ _ hsingle hretire
        (moves_quiet hone (TcpServerClient.waiting_begin _ _))
    | error code =>
      simp only [handle]
      split
      · exact hstopped rfl
      · exact hleft rfl
  | write bufferTx =>
    simp only [handle]
    split
    · exact hstopped rfl
    · exact hleft rfl

theorem accounts_act (h : Single m) (hs : m.act e = some n) : Accounts m n e := by
  have hquiet {n : TcpServerManager} (hn : Single n ∧ ∀ i, n.accounted i = m.accounted i)
      (hnone : ∀ i, arrivals i e = []) : Accounts m n e :=
    ⟨hn.1, fun i => by rw [hn.2, hnone, List.append_nil]⟩
  cases e with
  | start =>
    obtain rfl := Option.some.inj hs
    exact hquiet (accounts_start h) fun _ => rfl
  | stop i =>
    simp only [act, Option.ite_none_right_eq_some, Option.some.injEq] at hs
    obtain ⟨hi, rfl⟩ := hs
    exact hquiet (accounts_stop h hi) fun _ => rfl
  | stopAll =>
    obtain rfl := Option.some.inj hs
    exact hquiet (accounts_stopAll h) fun _ => rfl
  | write i data =>
    simp only [act, Option.ite_none_right_eq_some, Option.some.injEq] at hs
    obtain ⟨hi, rfl⟩ := hs
    have hc : m.clients[i]? = some m.clients[i] := List.getElem?_eq_getElem hi
    have hone : (m.clients[i].write data).reads ≤ 1 := by
      rw [TcpServerClient.reads_write]
      exact h i _ hc
    exact hquiet (accounted_quiet _ _ h hc (moves_quiet hone (TcpServerClient.waiting_begin _ _)))
      fun _ => rfl
  | io j x =>
    rcases io_cases hs with ⟨c, d, hc, hd, rfl⟩ | ⟨k, c, kind, stamp, r, rfl, hc, hop, rfl⟩
    · exact accounts_complete h hc hd
    · exact accounts_run h hc hop

theorem single_initial : Single initial := fun _ _ hc => by cases hc

/-- No client has two reads outstanding, so one span waits at most. -/
theorem length_waitingFrom_le (h : Single m) (i : Nat) : (m.waitingFrom i).length ≤ 1 := by
  unfold waitingFrom
  cases hc : m.clients[i]? with
  | none => exact Nat.zero_le 1
  | some c =>
    have hcount : c.waiting.length ≤ c.reads := by
      rw [TcpServerClient.waiting, List.length_map, ← List.countP_eq_length_filter]
      apply List.countP_mono_left
      intro op _ harrived
      exact decide_eq_true (beq_iff_eq.mp (Bool.and_eq_true_iff.mp harrived).1)
    exact hcount.trans (h i c hc)

theorem accounted_exec {es : List Event} (h : Single m) (he : exec act m es = some n) (i : Nat) :
    Single n ∧ n.accounted i = m.accounted i ++ (es.map (arrivals i)).flatten :=
  exec_appends (fun m => m.accounted i) (arrivals i) h (along_anyStep m es) he fun _ _ _ hs _ h =>
    ⟨(accounts_act hs h).1, (accounts_act hs h).2 i⟩

/-- In every run, whatever is written to the clients, however they are stopped and however their
operations fail: what has been passed to `handler_` with a client is what has arrived from that
client, span by span and in its order, up to one that still waits for its handler. -/
theorem clients_delivered (es : List Event) (m : TcpServerManager)
    (he : exec act initial es = some m) (i : Nat) :
    m.deliveredFrom i ++ m.waitingFrom i = (es.map (arrivals i)).flatten ∧
      (m.waitingFrom i).length ≤ 1 := by
  obtain ⟨hsingle, haccounted⟩ := accounted_exec single_initial he i
  exact ⟨haccounted, length_waitingFrom_le hsingle i⟩

/-! ## After an answer -/

/-- The handler of a write of a client runs, and the write has not been cancelled. -/
def Answers (m : TcpServerManager) (i : Nat) : Event → Prop
  | .io j (.run k) => j = i ∧ ∃ bufferTx stamp r,
      (m.clients[j]?.bind fun c => c.pending[k]?) = some ⟨.write bufferTx, stamp, some r⟩ ∧
        r ≠ .error .operationAborted
  | _ => False

/-- A client that was started is not in the set, and nothing is in flight on its socket. -/
structure Gone (i : Nat) (m : TcpServerManager) : Prop where
  started : i < m.clients.length
  released : i ∉ m.connections_
  ended : ∀ c, m.clients[i]? = some c → c.Ended

theorem Gone.modify {f : TcpServerClient → TcpServerClient} {connections : Finset Nat}
    {delivered : List (Nat × Bytes)} (h : Gone i m) (hout : i ∉ connections)
    (hf : ∀ c : TcpServerClient, c.Ended → (f c).Ended) :
    Gone i ⟨m.clients.modify j f, connections, delivered⟩ := by
  refine ⟨?_, hout, fun c hc => ?_⟩
  · rw [List.length_modify]
    exact h.started
  · obtain ⟨b, hb, ⟨-, rfl⟩ | ⟨-, rfl⟩⟩ := getElem?_modify_cases hc
    · exact hf b (h.ended b hb)
    · exact h.ended _ hb

theorem Gone.stop (h : Gone i m) (j : Nat) : Gone i (m.stop j) :=
  h.modify (fun hmem => h.released (Finset.mem_of_mem_erase hmem)) fun c _ => c.ended_stop

theorem Gone.handle (h : Gone i m) (c : TcpServerClient) (kind : ClientOp) (r : Result) :
    Gone i (m.handle j c kind r) := by
  cases kind with
  | read =>
    cases r with
    | ok bytesTransferred => exact h.modify h.released fun c hc => hc.begin .read
    | error code =>
      simp only [TcpServerManager.handle]
      split
      · exact h.stop j
      · exact h
  | write bufferTx =>
    simp only [TcpServerManager.handle]
    split
    · exact h.stop j
    · exact h

theorem gone_act (i : Nat) : Keeps act anyStep (Gone i) := by
  intro m e n h _ hs
  cases e with
  | start =>
    obtain rfl := Option.some.inj hs
    refine ⟨?_, ?_, fun c hc => ?_⟩
    · rw [TcpServerManager.start, List.length_append]
      exact Nat.lt_add_right _ h.started
    · rw [TcpServerManager.start, Finset.mem_insert, not_or]
      exact ⟨Nat.ne_of_lt h.started, h.released⟩
    · rw [TcpServerManager.start, List.getElem?_append_left h.started] at hc
      exact h.ended c hc
  | stop j =>
    simp only [act, Option.ite_none_right_eq_some, Option.some.injEq] at hs
    exact hs.2 ▸ h.stop j
  | stopAll =>
    obtain rfl := Option.some.inj hs
    refine ⟨?_, Finset.notMem_empty i, fun d hd => ?_⟩
    · rw [TcpServerManager.stopAll, List.length_mapIdx]
      exact h.started
    · rw [TcpServerManager.stopAll, List.getElem?_mapIdx] at hd
      obtain ⟨c, hc, rfl⟩ := Option.map_eq_some_iff.mp hd
      split
      · exact c.ended_stop
      · exact h.ended c hc
  | write j data =>
    simp only [act, Option.ite_none_right_eq_some, Option.some.injEq] at hs
    exact hs.2 ▸ h.modify h.released fun c hc => hc.begin _
  | io j x =>
    rcases io_cases hs with ⟨c, d, hc, hd, rfl⟩ | ⟨k, c, kind, stamp, r, rfl, hc, hop, rfl⟩
    · refine ⟨?_, h.released, fun b hb => ?_⟩
      · rw [TcpServerManager.modify, List.length_modify]
        exact h.started
      · obtain ⟨b', hb', ⟨rfl, -⟩ | ⟨-, rfl⟩⟩ := getElem?_modify_cases hb
        · rw [(h.ended c hc).complete x] at hd
          cases hd
        · exact h.ended _ hb'
    · exact (h.modify h.released fun c hc => hc.retire k : Gone i (m.modify j fun c => c.retire k)).handle
        c kind r

/-- Nothing arrives from a client whose socket hears nothing. -/
theorem Gone.arrivals (h : Gone i m) (hs : m.act e = some n) : arrivals i e = [] := by
  cases e with
  | io j x =>
    cases x with
    | receive k data =>
      by_cases hji : j = i
      · subst hji
        have hio : m.io j (.receive k data) = some n := hs
        rcases io_cases hio with ⟨c, d, hc, hd, -⟩ | ⟨k', c, kind, stamp, r, hx, -⟩
        · rw [(h.ended c hc).complete] at hd
          cases hd
        · cases hx
      · exact if_neg hji
    | _ => rfl
  | _ => rfl

theorem gone_of_answers (ha : Answers m i e) (hs : m.act e = some n) : Gone i n := by
  cases e with
  | io j x =>
    cases x with
    | run k =>
      obtain ⟨rfl, bufferTx, stamp, r, hop, hr⟩ := ha
      have hio : m.io j (.run k) = some n := hs
      rcases io_cases hio with ⟨c, d, hc, hd, -⟩ | ⟨k', c, kind, stamp', r', hx, hc, hop', rfl⟩
      · cases hd
      · obtain rfl := IoEvent.run.inj hx
        rw [hc] at hop
        obtain ⟨⟩ := Option.some.inj (hop.symm.trans hop')
        have hstop : (m.modify j fun c => c.retire k).handle j c (.write bufferTx) r =
            (m.modify j fun c => c.retire k).stop j := if_pos hr
        rw [hstop]
        refine ⟨?_, Finset.notMem_erase j _, fun b hb => ?_⟩
        · simp only [TcpServerManager.stop, TcpServerManager.modify, List.length_modify]
          exact (List.getElem?_eq_some_iff.mp hc).1
        · obtain ⟨b', -, ⟨-, rfl⟩ | ⟨hne, -⟩⟩ := getElem?_modify_cases hb
          · exact b'.ended_stop
          · exact absurd rfl hne
    | _ => exact ha.elim
  | _ => exact ha.elim

/-- In every run: once the handler of a write has run that was not cancelled, its client is out
of the set and closed for good. Nothing arrives from it afterwards, and what is passed to
`handler_` with it in the whole run had arrived before the answer. -/
theorem answered_clients_end (es fs : List Event) (e : Event) (m p : TcpServerManager) (i : Nat)
    (he : exec act initial es = some m) (ha : Answers m i e)
    (hf : exec act initial (es ++ e :: fs) = some p) :
    i ∉ p.connections_ ∧ (∀ c, p.clients[i]? = some c → c.Ended) ∧
      (fs.map (arrivals i)).flatten = [] ∧
      p.deliveredFrom i ++ p.waitingFrom i = (es.map (arrivals i)).flatten := by
  rw [exec_append, he] at hf
  obtain ⟨n, hn, htail⟩ := exec_cons_some hf
  have hgone := gone_of_answers ha hn
  have hfinal : Gone i p := (gone_act i).exec hgone (along_anyStep n fs) htail
  have hsilent : (fs.map (arrivals i)).flatten = [] := by
    have hbrought := exec_appends (fun _ => ([] : List Bytes)) (arrivals i) hgone
      (along_anyStep n fs) htail fun s e t hs _ h => ⟨gone_act i s e t hs trivial h, (hs.arrivals h).symm⟩
    exact hbrought.2.symm
  have hanswer : arrivals i e = [] := by
    cases e with
    | io j x =>
      cases x with
      | receive k data => exact ha.elim
      | _ => rfl
    | _ => rfl
  refine ⟨hfinal.released, hfinal.ended, hsilent, ?_⟩
  obtain ⟨hsingle, hbefore⟩ := accounted_exec single_initial he i
  obtain ⟨hsingle', hafter⟩ := accounts_act hsingle hn
  have hlast := (accounted_exec hsingle' htail i).2
  rw [hafter i, hbefore, hsilent, hanswer, List.append_nil, List.append_nil] at hlast
  exact hlast

/-- A client sends something, is answered, and its data is handed over after that. -/
def repliedRun : List Event :=
  [.start, .write 0 [0x4f, 0x4b], .io 0 (.receive 0 (text "ping")), .io 0 (.finish 1 (.ok 2)),
    .io 0 (.run 1), .io 0 (.run 0)]

theorem ping_delivered :
    ∃ m, exec act initial repliedRun = some m ∧ m.deliveredFrom 0 = [text "ping"] := by
  refine ⟨_, rfl, ?_⟩
  have hdelivered := (clients_delivered repliedRun _ rfl 0).1
  exact hdelivered

theorem ping_answered :
    ∃ p, exec act initial repliedRun = some p ∧ 0 ∉ p.connections_ ∧
      p.deliveredFrom 0 ++ p.waitingFrom 0 = [text "ping"] := by
  have hanswers : ∃ m, exec act initial (repliedRun.take 4) = some m ∧ Answers m 0 (.io 0 (.run 1)) :=
    ⟨_, rfl, rfl, _, _, _, rfl, by decide⟩
  obtain ⟨m, hm, ha⟩ := hanswers
  obtain ⟨hout, -, -, hdelivered⟩ :=
    answered_clients_end (repliedRun.take 4) [.io 0 (.run 0)] (.io 0 (.run 1)) m _ 0 hm ha rfl
  exact ⟨_, rfl, hout, hdelivered⟩

end TcpServerManager

end DeviceTester.Connection

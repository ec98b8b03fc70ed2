import DeviceTester.Connection.Tcp

/-!
# The calls of `disconnect()` and of `async_connect`

`disconnect()` returns early when the object is not connected. The socket is open without
being connected from the start of an attempt to its success, and after it has failed.
-/
namespace DeviceTester.Connection.Tcp

open DeviceTester.Lib

variable {t u : Tcp} {e : Event} {i : Nat}

/-- A call made in a step, with the state `disconnect()` leaves or `async_connect` finds. -/
inductive Call where
  | disconnect (left : Tcp)
  | asyncConnect (found : Tcp)

namespace Call

def isDisconnect : Call → Bool
  | disconnect _ => true
  | asyncConnect _ => false

def isAsyncConnect : Call → Bool
  | disconnect _ => false
  | asyncConnect _ => true

/-- No operation is in flight on the socket. -/
def Idle (t : Tcp) : Prop := ∀ op ∈ t.pending, op.result ≠ none

/-- `disconnect()` leaves the socket closed. `async_connect` finds it closed, with no other
operation outstanding. -/
def Clean : Call → Prop
  | disconnect left => left.socket_.isOpen = false
  | asyncConnect found => found.socket_.isOpen = false ∧ Idle found

end Call

def beginConnectCalls (t : Tcp) (endpointIter : List Endpoint) : List Call :=
  if endpointIter ≠ [] then [.asyncConnect t] else [.disconnect t.disconnect]

def connectCalls (resolve : Resolver) (t : Tcp) : List Call :=
  .disconnect t.disconnect ::
    match resolve (resolverQuery t.disconnect.options_).1 (resolverQuery t.disconnect.options_).2 with
    | .error _ => []
    | .ok endpoints =>
        beginConnectCalls { t.disconnect with endpoints_ := endpoints, shouldRun_ := true } endpoints

def handleConnectCalls (t : Tcp) (r : Result) (endpointIter : List Endpoint) : List Call :=
  if !t.shouldRun_ then []
  else if !t.socket_.isOpen then beginConnectCalls t endpointIter.tail
  else
    match r with
    | .error _ => .disconnect t.disconnect :: beginConnectCalls t.disconnect endpointIter.tail
    | .ok _ => []

def handleCalls (t : Tcp) (r : Result) : TcpOp → List Call
  | .connect endpointIter => t.handleConnectCalls r endpointIter
  | .read _ => if r.isOk then [] else [.disconnect t.disconnect]
  | .write _ => []

/-- The calls of `disconnect()` and of `async_connect` that a step makes, in their order. -/
def callsOf (t : Tcp) : Event → List Call
  | .connect resolve => t.connectCalls resolve
  | .disconnect => [.disconnect t.disconnect]
  | .applyOptions resolve => if t.isConnected then t.connectCalls resolve else []
  | .io (.run i) =>
      match t.pending[i]? with
      | some ⟨kind, _, some r⟩ => { t with pending := t.pending.eraseIdx i }.handleCalls r kind
      | _ => []
  | _ => []

/-- Every call the step makes is clean. -/
def CallsClean (t : Tcp) (e : Event) (_ : Tcp) : Prop := ∀ call ∈ t.callsOf e, call.Clean

/-- An open socket is a connected one. -/
def Closable (t : Tcp) : Prop := t.socket_.isOpen = true → t.isConnected_ = true

/-- Where `connect()` or `disconnect()` is called, or the handler of a failed read or, with
`should_run_` up, of a failed attempt runs, an open socket is a connected one. -/
def ClosesConnected (t : Tcp) : Event → Tcp → Prop
  | .connect _, _ => Closable t
  | .disconnect, _ => Closable t
  | .io (.run i), _ =>
      match t.pending[i]? with
      | some ⟨.connect _, _, some (.error _)⟩ => t.shouldRun_ = true → Closable t
      | some ⟨.read _, _, some (.error _)⟩ => Closable t
      | _ => True
  | _, _ => True

/-! ## The calls are those of the step -/

theorem calls_disconnect (t : Tcp) : t.disconnect.calls = t.calls + 1 := by
  unfold disconnect
  split <;> rfl

/-- The number of connect attempts outstanding. -/
def attempts (t : Tcp) : Nat := outstanding (fun op _ => op.isConnect) t.pending

theorem attempts_disconnect (t : Tcp) : t.disconnect.attempts = t.attempts := by
  unfold disconnect
  split
  · rfl
  · exact outstanding_cancel

/-- `t` leads to `u` with the calls given: `disconnect()` counts its calls, and an attempt
is outstanding for each call of `async_connect`. -/
structure Makes (calls : List Call) (t u : Tcp) : Prop where
  disconnects : u.calls = t.calls + calls.countP Call.isDisconnect
  attempts : u.attempts = t.attempts + calls.countP Call.isAsyncConnect

theorem makes_nil (hc : u.calls = t.calls) (ha : u.attempts = t.attempts) : Makes [] t u :=
  ⟨hc, ha⟩

theorem makes_disconnect (t : Tcp) : Makes [.disconnect t.disconnect] t t.disconnect :=
  ⟨calls_disconnect t, attempts_disconnect t⟩

theorem Makes.trans {calls calls' : List Call} {v : Tcp} (h : Makes calls t u)
    (h' : Makes calls' u v) : Makes (calls ++ calls') t v := by
  constructor
  · rw [h'.disconnects, h.disconnects, List.countP_append, Nat.add_assoc]
  · rw [h'.attempts, h.attempts, List.countP_append, Nat.add_assoc]

theorem makes_beginConnect (t : Tcp) (endpointIter : List Endpoint) :
    Makes (t.beginConnectCalls endpointIter) t (t.beginConnect endpointIter) := by
  unfold beginConnectCalls beginConnect
  split
  · refine ⟨rfl, ?_⟩
    simp [attempts, asyncConnect, start, TcpOp.isConnect, Call.isAsyncConnect]
  · exact makes_disconnect t

theorem makes_connect (t : Tcp) (resolve : Resolver) :
    Makes (t.connectCalls resolve) t (t.connect resolve).state := by
  refine (makes_disconnect t).trans ?_
  simp only [connect]
  generalize resolve (resolverQuery t.disconnect.options_).1
    (resolverQuery t.disconnect.options_).2 = answer
  cases answer with
  | error what => exact makes_nil rfl rfl
  | ok endpoints =>
    have h := makes_beginConnect
      { t.disconnect with endpoints_ := endpoints, shouldRun_ := true } endpoints
    exact ⟨h.disconnects, h.attempts⟩

theorem makes_handle (t : Tcp) (r : Result) (kind : TcpOp) :
    Makes (t.handleCalls r kind) t (t.handle r kind) := by
  cases kind with
  | connect endpointIter =>
    simp only [handleCalls, handleConnectCalls, handle, handleConnect]
    split
    · exact makes_nil rfl rfl
    · split
      · exact makes_beginConnect t _
      · cases r with
        | error code => exact (makes_disconnect t).trans (makes_beginConnect t.disconnect _)
        | ok n =>
          refine makes_nil rfl ?_
          simp [attempts, startRead, start, TcpOp.isConnect]
  | read delimiter =>
    cases r with
    | error code => exact makes_disconnect t
    | ok n =>
      simp only [handleCalls, handle, handleRead, Result.isOk, if_true]
      split
      · refine makes_nil rfl ?_
        simp [attempts, startRead, start, processData, TcpOp.isConnect]
      · exact makes_nil rfl rfl
  | write bufferTx =>
    cases r with
    | error code => exact makes_nil rfl rfl
    | ok n =>
      simp only [handleCalls, handle, handleWrite]
      split
      · refine makes_nil rfl ?_
        simp [attempts, start, TcpOp.isConnect]
      · exact makes_nil rfl rfl

/-- The attempt whose handler runs is outstanding no longer. -/
def handledAttempts (t : Tcp) : Event → Nat
  | .io (.run i) => if t.pending[i]?.any (fun op => op.kind.isConnect) then 1 else 0
  | _ => 0

/-- The calls are those the step makes: it counts the calls of `disconnect()`, and has an
attempt outstanding for each call of `async_connect`. -/
theorem callsOf_step (h : step t e = some u) :
    u.calls = t.calls + (t.callsOf e).countP Call.isDisconnect ∧
      u.attempts + t.handledAttempts e =
        t.attempts + (t.callsOf e).countP Call.isAsyncConnect := by
  cases e with
  | connect resolve =>
    obtain rfl := Option.some.inj h
    exact ⟨(makes_connect t resolve).disconnects, (makes_connect t resolve).attempts⟩
  | disconnect =>
    obtain rfl := Option.some.inj h
    exact ⟨(makes_disconnect t).disconnects, (makes_disconnect t).attempts⟩
  | applyOptions resolve =>
    obtain rfl := Option.some.inj h
    simp only [callsOf, applyOptions]
    split
    · exact ⟨(makes_connect t resolve).disconnects, (makes_connect t resolve).attempts⟩
    · exact ⟨rfl, rfl⟩
  | setOptions opts =>
    obtain rfl := Option.some.inj h
    exact ⟨rfl, rfl⟩
  | write data =>
    obtain rfl := Option.some.inj h
    refine ⟨rfl, ?_⟩
    simp [attempts, write, start, handledAttempts, callsOf, TcpOp.isConnect]
  | io x =>
    cases x with
    | receive i data =>
      obtain ⟨delimiter, stamp, hop, -, -, rfl⟩ := io_receive h
      exact ⟨rfl, rfl⟩
    | finish i r =>
      obtain ⟨kind, stamp, hop, -, rfl⟩ := io_finish h
      have hset : outstanding (fun op _ => op.isConnect) (t.pending.set i ⟨kind, stamp, some r⟩) =
          t.attempts := outstanding_set hop rfl rfl
      cases kind <;> cases r <;> exact ⟨rfl, hset⟩
    | run i =>
      obtain ⟨kind, stamp, r, hop, rfl⟩ := io_run h
      have hmakes := makes_handle { t with pending := t.pending.eraseIdx i } r kind
      have herase : t.attempts = ({ t with pending := t.pending.eraseIdx i } : Tcp).attempts +
          if kind.isConnect then 1 else 0 := outstanding_eraseIdx hop
      simp only [callsOf, handledAttempts, hop, Option.any_some]
      refine ⟨hmakes.disconnects, ?_⟩
      rw [hmakes.attempts, herase]
      exact Nat.add_right_comm _ _ _

/-! ## Which calls are clean -/

theorem Call.Idle.disconnect (h : Call.Idle t) : Call.Idle t.disconnect := by
  unfold Tcp.disconnect
  split
  · exact h
  · intro op hop
    obtain ⟨op', -, rfl⟩ := List.mem_map.mp hop
    simp [Operation.cancel]

/-- A closed socket has no operation in flight. -/
def ClosedIdle (t : Tcp) : Prop := t.socket_.isOpen = false → Call.Idle t

theorem ClosedIdle.congr (h : ClosedIdle t) (hs : u.socket_.isOpen = t.socket_.isOpen)
    (hp : ∀ op ∈ u.pending, op ∈ t.pending ∨ op.result ≠ none) : ClosedIdle u := by
  intro hc op hop
  rcases hp op hop with hold | hdone
  · exact h (hs.symm.trans hc) op hold
  · exact hdone

theorem ClosedIdle.disconnect (h : ClosedIdle t) : ClosedIdle t.disconnect := by
  cases hc : t.isConnected with
  | true =>
    rw [disconnect_of_connected hc]
    intro _ op hop
    obtain ⟨op', -, rfl⟩ := List.mem_map.mp hop
    simp [Operation.cancel]
  | false =>
    rw [disconnect_of_not_connected hc]
    exact h

theorem ClosedIdle.start (h : ClosedIdle t) (op : TcpOp) : ClosedIdle (t.start op) := by
  intro hc op' hop
  rcases List.mem_append.mp hop with hold | hnew
  · exact h hc op' hold
  · obtain rfl := List.mem_singleton.mp hnew
    have hclosed : t.socket_.isOpen = false := hc
    simp [Operation.begin, hclosed]

theorem ClosedIdle.beginConnect (h : ClosedIdle t) (endpointIter : List Endpoint) :
    ClosedIdle (t.beginConnect endpointIter) := by
  unfold Tcp.beginConnect
  split
  · intro hc
    cases hc
  · exact h.disconnect

theorem ClosedIdle.connect (h : ClosedIdle t) (resolve : Resolver) :
    ClosedIdle (t.connect resolve).state := by
  rcases connect_cases t resolve with ⟨what, hc⟩ | ⟨endpoints, _, hc⟩
  · rw [hc]
    exact h.disconnect
  · rw [hc]
    apply ClosedIdle.beginConnect
    exact h.disconnect

theorem ClosedIdle.handle (h : ClosedIdle t) (r : Result) (kind : TcpOp) :
    ClosedIdle (t.handle r kind) := by
  cases kind with
  | connect endpointIter =>
    simp only [Tcp.handle, handleConnect]
    split
    · exact h
    · split
      · exact h.beginConnect _
      · cases r with
        | error code => exact h.disconnect.beginConnect _
        | ok n => exact ClosedIdle.start (t := { t with isConnected_ := true }) h _
  | read delimiter =>
    cases r with
    | error code => exact h.disconnect
    | ok n =>
      simp only [Tcp.handle, handleRead]
      split
      · exact ClosedIdle.start
          (t := { t with delivered := t.delivered ++ [t.bufferRx_], bufferRx_ := [] }) h _
      · exact h
  | write bufferTx =>
    cases r with
    | error code => exact h
    | ok n =>
      simp only [Tcp.handle, handleWrite]
      split
      · exact h.start _
      · exact h

theorem closedIdle_step : Keeps step anyStep ClosedIdle := by
  intro t e u h _ hs
  cases e with
  | connect resolve => exact Option.some.inj hs ▸ h.connect resolve
  | disconnect => exact Option.some.inj hs ▸ h.disconnect
  | applyOptions resolve =>
    obtain rfl := Option.some.inj hs
    unfold applyOptions
    split
    · exact h.connect resolve
    · exact h
  | setOptions opts => exact Option.some.inj hs ▸ h
  | write data => exact Option.some.inj hs ▸ h.start _
  | io x =>
    cases x with
    | receive i data =>
      obtain ⟨_, _, _, _, _, rfl⟩ := io_receive hs
      exact h
    | finish i r =>
      obtain ⟨kind, stamp, _, _, rfl⟩ := io_finish hs
      have hset : ClosedIdle { t with pending := t.pending.set i ⟨kind, stamp, some r⟩ } := by
        refine h.congr rfl fun op hop => ?_
        rcases List.mem_or_eq_of_mem_set hop with hold | rfl
        · exact .inl hold
        · exact .inr (by simp)
      cases kind <;> cases r <;> exact hset
    | run i =>
      obtain ⟨kind, stamp, r, _, rfl⟩ := io_run hs
      have herase : ClosedIdle { t with pending := t.pending.eraseIdx i } :=
        h.congr rfl fun op hop => .inl (List.mem_of_mem_eraseIdx hop)
      exact herase.handle r kind

theorem clean_disconnect_iff (h : Coherent t) :
    (Call.disconnect t.disconnect).Clean ↔ Closable t := by
  cases hc : t.isConnected with
  | true =>
    refine iff_of_true ?_ fun _ => h.isConnected_eq.symm.trans hc
    rw [disconnect_of_connected hc]
    rfl
  | false =>
    have hflag : t.isConnected_ = false := h.isConnected_eq.symm.trans hc
    rw [disconnect_of_not_connected hc]
    constructor
    · intro hclosed hopen
      cases hclosed.symm.trans hopen
    · intro hclosable
      cases ho : t.socket_.isOpen with
      | false => exact ho
      | true => cases hflag.symm.trans (hclosable ho)

/-- From a closed socket `beginConnect` makes clean calls only. -/
theorem clean_beginConnect (h : Coherent t) (hidle : ClosedIdle t) (hc : t.socket_.isOpen = false)
    (endpointIter : List Endpoint) : ∀ call ∈ t.beginConnectCalls endpointIter, call.Clean := by
  have hclosable : Closable t := fun ho => by cases hc.symm.trans ho
  intro call hcall
  unfold beginConnectCalls at hcall
  split at hcall
  · obtain rfl := List.mem_singleton.mp hcall
    exact ⟨hc, hidle hc⟩
  · obtain rfl := List.mem_singleton.mp hcall
    exact (clean_disconnect_iff h).mpr hclosable

theorem clean_connect_iff (h : Coherent t) (hidle : ClosedIdle t) (resolve : Resolver) :
    (∀ call ∈ t.connectCalls resolve, call.Clean) ↔ Closable t := by
  rw [connectCalls, List.forall_mem_cons, clean_disconnect_iff h]
  refine and_iff_left_of_imp fun hclosable => ?_
  have hclosed : t.disconnect.socket_.isOpen = false := (clean_disconnect_iff h).mpr hclosable
  split
  · exact fun _ hcall => absurd hcall List.not_mem_nil
  · rename_i endpoints _
    have hcoherent : Coherent { t.disconnect with endpoints_ := endpoints, shouldRun_ := true } :=
      .of_isConnected_false h.isConnected_disconnect
    exact clean_beginConnect hcoherent hidle.disconnect hclosed endpoints

theorem clean_handleConnect_iff (h : Coherent t) (hidle : ClosedIdle t) (r : Result)
    (endpointIter : List Endpoint) :
    (∀ call ∈ t.handleConnectCalls r endpointIter, call.Clean) ↔
      (r.isOk = false → t.shouldRun_ = true → Closable t) := by
  unfold handleConnectCalls
  cases hrun : t.shouldRun_ with
  | false =>
    refine iff_of_true (fun _ hcall => absurd hcall List.not_mem_nil) fun _ hfalse => ?_
    cases hfalse
  | true =>
    cases ho : t.socket_.isOpen with
    | false =>
      refine iff_of_true (clean_beginConnect h hidle ho _) fun _ _ hopen => ?_
      cases ho.symm.trans hopen
    | true =>
      cases r with
      | ok n =>
        refine iff_of_true (fun _ hcall => absurd hcall List.not_mem_nil) fun hok => ?_
        cases hok
      | error code =>
        have hall : (∀ call ∈ Call.disconnect t.disconnect ::
            t.disconnect.beginConnectCalls endpointIter.tail, call.Clean) ↔ Closable t := by
          rw [List.forall_mem_cons, clean_disconnect_iff h]
          refine and_iff_left_of_imp fun hclosable => ?_
          have hclosed : t.disconnect.socket_.isOpen = false :=
            (clean_disconnect_iff h).mpr hclosable
          exact clean_beginConnect h.disconnect hidle.disconnect hclosed _
        exact hall.trans ⟨fun hclosable _ _ => hclosable, fun hclosable => hclosable rfl rfl⟩

theorem callsClean_iff (h : Coherent t) (hidle : ClosedIdle t) :
    CallsClean t e u ↔ ClosesConnected t e u := by
  have hnone : ∀ {P : Prop}, P → ((∀ call ∈ ([] : List Call), call.Clean) ↔ P) := fun hp =>
    iff_of_true (fun _ hcall => absurd hcall List.not_mem_nil) hp
  cases e with
  | connect resolve => exact clean_connect_iff h hidle resolve
  | disconnect =>
    exact List.forall_mem_singleton.trans (clean_disconnect_iff h)
  | applyOptions resolve =>
    change (∀ call ∈ if t.isConnected then t.connectCalls resolve else [], call.Clean) ↔ True
    split
    · rename_i hconnected
      refine iff_of_true ((clean_connect_iff h hidle resolve).mpr fun _ => ?_) trivial
      exact h.isConnected_eq.symm.trans hconnected
    · exact hnone trivial
  | setOptions opts => exact hnone trivial
  | write data => exact hnone trivial
  | io x =>
    cases x with
    | receive i data => exact hnone trivial
    | finish i r => exact hnone trivial
    | run i =>
      have herase : ClosedIdle { t with pending := t.pending.eraseIdx i } :=
        hidle.congr rfl fun op hop => .inl (List.mem_of_mem_eraseIdx hop)
      have hcoherent : Coherent { t with pending := t.pending.eraseIdx i } := h
      simp only [CallsClean, callsOf, ClosesConnected]
      cases hop : t.pending[i]? with
      | none => exact hnone trivial
      | some op =>
        obtain ⟨kind, stamp, result⟩ := op
        cases result with
        | none => cases kind <;> exact hnone trivial
        | some r =>
          cases kind with
          | connect endpointIter =>
            refine (clean_handleConnect_iff hcoherent herase r endpointIter).trans ?_
            cases r with
            | ok n => exact iff_of_true (fun hok => by cases hok) trivial
            | error code => exact ⟨fun hclosable => hclosable rfl, fun hclosable _ => hclosable⟩
          | read delimiter =>
            cases r with
            | ok n => exact hnone trivial
            | error code =>
              exact List.forall_mem_singleton.trans (clean_disconnect_iff hcoherent)
          | write buffer => cases r <;> exact hnone trivial

/-- All along a run, `disconnect()` closes the socket and `async_connect` finds it closed and
idle, exactly when an open socket is a connected one wherever the socket is to be closed. -/
theorem calls_clean_iff (identifier : Bytes) (es : List Event) :
    Along step CallsClean (initial identifier) es ↔
      Along step ClosesConnected (initial identifier) es := by
  have hkeeps : Keeps step anyStep fun t => Coherent t ∧ ClosedIdle t :=
    fun t e u h _ hs => ⟨coherent_step t e u h.1 trivial hs, closedIdle_step t e u h.2 trivial hs⟩
  refine along_congr hkeeps (fun t e u h _ => callsClean_iff h.1 h.2) ⟨coherent_initial identifier, ?_⟩ es
  exact fun _ op hop => absurd hop List.not_mem_nil

/-- `disconnect()` while the first attempt is pending, and `connect()` once more. -/
def abandonRun : List Event :=
  [.connect fun _ _ => .ok [⟨text "10.0.0.1", 4001⟩], .disconnect,
    .connect fun _ _ => .ok [⟨text "10.0.0.1", 4001⟩]]

theorem abandonRun_not_clean :
    ¬ Along step CallsClean (initial []) abandonRun ∧
      ∃ t, exec step (initial []) (abandonRun.take 2) = some t ∧ t.socket_.isOpen = true ∧
        t.isConnected = false := by
  refine ⟨fun h => ?_, _, rfl, rfl, rfl⟩
  have hopen : (Call.disconnect _).Clean := ((h.cons rfl).2.cons rfl).1 _ List.mem_cons_self
  cases hopen

end DeviceTester.Connection.Tcp

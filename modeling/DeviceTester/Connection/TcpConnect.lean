import DeviceTester.Connection.Tcp

/-!
# Connecting to the endpoints of a resolved name

`Tcp::connect` tries the endpoints one after another. A failed attempt calls
`disconnect()`, which clears `should_run_`, before the next one is begun, so the
completion of the next one is ignored. Only the first endpoint can be connected to.
-/
namespace DeviceTester.Connection.Tcp

open DeviceTester.Lib

/-- The endpoints in order, each with the outcome of the attempt on it. -/
abbrev Attempts := List (Endpoint × Bool)

variable {attempts : Attempts} {t u : Tcp}

/-- The outcome of the attempt on the endpoint that the iterator is at. -/
def attemptOk (attempts : Attempts) (endpointIter : List Endpoint) : Bool :=
  match attempts.drop (attempts.length - endpointIter.length) with
  | [] => false
  | a :: _ => a.2

/-- The steps left when no public method is called and no data arrives: the
attempts finish as assigned and their completions run. -/
def Answered (attempts : Attempts) (t : Tcp) (e : Event) (_ : Tcp) : Prop :=
  match e with
  | .io (.finish i r) =>
      ∃ op ∈ t.pending[i]?, ∃ endpointIter,
        op.kind = .connect endpointIter ∧ r.isOk = attemptOk attempts endpointIter
  | .io (.run i) => ∃ op ∈ t.pending[i]?, op.kind.isConnect = true
  | _ => False

/-- All completions of attempts have run. -/
def Settled (t : Tcp) : Prop := outstanding (fun op _ => op.isConnect) t.pending = 0

def readsOutstanding (t : Tcp) : Nat := outstanding (fun op _ => op.isRead) t.pending

/-- Connected with one read outstanding exactly when some attempt succeeds, and
connected to the first endpoint whose attempt does. -/
def FailsOver (attempts : Attempts) (t : Tcp) : Prop :=
  ((t.isConnected = true ∧ readsOutstanding t = 1) ↔ ∃ a ∈ attempts, a.2 = true) ∧
    (t.isConnected = true → t.socket_.peer = (attempts.find? Prod.snd).map Prod.fst)

/-- The attempts come to an end, and wherever they do the object has failed over. -/
def EndsFailedOver (attempts : Attempts) (t : Tcp) : Prop :=
  (∃ u, Reaches step (Answered attempts) t u ∧ Settled u) ∧
    ∀ u, Reaches step (Answered attempts) t u → Settled u → FailsOver attempts u

/-- Where a sequence of attempts can be once the first one has been handled. -/
inductive Decided (attempts : Attempts) (t : Tcp) : Prop where
  | connected (a : Endpoint × Bool) (rest : Attempts) (delimiter : UInt8) (stamp : Nat)
      (ha : attempts = a :: rest) (hok : a.2 = true)
      (hp : t.pending = [⟨.read delimiter, stamp, none⟩])
      (hcon : t.isConnected = true) (hpeer : t.socket_.peer = some a.1)
  | ignored (a : Endpoint × Bool) (rest : Attempts) (endpointIter : List Endpoint) (stamp : Nat)
      (result : Option Result) (ha : attempts = a :: rest) (hfail : a.2 = false)
      (hp : t.pending = [⟨.connect endpointIter, stamp, result⟩])
      (hrun : t.shouldRun_ = false) (hcon : t.isConnected_ = false)
  | ended (hfail : ∀ a ∈ attempts.head?, a.2 = false) (hp : t.pending = [])
      (hcon : t.isConnected_ = false)

/-- The first attempt is in flight or has finished with `result`. -/
structure First (attempts : Attempts) (a : Endpoint × Bool) (stamp : Nat)
    (result : Option Result) (t : Tcp) : Prop where
  head : attempts.head? = some a
  pending : t.pending = [⟨.connect (attempts.map Prod.fst), stamp, result⟩]
  shouldRun : t.shouldRun_ = true
  isConnected : t.isConnected_ = false
  isOpen : t.socket_.isOpen = true
  assigned : ∀ r ∈ result, r.isOk = a.2 ∧ (a.2 = true → t.socket_.peer = some a.1)

def Stage (attempts : Attempts) (t : Tcp) : Prop :=
  (∃ a stamp result, First attempts a stamp result t) ∨ Decided attempts t

theorem attemptOk_first {a : Endpoint × Bool} (h : attempts.head? = some a) :
    attemptOk attempts (attempts.map Prod.fst) = a.2 := by
  cases attempts with
  | nil => cases h
  | cons b rest =>
    obtain rfl : b = a := Option.some.inj h
    simp [attemptOk]

theorem isConnected_of_flag (h : t.isConnected_ = false) : t.isConnected = false := by
  simp [Tcp.isConnected, h]

/-- At the end iterator the attempts are over. -/
theorem over_of_end (hfail : ∀ a ∈ attempts.head?, a.2 = false) (hp : t.pending = [])
    (hcon : t.isConnected_ = false) : Decided attempts (t.beginConnect []) := by
  rw [beginConnect, if_neg (not_not_intro rfl),
    disconnect_of_not_connected (isConnected_of_flag hcon)]
  exact .ended hfail hp hcon

/-- The only operation there is stands at position zero. -/
theorem singleton_getElem? {α : Type*} {x y : α} {i : Nat} (h : [x][i]? = some y) :
    i = 0 ∧ x = y := by
  obtain ⟨hi, rfl⟩ := List.getElem?_eq_some_iff.mp h
  have h0 : i = 0 := by simpa using hi
  subst h0
  exact ⟨rfl, rfl⟩

theorem stage_connect {s : Tcp} (hc : Coherent s) (hp : s.pending = []) {resolve : Resolver}
    (hr : resolve (resolverQuery s.options_).1 (resolverQuery s.options_).2 =
      .ok (attempts.map Prod.fst)) :
    Stage attempts (s.connect resolve).state := by
  have hpd := pending_disconnect_of_nil hp
  have hcd := hc.isConnected_disconnect
  rcases connect_cases s resolve with ⟨what, h⟩ | ⟨endpoints, he, h⟩
  · simp [connect, hr] at h
  · obtain rfl : endpoints = attempts.map Prod.fst :=
      (Except.ok.inj (hr.symm.trans he)).symm
    rw [h, Outcome.state_returned]
    cases attempts with
    | nil => exact .inr (over_of_end (by simp) hpd hcd)
    | cons a rest =>
      refine .inl ⟨a, s.disconnect.calls, none, rfl, ?_, ?_, ?_, ?_, by simp⟩
      · simp [beginConnect, asyncConnect, start, hpd, Operation.begin]
      · simp [beginConnect, asyncConnect, start]
      · simpa [beginConnect, asyncConnect, start] using hcd
      · simp [beginConnect, asyncConnect, start]

/-! ## The completion of the first attempt -/

/-- After a failed first attempt `should_run_` is down when the next one begins. -/
theorem decided_failed {a : Endpoint × Bool} (ha : attempts.head? = some a)
    (hfail : a.2 = false) (hp : t.pending = []) (hcon : t.isConnected_ = false) :
    Decided attempts (t.disconnect.beginConnect (attempts.map Prod.fst).tail) := by
  obtain ⟨rest, rfl⟩ := List.head?_eq_some_iff.mp ha
  rw [disconnect_of_not_connected (isConnected_of_flag hcon)]
  cases rest with
  | nil => exact over_of_end (by simpa using hfail) hp hcon
  | cons b rest =>
    have hcons : ((a :: b :: rest).map Prod.fst).tail ≠ [] := by simp
    rw [beginConnect, if_pos hcons]
    refine .ignored a (b :: rest) ((b :: rest).map Prod.fst) (t.calls + 1) none rfl hfail ?_ rfl hcon
    simp [asyncConnect, start, hp, Operation.begin]

theorem First.handled {a : Endpoint × Bool} {stamp : Nat} {r : Result}
    (h : First attempts a stamp (some r) t) :
    Decided attempts ({ t with pending := [] }.handleConnect r (attempts.map Prod.fst)) := by
  obtain ⟨hr, hpeer⟩ := h.assigned r rfl
  obtain ⟨rest, ha⟩ := List.head?_eq_some_iff.mp h.head
  simp only [handleConnect, h.shouldRun, h.isOpen, Bool.not_true, Bool.false_eq_true, if_false]
  cases r with
  | ok n =>
    have hok : a.2 = true := hr.symm
    refine .connected a rest t.options_.packetEnd t.calls ha hok ?_ ?_ (hpeer hok)
    · simp [startRead, start, Operation.begin, h.isOpen]
    · simp [startRead, start, Tcp.isConnected, h.isOpen]
  | error code => exact decided_failed h.head hr.symm rfl h.isConnected

theorem First.finished {a : Endpoint × Bool} {stamp : Nat} (h : First attempts a stamp none t)
    {r : Result} (hr : r.isOk = a.2) :
    First attempts a stamp (some r)
      ({ t with pending := [⟨.connect (attempts.map Prod.fst), stamp, some r⟩] }.finished
        (.connect (attempts.map Prod.fst)) r) := by
  obtain ⟨rest, ha⟩ := List.head?_eq_some_iff.mp h.head
  cases r with
  | ok n =>
    refine ⟨h.head, rfl, h.shouldRun, h.isConnected, h.isOpen, ?_⟩
    intro r hr'
    obtain rfl := Option.some.inj hr'
    exact ⟨hr, fun _ => by simp [Tcp.finished, ha]⟩
  | error code =>
    refine ⟨h.head, rfl, h.shouldRun, h.isConnected, h.isOpen, ?_⟩
    intro r hr'
    obtain rfl := Option.some.inj hr'
    refine ⟨hr, fun hok => ?_⟩
    rw [hok] at hr
    cases hr

/-! ## Steps keep the stage -/

theorem stage_finish {i : Nat} {r : Result} (h : Stage attempts t)
    (hans : Answered attempts t (.io (.finish i r)) u) (hs : t.io (.finish i r) = some u) :
    Stage attempts u := by
  obtain ⟨kind, stamp, hop, -, rfl⟩ := io_finish hs
  obtain ⟨op, hop', endpointIter, hk, hr⟩ := hans
  obtain rfl : op = ⟨kind, stamp, none⟩ := Option.some.inj (hop'.symm.trans hop)
  obtain rfl : kind = .connect endpointIter := hk
  rcases h with ⟨a, stamp', result, h⟩ | h
  · rw [h.pending] at hop
    obtain ⟨rfl, he⟩ := singleton_getElem? hop
    obtain ⟨rfl, rfl, rfl⟩ :
        attempts.map Prod.fst = endpointIter ∧ stamp' = stamp ∧ result = none := by
      simpa using he
    rw [attemptOk_first h.head] at hr
    rw [h.pending]
    exact .inl ⟨a, stamp', some r, h.finished hr⟩
  · cases h with
    | connected a rest delimiter stamp' ha hok hp hcon hpeer =>
      rw [hp] at hop
      obtain ⟨-, he⟩ := singleton_getElem? hop
      cases he
    | ignored a rest iter stamp' result ha hfail hp hrun hcon =>
      rw [hp] at hop
      obtain ⟨rfl, -⟩ := singleton_getElem? hop
      rw [hp]
      cases r with
      | ok n => exact .inr (.ignored a rest endpointIter stamp (some (.ok n)) ha hfail rfl hrun hcon)
      | error code =>
        exact .inr (.ignored a rest endpointIter stamp (some (.error code)) ha hfail rfl hrun hcon)
    | ended hfail hp hcon =>
      rw [hp] at hop
      cases hop

theorem stage_run {i : Nat} (h : Stage attempts t) (hs : t.io (.run i) = some u) :
    Stage attempts u := by
  obtain ⟨kind, stamp, r, hop, rfl⟩ := io_run hs
  rcases h with ⟨a, stamp', result, h⟩ | h
  · rw [h.pending] at hop
    obtain ⟨rfl, he⟩ := singleton_getElem? hop
    obtain ⟨rfl, rfl, rfl⟩ :
        .connect (attempts.map Prod.fst) = kind ∧ stamp' = stamp ∧ result = some r := by
      simpa using he
    rw [h.pending]
    exact .inr h.handled
  · cases h with
    | connected a rest delimiter stamp' ha hok hp hcon hpeer =>
      rw [hp] at hop
      obtain ⟨-, he⟩ := singleton_getElem? hop
      cases he
    | ignored a rest iter stamp' result ha hfail hp hrun hcon =>
      rw [hp] at hop
      obtain ⟨rfl, he⟩ := singleton_getElem? hop
      obtain ⟨rfl, rfl, rfl⟩ : .connect iter = kind ∧ stamp' = stamp ∧ result = some r := by
        simpa using he
      refine .inr (.ended (by simpa [ha] using hfail) ?_ ?_)
      · simp [handle, handleConnect, hrun, hp]
      · simpa [handle, handleConnect, hrun] using hcon
    | ended hfail hp hcon =>
      rw [hp] at hop
      cases hop

theorem stage_step : Keeps step (Answered attempts) (Stage attempts) := by
  intro t e u h hans hs
  cases e with
  | connect resolve => exact hans.elim
  | disconnect => exact hans.elim
  | applyOptions resolve => exact hans.elim
  | setOptions opts => exact hans.elim
  | write data => exact hans.elim
  | io e =>
    cases e with
    | receive i data => exact hans.elim
    | finish i r => exact stage_finish h hans hs
    | run i => exact stage_run h hs

/-! ## The attempts come to an end -/

theorem run_reaches {endpointIter : List Endpoint} {stamp : Nat} {r : Result}
    (hp : t.pending = [⟨.connect endpointIter, stamp, some r⟩]) :
    Reaches step (Answered attempts) t ({ t with pending := [] }.handleConnect r endpointIter) := by
  have hs : step t (.io (.run 0)) =
      some ({ t with pending := [] }.handleConnect r endpointIter) := by
    simp [step, io, hp, handle]
  exact .head hs ⟨_, by rw [hp]; rfl, rfl⟩ (.refl _ _)

/-- An attempt in flight finishes as assigned. -/
theorem finish_reaches (attempts : Attempts) {endpointIter : List Endpoint} {stamp : Nat}
    (hp : t.pending = [⟨.connect endpointIter, stamp, none⟩]) :
    ∃ r : Result, r.isOk = attemptOk attempts endpointIter ∧
      Reaches step (Answered attempts) t
        ({ t with pending := [⟨.connect endpointIter, stamp, some r⟩] }.finished
          (.connect endpointIter) r) := by
  obtain ⟨r, hr⟩ : ∃ r : Result, r.isOk = attemptOk attempts endpointIter := by
    cases attemptOk attempts endpointIter with
    | true => exact ⟨.ok 0, rfl⟩
    | false => exact ⟨.error .failed, rfl⟩
  have hs : step t (.io (.finish 0 r)) =
      some ({ t with pending := [⟨.connect endpointIter, stamp, some r⟩] }.finished
        (.connect endpointIter) r) := by
    simp [step, io, hp, mayFinish]
  exact ⟨r, hr, .head hs ⟨_, by rw [hp]; rfl, endpointIter, rfl, hr⟩ (.refl _ _)⟩

theorem Decided.settles (h : Decided attempts t) :
    ∃ u, Reaches step (Answered attempts) t u ∧ Settled u := by
  cases h with
  | ended hfail hp hcon => exact ⟨t, .refl _ t, by simp [Settled, hp]⟩
  | connected a rest delimiter stamp ha hok hp hcon hpeer =>
    exact ⟨t, .refl _ t, by simp [Settled, hp, TcpOp.isConnect]⟩
  | ignored a rest iter stamp result ha hfail hp hrun hcon =>
    cases result with
    | some r => exact ⟨_, run_reaches hp, by simp [Settled, handleConnect, hrun]⟩
    | none =>
      obtain ⟨r, -, hv⟩ := finish_reaches attempts hp
      cases r with
      | ok n => exact ⟨_, hv.trans (run_reaches rfl), by simp [Settled, handleConnect, finished, hrun]⟩
      | error code =>
        exact ⟨_, hv.trans (run_reaches rfl), by simp [Settled, handleConnect, finished, hrun]⟩

theorem First.settles {a : Endpoint × Bool} {stamp : Nat} {r : Result}
    (h : First attempts a stamp (some r) t) :
    ∃ u, Reaches step (Answered attempts) t u ∧ Settled u := by
  obtain ⟨u, hu, hsu⟩ := h.handled.settles
  exact ⟨u, (run_reaches h.pending).trans hu, hsu⟩

theorem Stage.settles (h : Stage attempts t) :
    ∃ u, Reaches step (Answered attempts) t u ∧ Settled u := by
  rcases h with ⟨a, stamp, result, h⟩ | h
  · cases result with
    | some r => exact h.settles
    | none =>
      obtain ⟨r, hr, hv⟩ := finish_reaches attempts h.pending
      rw [attemptOk_first h.head] at hr
      obtain ⟨u, hu, hsu⟩ := (h.finished hr).settles
      exact ⟨u, hv.trans hu, hsu⟩
  · exact h.settles

/-- Where the attempts have settled, the object is connected to the first
endpoint, or the attempt on it failed and nothing is connected. -/
theorem Stage.settled (h : Stage attempts t) (hs : Settled t) :
    (∃ a, attempts.head? = some a ∧ a.2 = true ∧ t.isConnected = true ∧
      readsOutstanding t = 1 ∧ t.socket_.peer = some a.1) ∨
    ((∀ a ∈ attempts.head?, a.2 = false) ∧ t.isConnected = false) := by
  rcases h with ⟨a, stamp, result, h⟩ | h
  · simp [Settled, h.pending, TcpOp.isConnect] at hs
  · cases h with
    | ended hfail hp hcon => exact .inr ⟨hfail, isConnected_of_flag hcon⟩
    | connected a rest delimiter stamp ha hok hp hcon hpeer =>
      exact .inl ⟨a, by simp [ha], hok, hcon, by simp [readsOutstanding, hp, TcpOp.isRead], hpeer⟩
    | ignored a rest iter stamp result ha hfail hp hrun hcon =>
      simp [Settled, hp, TcpOp.isConnect] at hs

/-- `connect()` on an object with nothing outstanding fails over as it should
exactly when the first endpoint can be connected to or none can. -/
theorem endsFailedOver_iff {identifier : Bytes} {s : Tcp}
    (hs : Reaches step anyStep (initial identifier) s) (hp : s.pending = [])
    (attempts : Attempts) {resolve : Resolver}
    (hr : resolve (resolverQuery s.options_).1 (resolverQuery s.options_).2 =
      .ok (attempts.map Prod.fst)) :
    EndsFailedOver attempts (s.connect resolve).state ↔
      ((∃ a ∈ attempts, a.2 = true) → ∃ a ∈ attempts.head?, a.2 = true) := by
  have hstage := stage_connect (coherent_of_reaches hs) hp hr
  constructor
  · rintro ⟨⟨u, hu, hsu⟩, hall⟩ hsome
    rcases (stage_step.reaches hstage hu).settled hsu with ⟨a, ha, hok, -⟩ | ⟨-, hcon⟩
    · exact ⟨a, ha, hok⟩
    · have hcon' := ((hall u hu hsu).1.mpr hsome).1
      rw [hcon] at hcon'
      cases hcon'
  · intro hfirst
    refine ⟨hstage.settles, fun u hu hsu => ?_⟩
    rcases (stage_step.reaches hstage hu).settled hsu with ⟨a, ha, hok, hcon, hread, hpeer⟩ | ⟨hfail, hcon⟩
    · obtain ⟨rest, rfl⟩ := List.head?_eq_some_iff.mp ha
      refine ⟨⟨fun _ => ⟨a, List.mem_cons_self, hok⟩, fun _ => ⟨hcon, hread⟩⟩, fun _ => ?_⟩
      simpa [List.find?_cons, hok] using hpeer
    · refine ⟨⟨fun h => ?_, fun hsome => ?_⟩, fun h => ?_⟩
      · rw [hcon] at h
        cases h.1
      · obtain ⟨a, ha, hok⟩ := hfirst hsome
        rw [hfail a ha] at hok
        cases hok
      · rw [hcon] at h
        cases h

/-- Two addresses of one name: no route leads to the first, on the second a server listens. -/
def kUnroutable : Endpoint := ⟨text "192.0.2.1", 4001⟩
def kListening : Endpoint := ⟨text "127.0.0.1", 4001⟩

theorem endsFailedOver_first_succeeds :
    EndsFailedOver [(kListening, true), (kUnroutable, false)]
      ((initial []).connect fun _ _ => .ok [kListening, kUnroutable]).state :=
  (endsFailedOver_iff (.refl _ (initial [])) rfl [(kListening, true), (kUnroutable, false)] rfl).mpr
    fun _ => ⟨(kListening, true), rfl, rfl⟩

/-- A peer that listens on the second address of its name only is never connected to. -/
theorem not_endsFailedOver_unroutable :
    ¬ EndsFailedOver [(kUnroutable, false), (kListening, true)]
      ((initial []).connect fun _ _ => .ok [kUnroutable, kListening]).state := by
  intro h
  obtain ⟨-, hall⟩ := h
  have hrun : Reaches step (Answered [(kUnroutable, false), (kListening, true)])
      ((initial []).connect fun _ _ => .ok [kUnroutable, kListening]).state
      { (initial []) with
        endpoints_ := [kUnroutable, kListening], shouldRun_ := false, calls := 2
        socket_ := ⟨true, some kListening⟩ } := by
    refine .head (e := .io (.finish 0 (.error .failed))) rfl ⟨_, rfl, _, rfl, by decide⟩ ?_
    refine .head (e := .io (.run 0)) rfl ⟨_, rfl, rfl⟩ ?_
    refine .head (e := .io (.finish 0 (.ok 0))) rfl ⟨_, rfl, _, rfl, by decide⟩ ?_
    refine .head (e := .io (.run 0)) rfl ⟨_, rfl, rfl⟩ ?_
    exact .refl _ _
  have hcon := ((hall _ hrun rfl).1.mpr ⟨(kListening, true), by simp, rfl⟩).1
  cases hcon

end DeviceTester.Connection.Tcp

import DeviceTester.Gui.ConnectionSettings
import DeviceTester.Gui.ConnectionTest
import DeviceTester.Gui.DeviceManager

/-!
# `gui::DeviceCreate`

The modal in which a connection is described, tested and added. A test runs on its own thread
while the modal is drawn frame by frame, and each frame looks at its future.
-/
namespace DeviceTester.Gui

open DeviceTester.Connection DeviceTester.Config DeviceTester.Lib

inductive DeviceInterface where
  | serial
  | tcp
  | udp
  | count
  deriving DecidableEq, Repr

/-- `static_cast<DeviceInterface>(i)` in the combo box. -/
def DeviceInterface.ofIndex : Fin 3 → DeviceInterface
  | 0 => .serial
  | 1 => .tcp
  | 2 => .udp

/-- `progress` is the number of the test that a valid future belongs to. -/
structure ConnectionCheck where
  inProgress : Bool
  progress : Option Nat
  result : Bool × Bytes × Bytes

/-- The modal. `deviceManager_` and `tests` are the two sides of its device manager. `thrown`
says that an exception has left `draw()`: nobody catches it. -/
structure DeviceCreate where
  deviceManager_ : DeviceManager
  tests : ConnectionTests
  inputName_ : Bytes
  deviceInterface_ : DeviceInterface
  serialInput_ : SerialOptions
  tcpInput_ : TcpOptions
  udpInput_ : UdpOptions
  connectionCheck_ : ConnectionCheck
  errorMsg_ : Bytes
  successMsg_ : Bytes
  thrown : Bool

namespace DeviceCreate

/-- A click presses one button. The one that tests comes with what the `rx_buffer_` of a new
`Serial` happens to hold, the one that adds with the answers of the outside world. -/
inductive Click where
  | test (rx : Bytes)
  | add (json : JsonText) (a : Answers)

/-- What the user does in one frame. -/
structure ModalFrame where
  name : Option Bytes
  interface : Option (Fin 3)
  serialInput : SerialInput
  tcpInput : TcpInput
  udpInput : UdpInput
  click : Option Click

def clearInputs (m : DeviceCreate) : DeviceCreate :=
  { m with
    deviceInterface_ := .serial
    inputName_ := []
    serialInput_ := .withIdentifier []
    tcpInput_ := .withIdentifier []
    udpInput_ := .withIdentifier [] }

def syncInputs (m : DeviceCreate) : DeviceCreate :=
  { m with
    serialInput_ := { m.serialInput_ with identifier := m.inputName_ }
    tcpInput_ := { m.tcpInput_ with identifier := m.inputName_ }
    udpInput_ := { m.udpInput_ with identifier := m.inputName_ } }

/-- The constructor. -/
def initial (deviceManager : DeviceManager) : DeviceCreate where
  deviceManager_ := deviceManager
  tests := .initial
  inputName_ := []
  deviceInterface_ := .serial
  serialInput_ := .withIdentifier []
  tcpInput_ := .withIdentifier []
  udpInput_ := .withIdentifier []
  connectionCheck_ := ⟨false, none, false, [], []⟩
  errorMsg_ := []
  successMsg_ := []
  thrown := false

/-- The call of `device_manager_` that the interface asks for, if there is one. -/
def chosen (m : DeviceCreate) : Option AnyOptions :=
  match m.deviceInterface_ with
  | .serial => some (.serial m.serialInput_)
  | .tcp => some (.tcp m.tcpInput_)
  | .udp => some (.udp m.udpInput_)
  | .count => none

/-- What is returned, or thrown out of the recents file. -/
def addConnection (json : JsonText) (a : Answers) (m : DeviceCreate) :
    Except Failure Bool × DeviceCreate :=
  let m := { m with successMsg_ := [] }
  match m.chosen with
  | none => (.ok false, { m with errorMsg_ := text "Connection not supported." })
  | some opts =>
      let (added, deviceManager) := m.deviceManager_.add json a opts true
      let m := { m with deviceManager_ := deviceManager }
      match added with
      | .error e => (.error e, m)
      | .ok (true, _) => (.ok true, m)
      | .ok (false, message) => (.ok false, { m with errorMsg_ := message })

/-- The future of the test that is started last is the one that the modal keeps. -/
def startTest (tests : ConnectionTests) (m : DeviceCreate) : DeviceCreate :=
  { m with
    tests := tests
    connectionCheck_ :=
      { m.connectionCheck_ with inProgress := true, progress := some m.tests.ended.length } }

def checkConnection (rx : Bytes) (m : DeviceCreate) : DeviceCreate :=
  match m.deviceInterface_ with
  | .serial => m.startTest (m.tests.testSerialConnection rx m.serialInput_)
  | .tcp => m.startTest (m.tests.testTcpConnection m.tcpInput_)
  | .udp => { m with errorMsg_ := text "Connection check not available for udp" }
  | .count => { m with errorMsg_ := text "Connection not supported" }

/-- What `get()` returns is shown. -/
def store (result : Bool × Bytes × Bytes) (m : DeviceCreate) : DeviceCreate :=
  { m with
    connectionCheck_ := ⟨false, none, result⟩
    errorMsg_ := if !result.1 then result.2.1 else []
    successMsg_ := if !result.1 then [] else result.2.1 }

/-- `get()` leaves the future invalid, whether it returns or throws. -/
def testConnectionInProg (m : DeviceCreate) : Except Bytes Bool × DeviceCreate :=
  match m.connectionCheck_.inProgress, m.connectionCheck_.progress with
  | true, some n =>
      match m.tests.ended[n]? with
      | none => (.ok true, m)
      | some d =>
          match d.outcome with
          | .error what =>
              (.error what,
                { m with connectionCheck_ := { m.connectionCheck_ with progress := none } })
          | .ok result => (.ok false, m.store result)
  | true, none => (.ok true, m)
  | false, _ => (.ok false, m)

/-- The widgets above the buttons. -/
def drawInputs (f : ModalFrame) (m : DeviceCreate) : DeviceCreate :=
  let m := { m with
    inputName_ := f.name.getD m.inputName_
    deviceInterface_ := (f.interface.map DeviceInterface.ofIndex).getD m.deviceInterface_ }
  match m.deviceInterface_ with
  | .serial => { m with serialInput_ := drawSerialOptions f.serialInput m.serialInput_ }
  | .tcp => { m with tcpInput_ := drawTcpOptions f.tcpInput m.tcpInput_ }
  | .udp => { m with udpInput_ := drawUdpOptions f.udpInput m.udpInput_ }
  | .count => m

/-- The buttons, while no test is in progress. -/
def drawButtons (click : Option Click) (m : DeviceCreate) : DeviceCreate :=
  match click with
  | none => m
  | some (.test rx) => m.syncInputs.checkConnection rx
  | some (.add json a) =>
      if m.inputName_ = [] then m
      else
        match m.syncInputs.addConnection json a with
        | (.error _, m) => { m with thrown := true }
        | (.ok true, m) => m.clearInputs
        | (.ok false, m) => m

def drawContent (f : ModalFrame) (m : DeviceCreate) : DeviceCreate :=
  match (m.drawInputs f).testConnectionInProg with
  | (.error _, m) => { m with thrown := true }
  | (.ok inProg, m) => if inProg then m else m.drawButtons f.click

inductive Event where
  | frame (f : ModalFrame)
  /-- The thread of the test, and the io thread. -/
  | test (e : ConnectionTests.Event)

/-- The tests are started by the modal alone. -/
def step (m : DeviceCreate) : Event → Option DeviceCreate
  | .frame f => if m.thrown then none else some (m.drawContent f)
  | .test e =>
      if m.thrown || e.isStart then none
      else (m.tests.step e).map fun tests => { m with tests }

/-! ## What a poll does -/

section Polls

variable {m : DeviceCreate} {n : Nat} {d : Ended}

theorem poll_idle (h : m.connectionCheck_.inProgress = false) :
    m.testConnectionInProg = (.ok false, m) := by
  simp [testConnectionInProg, h]

theorem poll_taken (h : m.connectionCheck_.inProgress = true)
    (hp : m.connectionCheck_.progress = none) : m.testConnectionInProg = (.ok true, m) := by
  simp [testConnectionInProg, h, hp]

theorem poll_pending (h : m.connectionCheck_.inProgress = true)
    (hp : m.connectionCheck_.progress = some n) (hd : m.tests.ended[n]? = none) :
    m.testConnectionInProg = (.ok true, m) := by
  simp [testConnectionInProg, h, hp, hd]

theorem poll_failed {what : Bytes} (h : m.connectionCheck_.inProgress = true)
    (hp : m.connectionCheck_.progress = some n) (hd : m.tests.ended[n]? = some d)
    (ho : d.outcome = .error what) :
    m.testConnectionInProg =
      (.error what, { m with connectionCheck_ := { m.connectionCheck_ with progress := none } }) := by
  simp [testConnectionInProg, h, hp, hd, ho]

theorem poll_done {result : Bool × Bytes × Bytes} (h : m.connectionCheck_.inProgress = true)
    (hp : m.connectionCheck_.progress = some n) (hd : m.tests.ended[n]? = some d)
    (ho : d.outcome = .ok result) : m.testConnectionInProg = (.ok false, m.store result) := by
  simp [testConnectionInProg, h, hp, hd, ho]

end Polls

/-! ## The parts of a frame leave the test alone -/

/-- What the progress of a test depends on. -/
structure SameTest (m m' : DeviceCreate) : Prop where
  check : m'.connectionCheck_ = m.connectionCheck_
  tests : m'.tests = m.tests

variable {m m' : DeviceCreate}

theorem sameTest_drawInputs (f : ModalFrame) (m : DeviceCreate) :
    SameTest m (m.drawInputs f) ∧ (m.drawInputs f).thrown = m.thrown := by
  unfold drawInputs
  dsimp only
  split <;> exact ⟨⟨rfl, rfl⟩, rfl⟩

theorem sameTest_addConnection (json : JsonText) (a : Answers) (m : DeviceCreate) :
    SameTest m (m.addConnection json a).2 := by
  unfold addConnection
  dsimp only
  split
  · exact ⟨rfl, rfl⟩
  · split <;> exact ⟨rfl, rfl⟩

theorem sameTest_add (json : JsonText) (a : Answers) (m : DeviceCreate) :
    SameTest m (m.drawButtons (some (.add json a))) := by
  have hadd := sameTest_addConnection json a m.syncInputs
  unfold drawButtons
  dsimp only
  split
  · exact ⟨rfl, rfl⟩
  · split
    · rename_i e m' heq
      rw [heq] at hadd
      exact ⟨hadd.check, hadd.tests⟩
    · rename_i m' heq
      rw [heq] at hadd
      exact ⟨hadd.check, hadd.tests⟩
    · rename_i m' heq
      rw [heq] at hadd
      exact ⟨hadd.check, hadd.tests⟩

/-! ## Completion -/

/-- Once the future is ready, `testConnectionInProg()` returns `false`, ends the progress, stores
the result and leaves the one message set that its flag asks for. -/
def Polls (m : DeviceCreate) : Prop :=
  ∀ n d, m.connectionCheck_.inProgress = true → m.connectionCheck_.progress = some n →
    m.tests.ended[n]? = some d →
    ∃ result m', d.outcome = .ok result ∧ m.testConnectionInProg = (.ok false, m') ∧
      m'.connectionCheck_.inProgress = false ∧ m'.connectionCheck_.result = result ∧
      m'.errorMsg_ = (if result.1 then [] else result.2.1) ∧
      m'.successMsg_ = (if result.1 then result.2.1 else [])

/-- A statement of the thread of the test. -/
def isThread : ConnectionTests.Event → Bool
  | .connectSerial _ _ => true
  | .connectTcp _ => true
  | .proceed => true
  | _ => false

/-- A frame in which the user does nothing. -/
def blankFrame : ModalFrame where
  name := none
  interface := none
  serialInput := ⟨none, none, none, none, none, none⟩
  tcpInput := ⟨none, none, none⟩
  udpInput := ⟨none, none, none, none⟩
  click := none

/-- The modal is out of progress some time if the thread goes on, whatever its calls come to, and
the modal is drawn. -/
inductive Clears : DeviceCreate → Prop where
  | idle {m : DeviceCreate} (h : m.connectionCheck_.inProgress = false) : Clears m
  | drawn {m m' : DeviceCreate} (hs : m.step (.frame blankFrame) = some m') (h : Clears m') :
      Clears m
  | ran {m m' : DeviceCreate} (x : ConnectionTests.Event) (hx : isThread x = true)
      (hs : m.step (.test x) = some m')
      (h : ∀ x m', isThread x = true → m.step (.test x) = some m' → Clears m') : Clears m

structure Completes (m : DeviceCreate) (e : Event) (m' : DeviceCreate) : Prop where
  polls : ∀ f, e = .frame f → Polls (m.drawInputs f)
  clears : Clears m'

/-- No test is started with the serial interface. -/
def NoSerialTest (m : DeviceCreate) (e : Event) (_ : DeviceCreate) : Prop :=
  ∀ f rx, e = .frame f → f.click = some (.test rx) → m.tests.running = none →
    (m.drawInputs f).deviceInterface_ ≠ .serial

/-- Where the modal is when only tcp tests have been started. -/
inductive Served (m : DeviceCreate) : Prop where
  | idle (hc : m.connectionCheck_.inProgress = false) (hr : m.tests.running = none)
  | pending (r : Running) (t : Tcp) (hc : m.connectionCheck_.inProgress = true)
      (ht : m.thrown = false) (hp : m.connectionCheck_.progress = some m.tests.ended.length)
      (hr : m.tests.running = some r) (hcon : r.connection = .tcp t)
  | done (n : Nat) (d : Ended) (result : Bool × Bytes × Bytes)
      (hc : m.connectionCheck_.inProgress = true) (ht : m.thrown = false)
      (hp : m.connectionCheck_.progress = some n) (hd : m.tests.ended[n]? = some d)
      (ho : d.outcome = .ok result) (hr : m.tests.running = none)

/-- Where the modal is from the start of a serial test on. -/
inductive Stuck (m : DeviceCreate) : Prop where
  | running (r : Running) (s : Serial) (hc : m.connectionCheck_.inProgress = true)
      (hp : m.connectionCheck_.progress = some m.tests.ended.length)
      (hr : m.tests.running = some r) (hcon : r.connection = .serial s) (hs : r.stage = .connect)
  | failed (n : Nat) (d : Ended) (what : Bytes) (hc : m.connectionCheck_.inProgress = true)
      (hp : m.connectionCheck_.progress = some n) (hd : m.tests.ended[n]? = some d)
      (ho : d.outcome = .error what)
  | taken (hc : m.connectionCheck_.inProgress = true) (hp : m.connectionCheck_.progress = none)

theorem Stuck.inProgress (h : Stuck m) : m.connectionCheck_.inProgress = true := by
  cases h with
  | running r s hc => exact hc
  | failed n d what hc => exact hc
  | taken hc => exact hc

theorem Stuck.congr (h : Stuck m) (hsame : SameTest m m') : Stuck m' := by
  obtain ⟨hcheck, htests⟩ := hsame
  cases h with
  | running r s hc hp hr hcon hs =>
    refine .running r s ?_ ?_ ?_ hcon hs
    · rw [hcheck, hc]
    · rw [hcheck, htests, hp]
    · rw [htests, hr]
  | failed n d what hc hp hd ho =>
    refine .failed n d what ?_ ?_ ?_ ho
    · rw [hcheck, hc]
    · rw [hcheck, hp]
    · rw [htests, hd]
  | taken hc hp =>
    refine .taken ?_ ?_
    · rw [hcheck, hc]
    · rw [hcheck, hp]

theorem Served.congr (h : Served m) (hsame : SameTest m m') (ht : m'.thrown = m.thrown) :
    Served m' := by
  obtain ⟨hcheck, htests⟩ := hsame
  cases h with
  | idle hc hr =>
    refine .idle ?_ ?_
    · rw [hcheck, hc]
    · rw [htests, hr]
  | pending r t hc hthrown hp hr hcon =>
    refine .pending r t ?_ (ht.trans hthrown) ?_ ?_ hcon
    · rw [hcheck, hc]
    · rw [hcheck, htests, hp]
    · rw [htests, hr]
  | done n d result hc hthrown hp hd ho hr =>
    refine .done n d result ?_ (ht.trans hthrown) ?_ ?_ ho ?_
    · rw [hcheck, hc]
    · rw [hcheck, hp]
    · rw [htests, hd]
    · rw [htests, hr]

/-! ## The steps of the threads -/

section Threads

variable {tests tests' : ConnectionTests} {x : ConnectionTests.Event}

/-- What the future of a test that has ended holds does not change. -/
theorem outcome_step {n : Nat} {d : Ended} (hs : tests.step x = some tests')
    (hd : tests.ended[n]? = some d) :
    ∃ d', tests'.ended[n]? = some d' ∧ d'.outcome = d.outcome := by
  have happend (d' : Ended) : (tests.ended ++ [d'])[n]? = some d := by
    rw [List.getElem?_append_left (List.getElem?_eq_some_iff.mp hd).1]
    exact hd
  cases x with
  | testSerial rx opts =>
    obtain ⟨-, rfl⟩ := ConnectionTests.testSerial_cases hs
    exact ⟨d, hd, rfl⟩
  | testTcp opts =>
    obtain ⟨-, rfl⟩ := ConnectionTests.testTcp_cases hs
    exact ⟨d, hd, rfl⟩
  | connectSerial device depth =>
    obtain ⟨s, target, received, u, what, -, -, rfl⟩ := ConnectionTests.connectSerial_cases hs
    exact ⟨d, happend _, rfl⟩
  | connectTcp resolve =>
    obtain ⟨t, target, received, stage, -, -, rfl⟩ := ConnectionTests.connectTcp_cases hs
    exact ⟨d, hd, rfl⟩
  | proceed =>
    obtain ⟨r, -, hcase⟩ := ConnectionTests.proceed_cases hs
    rcases hcase with ⟨c, stage, -, -, -, rfl⟩ | ⟨ok, message, -, rfl⟩
    · exact ⟨d, hd, rfl⟩
    · exact ⟨d, happend _, rfl⟩
  | io x =>
    obtain ⟨r, c, -, -, rfl⟩ := ConnectionTests.io_cases hs
    exact ⟨d, hd, rfl⟩
  | ioEnded i x =>
    obtain ⟨d₀, c, hd₀, -, rfl⟩ := ConnectionTests.ioEnded_cases hs
    show ∃ d', (tests.ended.set i _)[n]? = some d' ∧ _
    rw [List.getElem?_set]
    split
    · rename_i hi
      subst hi
      obtain rfl : d₀ = d := Option.some.inj (hd₀.symm.trans hd)
      rw [if_pos (List.getElem?_eq_some_iff.mp hd).1]
      exact ⟨_, rfl, rfl⟩
    · exact ⟨d, hd, rfl⟩

/-- Without a test under way only the io thread can do something. -/
theorem idle_step (hr : tests.running = none) (hx : x.isStart = false)
    (hs : tests.step x = some tests') : tests'.running = none ∧ isThread x = false := by
  cases x with
  | testSerial rx opts => cases hx
  | testTcp opts => cases hx
  | connectSerial device depth =>
    obtain ⟨s, target, received, u, what, hr', -, -⟩ := ConnectionTests.connectSerial_cases hs
    cases hr.symm.trans hr'
  | connectTcp resolve =>
    obtain ⟨t, target, received, stage, hr', -, -⟩ := ConnectionTests.connectTcp_cases hs
    cases hr.symm.trans hr'
  | proceed =>
    obtain ⟨r, hr', -⟩ := ConnectionTests.proceed_cases hs
    cases hr.symm.trans hr'
  | io x =>
    obtain ⟨r, c, hr', -, -⟩ := ConnectionTests.io_cases hs
    cases hr.symm.trans hr'
  | ioEnded i x =>
    obtain ⟨d, c, -, -, rfl⟩ := ConnectionTests.ioEnded_cases hs
    exact ⟨hr, rfl⟩

/-- A tcp test that is under way goes on, nearer to its end when its thread moves, or has ended
with a tuple. -/
theorem tcp_step {r : Running} {t : Tcp} (hr : tests.running = some r) (hcon : r.connection = .tcp t)
    (hx : x.isStart = false) (hs : tests.step x = some tests') :
    (∃ r' t', tests'.running = some r' ∧ r'.connection = .tcp t' ∧
        tests'.ended.length = tests.ended.length ∧
        (isThread x = true → r'.stage.left < r.stage.left)) ∨
      (tests'.running = none ∧
        ∃ d result, tests'.ended[tests.ended.length]? = some d ∧ d.outcome = .ok result) := by
  cases x with
  | testSerial rx opts => cases hx
  | testTcp opts => cases hx
  | connectSerial device depth =>
    obtain ⟨s, target, received, u, what, hr', -, -⟩ := ConnectionTests.connectSerial_cases hs
    obtain rfl : r = _ := Option.some.inj (hr.symm.trans hr')
    cases hcon
  | connectTcp resolve =>
    obtain ⟨t', target, received, stage, hr', hleft, rfl⟩ := ConnectionTests.connectTcp_cases hs
    obtain rfl : r = _ := Option.some.inj (hr.symm.trans hr')
    exact .inl ⟨_, _, rfl, rfl, rfl, fun _ => hleft⟩
  | proceed =>
    obtain ⟨r', hr', hcase⟩ := ConnectionTests.proceed_cases hs
    obtain rfl : r = r' := Option.some.inj (hr.symm.trans hr')
    rcases hcase with ⟨c, stage, hc, hleft, -, rfl⟩ | ⟨ok, message, -, rfl⟩
    · have htcp : ∃ t', c = .tcp t' := by
        rw [hcon] at hc
        rcases hc with rfl | rfl
        · exact ⟨t, rfl⟩
        · exact ⟨t.disconnect, rfl⟩
      obtain ⟨t', rfl⟩ := htcp
      exact .inl ⟨_, t', rfl, rfl, rfl, fun _ => hleft⟩
    · exact .inr ⟨rfl, _, _, List.getElem?_concat_length, rfl⟩
  | io x =>
    obtain ⟨r', c, hr', hc, rfl⟩ := ConnectionTests.io_cases hs
    obtain rfl : r = r' := Option.some.inj (hr.symm.trans hr')
    rw [hcon] at hc
    obtain ⟨u, -, rfl⟩ := Option.map_eq_some_iff.mp hc
    exact .inl ⟨_, u, rfl, rfl, rfl, fun h => by cases h⟩
  | ioEnded i x =>
    obtain ⟨d, c, -, -, rfl⟩ := ConnectionTests.ioEnded_cases hs
    exact .inl ⟨r, t, hr, hcon, List.length_set, fun h => by cases h⟩

/-- The thread of a tcp test can always go on. -/
theorem tcp_enabled {r : Running} {t : Tcp} (hr : tests.running = some r)
    (hcon : r.connection = .tcp t) :
    ∃ x tests', isThread x = true ∧ x.isStart = false ∧ tests.step x = some tests' := by
  have hsome (x : ConnectionTests.Event) (hx : isThread x = true) (hstart : x.isStart = false)
      (hs : (tests.step x).isSome = true) :
      ∃ x tests', isThread x = true ∧ x.isStart = false ∧ tests.step x = some tests' := by
    obtain ⟨tests', ht⟩ := Option.isSome_iff_exists.mp hs
    exact ⟨x, tests', hx, hstart, ht⟩
  obtain ⟨connection, target, received, stage⟩ := r
  obtain rfl : connection = .tcp t := hcon
  cases stage with
  | connect =>
    apply hsome (.connectTcp fun _ _ => .error []) rfl rfl
    simp [ConnectionTests.step, ConnectionTests.connectTcp, hr, Tcp.connect]
  | check =>
    apply hsome .proceed rfl rfl
    cases hc : (Tested.tcp t).isConnected <;>
      simp [ConnectionTests.step, ConnectionTests.proceed, hr, hc]
  | disconnect =>
    apply hsome .proceed rfl rfl
    simp [ConnectionTests.step, ConnectionTests.proceed, hr]
  | finish ok message =>
    apply hsome .proceed rfl rfl
    simp [ConnectionTests.step, ConnectionTests.proceed, hr]

/-- A serial test waits in `connect()` until that throws. -/
theorem serial_step {r : Running} {s : Serial} (hr : tests.running = some r)
    (hcon : r.connection = .serial s) (hstage : r.stage = .connect) (hx : x.isStart = false)
    (hs : tests.step x = some tests') :
    (∃ r' s', tests'.running = some r' ∧ r'.connection = .serial s' ∧ r'.stage = .connect ∧
        tests'.ended.length = tests.ended.length) ∨
      ∃ d what, tests'.ended[tests.ended.length]? = some d ∧ d.outcome = .error what := by
  cases x with
  | testSerial rx opts => cases hx
  | testTcp opts => cases hx
  | connectSerial device depth =>
    obtain ⟨s', target, received, u, what, -, -, rfl⟩ := ConnectionTests.connectSerial_cases hs
    exact .inr ⟨_, what, List.getElem?_concat_length, rfl⟩
  | connectTcp resolve =>
    obtain ⟨t, target, received, stage, hr', -, -⟩ := ConnectionTests.connectTcp_cases hs
    obtain rfl : r = _ := Option.some.inj (hr.symm.trans hr')
    cases hcon
  | proceed =>
    obtain ⟨r', hr', hs⟩ := Option.bind_eq_some_iff.mp hs
    obtain rfl : r = r' := Option.some.inj (hr.symm.trans hr')
    rw [hstage] at hs
    cases hs
  | io x =>
    obtain ⟨r', c, hr', hc, rfl⟩ := ConnectionTests.io_cases hs
    obtain rfl : r = r' := Option.some.inj (hr.symm.trans hr')
    rw [hcon] at hc
    obtain ⟨u, -, rfl⟩ := Option.map_eq_some_iff.mp hc
    exact .inl ⟨_, u, rfl, rfl, hstage, rfl⟩
  | ioEnded i x =>
    obtain ⟨d, c, -, -, rfl⟩ := ConnectionTests.ioEnded_cases hs
    exact .inl ⟨r, s, hr, hcon, hstage, List.length_set⟩

end Threads

theorem step_frame {f : ModalFrame} (hs : m.step (.frame f) = some m') :
    m.thrown = false ∧ m' = m.drawContent f := by
  obtain ⟨ht, hm⟩ := Option.ite_none_left_eq_some.mp hs
  exact ⟨Bool.eq_false_iff.mpr ht, (Option.some.inj hm).symm⟩

theorem step_test {x : ConnectionTests.Event} (hs : m.step (.test x) = some m') :
    m.thrown = false ∧ x.isStart = false ∧
      ∃ tests, m.tests.step x = some tests ∧ m' = { m with tests } := by
  obtain ⟨hguard, hm⟩ := Option.ite_none_left_eq_some.mp hs
  rw [Bool.or_eq_true, not_or] at hguard
  obtain ⟨tests, ht, rfl⟩ := Option.map_eq_some_iff.mp hm
  exact ⟨Bool.eq_false_iff.mpr hguard.1, Bool.eq_false_iff.mpr hguard.2, tests, ht, rfl⟩

/-! ## A serial test is never shown -/

theorem stuck_frame (h : Stuck m) (f : ModalFrame) : Stuck (m.drawContent f) := by
  have hsame := (sameTest_drawInputs f m).1
  have hinputs : Stuck (m.drawInputs f) := h.congr hsame
  unfold drawContent
  generalize m.drawInputs f = m₁ at hinputs
  cases hinputs with
  | running r s hc hp hr hcon hs =>
    rw [poll_pending hc hp (List.getElem?_eq_none (Nat.le_refl _))]
    exact .running r s hc hp hr hcon hs
  | failed n d what hc hp hd ho =>
    rw [poll_failed hc hp hd ho]
    exact .taken hc rfl
  | taken hc hp =>
    rw [poll_taken hc hp]
    exact .taken hc hp

theorem stuck_step : Keeps step anyStep Stuck := by
  intro m e m' h _ hs
  cases e with
  | frame f =>
    obtain ⟨-, rfl⟩ := step_frame hs
    exact stuck_frame h f
  | test x =>
    obtain ⟨-, hx, tests, ht, rfl⟩ := step_test hs
    cases h with
    | running r s hc hp hr hcon hstage =>
      rcases serial_step hr hcon hstage hx ht with
        ⟨r', s', hr', hcon', hstage', hlen⟩ | ⟨d, what, hd, ho⟩
      · refine .running r' s' hc ?_ hr' hcon' hstage'
        show m.connectionCheck_.progress = some tests.ended.length
        rw [hlen, hp]
      · exact .failed _ d what hc hp hd ho
    | failed n d what hc hp hd ho =>
      obtain ⟨d', hd', ho'⟩ := outcome_step ht hd
      exact .failed n d' what hc hp hd' (ho'.trans ho)
    | taken hc hp => exact .taken hc hp

/-- The induction is on the way out of progress. -/
theorem Stuck.not_clears (h : Stuck m) : ¬ Clears m := by
  intro hclears
  induction hclears with
  | idle hc =>
    rw [h.inProgress] at hc
    cases hc
  | drawn hs _ ih => exact ih (stuck_step _ _ _ h trivial hs)
  | ran x hx hs _ ih => exact ih x _ hx hs (stuck_step _ _ _ h trivial hs)

/-! ## A tcp test is -/

theorem drawContent_idle {m₁ m₂ : DeviceCreate} {f : ModalFrame} (h₁ : m.drawInputs f = m₁)
    (h : m₁.testConnectionInProg = (.ok false, m₂)) : m.drawContent f = m₂.drawButtons f.click := by
  rw [drawContent, h₁, h]
  rfl

theorem clears_done {n : Nat} {d : Ended} {result : Bool × Bytes × Bytes}
    (hc : m.connectionCheck_.inProgress = true) (ht : m.thrown = false)
    (hp : m.connectionCheck_.progress = some n) (hd : m.tests.ended[n]? = some d)
    (ho : d.outcome = .ok result) : Clears m := by
  obtain ⟨⟨hcheck, htests⟩, -⟩ := sameTest_drawInputs blankFrame m
  have hpoll : (m.drawInputs blankFrame).testConnectionInProg =
      (.ok false, (m.drawInputs blankFrame).store result) := by
    rw [← hcheck] at hc hp
    rw [← htests] at hd
    exact poll_done hc hp hd ho
  have hs : m.step (.frame blankFrame) = some ((m.drawInputs blankFrame).store result) := by
    rw [step, ht, drawContent_idle rfl hpoll]
    rfl
  exact .drawn hs (.idle rfl)

/-- The induction is on the statements that the thread has left. -/
theorem clears_pending {r : Running} {t : Tcp} (hc : m.connectionCheck_.inProgress = true)
    (ht : m.thrown = false) (hp : m.connectionCheck_.progress = some m.tests.ended.length)
    (hr : m.tests.running = some r) (hcon : r.connection = .tcp t) : Clears m := by
  induction hk : r.stage.left using Nat.strong_induction_on generalizing m r t with
  | h k ih =>
    obtain ⟨x, tests, hx, hstart, hx'⟩ := tcp_enabled hr hcon
    have hs : m.step (.test x) = some { m with tests } := by
      simp [step, ht, hstart, hx']
    refine .ran x hx hs fun y m' hy hm' => ?_
    obtain ⟨-, hstart', tests', ht', rfl⟩ := step_test hm'
    rcases tcp_step hr hcon hstart' ht' with ⟨r', t', hr', hcon', hlen, hleft⟩ | ⟨-, d, result, hd, ho⟩
    · have hp' : m.connectionCheck_.progress = some tests'.ended.length := by rw [hlen, hp]
      have hlt : r'.stage.left < k := by
        rw [← hk]
        exact hleft hy
      exact ih r'.stage.left hlt hc ht hp' hr' hcon' rfl
    · exact clears_done (m := { m with tests := tests' }) hc ht hp hd ho

theorem Served.clears (h : Served m) : Clears m := by
  cases h with
  | idle hc hr => exact .idle hc
  | pending r t hc ht hp hr hcon => exact clears_pending hc ht hp hr hcon
  | done n d result hc ht hp hd ho hr => exact clears_done hc ht hp hd ho

theorem Served.polls (h : Served m) : Polls m := by
  intro n d hc hp hd
  cases h with
  | idle hc' hr =>
    rw [hc] at hc'
    cases hc'
  | pending r t _ ht hp' hr hcon =>
    obtain rfl : n = m.tests.ended.length := Option.some.inj (hp.symm.trans hp')
    rw [List.getElem?_eq_none (Nat.le_refl _)] at hd
    cases hd
  | done n' d' result _ ht hp' hd' ho hr =>
    obtain rfl : n = n' := Option.some.inj (hp.symm.trans hp')
    obtain rfl : d = d' := Option.some.inj (hd.symm.trans hd')
    refine ⟨result, m.store result, ho, poll_done hc hp hd ho, rfl, rfl, ?_, ?_⟩
    · cases hok : result.1 <;> simp [store, hok]
    · cases hok : result.1 <;> simp [store, hok]

/-- A frame either finds the test under way, or draws the buttons with none in progress. -/
theorem Served.frame (h : Served m) (ht : m.thrown = false) (f : ModalFrame) :
    (m.tests.running ≠ none ∧ m.drawContent f = m.drawInputs f) ∨
      (m.tests.running = none ∧ ∃ m₂ : DeviceCreate, m₂.connectionCheck_.inProgress = false ∧
        m₂.tests.running = none ∧ m₂.thrown = false ∧
        m₂.deviceInterface_ = (m.drawInputs f).deviceInterface_ ∧
        m.drawContent f = m₂.drawButtons f.click) := by
  obtain ⟨⟨hcheck, htests⟩, hthrown⟩ := sameTest_drawInputs f m
  have ht' : (m.drawInputs f).thrown = false := hthrown.trans ht
  cases h with
  | idle hc hr =>
    rw [← hcheck] at hc
    have hr' : (m.drawInputs f).tests.running = none := by rw [htests, hr]
    exact .inr ⟨hr, _, hc, hr', ht', rfl, drawContent_idle rfl (poll_idle hc)⟩
  | pending r t hc _ hp hr hcon =>
    have hne : m.tests.running ≠ none := by
      rw [hr]
      exact Option.some_ne_none r
    refine .inl ⟨hne, ?_⟩
    rw [← hcheck] at hc hp
    have hd : (m.drawInputs f).tests.ended[m.tests.ended.length]? = none := by
      rw [htests]
      exact List.getElem?_eq_none (Nat.le_refl _)
    rw [drawContent, poll_pending hc hp hd]
    rfl
  | done n d result hc _ hp hd ho hr =>
    rw [← hcheck] at hc hp
    rw [← htests] at hd
    have hr' : ((m.drawInputs f).store result).tests.running = none := by
      show (m.drawInputs f).tests.running = none
      rw [htests, hr]
    exact .inr ⟨hr, _, rfl, hr', ht', rfl, drawContent_idle rfl (poll_done hc hp hd ho)⟩

theorem served_drawButtons {click : Option Click} (hc : m.connectionCheck_.inProgress = false)
    (hr : m.tests.running = none) (ht : m.thrown = false)
    (hne : ∀ rx, click = some (.test rx) → m.deviceInterface_ ≠ .serial) :
    Served (m.drawButtons click) := by
  cases click with
  | none => exact .idle hc hr
  | some click =>
    cases click with
    | add json a =>
      obtain ⟨hcheck, htests⟩ := sameTest_add json a m
      refine .idle ?_ ?_
      · rw [hcheck, hc]
      · rw [htests, hr]
    | test rx =>
      have hne' := hne rx rfl
      show Served (m.syncInputs.checkConnection rx)
      unfold checkConnection
      cases hi : m.deviceInterface_ with
      | serial => exact absurd hi hne'
      | tcp =>
        have hi' : m.syncInputs.deviceInterface_ = .tcp := hi
        rw [hi']
        exact .pending _ _ rfl ht rfl rfl rfl
      | udp =>
        have hi' : m.syncInputs.deviceInterface_ = .udp := hi
        rw [hi']
        exact .idle hc hr
      | count =>
        have hi' : m.syncInputs.deviceInterface_ = .count := hi
        rw [hi']
        exact .idle hc hr

theorem stuck_serialTest (rx : Bytes) (hi : m.deviceInterface_ = .serial) :
    Stuck (m.drawButtons (some (.test rx))) := by
  have hi' : m.syncInputs.deviceInterface_ = .serial := hi
  show Stuck (m.syncInputs.checkConnection rx)
  unfold checkConnection
  rw [hi']
  exact .running _ _ rfl rfl rfl rfl rfl

theorem served_test {x : ConnectionTests.Event} (h : Served m)
    (hs : m.step (.test x) = some m') : Served m' := by
  obtain ⟨ht, hx, tests, htests, rfl⟩ := step_test hs
  cases h with
  | idle hc hr => exact .idle hc (idle_step hr hx htests).1
  | pending r t hc _ hp hr hcon =>
    rcases tcp_step hr hcon hx htests with ⟨r', t', hr', hcon', hlen, -⟩ | ⟨hr', d, result, hd, ho⟩
    · refine .pending r' t' hc ht ?_ hr' hcon'
      show m.connectionCheck_.progress = some tests.ended.length
      rw [hlen, hp]
    · exact .done _ d result hc ht hp hd ho hr'
  | done n d result hc _ hp hd ho hr =>
    obtain ⟨d', hd', ho'⟩ := outcome_step htests hd
    exact .done n d' result hc ht hp hd' (ho'.trans ho) (idle_step hr hx htests).1

theorem served_frame {f : ModalFrame} (h : Served m) (hs : m.step (.frame f) = some m')
    (hn : NoSerialTest m (.frame f) m') : Served m' := by
  obtain ⟨ht, rfl⟩ := step_frame hs
  obtain ⟨hsame, hthrown⟩ := sameTest_drawInputs f m
  rcases h.frame ht f with ⟨-, hdraw⟩ | ⟨hr, m₂, hc, hr₂, ht₂, hi, hdraw⟩
  · rw [hdraw]
    exact h.congr hsame hthrown
  · rw [hdraw]
    apply served_drawButtons hc hr₂ ht₂
    intro rx hclick
    rw [hi]
    exact hn f rx rfl hclick hr

theorem served_step (h : Served m) {e : Event} (hs : m.step e = some m')
    (hn : NoSerialTest m e m') : Served m' := by
  cases e with
  | frame f => exact served_frame h hs hn
  | test x => exact served_test h hs

theorem completes_iff (h : Served m) {e : Event} (hs : m.step e = some m') :
    Completes m e m' ↔ NoSerialTest m e m' := by
  constructor
  · intro hcompletes f rx hf hclick hr hserial
    subst hf
    obtain ⟨ht, rfl⟩ := step_frame hs
    rcases h.frame ht f with ⟨hne, -⟩ | ⟨-, m₂, -, -, -, hi, hdraw⟩
    · exact hne hr
    · have hclears := hcompletes.clears
      rw [hdraw, hclick] at hclears
      exact (stuck_serialTest rx (hi.trans hserial)).not_clears hclears
  · intro hn
    refine ⟨?_, (served_step h hs hn).clears⟩
    intro f hf
    obtain ⟨hsame, hthrown⟩ := sameTest_drawInputs f m
    exact (h.congr hsame hthrown).polls

/-- Every poll of a ready future completes the check, and the modal is never in progress for good,
in exactly the runs that start no test with the serial interface: what `Serial::connect` throws
leaves the routine, and it does not return. -/
theorem checks_complete_iff (deviceManager : DeviceManager) (es : List Event) :
    Along step Completes (initial deviceManager) es ↔
      Along step NoSerialTest (initial deviceManager) es := by
  refine along_iff_of_first (I := Served) ?_ ?_ (.idle rfl rfl) es
  · intro m e m' h hs hcompletes
    exact served_step h hs ((completes_iff h hs).mp hcompletes)
  · intro m e m' h hs
    exact completes_iff h hs

/-- The port of a serial test cannot be opened. -/
def noPortRun : List Event :=
  [.frame { blankFrame with click := some (.test []) },
    .test (.connectSerial (fun _ => some (text "open: No such file or directory")) 1),
    .frame blankFrame]

theorem no_port_throws :
    ¬ Along step Completes (initial (.fresh ⟨none, false⟩ [])) noPortRun ∧
      ∃ m, exec step (initial (.fresh ⟨none, false⟩ [])) noPortRun = some m ∧ m.thrown = true ∧
        m.connectionCheck_.inProgress = true := by
  refine ⟨fun h => ?_, _, rfl, rfl, rfl⟩
  have h₃ := ((h.cons rfl).2.cons rfl).2.cons rfl
  obtain ⟨result, m', ho, -⟩ := h₃.1.polls blankFrame rfl 0 _ rfl rfl rfl
  cases ho

end DeviceCreate

end DeviceTester.Gui

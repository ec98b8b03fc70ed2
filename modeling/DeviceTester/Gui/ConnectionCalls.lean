import DeviceTester.Gui.App
import DeviceTester.Gui.ConnectionTabs

/-!
# What becomes of a connection

Whatever the program does to a connection, from the constructor on, are calls and the steps of
the io thread. What is written to it comes from a window.
-/
namespace DeviceTester.Gui

open DeviceTester.Connection DeviceTester.Config DeviceTester.Lib

/-! ## Calls -/

/-- A property that every public call has. -/
def OfCalls (P : AnyConnection → AnyEvent → AnyConnection → Prop) : Prop :=
  ∀ c e d, e.isIo = false → P c e d

theorem ofCalls_anyStep : OfCalls anyStep := fun _ _ _ _ => trivial

section OfCalls

variable {P : AnyConnection → AnyEvent → AnyConnection → Prop}

theorem OfCalls.serial (hP : OfCalls P) (s : Serial) (e : Serial.Event) (u : Serial)
    (hne : ∀ x, e ≠ .io x) : P (.serial s) (.serial e) (.serial u) := by
  apply hP
  cases e with
  | io x => exact absurd rfl (hne x)
  | _ => rfl

theorem OfCalls.tcp (hP : OfCalls P) (t : Tcp) (e : Tcp.Event) (u : Tcp)
    (hne : ∀ x, e ≠ .io x) : P (.tcp t) (.tcp e) (.tcp u) := by
  apply hP
  cases e with
  | io x => exact absurd rfl (hne x)
  | _ => rfl

theorem OfCalls.udp (hP : OfCalls P) (u : Udp) (e : Udp.Event) (v : Udp)
    (hne : ∀ x, e ≠ .io x) : P (.udp u) (.udp e) (.udp v) := by
  apply hP
  cases e with
  | io x => exact absurd rfl (hne x)
  | _ => rfl

end OfCalls

namespace AnyConnection

/-- What the calls of an event write. -/
def writes : AnyEvent → List Bytes
  | .serial e => Serial.writes e
  | .tcp e => Tcp.writes e
  | .udp e => UdpConnectionWin.writes e

/-- `type()`. -/
def type (c : AnyConnection) : Bytes := c.options.kType

/-- A connection of the class of its options, as the constructor leaves it. -/
def constructed (a : Answers) : AnyOptions → AnyConnection
  | .serial o => .serial (.initial o.identifier a.rx)
  | .tcp o => .tcp (.initial o.identifier)
  | .udp o => .udp (.initial o.identifier a.rx a.receive)

variable {P : AnyConnection → AnyEvent → AnyConnection → Prop} {c d : AnyConnection}
  {l : List Bytes}

theorem call_brings (hP : OfCalls P) {e : AnyEvent} (hio : e.isIo = false)
    (hs : c.step e = some d) : Brings step P writes c d (writes e) := .of_step hs (hP c e d hio)

theorem disconnect_brings (hP : OfCalls P) (c : AnyConnection) :
    Brings step P writes c c.disconnect [] := by
  cases c with
  | serial s => exact call_brings hP (e := .serial .disconnect) rfl rfl
  | tcp t => exact call_brings hP (e := .tcp .disconnect) rfl rfl
  | udp u => exact call_brings hP (e := .udp .disconnect) rfl rfl

/-- Whether the calls that configure a connection return or throw, they are calls. -/
theorem configure_brings (hP : OfCalls P) (a : Answers) (opts : AnyOptions) :
    Brings step P writes (constructed a opts) (DeviceManager.configure a opts).state [] := by
  cases opts with
  | serial o =>
    exact call_brings hP (c := .serial (.initial o.identifier a.rx)) (e := .serial (.setOptions o))
      rfl rfl
  | tcp o =>
    have hset : Brings step P writes (.tcp (.initial o.identifier))
        (.tcp ((Tcp.initial o.identifier).setOptions o)) [] :=
      call_brings hP (e := .tcp (.setOptions o)) rfl rfl
    refine hset.trans (call_brings hP (e := .tcp (.applyOptions a.resolve)) rfl ?_)
    simp only [DeviceManager.configure, DeviceManager.configureTcp]
    show some (AnyConnection.tcp
      (((Tcp.initial o.identifier).setOptions o).applyOptions a.resolve).state) = _
    cases ((Tcp.initial o.identifier).setOptions o).applyOptions a.resolve <;> rfl
  | udp o =>
    have hset : Brings step P writes (.udp (.initial o.identifier a.rx a.receive))
        (.udp ((Udp.initial o.identifier a.rx a.receive).setOptions o)) [] :=
      call_brings hP (e := .udp (.setOptions o)) rfl rfl
    refine hset.trans (call_brings hP (e := .udp (.applyOptions a.calls a.fromString)) rfl ?_)
    simp only [DeviceManager.configure, DeviceManager.configureUdp]
    show some (AnyConnection.udp (((Udp.initial o.identifier a.rx a.receive).setOptions o).applyOptions
      a.calls a.fromString).state) = _
    cases ((Udp.initial o.identifier a.rx a.receive).setOptions o).applyOptions
      a.calls a.fromString <;> rfl

theorem type_step {e : AnyEvent} (h : c.step e = some d) : d.type = c.type := by
  cases c with
  | serial s =>
    cases e with
    | serial e =>
      obtain ⟨u, -, rfl⟩ := Option.map_eq_some_iff.mp h
      rfl
    | _ => cases h
  | tcp t =>
    cases e with
    | tcp e =>
      obtain ⟨u, -, rfl⟩ := Option.map_eq_some_iff.mp h
      rfl
    | _ => cases h
  | udp u =>
    cases e with
    | udp e =>
      obtain ⟨v, -, rfl⟩ := Option.map_eq_some_iff.mp h
      rfl
    | _ => cases h

theorem type_of_brings (h : Brings step P writes c d l) : d.type = c.type := by
  obtain ⟨es, he, -, -⟩ := h
  have hk : Keeps step anyStep fun d => d.type = c.type :=
    fun _ _ _ hd _ hs => (type_step hs).trans hd
  exact hk.exec rfl (along_anyStep _ _) he

/-- A completion writes nothing. -/
theorem writes_of_isIo {e : AnyEvent} (h : e.isIo = true) : writes e = [] := by
  cases e with
  | serial e => cases e <;> first | rfl | cases h
  | tcp e => cases e <;> first | rfl | cases h
  | udp e => cases e <;> first | rfl | cases h

end AnyConnection

/-! ## Places -/

/-- What becomes of the place of an object: one is made there and then called, or the one that is
there is called. -/
inductive Grown (P : AnyConnection → AnyEvent → AnyConnection → Prop) :
    Option Object → Option Object → List Bytes → Prop where
  | absent : Grown P none none []
  | made (a : Answers) (opts : AnyOptions) (o : Object) (lines : List Bytes)
      (hcalls : Brings AnyConnection.step P AnyConnection.writes (.constructed a opts)
        o.connection lines) : Grown P none (some o) lines
  | kept (o o' : Object) (lines : List Bytes)
      (hcalls : Brings AnyConnection.step P AnyConnection.writes o.connection o'.connection lines) :
      Grown P (some o) (some o') lines

/-- The same for the `n`-th object of a manager to which nothing is written. -/
def GrownAt (P : AnyConnection → AnyEvent → AnyConnection → Prop) (n : Nat)
    (m m' : DeviceManager) : Prop :=
  Grown P m.objects[n]? m'.objects[n]? []

section Grown

variable {P : AnyConnection → AnyEvent → AnyConnection → Prop} {json : JsonText} {n : Nat}
  {m m' : DeviceManager}

theorem Grown.refl (P : AnyConnection → AnyEvent → AnyConnection → Prop) (place : Option Object) :
    Grown P place place [] := by
  cases place with
  | none => exact .absent
  | some o => exact .kept o o [] (.refl _)

theorem Grown.trans {first second third : Option Object} {lines lines' : List Bytes}
    (h : Grown P first second lines) (h' : Grown P second third lines') :
    Grown P first third (lines ++ lines') := by
  cases h with
  | absent => exact h'
  | made a opts o _ hcalls =>
    cases h' with
    | kept _ o' _ hcalls' => exact .made a opts o' _ (hcalls.trans hcalls')
  | kept o o' _ hcalls =>
    cases h' with
    | kept _ o'' _ hcalls' => exact .kept o o'' _ (hcalls.trans hcalls')

theorem GrownAt.of_objects (h : m'.objects = m.objects) : GrownAt P n m m' := by
  rw [GrownAt, h]
  exact .refl P _

theorem GrownAt.trans {m'' : DeviceManager} (h : GrownAt P n m m') (h' : GrownAt P n m' m'') :
    GrownAt P n m m'' := Grown.trans h h'

theorem grown_modify {o : Object} (ho : m.objects[n]? = some o) {c : AnyConnection}
    {lines : List Bytes}
    (hcalls : Brings AnyConnection.step P AnyConnection.writes o.connection c lines) :
    Grown P m.objects[n]? (m.objects.modify n fun o => { o with connection := c })[n]? lines := by
  rw [List.getElem?_modify_eq, ho]
  exact .kept o _ lines hcalls

theorem grown_modify_other {k : Nat} (hk : k ≠ n) (f : Object → Object) :
    Grown P m.objects[n]? (m.objects.modify k f)[n]? [] := by
  rw [List.getElem?_modify_ne _ _ hk]
  exact .refl P _

theorem grownAt_add (hP : OfCalls P) (a : Answers) (opts : AnyOptions) (addToRecents : Bool) :
    GrownAt P n m (m.add json a opts addToRecents).2 := by
  have hmade {con : AnyConnection} (hc : (DeviceManager.configure a opts).state = con) :
      Grown P m.objects[n]? (m.objects ++ [⟨con, m.objects.length⟩])[n]? [] := by
    rw [List.getElem?_append]
    split
    · exact .refl P _
    · rename_i hlt
      rw [List.getElem?_eq_none (Nat.le_of_not_lt hlt)]
      cases n - m.objects.length with
      | zero => exact .made a opts _ [] (hc ▸ AnyConnection.configure_brings hP a opts)
      | succ k => exact .absent
  have hcases := DeviceManager.add_cases json a opts addToRecents m
  generalize m.add json a opts addToRecents = r at hcases ⊢
  obtain ⟨added, m'⟩ := r
  cases hcases with
  | inUse hin message => exact .refl P _
  | failed hin con what message hc => exact hmade (by rw [hc]; rfl)
  | threw hin con recents file e hc hadd haccept => exact hmade (by rw [hc]; rfl)
  | added hin con recents file message hc haccept => exact hmade (by rw [hc]; rfl)

theorem grownAt_drawOpenRecent (hP : OfCalls P) (answers : Nat → Answers) (clicked : Nat → Bool) :
    GrownAt P n m (m.drawOpenRecent json answers clicked) :=
  DeviceManager.drawOpenRecent_induction (I := GrownAt P n m)
    (fun _ a opts h => h.trans (grownAt_add hP a opts false)) answers clicked (.of_objects rfl)

theorem grownAt_closeConnection (hP : OfCalls P) (identifier : Bytes) (m : DeviceManager) :
    GrownAt P n m (m.closeConnection identifier) := by
  have hdisconnect (m : DeviceManager) : GrownAt P n m (m.disconnectConnection identifier) := by
    unfold DeviceManager.disconnectConnection GrownAt
    cases m.connections_.lookup identifier with
    | none => exact .refl P _
    | some k =>
      by_cases hk : k = n
      · subst hk
        dsimp only
        rw [List.getElem?_modify_eq]
        cases m.objects[k]? with
        | none => exact .absent
        | some o => exact .kept o _ [] (AnyConnection.disconnect_brings hP o.connection)
      · exact grown_modify_other hk _
  exact hdisconnect (m.eraseWindow identifier)

theorem grownAt_closeConnections (hP : OfCalls P) (identifiers : List Bytes) (m : DeviceManager) :
    GrownAt P n m (m.closeConnections identifiers) := by
  induction identifiers generalizing m with
  | nil => exact .of_objects rfl
  | cons identifier rest ih =>
    exact (grownAt_closeConnection hP identifier m).trans (ih (m.closeConnection identifier))

end Grown

/-! ## The parts of a frame -/

/-- The calls of a window come with its tab. -/
def App.Event.isWindow {json : JsonText} : App.Event json → Bool
  | .window .. => true
  | _ => false

namespace App

variable {P : AnyConnection → AnyEvent → AnyConnection → Prop} {json : JsonText} {n : Nat}
  {a b : App}

/-- What the io thread does to the `n`-th connection has the property. -/
def IoHas (P : AnyConnection → AnyEvent → AnyConnection → Prop) (n : Nat) (a : App)
    (e : Event json) (b : App) : Prop :=
  match e with
  | .io k x =>
      k = n → ∀ o ∈ a.deviceManager_.objects[n]?, ∀ o' ∈ b.deviceManager_.objects[n]?,
        P o.connection x o'.connection
  | _ => True

instance [∀ c x d, Decidable (P c x d)] (a : App) (e : Event json) (b : App) :
    Decidable (IoHas P n a e b) :=
  match e with
  | .io k x => inferInstanceAs (Decidable (k = n → ∀ o ∈ a.deviceManager_.objects[n]?,
      ∀ o' ∈ b.deviceManager_.objects[n]?, P o.connection x o'.connection))
  | .menu _ | .modal _ | .window .. | .test _ | .changeFile _ => isTrue trivial

theorem ioHas_anyStep (n : Nat) (a : App) (e : Event json) (b : App) : IoHas anyStep n a e b := by
  cases e with
  | io k x => exact fun _ _ _ _ _ => trivial
  | _ => trivial

/-- No part of a frame but the windows writes to a connection. -/
theorem grownAt_step (hP : OfCalls P) {e : Event json} (hs : step json a e = some b)
    (hwindow : e.isWindow = false) (hio : IoHas P n a e b) :
    GrownAt P n a.deviceManager_ b.deviceManager_ := by
  obtain ⟨-, hs⟩ := Option.ite_none_left_eq_some.mp hs
  cases e with
  | menu f =>
    obtain ⟨-, hs⟩ := Option.ite_none_left_eq_some.mp hs
    obtain ⟨c, hc, rfl⟩ := Option.map_eq_some_iff.mp hs
    obtain ⟨-, -, hmanager, -⟩ := showMainMenu_cases hc
    show GrownAt P n a.deviceManager_ c.deviceManager_
    rw [hmanager]
    exact (grownAt_drawOpenRecent hP f.answers f.recents).trans
      (grownAt_closeConnections hP f.close _)
  | modal f =>
    obtain ⟨-, hs⟩ := Option.ite_none_right_eq_some.mp hs
    obtain rfl := Option.some.inj hs
    exact drawModal_keeps (I := GrownAt P n a.deviceManager_) f (.of_objects rfl)
      fun answers opts _ => grownAt_add hP answers opts true
  | window identifier calls throws => cases hwindow
  | test x =>
    obtain ⟨m, hm, rfl⟩ := Option.map_eq_some_iff.mp hs
    obtain ⟨-, -, tests, -, rfl⟩ := DeviceCreate.step_test hm
    exact .of_objects rfl
  | io k x =>
    obtain ⟨hx, hs⟩ := Option.ite_none_right_eq_some.mp hs
    obtain ⟨m, hm, rfl⟩ := Option.map_eq_some_iff.mp hs
    obtain ⟨o, c, ho, hexec, rfl⟩ := DeviceManager.callObject_cases hm
    by_cases hk : k = n
    · subst hk
      obtain ⟨d, hd, hdc⟩ := exec_cons_some hexec
      obtain rfl := Option.some.inj hdc
      have hgrown : (a.deviceManager_.objects.modify k fun o => { o with connection := d })[k]? =
          some { o with connection := d } := by
        rw [List.getElem?_modify_eq, ho]
        rfl
      have hbrings : Brings AnyConnection.step P AnyConnection.writes o.connection d
          (AnyConnection.writes x) := .of_step hd (hio rfl o ho _ hgrown)
      rw [AnyConnection.writes_of_isIo hx] at hbrings
      exact grown_modify ho hbrings
    · exact grown_modify_other hk _
  | changeFile file =>
    obtain rfl := Option.some.inj hs
    exact .of_objects rfl

end App

end DeviceTester.Gui

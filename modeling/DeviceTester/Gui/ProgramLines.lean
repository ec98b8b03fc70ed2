import DeviceTester.Gui.Program

/-!
# Windows and connections of the program

The window and the connection that are stored under an identifier belong together, and what is
typed into the window reaches no other connection.
-/
namespace DeviceTester.Gui

open DeviceTester.Connection DeviceTester.Config DeviceTester.Lib

/-! ## What a connection has sent -/

namespace AnyConnection

variable {P : AnyConnection → AnyEvent → AnyConnection → Prop} {c : AnyConnection}
  {lines : List Bytes}

theorem serial_of_brings {s : Serial} (h : Brings step P writes (.serial s) c lines) :
    ∃ u, c = .serial u ∧ Brings Serial.step anyStep Serial.writes s u lines := by
  refine h.unmap serial fun s e b hs _ => ?_
  cases e with
  | serial e =>
    obtain ⟨u, hu, rfl⟩ := Option.map_eq_some_iff.mp hs
    exact ⟨e, u, rfl, hu, trivial, rfl⟩
  | _ => cases hs

theorem tcp_of_brings {t : Tcp} (h : Brings step P writes (.tcp t) c lines) :
    ∃ u, c = .tcp u ∧
      Brings Tcp.step (fun t e u => P (.tcp t) (.tcp e) (.tcp u)) Tcp.writes t u lines := by
  refine h.unmap tcp fun t e b ht hp => ?_
  cases e with
  | tcp e =>
    obtain ⟨u, hu, rfl⟩ := Option.map_eq_some_iff.mp ht
    exact ⟨e, u, rfl, hu, hp, rfl⟩
  | _ => cases ht

theorem udp_of_brings {u : Udp} (h : Brings step P writes (.udp u) c lines) :
    ∃ v, c = .udp v ∧ Brings Udp.step anyStep UdpConnectionWin.writes u v lines := by
  refine h.unmap udp fun u e b hu _ => ?_
  cases e with
  | udp e =>
    obtain ⟨v, hv, rfl⟩ := Option.map_eq_some_iff.mp hu
    exact ⟨e, v, rfl, hv, trivial, rfl⟩
  | _ => cases hu

/-- What a connection sends of the lines that are handed to it: prefixes of them, mixed in some
way, or whole ones in their order. A serial connection sends nothing. -/
def Sends (lines : List Bytes) : AnyConnection → Prop
  | .serial s => s.Idle
  | .tcp t => ∃ parts, List.Forall₂ (· <+: ·) parts lines ∧ Interleaves parts t.wire
  | .udp u => (u.sends.map UdpConnectionWin.payload).Sublist lines

/-- No bytes of a line are dropped. -/
def Lossless : AnyConnection → AnyEvent → AnyConnection → Prop
  | .tcp t, .tcp e, .tcp u => Tcp.Lossless t e u
  | _, _, _ => True

instance (c : AnyConnection) (e : AnyEvent) (d : AnyConnection) : Decidable (Lossless c e d) :=
  match c, e, d with
  | .tcp t, .tcp e, .tcp u => inferInstanceAs (Decidable (Tcp.Lossless t e u))
  | .serial _, _, _ | .udp _, _, _ | .tcp _, .serial _, _ | .tcp _, .udp _, _
  | .tcp _, .tcp _, .serial _ | .tcp _, .tcp _, .udp _ => isTrue trivial

theorem ofCalls_lossless : OfCalls Lossless := by
  intro c e d h
  cases c <;> cases e <;> cases d <;> try trivial
  rename_i t e u
  cases e with
  | io x => cases h
  | _ => trivial

theorem sends_of_brings {a : Answers} {opts : AnyOptions}
    (h : Brings step P writes (constructed a opts) c lines) : c.Sends lines := by
  cases opts with
  | serial o =>
    obtain ⟨u, rfl, hcalls⟩ := serial_of_brings h
    exact SerialConnectionWin.idle_of_brings ⟨rfl, rfl, rfl, rfl⟩ hcalls
  | tcp o =>
    obtain ⟨u, rfl, calls, hexec, -, rfl⟩ := tcp_of_brings h
    obtain ⟨sent, hwire, hparts, -⟩ := exec_interleaves Tcp.unsentRests Tcp.wire Tcp.writes
      (fun t => filled_rests t.pending) (fun _ _ _ h => Tcp.movesBy_step h) rfl hexec
    obtain rfl : u.wire = sent := hwire
    exact hparts
  | udp o =>
    obtain ⟨v, rfl, calls, hexec, -, rfl⟩ := udp_of_brings h
    exact UdpConnectionWin.payloads_exec hexec

/-- Where none are dropped and none are left, all of them have been sent. -/
theorem all_sent {a : Answers} {opts : AnyOptions} {u : Tcp}
    (h : Brings step Lossless writes (constructed a opts) (.tcp u) lines)
    (hrests : u.unsentRests = []) : Interleaves lines u.wire := by
  cases opts with
  | serial o =>
    obtain ⟨_, hc, -⟩ := serial_of_brings h
    cases hc
  | tcp o =>
    obtain ⟨v, hc, calls, hexec, hlossless, rfl⟩ := tcp_of_brings h
    obtain rfl := AnyConnection.tcp.inj hc
    obtain ⟨sent, hwire, -, hall⟩ := exec_interleaves Tcp.unsentRests Tcp.wire Tcp.writes
      (fun t => filled_rests t.pending) (fun _ _ _ h => Tcp.movesBy_step h) rfl hexec
    obtain rfl : u.wire = sent := hwire
    exact hall hlossless hrests
  | udp o =>
    obtain ⟨_, hc, -⟩ := udp_of_brings h
    cases hc

end AnyConnection

theorem AnyWindow.share_of_type {w : AnyWindow} {c : AnyConnection}
    (h : w.connection.type = c.type) : ∃ v, w.share c = some v := by
  have hserial : text "serial" ≠ text "tcp" ∧ text "serial" ≠ text "udp" := by decide
  have hudp : text "tcp" ≠ text "udp" := by decide
  cases w with
  | serial w =>
    cases c with
    | serial s => exact ⟨_, rfl⟩
    | tcp t => exact absurd h hserial.1
    | udp u => exact absurd h hserial.2
  | tcp w =>
    cases c with
    | serial s => exact absurd h.symm hserial.1
    | tcp t => exact ⟨_, rfl⟩
    | udp u => exact absurd h hudp
  | udp w =>
    cases c with
    | serial s => exact absurd h.symm hserial.2
    | tcp t => exact absurd h.symm hudp
    | udp u => exact ⟨_, rfl⟩

namespace Program

variable {json : JsonText} {appendNewLine : Nat → Bool} {p : Program}

/-- In every run of the program that nothing has ended: the window stored under an identifier can
be drawn, it is the one of the connection stored under this identifier, which is the identifier in
the options of the connection, and no other window shares the connection. -/
theorem windows_share_connections (json : JsonText) (appendNewLine : Nat → Bool)
    (file : RecentsFile) (recents : List RecentConnection) (es : List (Event json)) (p : Program)
    (he : exec (step json appendNewLine) (initial file recents) es = some p)
    (hp : p.app.ended = false) (identifier : Bytes)
    (hin : identifier ∈ p.deviceManager_.windows_) :
    ∃ n w, p.windowOf identifier = some (n, w) ∧
      p.deviceManager_.connections_.lookup identifier = some n ∧
      w.connection.identifier = identifier ∧
      ∀ other v, p.windowOf other = some (n, v) → other = identifier := by
  obtain ⟨fs, -, hfs⟩ := app_exec he
  have hkeyed : Teardown.Keyed p.deviceManager_ := App.keyed_exec hfs hp
  have hwindows : p.deviceManager_.windows_ = p.deviceManager_.connections_ :=
    App.keeps_windows.exec (s := App.initial file recents) (fun _ => rfl) (along_anyStep _ _) hfs hp
  have hattached : Attached p :=
    keeps_attached.exec (s := initial file recents) rfl (along_anyStep _ _) he
  obtain ⟨n, hn⟩ := Option.isSome_iff_exists.mp (AList.lookup_isSome.mpr hin)
  obtain ⟨o, ho, hidentifier⟩ := hkeyed.windows identifier n hn
  have htype := congrArg (fun types => types[n]?) hattached
  simp only [List.getElem?_map, ho, Option.map_some] at htype
  obtain ⟨w, hw, htype⟩ := Option.map_eq_some_iff.mp htype
  obtain ⟨v, hv⟩ := AnyWindow.share_of_type htype
  have hfound : p.windowOf identifier = some (n, v) := by
    simp only [windowOf, hn, ho, hw, hv, Option.bind_some, Option.map_some]
  refine ⟨n, v, hfound, hwindows ▸ hn, ?_, fun other v' hother => ?_⟩
  · rw [AnyWindow.connection_share hv, hidentifier]
  · obtain ⟨hlookup, -⟩ := windowOf_cases hother
    exact Teardown.oneKey_of_keyedBy hkeyed.windows hlookup hn

/-- The first recent connection is clicked. -/
def recentFrame : MenuFrame where
  openItem := false
  recents := fun i => i == 0
  answers := fun _ => DeviceManager.kAnswers
  close := []

/-- The popup is closed. -/
def noPopup (json : JsonText) : PopupFrame json where
  cross := false
  cancel := false
  modal := DeviceCreate.blankFrame
  format := fun _ _ h => by cases h

/-- A recent connection is opened, connected and given a line, which is sent in two parts. -/
def recentRun : List (Event noJson) :=
  [.other (.menu recentFrame), .other (.modal (noPopup noJson)),
    .window (text "dev") (.tcp (.overview (some fun _ _ => .ok [⟨text "127.0.0.1", 23⟩]))),
    .other (.io 0 (.tcp (.io (.finish 0 (.ok 0))))), .other (.io 0 (.tcp (.io (.run 0)))),
    .window (text "dev") (.tcp (.rawOutput ⟨some (text "hi"), false, some ()⟩)),
    .other (.io 0 (.tcp (.io (.finish 1 (.ok 2))))), .other (.io 0 (.tcp (.io (.run 1)))),
    .other (.io 0 (.tcp (.io (.finish 1 (.ok 1))))), .other (.io 0 (.tcp (.io (.run 1))))]

def kRecents : List RecentConnection := [⟨text "tcp", .tcp (.withIdentifier (text "dev"))⟩]

set_option maxRecDepth 4000 in
theorem recent_shares_connection :
    ∃ p n w, exec (step noJson fun _ => true) (initial ⟨none, true⟩ kRecents) recentRun = some p ∧
      p.windowOf (text "dev") = some (n, w) ∧ w.connection.identifier = text "dev" := by
  obtain ⟨n, w, hfound, -, hidentifier, -⟩ := windows_share_connections noJson (fun _ => true)
    ⟨none, true⟩ kRecents recentRun _ rfl rfl (text "dev") (by decide)
  exact ⟨_, n, w, rfl, hfound, hidentifier⟩

/-- In every run of the program, whatever is done in its menus, its modal and its windows and
whatever completes: a connection sends only what has been typed into its own window. What a tcp
connection transfers, to all its peers together, are prefixes of these lines, mixed in some way,
and all of them where no bytes are dropped and none is left. The datagrams of a udp connection are
some of the lines, whole and in their order. A serial connection sends nothing. -/
theorem sends_own_lines (json : JsonText) (appendNewLine : Nat → Bool) (file : RecentsFile)
    (recents : List RecentConnection) (es : List (Event json)) (p : Program)
    (he : exec (step json appendNewLine) (initial file recents) es = some p) (n : Nat) (o : Object)
    (ho : p.deviceManager_.objects[n]? = some o) :
    o.connection.Sends (collected (step json appendNewLine) (linesTo n) (initial file recents) es) ∧
      ∀ t, o.connection = .tcp t →
        Along (step json appendNewLine) (IoHas AnyConnection.Lossless n) (initial file recents) es →
        t.unsentRests = [] →
        Interleaves (collected (step json appendNewLine) (linesTo n) (initial file recents) es)
          t.wire := by
  have hmade {P : AnyConnection → AnyEvent → AnyConnection → Prop} (hP : OfCalls P)
      (ha : Along (step json appendNewLine) (IoHas P n) (initial file recents) es) :
      ∃ a opts, Brings AnyConnection.step P AnyConnection.writes (.constructed a opts) o.connection
        (collected (step json appendNewLine) (linesTo n) (initial file recents) es) := by
    have hgrown := grown_exec hP he ha
    rw [ho] at hgrown
    cases hgrown with
    | made a opts _ _ hcalls => exact ⟨a, opts, hcalls⟩
  constructor
  · obtain ⟨a, opts, hcalls⟩ := hmade ofCalls_anyStep
      (along_of_forall (ioHas_anyStep n) _ _)
    exact AnyConnection.sends_of_brings hcalls
  · intro t ht ha hrests
    obtain ⟨a, opts, hcalls⟩ := hmade AnyConnection.ofCalls_lossless ha
    rw [ht] at hcalls
    exact AnyConnection.all_sent hcalls hrests

set_option maxRecDepth 4000 in
theorem recent_line_sent :
    ∃ p o t, exec (step noJson fun _ => true) (initial ⟨none, true⟩ kRecents) recentRun = some p ∧
      p.deviceManager_.objects[0]? = some o ∧ o.connection = .tcp t ∧ t.wire = text "hi\n" ∧
      Interleaves [text "hi\n"] t.wire := by
  obtain ⟨-, hall⟩ := sends_own_lines noJson (fun _ => true) ⟨none, true⟩ kRecents recentRun _ rfl
    0 _ rfl
  exact ⟨_, _, _, rfl, rfl, rfl, rfl, hall _ rfl (by decide) rfl⟩

end Program

end DeviceTester.Gui

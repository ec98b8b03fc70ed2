import DeviceTester.Config.RoundTrip
import DeviceTester.Gui.DeviceManager

/-!
# `DeviceManager::drawOpenRecent`

What comes back when a connection is stored with the recent ones and opened from there.
-/
namespace DeviceTester.Gui.DeviceManager

open DeviceTester.Lib DeviceTester.Connection DeviceTester.Config

/-- The item of a recent connection has been clicked. The cast to the options of the class
that the type names has no meaning for other options, and does nothing here. -/
def openRecent (json : JsonText) (a : Answers) (con : RecentConnection) (m : DeviceManager) :
    DeviceManager :=
  if con.connectionType = text "serial" then
    match con.options with
    | .serial o => (m.addSerialConnection json a o false).2
    | _ => m
  else if con.connectionType = text "tcp" then
    match con.options with
    | .tcp o => (m.addTcpConnection json a o false).2
    | _ => m
  else if con.connectionType = text "udp" then
    match con.options with
    | .udp o => (m.addUdpConnection json a o false).2
    | _ => m
  else m

/-- The loop over the recent connections, with the answers to the connection that the item
at each position makes. -/
def drawOpenRecent (json : JsonText) (answers : Nat → Answers) (clicked : Nat → Bool)
    (m : DeviceManager) : DeviceManager :=
  m.recentConnections_.zipIdx.foldl
    (fun m item => if clicked item.2 then m.openRecent json (answers item.2) item.1 else m) m

variable {json : JsonText} {m m' : DeviceManager} {a : Answers} {opts : AnyOptions}

/-- Whether configuring a new connection returns or throws, its options are those of the call. -/
theorem options_configure_state (a : Answers) (opts : AnyOptions) :
    (configure a opts).state.options = opts := by
  cases hc : configure a opts with
  | returned con => exact options_configure hc
  | threw con what =>
    cases opts with
    | serial o => cases hc
    | tcp o => cases hc
    | udp o =>
      have hopt := Udp.options_applyOptions
        ((Udp.initial o.identifier a.rx a.receive).setOptions o) a.calls a.fromString
      simp only [configure, configureUdp] at hc
      split at hc
      · cases hc
      · rename_i u text hu
        obtain ⟨rfl, -⟩ := Outcome.threw.inj hc
        rw [hu] at hopt
        exact congrArg AnyOptions.udp hopt

/-- One connection is made, after all others. It has these options, and if their identifier
is in use after it, it is for this connection. -/
structure Makes (opts : AnyOptions) (m m' : DeviceManager) : Prop where
  object : ∃ o, m'.objects = m.objects ++ [o] ∧ o.connection.options = opts
  entered : opts.identifier ∈ m'.connections_ →
    m'.connections_.lookup opts.identifier = some m.objects.length

theorem makes_add (hin : opts.identifier ∉ m.connections_) (addToRecents : Bool) :
    Makes opts m (m.add json a opts addToRecents).2 := by
  have hstate := options_configure_state a opts
  have hcases := add_cases json a opts addToRecents m
  generalize m.add json a opts addToRecents = r at hcases
  obtain ⟨added, m'⟩ := r
  cases hcases with
  | inUse hused message => exact absurd hused hin
  | failed _ con what message hc =>
    rw [hc] at hstate
    exact ⟨⟨_, rfl, hstate⟩, fun hused => absurd hused hin⟩
  | threw _ con recents file e hc hadd haccept =>
    rw [hc] at hstate
    exact ⟨⟨_, rfl, hstate⟩, fun hused => absurd hused hin⟩
  | added _ con recents file message hc haccept =>
    rw [hc] at hstate
    exact ⟨⟨_, rfl, hstate⟩, fun _ => AList.lookup_insert _⟩

theorem openRecent_eq (json : JsonText) (a : Answers) (opts : AnyOptions) (m : DeviceManager) :
    m.openRecent json a ⟨opts.kType, opts⟩ = (m.add json a opts false).2 := by
  cases opts with
  | serial o => rfl
  | tcp o => rfl
  | udp o => rfl

theorem foldl_not_clicked {clicked : Nat → Bool} (answers : Nat → Answers)
    (items : List (RecentConnection × Nat)) (h : ∀ item ∈ items, clicked item.2 = false) :
    items.foldl (fun m item => if clicked item.2 then m.openRecent json (answers item.2) item.1
      else m) m = m := by
  induction items with
  | nil => rfl
  | cons item items ih =>
    have hitem := h item List.mem_cons_self
    rw [List.foldl_cons, if_neg (by simp [hitem])]
    exact ih fun item' hitem' => h item' (List.mem_cons_of_mem _ hitem')

/-- Clicking the last item alone opens the last of the recent connections. -/
theorem drawOpenRecent_last {recents : List RecentConnection} {con : RecentConnection}
    {clicked : Nat → Bool} (answers : Nat → Answers)
    (hrecents : m.recentConnections_ = recents ++ [con])
    (hclicked : ∀ i, clicked i = true ↔ i = recents.length) :
    m.drawOpenRecent json answers clicked =
      m.openRecent json (answers recents.length) con := by
  have hnone : ∀ item ∈ recents.zipIdx, clicked item.2 = false := by
    intro item hitem
    have hlt := List.snd_lt_of_mem_zipIdx hitem
    rw [Bool.eq_false_iff]
    intro hon
    have heq := (hclicked item.2).mp hon
    omega
  rw [drawOpenRecent, hrecents, List.zipIdx_append, List.foldl_append,
    foldl_not_clicked answers _ hnone]
  simp [(hclicked recents.length).mpr rfl]

/-- A connection stored with the recent ones is read back after those that were there, and
opening it from there makes a connection with the options of the one that was stored. -/
theorem recent_connection_restored {file file' : RecentsFile} {recents : List RecentConnection}
    (hread : recentConnections json file = .ok recents)
    (hparse : ∀ j, withConnection json file opts.kType opts.toJson = .ok j →
      (json.dump j).2 = true → json.parse ((json.dump j).1 ++ [10]) = some j)
    (hadd : addRecentConnection json opts.kType opts.toJson file = (.ok true, file')) :
    recentConnections json file' = .ok (recents ++ [⟨opts.kType, opts⟩]) ∧
    (∀ m a, opts.identifier ∉ m.connections_ → Makes opts m (m.add json a opts true).2) ∧
    ∀ m answers clicked, opts.identifier ∉ m.connections_ →
      recentConnections json file' = .ok m.recentConnections_ →
      (∀ i, clicked i = true ↔ i = recents.length) →
      Makes opts m (m.drawOpenRecent json answers clicked) := by
  have hadded := recentConnections_added hread hparse hadd
  refine ⟨hadded, fun m a hin => makes_add hin true, ?_⟩
  intro m answers clicked hin hm hclicked
  have hrecents : m.recentConnections_ = recents ++ [⟨opts.kType, opts⟩] :=
    Except.ok.inj (hm.symm.trans hadded)
  rw [drawOpenRecent_last answers hrecents hclicked, openRecent_eq]
  exact makes_add hin false

def kListener : UdpOptions where
  identifier := text "u"
  writeAddress := []
  writePort := 0
  listenProtocol := .ipv6
  listenPort := 5000

def kEmptyText : Bytes := text "\x7b\x7d"

def kListenerText : Bytes :=
  text "\x7b\"connections\":[\x7b\"options\":\x7b\"identifier\":\"u\",\"listen_port\":5000,"
    ++ text "\"listen_protocol\":2,\"write_address\":\"\",\"write_port\":0\x7d,\"type\":\"udp\"\x7d]\x7d"

def kListenerDocument : Json :=
  .object [(text "connections", .array [entry (.udp kListener)])]

/-- Two texts and the documents they stand for. -/
def kTwoTexts : JsonText where
  parse content :=
    if content = kEmptyText then some (.object [])
    else if content = kListenerText ++ [10] then some kListenerDocument
    else none
  dump _ := (kListenerText, true)

theorem parse_kListenerText : kTwoTexts.parse (kListenerText ++ [10]) = some kListenerDocument := by
  have hnot : kListenerText ++ [10] ≠ kEmptyText := by decide
  simp only [kTwoTexts, hnot, if_false, if_true]

theorem withConnection_kEmptyText :
    withConnection kTwoTexts ⟨some kEmptyText, true⟩ (text "udp") kListener.toJson =
      .ok kListenerDocument := rfl

theorem listener_restored :
    recentConnections kTwoTexts ⟨some (kListenerText ++ [10]), true⟩ =
        .ok [⟨text "udp", .udp kListener⟩] ∧
      ∀ m answers clicked, text "u" ∉ m.connections_ →
        recentConnections kTwoTexts ⟨some (kListenerText ++ [10]), true⟩ =
          .ok m.recentConnections_ →
        (∀ i, clicked i = true ↔ i = 0) →
        Makes (.udp kListener) m (m.drawOpenRecent kTwoTexts answers clicked) := by
  have hread : recentConnections kTwoTexts ⟨some kEmptyText, true⟩ = .ok [] := rfl
  have hadd : addRecentConnection kTwoTexts (AnyOptions.udp kListener).kType
      (AnyOptions.udp kListener).toJson ⟨some kEmptyText, true⟩ =
        (.ok true, ⟨some (kListenerText ++ [10]), true⟩) := rfl
  obtain ⟨hadded, -, hopened⟩ := recent_connection_restored hread (fun j hj _ => by
    rw [← Except.ok.inj (withConnection_kEmptyText.symm.trans hj)]
    exact parse_kListenerText) hadd
  exact ⟨hadded, hopened⟩

end DeviceTester.Gui.DeviceManager

import DeviceTester.Connection.Tcp

/-!
# What a peer sends and what is delivered of it

One `Tcp` serves one connection after another. `async_read_until` collects the
segments of a connection in `buffer_rx_`, a packet end makes `handleRead` deliver
and clear it, and the end of the stream leaves it as it is.
-/
namespace DeviceTester.Connection.Tcp

open DeviceTester.Lib

variable {t u v : Tcp} {d : UInt8} {segments : List Bytes}

/-- The options a connection is made with, and the segments its peer's bytes arrive in. -/
structure Peer where
  options : TcpOptions
  segments : List Bytes

/-- The receiving side of one connection from a read in flight to the end of the
stream: segments arrive, and a read that is complete finishes and is handled. -/
inductive Receives : List Bytes → Tcp → Tcp → Prop where
  | segment {data : Bytes} {segments : List Bytes} {t u v : Tcp}
      (hs : step t (.io (.receive 0 data)) = some u) (htail : Receives segments u v) :
      Receives (data :: segments) t v
  | packet {n : Nat} {segments : List Bytes} {t u v w : Tcp}
      (hs : step t (.io (.finish 0 (.ok n))) = some u) (hr : step u (.io (.run 0)) = some v)
      (htail : Receives segments v w) : Receives segments t w
  | close {t u v : Tcp} (hs : step t (.io (.finish 0 (.error .eof))) = some u)
      (hr : step u (.io (.run 0)) = some v) : Receives [] t v

/-- One connection: `connect()` with the options of the peer succeeds, and the
peer sends its segments and closes. -/
def Session (p : Peer) (t u : Tcp) : Prop :=
  ∃ resolve n v,
    exec step t [.setOptions p.options, .connect resolve, .io (.finish 0 (.ok n)), .io (.run 0)] =
      some v ∧ Receives p.segments v u

/-- Connections made one after another, each with the spans handed to `processData`. -/
inductive Sessions : List (Peer × List Bytes) → Tcp → Tcp → Prop where
  | nil (t : Tcp) : Sessions [] t t
  | cons {p : Peer} {spans : List Bytes} {rest : List (Peer × List Bytes)} {t u v : Tcp}
      (hs : Session p t u) (hd : u.delivered = t.delivered ++ spans) (htail : Sessions rest u v) :
      Sessions ((p, spans) :: rest) t v

/-- The last segment that arrives before the end of the stream holds a packet end. -/
def EndsPacket (p : Peer) : Prop := ∀ data ∈ p.segments.getLast?, p.options.packetEnd ∈ data

instance (p : Peer) : Decidable (EndsPacket p) :=
  inferInstanceAs (Decidable (∀ data ∈ p.segments.getLast?, p.options.packetEnd ∈ data))

/-- A read for `d` is in flight on a connection. -/
structure Reading (d : UInt8) (t : Tcp) : Prop where
  pending : ∃ stamp, t.pending = [⟨.read d, stamp, none⟩]
  packetEnd : t.options_.packetEnd = d
  shouldRun : t.shouldRun_ = true
  isOpen : t.socket_.isOpen = true

theorem receive_first {data : Bytes} (h : Reading d t)
    (hs : step t (.io (.receive 0 data)) = some u) :
    Reading d u ∧ data ≠ [] ∧ d ∉ t.bufferRx_ ∧
      u.bufferRx_ = t.bufferRx_ ++ data ∧ u.delivered = t.delivered := by
  obtain ⟨stamp, hp⟩ := h.pending
  obtain ⟨delimiter, stamp', hop, hdata, hd, rfl⟩ := io_receive hs
  obtain ⟨rfl, -⟩ : d = delimiter ∧ stamp = stamp' := by simpa [hp] using hop
  exact ⟨⟨⟨stamp, hp⟩, h.packetEnd, h.shouldRun, h.isOpen⟩, hdata, hd, rfl, rfl⟩

/-- A read in flight finishes and its handler runs. -/
theorem finish_run_first {r : Result} (h : Reading d t)
    (hs : step t (.io (.finish 0 r)) = some u) (hr : step u (.io (.run 0)) = some v) :
    r.isOk = t.bufferRx_.contains d ∧ v = { t with pending := [] }.handleRead r := by
  obtain ⟨stamp, hp⟩ := h.pending
  obtain ⟨kind, stamp', hop, hmay, rfl⟩ := io_finish hs
  obtain ⟨rfl, rfl⟩ : .read d = kind ∧ stamp = stamp' := by simpa [hp] using hop
  obtain ⟨kind, stamp', r', hop', rfl⟩ := io_run hr
  simp only [finished, hp, List.set_cons_zero, List.getElem?_cons_zero, Option.some.injEq,
    Operation.mk.injEq] at hop'
  obtain ⟨rfl, rfl, rfl⟩ := hop'
  refine ⟨?_, by simp [finished, handle, hp]⟩
  cases r with
  | ok n => exact hmay.symm
  | error code => simpa [mayFinish, Result.isOk] using hmay

theorem packet_first {n : Nat} (h : Reading d t) (hs : step t (.io (.finish 0 (.ok n))) = some u)
    (hr : step u (.io (.run 0)) = some v) :
    Reading d v ∧ d ∈ t.bufferRx_ ∧ v.bufferRx_ = [] ∧
      v.delivered = t.delivered ++ [t.bufferRx_] := by
  obtain ⟨hd, rfl⟩ := finish_run_first h hs hr
  have hrun : ({ t with pending := [] } : Tcp).shouldRun_ = true := h.shouldRun
  rw [handleRead_ok_of_running hrun]
  refine ⟨⟨⟨t.calls, ?_⟩, h.packetEnd, h.shouldRun, h.isOpen⟩, ?_, rfl, rfl⟩
  · simp [startRead, start, Operation.begin, h.isOpen, h.packetEnd]
  · exact List.contains_iff_mem.mp hd.symm

theorem close_first (h : Reading d t) (hs : step t (.io (.finish 0 (.error .eof))) = some u)
    (hr : step u (.io (.run 0)) = some v) :
    v.pending = [] ∧ d ∉ t.bufferRx_ ∧ v.bufferRx_ = t.bufferRx_ ∧ v.delivered = t.delivered := by
  obtain ⟨hd, rfl⟩ := finish_run_first h hs hr
  refine ⟨pending_disconnect_of_nil rfl, fun hmem => ?_, bufferRx_disconnect, delivered_disconnect⟩
  rw [List.contains_iff_mem.mpr hmem] at hd
  cases hd

/-- Whether nothing is left in a buffer once `segments` have been received into it. -/
def Drains (d : UInt8) (buffer : Bytes) (segments : List Bytes) : Prop :=
  match segments.getLast? with
  | none => buffer = [] ∨ d ∈ buffer
  | some data => d ∈ data

theorem drains_cons {buffer data : Bytes} (hdata : data ≠ []) (hd : d ∉ buffer) :
    Drains d (buffer ++ data) segments ↔ Drains d buffer (data :: segments) := by
  cases segments with
  | nil => simp [Drains, hdata, hd]
  | cons first rest =>
    have hlast : (first :: rest).getLast? = some ((first :: rest).getLast (by simp)) :=
      List.getLast?_eq_some_getLast _
    simp [Drains, List.getLast?_cons_cons, hlast]

theorem drains_delivered {buffer : Bytes} (hd : d ∈ buffer) :
    Drains d [] segments ↔ Drains d buffer segments := by
  unfold Drains
  cases segments.getLast? with
  | none => simp [hd]
  | some data => exact Iff.rfl

/-- What was in the buffer and what arrives is delivered, up to what the end of
the stream leaves in the buffer. -/
theorem receives_delivers (h : Receives segments t u) (ht : Reading d t) :
    u.pending = [] ∧ (u.bufferRx_ = [] ↔ Drains d t.bufferRx_ segments) ∧
      ∃ spans, u.delivered = t.delivered ++ spans ∧
        spans.flatten ++ u.bufferRx_ = t.bufferRx_ ++ segments.flatten := by
  induction h with
  | segment hs _ ih =>
    obtain ⟨hu, hdata, hd, hbuf, hdel⟩ := receive_first ht hs
    obtain ⟨hp, hdrain, spans, hspans, hbytes⟩ := ih hu
    refine ⟨hp, ?_, spans, hdel ▸ hspans, ?_⟩
    · rw [hdrain, hbuf, drains_cons hdata hd]
    · rw [hbytes, hbuf, List.flatten_cons, List.append_assoc]
  | @packet n segments t u v w hs hr _ ih =>
    obtain ⟨hv, hd, hbuf, hdel⟩ := packet_first ht hs hr
    obtain ⟨hp, hdrain, spans, hspans, hbytes⟩ := ih hv
    refine ⟨hp, ?_, t.bufferRx_ :: spans, ?_, ?_⟩
    · rw [hdrain, hbuf, drains_delivered hd]
    · rw [hspans, hdel, List.append_assoc, List.singleton_append]
    · rw [hbuf, List.nil_append] at hbytes
      rw [List.flatten_cons, List.append_assoc, hbytes]
  | close hs hr =>
    obtain ⟨hp, hd, hbuf, hdel⟩ := close_first ht hs hr
    refine ⟨hp, ?_, [], ?_, ?_⟩
    · rw [hbuf]
      simp [Drains, hd]
    · rw [hdel, List.append_nil]
    · rw [hbuf, List.flatten_nil, List.append_nil, List.nil_append]

/-- The first attempt of a connect is in flight, and nothing else is. -/
structure Dialing (t : Tcp) : Prop where
  pending : ∃ endpointIter stamp, t.pending = [⟨.connect endpointIter, stamp, none⟩]
  shouldRun : t.shouldRun_ = true
  isOpen : t.socket_.isOpen = true

theorem dialing_beginConnect (hp : t.pending = []) (hrun : t.shouldRun_ = true)
    {endpointIter : List Endpoint} (hi : endpointIter ≠ []) :
    Dialing (t.beginConnect endpointIter) := by
  rw [beginConnect, if_pos hi]
  refine ⟨⟨endpointIter, t.calls, ?_⟩, hrun, rfl⟩
  simp [asyncConnect, start, hp, Operation.begin]

theorem connect_dials (hp : t.pending = []) (resolve : Resolver) :
    (t.connect resolve).state.pending = [] ∨ Dialing (t.connect resolve).state := by
  have hpd := pending_disconnect_of_nil hp
  rcases connect_cases t resolve with ⟨what, h⟩ | ⟨endpoints, -, h⟩
  · rw [h]
    exact .inl hpd
  · rw [h, Outcome.state_returned]
    by_cases hi : endpoints = []
    · rw [hi, beginConnect, if_neg (not_not_intro rfl)]
      exact .inl (pending_disconnect_of_nil hpd)
    · refine .inr (dialing_beginConnect ?_ rfl hi)
      exact hpd

/-- An attempt that succeeds starts a read. -/
theorem dialing_connected {n : Nat} (h : Dialing t)
    (hs : step t (.io (.finish 0 (.ok n))) = some u) (hr : step u (.io (.run 0)) = some v) :
    Reading t.options_.packetEnd v ∧ v.bufferRx_ = t.bufferRx_ ∧ v.delivered = t.delivered := by
  obtain ⟨endpointIter, stamp, hp⟩ := h.pending
  obtain ⟨kind, stamp', hop, -, rfl⟩ := io_finish hs
  obtain ⟨rfl, rfl⟩ : .connect endpointIter = kind ∧ stamp = stamp' := by simpa [hp] using hop
  obtain ⟨kind, stamp', r, hop', rfl⟩ := io_run hr
  simp only [finished, hp, List.set_cons_zero, List.getElem?_cons_zero, Option.some.injEq,
    Operation.mk.injEq] at hop'
  obtain ⟨rfl, rfl, rfl⟩ := hop'
  have hv : { { t with pending := t.pending.set 0 ⟨.connect endpointIter, stamp, some (.ok n)⟩ }.finished
        (.connect endpointIter) (.ok n) with
        pending := [] }.handleConnect (.ok n) endpointIter =
      { t with
        pending := [], isConnected_ := true
        socket_ := { t.socket_ with peer := endpointIter.head? } }.startRead := by
    simp [finished, handleConnect, h.shouldRun, h.isOpen]
  have herase : (({ t with
      pending := t.pending.set 0 ⟨.connect endpointIter, stamp, some (.ok n)⟩ } : Tcp).finished
        (.connect endpointIter) (.ok n)).pending.eraseIdx 0 = [] := by
    simp [finished, hp]
  rw [handle, herase, hv]
  refine ⟨⟨⟨t.calls, ?_⟩, rfl, h.shouldRun, h.isOpen⟩, rfl, rfl⟩
  simp [startRead, start, Operation.begin, h.isOpen]

/-- What a session delivers, in terms of the buffer that it begins with. -/
theorem session_delivers {p : Peer} (h : Session p t u) (hp : t.pending = []) :
    u.pending = [] ∧ (u.bufferRx_ = [] ↔ Drains p.options.packetEnd t.bufferRx_ p.segments) ∧
      ∃ spans, u.delivered = t.delivered ++ spans ∧
        spans.flatten ++ u.bufferRx_ = t.bufferRx_ ++ p.segments.flatten := by
  obtain ⟨resolve, n, v, hv, hreceives⟩ := h
  obtain ⟨s, hs, hv⟩ := exec_cons_some hv
  obtain ⟨c, hc, hv⟩ := exec_cons_some hv
  obtain ⟨f, hf, hv⟩ := exec_cons_some hv
  obtain ⟨w, hr, hw⟩ := exec_cons_some hv
  obtain rfl : w = v := Option.some.inj hw
  obtain rfl : ((t.setOptions p.options).connect resolve).state = c :=
    Option.some.inj ((Option.some.inj hs : t.setOptions p.options = s) ▸ hc)
  obtain ⟨hbuf, hdel, hopt⟩ := connect_frame (t.setOptions p.options) resolve
  rcases connect_dials (t := t.setOptions p.options) hp resolve with hnil | hdial
  · obtain ⟨kind, stamp, hop, -⟩ := io_finish hf
    rw [hnil] at hop
    cases hop
  · obtain ⟨hreading, hbuf', hdel'⟩ := dialing_connected hdial hf hr
    have hresult := receives_delivers hreceives hreading
    rwa [hbuf', hbuf, hdel', hdel, hopt] at hresult

theorem drains_nil_iff (p : Peer) : Drains p.options.packetEnd [] p.segments ↔ EndsPacket p := by
  unfold Drains EndsPacket
  cases p.segments.getLast? with
  | none => simp
  | some data => simp

/-- From an empty buffer the first session that leaves bytes behind loses them. -/
theorem sessions_deliver_iff_of_empty {sessions : List (Peer × List Bytes)}
    (h : Sessions sessions t u) (hp : t.pending = []) (hb : t.bufferRx_ = []) :
    (∀ s ∈ sessions, s.2.flatten = s.1.segments.flatten) ↔ ∀ s ∈ sessions, EndsPacket s.1 := by
  induction h with
  | nil => simp
  | @cons p spans rest t u v hs hd _ ih =>
    obtain ⟨hpu, hdrain, spans', hspans', hbytes⟩ := session_delivers hs hp
    obtain rfl : spans = spans' := List.append_cancel_left (hd.symm.trans hspans')
    rw [hb, drains_nil_iff] at hdrain
    rw [hb, List.nil_append] at hbytes
    have hfirst : spans.flatten = p.segments.flatten ↔ EndsPacket p := by
      rw [← hdrain, ← hbytes]
      simp
    rw [List.forall_mem_cons, List.forall_mem_cons, hfirst]
    exact and_congr_right fun hends => ih hpu (hdrain.mpr hends)

/-- Over the connections made with a fresh object, each delivers exactly the bytes
that its peer sent exactly when the last segment of each holds a packet end. -/
theorem sessions_deliver_iff (identifier : Bytes) {sessions : List (Peer × List Bytes)}
    (h : Sessions sessions (initial identifier) t) :
    (∀ s ∈ sessions, s.2.flatten = s.1.segments.flatten) ↔ ∀ s ∈ sessions, EndsPacket s.1 :=
  sessions_deliver_iff_of_empty h rfl rfl

/-- A peer that sends `segments`, its packets ended by a line feed. -/
def linePeer (segments : List String) : Peer where
  options := { TcpOptions.withIdentifier [] with packetEnd := 10 }
  segments := segments.map text

theorem line_delivered :
    ∃ t, Sessions [(linePeer ["a", "b\n"], [text "ab\n"])] (initial []) t ∧
      ∀ s ∈ [(linePeer ["a", "b\n"], [text "ab\n"])], s.2.flatten = s.1.segments.flatten := by
  have hrun : ∃ t, Sessions [(linePeer ["a", "b\n"], [text "ab\n"])] (initial []) t :=
    ⟨_, .cons ⟨fun _ _ => .ok [⟨[], 4001⟩], 0, _, rfl,
      .segment rfl (.segment rfl (.packet (n := 0) rfl rfl (.close rfl rfl)))⟩ rfl (.nil _)⟩
  obtain ⟨t, ht⟩ := hrun
  exact ⟨t, ht, (sessions_deliver_iff [] ht).mpr (by decide)⟩

/-- Two connections, the first closed in the middle of a line: it delivers nothing,
and the second delivers what the first one left. -/
theorem open_line_misdelivered :
    ∃ t, Sessions [(linePeer ["ab"], []), (linePeer ["c\n"], [text "abc\n"])] (initial []) t ∧
      ¬ ∀ s ∈ [(linePeer ["ab"], []), (linePeer ["c\n"], [text "abc\n"])],
        s.2.flatten = s.1.segments.flatten :=
  ⟨_, .cons ⟨fun _ _ => .ok [⟨[], 4001⟩], 0, _, rfl, .segment rfl (.close rfl rfl)⟩ rfl
      (.cons ⟨fun _ _ => .ok [⟨[], 4001⟩], 0, _, rfl,
        .segment rfl (.packet (n := 0) rfl rfl (.close rfl rfl))⟩ rfl (.nil _)), by decide⟩

/-! ## Every list of peers can be served -/

/-- A read whose buffer holds its delimiter finishes, and leaves an empty buffer. -/
theorem exists_packet (h : Reading d t) (hd : d ∈ t.bufferRx_) :
    ∃ u v, step t (.io (.finish 0 (.ok 0))) = some u ∧ step u (.io (.run 0)) = some v ∧
      Reading d v ∧ v.bufferRx_ = [] := by
  obtain ⟨stamp, hp⟩ := h.pending
  have hs : step t (.io (.finish 0 (.ok 0))) =
      some { t with pending := [⟨.read d, stamp, some (.ok 0)⟩] } := by
    simp [step, io, hp, mayFinish, hd, finished]
  have hr : step { t with pending := [⟨.read d, stamp, some (.ok 0)⟩] } (.io (.run 0)) =
      some ({ t with pending := [] }.handleRead (.ok 0)) := by
    simp [step, io, handle]
  obtain ⟨hv, -, hbuf, -⟩ := packet_first h hs hr
  exact ⟨_, _, hs, hr, hv, hbuf⟩

theorem exists_segment {data : Bytes} (h : Reading d t) (hd : d ∉ t.bufferRx_) (hdata : data ≠ []) :
    ∃ u, step t (.io (.receive 0 data)) = some u ∧ Reading d u := by
  obtain ⟨stamp, hp⟩ := h.pending
  have hs : step t (.io (.receive 0 data)) = some { t with bufferRx_ := t.bufferRx_ ++ data } := by
    simp [step, io, hp, hd, hdata]
  exact ⟨_, hs, (receive_first h hs).1⟩

theorem exists_close (h : Reading d t) (hd : d ∉ t.bufferRx_) :
    ∃ u v, step t (.io (.finish 0 (.error .eof))) = some u ∧ step u (.io (.run 0)) = some v := by
  obtain ⟨stamp, hp⟩ := h.pending
  have hs : step t (.io (.finish 0 (.error .eof))) =
      some { t with pending := [⟨.read d, stamp, some (.error .eof)⟩] } := by
    simp [step, io, hp, mayFinish, hd, finished]
  have hr : step { t with pending := [⟨.read d, stamp, some (.error .eof)⟩] } (.io (.run 0)) =
      some ({ t with pending := [] }.handleRead (.error .eof)) := by
    simp [step, io, handle]
  exact ⟨_, _, hs, hr⟩

/-- From a buffer without the delimiter any segments can be received. -/
theorem exists_receives_of_not_mem (hsegs : ∀ data ∈ segments, data ≠ []) (h : Reading d t)
    (hd : d ∉ t.bufferRx_) : ∃ u, Receives segments t u := by
  induction segments generalizing t with
  | nil =>
    obtain ⟨u, v, hs, hr⟩ := exists_close h hd
    exact ⟨v, .close hs hr⟩
  | cons data segments ih =>
    obtain ⟨hdata, hrest⟩ := List.forall_mem_cons.mp hsegs
    obtain ⟨u, hs, hu⟩ := exists_segment h hd hdata
    by_cases hmem : d ∈ u.bufferRx_
    · obtain ⟨v, w, hs', hr', hw, hbuf⟩ := exists_packet hu hmem
      obtain ⟨x, hx⟩ := ih hrest hw (by simp [hbuf])
      exact ⟨x, .segment hs (.packet hs' hr' hx)⟩
    · obtain ⟨x, hx⟩ := ih hrest hu hmem
      exact ⟨x, .segment hs hx⟩

theorem exists_receives (hsegs : ∀ data ∈ segments, data ≠ []) (h : Reading d t) :
    ∃ u, Receives segments t u := by
  by_cases hd : d ∈ t.bufferRx_
  · obtain ⟨u, v, hs, hr, hv, hbuf⟩ := exists_packet h hd
    obtain ⟨w, hw⟩ := exists_receives_of_not_mem hsegs hv (by simp [hbuf])
    exact ⟨w, .packet hs hr hw⟩
  · exact exists_receives_of_not_mem hsegs h hd

theorem exists_dialing (hp : t.pending = []) :
    ∃ u, step t (.connect fun _ _ => .ok [⟨[], 0⟩]) = some u ∧ Dialing u := by
  refine ⟨_, rfl, dialing_beginConnect ?_ rfl (List.cons_ne_nil _ _)⟩
  exact pending_disconnect_of_nil hp

theorem exists_dialed (h : Dialing t) :
    ∃ u v, step t (.io (.finish 0 (.ok 0))) = some u ∧ step u (.io (.run 0)) = some v := by
  obtain ⟨endpointIter, stamp, hp⟩ := h.pending
  have hs : step t (.io (.finish 0 (.ok 0))) =
      some ({ t with pending := [⟨.connect endpointIter, stamp, some (.ok 0)⟩] }.finished
        (.connect endpointIter) (.ok 0)) := by
    simp [step, io, hp, mayFinish]
  exact ⟨_, _, hs, rfl⟩

theorem exists_session (p : Peer) (hsegs : ∀ data ∈ p.segments, data ≠ []) (hp : t.pending = []) :
    ∃ u, Session p t u := by
  obtain ⟨c, hc, hdial⟩ := exists_dialing (t := t.setOptions p.options) hp
  obtain ⟨u, v, hs, hr⟩ := exists_dialed hdial
  obtain ⟨hreading, -⟩ := dialing_connected hdial hs hr
  have hopt : c.options_.packetEnd = p.options.packetEnd := by
    obtain rfl := Option.some.inj hc
    rw [(connect_frame _ _).2.2]
    rfl
  rw [hopt] at hreading
  obtain ⟨w, hw⟩ := exists_receives hsegs hreading
  refine ⟨w, fun _ _ => .ok [⟨[], 0⟩], 0, v, ?_, hw⟩
  rw [exec_cons (t := t.setOptions p.options) rfl, exec_cons hc, exec_cons hs, exec_cons hr, exec_nil]

/-- Whatever the peers send and however it is segmented, there is a run that serves them. -/
theorem exists_sessions (peers : List Peer) (hsegs : ∀ p ∈ peers, ∀ data ∈ p.segments, data ≠ [])
    (hp : t.pending = []) : ∃ sessions u, sessions.map Prod.fst = peers ∧ Sessions sessions t u := by
  induction peers generalizing t with
  | nil => exact ⟨[], t, rfl, .nil t⟩
  | cons p peers ih =>
    obtain ⟨hsegsp, hrest⟩ := List.forall_mem_cons.mp hsegs
    obtain ⟨u, hu⟩ := exists_session p hsegsp hp
    obtain ⟨hpu, -, spans, hspans, -⟩ := session_delivers hu hp
    obtain ⟨sessions, v, hmap, hv⟩ := ih hrest hpu
    exact ⟨(p, spans) :: sessions, v, by simp [hmap], .cons hu hspans hv⟩

end DeviceTester.Connection.Tcp

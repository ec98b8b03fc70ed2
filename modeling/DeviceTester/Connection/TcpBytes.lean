import DeviceTester.Connection.Tcp

/-!
# The bytes that a `Tcp` takes in

Whatever is called and in whatever order the operations of the object complete, `buffer_rx_` is
what has been received and not been handed over. `async_read_until` completes only when the
buffer holds `packet_end`: a peer that never sends one is never heard.
-/
namespace DeviceTester.Connection.Tcp

open DeviceTester.Lib

variable {t u : Tcp} {e : Event} {d : UInt8}

/-! ## Nothing is lost -/

/-- The bytes that an event brings. -/
def received : Event → Bytes
  | .io e => e.arrived
  | _ => []

/-- A read is for `d`, and it has not succeeded. -/
def Unanswered (d : UInt8) (op : Operation TcpOp) : Prop :=
  op.kind.isRead = true → op.kind = .read d ∧ op.result.any Result.isOk = false

/-- No `d` has come in, and the object reads up to the next one. -/
structure Waits (d : UInt8) (t : Tcp) : Prop where
  packetEnd : t.options_.packetEnd = d
  buffer : d ∉ t.bufferRx_
  pending : ∀ op ∈ t.pending, Unanswered d op

theorem unanswered_begin {op : TcpOp} (isOpen : Bool) (stamp : Nat)
    (h : op.isRead = true → op = .read d) : Unanswered d (.begin isOpen op stamp) := by
  intro hread
  refine ⟨h hread, ?_⟩
  cases isOpen <;> rfl

theorem Unanswered.cancel {op : Operation TcpOp} (h : Unanswered d op) : Unanswered d op.cancel := by
  intro hread
  obtain ⟨hkind, hok⟩ := h hread
  refine ⟨hkind, ?_⟩
  obtain ⟨kind, stamp, result⟩ := op
  cases result with
  | none => rfl
  | some r => exact hok

theorem Waits.start (h : Waits d t) (op : TcpOp) (hop : op.isRead = true → op = .read d) :
    Waits d (t.start op) := by
  refine ⟨h.packetEnd, h.buffer, fun op' hmem => ?_⟩
  rcases List.mem_append.mp hmem with hold | hnew
  · exact h.pending op' hold
  · obtain rfl := List.mem_singleton.mp hnew
    exact unanswered_begin _ _ hop

theorem Waits.disconnect (h : Waits d t) : Waits d t.disconnect := by
  unfold Tcp.disconnect
  split
  · exact ⟨h.packetEnd, h.buffer, h.pending⟩
  · refine ⟨h.packetEnd, h.buffer, fun op hmem => ?_⟩
    obtain ⟨op, hold, rfl⟩ := List.mem_map.mp hmem
    exact (h.pending op hold).cancel

theorem Waits.beginConnect (h : Waits d t) (endpointIter : List Endpoint) :
    Waits d (t.beginConnect endpointIter) := by
  unfold Tcp.beginConnect
  split
  · have hopened : Waits d { t with socket_ := { t.socket_ with isOpen := true } } :=
      ⟨h.packetEnd, h.buffer, h.pending⟩
    exact hopened.start (.connect endpointIter) fun hread => by cases hread
  · exact h.disconnect

theorem Waits.connect (h : Waits d t) (resolve : Resolver) : Waits d (t.connect resolve).state := by
  rcases connect_cases t resolve with ⟨what, hc⟩ | ⟨endpoints, -, hc⟩
  · rw [hc]
    exact h.disconnect
  · rw [hc, Outcome.state_returned]
    have hready : Waits d { t.disconnect with endpoints_ := endpoints, shouldRun_ := true } :=
      ⟨h.disconnect.packetEnd, h.disconnect.buffer, h.disconnect.pending⟩
    exact hready.beginConnect endpoints

theorem Waits.applyOptions (h : Waits d t) (resolve : Resolver) :
    Waits d (t.applyOptions resolve).state := by
  unfold Tcp.applyOptions
  split
  · exact h.connect resolve
  · exact h

theorem Waits.setOptions (h : Waits d t) {opts : TcpOptions} (hd : opts.packetEnd = d) :
    Waits d (t.setOptions opts) :=
  ⟨hd, h.buffer, h.pending⟩

theorem Waits.handle (h : Waits d t) {kind : TcpOp} {stamp : Nat} {r : Result}
    (hop : Unanswered d ⟨kind, stamp, some r⟩) :
    Waits d (t.handle r kind) ∧ (t.handle r kind).delivered = t.delivered := by
  cases kind with
  | connect endpointIter =>
    refine ⟨?_, by simpa using delivered_handle t r (.connect endpointIter)⟩
    simp only [Tcp.handle, handleConnect]
    split
    · exact h
    · split
      · exact h.beginConnect _
      · cases r with
        | ok n =>
          have hconnected : Waits d { t with isConnected_ := true } :=
            ⟨h.packetEnd, h.buffer, h.pending⟩
          exact hconnected.start _ fun _ => congrArg TcpOp.read h.packetEnd
        | error code => exact h.disconnect.beginConnect _
  | read delimiter =>
    cases r with
    | ok n => cases (hop rfl).2
    | error code => exact ⟨h.disconnect, delivered_disconnect⟩
  | write bufferTx =>
    refine ⟨?_, by simpa using delivered_handle t r (.write bufferTx)⟩
    cases r with
    | ok n =>
      simp only [Tcp.handle, handleWrite]
      split
      · exact h.start (.write (bufferTx.drop n)) fun hread => by cases hread
      · exact h
    | error code => exact h

end DeviceTester.Connection.Tcp

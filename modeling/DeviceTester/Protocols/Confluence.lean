import DeviceTester.Lib.Emission
import DeviceTester.Protocols.Pure
import Mathlib.Data.List.Pairwise

/-!
# Cuts and registration orders that make no difference

Every pass over the protocols, whatever the cut of the stream and the order of the
protocols it starts from, is part of one reduction of the whole stream.
-/
namespace DeviceTester.Protocols

open DeviceTester.Lib

namespace Dispatcher

variable {σ : Type*} {protocols protocols' : List (Protocol σ)} {world : σ} {d e : Dispatcher σ}
  {p : Protocol σ}

/-- What an active protocol consumes from a buffer it also consumes when more bytes follow. -/
def Stable (protocols : List (Protocol σ)) (world : σ) : Prop :=
  ∀ p ∈ protocols, p.isActive world = true → ∀ data more, (p.range world data).2 ≠ 0 →
    p.range world (data ++ more) = p.range world data

/-- At most one of the active protocols consumes anything from a buffer. -/
def Exclusive (protocols : List (Protocol σ)) (world : σ) : Prop :=
  protocols.Pairwise fun p q => p.isActive world = true → q.isActive world = true →
    ∀ data, (p.range world data).2 = 0 ∨ (q.range world data).2 = 0

/-- `message` is what its protocol consumes from `data`, and `rest` is what it leaves. -/
structure Takes (protocols : List (Protocol σ)) (world : σ) (data : ProtoData)
    (message : Protocol σ × ProtoData) (rest : ProtoData) : Prop where
  mem : message.1 ∈ protocols
  active : message.1.isActive world = true
  some : (message.1.range world data).2 ≠ 0
  bytes : message.2 = message.1.taken world data
  rest : rest = data.drop (message.1.range world data).2

theorem Exclusive.eq (h : Exclusive protocols world) {q : Protocol σ} {data : ProtoData}
    (hp : p ∈ protocols) (hq : q ∈ protocols) (hpa : p.isActive world = true)
    (hqa : q.isActive world = true) (hps : (p.range world data).2 ≠ 0)
    (hqs : (q.range world data).2 ≠ 0) : p = q := by
  by_contra hne
  have hsymm : Std.Symm fun p q : Protocol σ => p.isActive world = true → q.isActive world = true →
      ∀ data, (p.range world data).2 = 0 ∨ (q.range world data).2 = 0 :=
    ⟨fun _ _ hpq hqa hpa data => (hpq hpa hqa data).symm⟩
  rcases h.forall hp hq hne hpa hqa data with hnone | hnone
  · exact hps hnone
  · exact hqs hnone

theorem takes_deterministic (h : Exclusive protocols world) (data : ProtoData)
    (m m' : Protocol σ × ProtoData) (rest rest' : ProtoData)
    (ht : Takes protocols world data m rest) (ht' : Takes protocols world data m' rest') :
    m = m' ∧ rest = rest' := by
  have hprotocol : m.1 = m'.1 := h.eq ht.mem ht'.mem ht.active ht'.active ht.some ht'.some
  refine ⟨Prod.ext hprotocol ?_, ?_⟩
  · rw [ht.bytes, ht'.bytes, hprotocol]
  · rw [ht.rest, ht'.rest, hprotocol]

theorem Takes.append (h : Stable protocols world) (more : ProtoData) (data : ProtoData)
    (m : Protocol σ × ProtoData) (rest : ProtoData) (ht : Takes protocols world data m rest) :
    Takes protocols world (data ++ more) m (rest ++ more) := by
  have hrange := h m.1 ht.mem ht.active data more ht.some
  have hle := (m.1.range_le world data).2
  constructor
  · exact ht.mem
  · exact ht.active
  · rw [hrange]
    exact ht.some
  · rw [Protocol.taken, hrange, List.take_append_of_le_length hle]
    exact ht.bytes
  · rw [hrange, List.drop_append_of_le_length hle, ht.rest]

theorem takes_congr (h : ∀ p, p ∈ protocols ↔ p ∈ protocols') {data rest : ProtoData}
    {m : Protocol σ × ProtoData} (ht : Takes protocols world data m rest) :
    Takes protocols' world data m rest :=
  ⟨(h _).mp ht.mem, ht.active, ht.some, ht.bytes, ht.rest⟩

theorem normal_of_exhausted {data : ProtoData} (h : Exhausted protocols world data) :
    Normal (Takes protocols world) data :=
  fun m _ ht => ht.some (h m.1 ht.mem ht.active)

/-- The dispatcher is on the way from the whole stream to its normal form. -/
def Reduces (protocols : List (Protocol σ)) (world : σ) (stream : ProtoData)
    (d : Dispatcher σ) : Prop :=
  Emits (Takes protocols world) stream d.messages d.data_

theorem Reduces.turn {stream : ProtoData} (hp : p ∈ protocols) (ht : Turn world p d e)
    (h : Reduces protocols world stream d) : Reduces protocols world stream e := by
  unfold Reduces
  cases ht with
  | nothing _ hdata _ hmessages =>
    rw [hdata, hmessages]
    exact h
  | message ha hsome hdata _ hmessages =>
    rw [hmessages]
    exact h.snoc ⟨hp, ha, hsome, rfl, hdata⟩

/-- A call of `appendData` reduces the longer stream, down to its normal form. -/
theorem Reduces.appendData (hpure : PureProtocols protocols world)
    (hstable : Stable protocols world) {stream data : ProtoData}
    (hprotocols : d.protocols_ = protocols) (hv : Visits protocols world d.world)
    (h : Reduces protocols world stream d)
    (he : EndsWith (fun fuel => appendData fuel data d) e) :
    e.protocols_ = protocols ∧ Visits protocols world e.world ∧
      Reduces protocols world (stream ++ data) e ∧ Exhausted protocols world e.data_ := by
  obtain ⟨k, rfl, hend⟩ := passes_of_appendData hpure hprotocols hv he
  have hinsert : Reduces protocols world (stream ++ data) (d.insert data) :=
    h.map (fun buffer => buffer ++ data) fun _ _ _ ht => ht.append hstable data
  obtain ⟨hv', hreduces⟩ := pass_iterate_rec_of_pure hpure (d := d.insert data)
    (fun _ _ _ hp ht hr => hr.turn hp ht) hprotocols hv hinsert k
  exact ⟨(protocols_pass_iterate (d.insert data) k).trans hprotocols, hv', hreduces, hend⟩

theorem Appends.reduces (hpure : PureProtocols protocols world) (hstable : Stable protocols world)
    {chunks : List ProtoData} (h : Appends chunks (fresh protocols world) e) :
    e.protocols_ = protocols ∧ Visits protocols world e.world ∧
      Reduces protocols world chunks.flatten e ∧ Exhausted protocols world e.data_ := by
  generalize hd : fresh protocols world = d at h
  induction h with
  | nil =>
    rw [← hd]
    exact ⟨rfl, .start, .refl [], exhausted_nil⟩
  | snoc _ hlast ih =>
    obtain ⟨hprotocols, hv, hreduces, -⟩ := ih hd
    rw [List.flatten_append, List.flatten_singleton]
    exact hreduces.appendData hpure hstable hprotocols hv hlast

/-- For pure protocols of which one at most consumes from a buffer, and consumes the same
when more bytes follow, neither the cut of the stream into calls nor the order in which
the protocols were added has an effect on the messages consumed and the bytes left. -/
theorem cut_and_order_irrelevant {chunks chunks' : List ProtoData}
    (hpure : PureProtocols protocols world) (hstable : Stable protocols world)
    (hexclusive : Exclusive protocols world) (horder : protocols.Perm protocols')
    (hstream : chunks.flatten = chunks'.flatten) :
    (∃ d, Appends chunks (fresh protocols world) d) ∧
      (∃ d', Appends chunks' (fresh protocols' world) d') ∧
      ∀ d d', Appends chunks (fresh protocols world) d → Appends chunks' (fresh protocols' world) d' →
        d.messages = d'.messages ∧ d.data_ = d'.data_ := by
  refine ⟨exists_appends _ _ _, exists_appends _ _ _, ?_⟩
  intro d d' hd hd'
  have hstable' : Stable protocols' world := fun p hp => hstable p (horder.mem_iff.mpr hp)
  obtain ⟨-, -, hreduces, hend⟩ := hd.reduces hpure hstable
  obtain ⟨-, -, hreduces', hend'⟩ := hd'.reduces (hpure.perm horder) hstable'
  have hsame : Emits (Takes protocols world) chunks.flatten d'.messages d'.data_ := by
    rw [hstream]
    exact hreduces'.map id fun _ _ _ ht => takes_congr (fun p => horder.mem_iff.symm) ht
  have hnormal : Normal (Takes protocols world) d'.data_ :=
    normal_of_exhausted fun p hp => hend' p (horder.mem_iff.mp hp)
  exact hreduces.unique (takes_deterministic hexclusive) (normal_of_exhausted hend) hsame hnormal

/-- A protocol whose messages are the single byte `b`, consumed from the front only. -/
def headByte (b : UInt8) : Protocol Unit where
  isActive _ := true
  consumeOneMessage _ data := ((0, if data.head? = some b then 1 else 0), ())
  inRange _ data := by
    refine ⟨Nat.zero_le _, ?_⟩
    cases data with
    | nil => simp
    | cons c data => simp only; split <;> simp

theorem range_headByte_ne_zero {b : UInt8} {data : ProtoData} :
    ((headByte b).range () data).2 ≠ 0 ↔ data.head? = some b := by
  simp [Protocol.range, headByte]

theorem stable_headByte (bs : List UInt8) : Stable (bs.map headByte) () := by
  intro p hp _ data more hsome
  obtain ⟨b, -, rfl⟩ := List.mem_map.mp hp
  have hhead : data.head? = some b := range_headByte_ne_zero.mp hsome
  simp [Protocol.range, headByte, List.head?_append, hhead]

theorem exclusive_headByte {bs : List UInt8} (h : bs.Nodup) : Exclusive (bs.map headByte) () := by
  refine List.Pairwise.map _ (fun b c hne _ _ data => ?_) h
  by_contra hboth
  have hb := range_headByte_ne_zero.mp (not_or.mp hboth).1
  have hc := range_headByte_ne_zero.mp (not_or.mp hboth).2
  exact hne (Option.some.inj (hb.symm.trans hc))

theorem headBytes_irrelevant :
    ∃ d d', Appends [[1, 2], [1, 3]] (fresh ([1, 2].map headByte) ()) d ∧
      Appends [[1], [], [2, 1, 3]] (fresh ([2, 1].map headByte) ()) d' ∧
      d.messages = d'.messages ∧ d.data_ = d'.data_ := by
  have hstream : [[1, 2], [1, 3]].flatten = [[1], [], [2, 1, (3 : UInt8)]].flatten := rfl
  have hsame : ∀ d d', Appends [[1, 2], [1, 3]] (fresh ([1, 2].map headByte) ()) d →
      Appends [[1], [], [2, 1, 3]] (fresh ([2, 1].map headByte) ()) d' →
      d.messages = d'.messages ∧ d.data_ = d'.data_ :=
    (cut_and_order_irrelevant ⟨fun _ _ _ _ => rfl, fun _ _ _ _ _ _ => rfl⟩
      (stable_headByte [1, 2]) (exclusive_headByte (by decide)) (.swap _ _ _) hstream).2.2
  obtain ⟨d, hd⟩ := exists_appends ([1, 2].map headByte) () [[1, 2], [1, 3]]
  obtain ⟨d', hd'⟩ := exists_appends ([2, 1].map headByte) () [[1], [], [2, 1, 3]]
  exact ⟨d, d', hd, hd', hsame d d' hd hd'⟩

end Dispatcher

end DeviceTester.Protocols

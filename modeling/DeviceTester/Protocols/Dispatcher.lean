import DeviceTester.Lib.Call
import Mathlib.Data.List.Infix
import Mathlib.Logic.Function.Iterate

/-!
# `protocol::DynamicProtocolDispatcher`

A protocol is an external interface. It may keep state and share it with others:
`σ` is the state of all of them together. An iterator into `data_` is its
position, and `data_.begin()` is position zero.
-/
namespace DeviceTester.Protocols

open DeviceTester.Lib

abbrev ProtoData := List UInt8

/-- `protocol::Protocol`, whose `consumeOneMessage` stays inside the range it is given. -/
structure Protocol (σ : Type*) where
  isActive : σ → Bool
  consumeOneMessage : σ → ProtoData → (Nat × Nat) × σ
  inRange : ∀ world data, (consumeOneMessage world data).1.1 ≤ (consumeOneMessage world data).1.2 ∧
    (consumeOneMessage world data).1.2 ≤ data.length

/-- A call of `consumeOneMessage`: the state of the protocols and the data it was made with. -/
structure Consultation (σ : Type*) where
  protocol : Protocol σ
  world : σ
  offered : ProtoData

/-- The object, the state of its protocols, and what it has done: the bytes erased
from the front of `data_` and the calls of `consumeOneMessage`. -/
structure Dispatcher (σ : Type*) where
  protocols_ : List (Protocol σ)
  data_ : ProtoData
  world : σ
  erased : ProtoData
  consulted : List (Consultation σ)

namespace Dispatcher

variable {σ : Type*}

/-- A dispatcher to which `protocols` have been added. -/
def fresh (protocols : List (Protocol σ)) (world : σ) : Dispatcher σ :=
  ⟨protocols, [], world, [], []⟩

/-- The call of `consumeOneMessage` on the whole of `data_`. -/
def consult (d : Dispatcher σ) (p : Protocol σ) : Dispatcher σ :=
  { d with
    world := (p.consumeOneMessage d.world d.data_).2
    consulted := d.consulted ++ [⟨p, d.world, d.data_⟩] }

/-- `data_.erase(data_.begin(), second)`. -/
def eraseFront (d : Dispatcher σ) (second : Nat) : Dispatcher σ :=
  { d with data_ := d.data_.drop second, erased := d.erased ++ d.data_.take second }

def processProtocol (d : Dispatcher σ) (p : Protocol σ) : Dispatcher σ :=
  if !p.isActive d.world then d
  else
    let consumed := (p.consumeOneMessage d.world d.data_).1
    if consumed.2 ≠ 0 then (d.consult p).eraseFront consumed.2 else d.consult p

/-- The loop over some of the protocols. -/
def offer (d : Dispatcher σ) (protocols : List (Protocol σ)) : Dispatcher σ :=
  protocols.foldl processProtocol d

def pass (d : Dispatcher σ) : Dispatcher σ := d.offer d.protocols_

/-- The `while` loop, with `prev_begin` at position zero as `data_.begin()` always is. -/
def processLoop : Nat → Nat → Dispatcher σ → Option (Dispatcher σ)
  | 0, _, _ => none
  | fuel + 1, prevEnd, d =>
      if d.data_ = [] then some d
      else if prevEnd = d.pass.data_.length then some d.pass
      else processLoop fuel d.pass.data_.length d.pass

def processAllData (fuel : Nat) (d : Dispatcher σ) : Option (Dispatcher σ) :=
  processLoop fuel d.data_.length d

/-- `data_.insert(data_.end(), ..)`. -/
def insert (d : Dispatcher σ) (data : ProtoData) : Dispatcher σ :=
  { d with data_ := d.data_ ++ data }

def appendData (fuel : Nat) (data : ProtoData) (d : Dispatcher σ) : Option (Dispatcher σ) :=
  processAllData fuel (d.insert data)

/-- A sequence of `appendData` calls that all return. -/
inductive Appends : List ProtoData → Dispatcher σ → Dispatcher σ → Prop where
  | nil (d : Dispatcher σ) : Appends [] d d
  | snoc {chunks : List ProtoData} {data : ProtoData} {d e f : Dispatcher σ}
      (h : Appends chunks d e) (hlast : EndsWith (fun fuel => appendData fuel data e) f) :
      Appends (chunks ++ [data]) d f

variable {d : Dispatcher σ} {p : Protocol σ}

/-! ## One protocol -/

theorem processProtocol_of_inactive (h : p.isActive d.world = false) :
    d.processProtocol p = d := by
  simp [processProtocol, h]

theorem processProtocol_of_active (h : p.isActive d.world = true) :
    d.processProtocol p =
      (d.consult p).eraseFront (p.consumeOneMessage d.world d.data_).1.2 := by
  unfold processProtocol
  rw [h]
  by_cases hnone : (p.consumeOneMessage d.world d.data_).1.2 = 0
  · simp [hnone, eraseFront, consult]
  · simp [hnone]

/-- What a property needs to survive the call of any protocol at any time. -/
theorem processProtocol_rec {P : Dispatcher σ → Prop} (h : P d)
    (hconsult : p.isActive d.world = true →
      P ((d.consult p).eraseFront (p.consumeOneMessage d.world d.data_).1.2)) :
    P (d.processProtocol p) := by
  cases ha : p.isActive d.world with
  | false => rwa [processProtocol_of_inactive ha]
  | true =>
    rw [processProtocol_of_active ha]
    exact hconsult ha

theorem processProtocol_suffix : (d.processProtocol p).data_ <:+ d.data_ := by
  refine processProtocol_rec (P := fun e => e.data_ <:+ d.data_) List.suffix_rfl fun _ => ?_
  exact List.drop_suffix _ _

/-- A protocol that leaves the length of `data_` as it was is inactive or consumed nothing. -/
theorem consumed_nothing (ha : p.isActive d.world = true)
    (hlen : (d.processProtocol p).data_.length = d.data_.length) :
    (p.consumeOneMessage d.world d.data_).1.2 = 0 := by
  have hle := (p.inRange d.world d.data_).2
  rw [processProtocol_of_active ha] at hlen
  simp only [eraseFront, consult, List.length_drop] at hlen
  omega

/-! ## A pass over the protocols -/

variable {ps : List (Protocol σ)}

@[simp] theorem offer_nil : d.offer [] = d := rfl

@[simp] theorem offer_cons : d.offer (p :: ps) = (d.processProtocol p).offer ps := rfl

theorem offer_append (l r : List (Protocol σ)) : d.offer (l ++ r) = (d.offer l).offer r :=
  List.foldl_append

/-- What every call of a protocol preserves holds after any number of them. -/
theorem offer_rec {P : Dispatcher σ → Prop} (h : P d)
    (hp : ∀ e p, P e → P (e.processProtocol p)) : P (d.offer ps) := by
  induction ps generalizing d with
  | nil => exact h
  | cons p ps ih => exact ih (hp d p h)

theorem pass_iterate_rec {P : Dispatcher σ → Prop} (h : P d)
    (hp : ∀ e p, P e → P (e.processProtocol p)) (k : Nat) : P (pass^[k] d) := by
  induction k generalizing d with
  | zero => exact h
  | succ k ih => exact ih (offer_rec h hp)

theorem offer_suffix : (d.offer ps).data_ <:+ d.data_ :=
  offer_rec (P := fun e => e.data_ <:+ d.data_) List.suffix_rfl
    fun _ _ he => processProtocol_suffix.trans he

/-- The protocols leave `data_` as it is, and each that is active at its turn is
offered all of it and consumes nothing. -/
def Quiet (d : Dispatcher σ) (protocols : List (Protocol σ)) : Prop :=
  ∀ before p after, protocols = before ++ p :: after →
    (d.offer before).data_ = d.data_ ∧
      (p.isActive (d.offer before).world = true →
        (p.consumeOneMessage (d.offer before).world d.data_).1.2 = 0)

/-- Calls that leave as many bytes as there were have consumed none in between. -/
theorem quiet_of_length (hlen : (d.offer ps).data_.length = d.data_.length) : d.Quiet ps := by
  rintro before p after rfl
  rw [offer_append, offer_cons] at hlen
  have hbefore : (d.offer before).data_.length ≤ d.data_.length := offer_suffix.length_le
  have hp := (processProtocol_suffix (d := d.offer before) (p := p)).length_le
  have hafter : (((d.offer before).processProtocol p).offer after).data_.length ≤
      ((d.offer before).processProtocol p).data_.length := offer_suffix.length_le
  have hdata : (d.offer before).data_ = d.data_ :=
    (offer_suffix (d := d)).eq_of_length (by omega)
  refine ⟨hdata, fun ha => ?_⟩
  rw [← hdata]
  exact consumed_nothing ha (by omega)

/-! ## The loop -/

/-- The loop ends after some number of passes, with nothing left or after a pass
that left as many bytes as there were. -/
theorem processLoop_ends (n : Nat) :
    ∀ d : Dispatcher σ, d.data_.length ≤ n →
      ∃ k, processLoop (n + 1) d.data_.length d = some (pass^[k] d) ∧
        ((pass^[k] d).data_ = [] ∨
          ∃ j, k = j + 1 ∧ (pass^[j + 1] d).data_.length = (pass^[j] d).data_.length) := by
  induction n with
  | zero =>
    intro d hd
    have hnil : d.data_ = [] := List.eq_nil_of_length_eq_zero (by omega)
    exact ⟨0, by simp [processLoop, hnil], .inl hnil⟩
  | succ n ih =>
    intro d hd
    by_cases hnil : d.data_ = []
    · exact ⟨0, by simp [processLoop, hnil], .inl hnil⟩
    by_cases hsame : d.data_.length = d.pass.data_.length
    · exact ⟨1, by simp [processLoop, hnil, hsame], .inr ⟨0, rfl, hsame.symm⟩⟩
    · have hle : d.pass.data_.length ≤ d.data_.length := offer_suffix.length_le
      obtain ⟨k, hk, hend⟩ := ih d.pass (by omega)
      refine ⟨k + 1, ?_, ?_⟩
      · rw [processLoop, if_neg hnil, if_neg hsame, hk]
        rfl
      · rcases hend with hempty | ⟨j, rfl, hj⟩
        · exact .inl hempty
        · exact .inr ⟨j + 1, rfl, hj⟩

theorem appendData_ends (data : ProtoData) (d : Dispatcher σ) :
    ∃ k, EndsWith (fun fuel => appendData fuel data d) (pass^[k] (d.insert data)) ∧
      ((pass^[k] (d.insert data)).data_ = [] ∨ ∃ j, k = j + 1 ∧
        (pass^[j + 1] (d.insert data)).data_.length = (pass^[j] (d.insert data)).data_.length) := by
  obtain ⟨k, hk, hend⟩ := processLoop_ends _ (d.insert data) le_rfl
  have hreturns : EndsWith (fun fuel => appendData fuel data d) (pass^[k] (d.insert data)) :=
    ⟨(d.insert data).data_.length + 1, hk⟩
  exact ⟨k, hreturns, hend⟩

/-- One call of `appendData`, on a dispatcher to which `appended` has been appended
before. It returns after `k` passes. At every point of every pass the bytes erased
and `data_` make up what has been appended, and only active protocols have been
consulted. At the end nothing is left, or the last pass was quiet. -/
structure AppendSound (appended : ProtoData) (d : Dispatcher σ) (data : ProtoData) : Prop where
  conserved : ∀ k ps, ps <+: d.protocols_ →
    ((pass^[k] (d.insert data)).offer ps).erased ++ ((pass^[k] (d.insert data)).offer ps).data_ =
      appended ++ data
  consulted : ∀ k ps, ps <+: d.protocols_ →
    ∀ c ∈ ((pass^[k] (d.insert data)).offer ps).consulted, c.protocol.isActive c.world = true
  returns : ∃ k, EndsWith (fun fuel => appendData fuel data d) (pass^[k] (d.insert data)) ∧
    ((pass^[k] (d.insert data)).data_ = [] ∨
      ∃ j, k = j + 1 ∧ (pass^[j + 1] (d.insert data)).data_ = (pass^[j] (d.insert data)).data_ ∧
        (pass^[j] (d.insert data)).Quiet d.protocols_)

/-- What holds between calls on a dispatcher to which `appended` has been appended. -/
structure Sound (appended : ProtoData) (d : Dispatcher σ) : Prop where
  conserved : d.erased ++ d.data_ = appended
  consulted : ∀ c ∈ d.consulted, c.protocol.isActive c.world = true

theorem Sound.processProtocol {appended : ProtoData} (h : d.Sound appended) :
    (d.processProtocol p).Sound appended := by
  refine processProtocol_rec (P := fun e => e.Sound appended) h fun ha => ?_
  constructor
  · simp only [eraseFront, consult]
    rw [List.append_assoc, List.take_append_drop, h.conserved]
  · intro c hc
    rcases List.mem_append.mp hc with hc | hc
    · exact h.consulted c hc
    · rw [List.mem_singleton.mp hc]
      exact ha

theorem protocols_pass_iterate (d : Dispatcher σ) (k : Nat) :
    (pass^[k] d).protocols_ = d.protocols_ := by
  refine pass_iterate_rec (P := fun e => e.protocols_ = d.protocols_) rfl (fun e p he => ?_) k
  exact processProtocol_rec (P := fun f => f.protocols_ = d.protocols_) he fun _ => he

theorem pass_iterate_succ (d : Dispatcher σ) (k : Nat) :
    pass^[k + 1] d = (pass^[k] d).offer d.protocols_ := by
  rw [Function.iterate_succ_apply', pass, protocols_pass_iterate]

theorem appendSound_of_sound {appended : ProtoData} (h : d.Sound appended) (data : ProtoData) :
    d.AppendSound appended data := by
  have hins : (d.insert data).Sound (appended ++ data) := by
    refine ⟨?_, h.consulted⟩
    rw [← h.conserved, List.append_assoc]
    rfl
  have hpoint : ∀ k ps, ((pass^[k] (d.insert data)).offer ps).Sound (appended ++ data) := fun k ps =>
    offer_rec (pass_iterate_rec hins (fun _ _ he => he.processProtocol) k)
      fun _ _ he => he.processProtocol
  refine ⟨fun k ps _ => (hpoint k ps).conserved, fun k ps _ => (hpoint k ps).consulted, ?_⟩
  obtain ⟨k, hreturns, hend⟩ := appendData_ends data d
  refine ⟨k, hreturns, ?_⟩
  rcases hend with hempty | ⟨j, rfl, hlen⟩
  · exact .inl hempty
  · rw [pass_iterate_succ] at hlen
    refine .inr ⟨j, rfl, ?_, quiet_of_length hlen⟩
    rw [pass_iterate_succ]
    exact offer_suffix.eq_of_length hlen

theorem processLoop_deepens (fuel : Nat) :
    ∀ (prevEnd : Nat) (d e : Dispatcher σ), processLoop fuel prevEnd d = some e →
      processLoop (fuel + 1) prevEnd d = some e := by
  induction fuel with
  | zero =>
    intro prevEnd d e h
    cases h
  | succ fuel ih =>
    intro prevEnd d e h
    rw [processLoop] at h ⊢
    split at h
    · rename_i hnil
      rwa [if_pos hnil]
    · rename_i hnil
      rw [if_neg hnil]
      split at h
      · rename_i hsame
        rwa [if_pos hsame]
      · rename_i hsame
        rw [if_neg hsame]
        exact ih _ _ _ h

theorem appendData_deepens (data : ProtoData) (d : Dispatcher σ) :
    Deepens fun fuel => appendData fuel data d :=
  fun fuel e => processLoop_deepens fuel _ _ e

theorem Sound.appendData {appended data : ProtoData} {e : Dispatcher σ} (h : d.Sound appended)
    (he : EndsWith (fun fuel => appendData fuel data d) e) :
    e.Sound (appended ++ data) ∧ e.protocols_ = d.protocols_ := by
  obtain ⟨hconserved, hconsulted, k, hk, -⟩ := appendSound_of_sound h data
  obtain rfl := (appendData_deepens data d).unique hk he
  exact ⟨⟨hconserved k [] List.nil_prefix, hconsulted k [] List.nil_prefix⟩,
    protocols_pass_iterate (d.insert data) k⟩

theorem Appends.sound {chunks : List ProtoData} {e : Dispatcher σ} (h : Appends chunks d e)
    (hd : d.Sound []) : e.Sound chunks.flatten ∧ e.protocols_ = d.protocols_ := by
  induction h with
  | nil => exact ⟨hd, rfl⟩
  | snoc _ hlast ih =>
    obtain ⟨he, hpe⟩ := ih hd
    obtain ⟨hf, hpf⟩ := he.appendData hlast
    rw [List.flatten_append, List.flatten_singleton]
    exact ⟨hf, hpf.trans hpe⟩

theorem sound_fresh (protocols : List (Protocol σ)) (world : σ) :
    (fresh protocols world).Sound [] :=
  ⟨rfl, fun _ hc => by cases hc⟩

theorem exists_appends (protocols : List (Protocol σ)) (world : σ) (chunks : List ProtoData) :
    ∃ d, Appends chunks (fresh protocols world) d := by
  induction chunks using List.reverseRecOn with
  | nil => exact ⟨_, .nil _⟩
  | append_singleton chunks data ih =>
    obtain ⟨d, hd⟩ := ih
    have hsound := (hd.sound (sound_fresh protocols world)).1
    obtain ⟨k, hk, -⟩ := (appendSound_of_sound hsound data).returns
    exact ⟨_, hd.snoc hk⟩

/-- Every sequence of `appendData` calls returns, and each call after it is sound. -/
theorem appendData_sound (protocols : List (Protocol σ)) (world : σ) (chunks : List ProtoData) :
    (∃ d, Appends chunks (fresh protocols world) d) ∧
      ∀ d, Appends chunks (fresh protocols world) d →
        d.protocols_ = protocols ∧ ∀ data, d.AppendSound chunks.flatten data := by
  refine ⟨exists_appends protocols world chunks, fun d hd => ?_⟩
  obtain ⟨hsound, hprotocols⟩ := hd.sound (sound_fresh protocols world)
  exact ⟨hprotocols, appendSound_of_sound hsound⟩

/-- A protocol that skips two bytes and takes the others as its message. -/
def skipTwo : Protocol Unit where
  isActive _ := true
  consumeOneMessage _ data := ((min 2 data.length, data.length), ())
  inRange _ _ := ⟨Nat.min_le_right _ _, le_rfl⟩

example : (appendData 7 [0, 1, 2, 3, 4] (fresh [skipTwo] ())).map data_ = some [] := rfl

theorem skipTwo_sound :
    ∃ d, Appends [[0, 1], []] (fresh [skipTwo] ()) d ∧ d.AppendSound [0, 1] [2] := by
  obtain ⟨d, hd⟩ := (appendData_sound [skipTwo] () [[0, 1], []]).1
  exact ⟨d, hd, ((appendData_sound [skipTwo] () [[0, 1], []]).2 d hd).2 [2]⟩

end Dispatcher

end DeviceTester.Protocols

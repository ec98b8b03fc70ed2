import Mathlib.Data.List.Forall2
import Mathlib.Data.Option.Basic
import Mathlib.Logic.Relation

/-!
# Runs of event-driven systems

A system is a partial step function. `step s e = none` says that the event `e`
cannot happen in the state `s`. A run is the list of its events, and what is
proved of one step is lifted to runs here, once for all systems.
-/
namespace DeviceTester.Lib

variable {σ ε : Type*} {step : σ → ε → Option σ}

/-- The state after a list of events, or `none` when one of them cannot happen. -/
def exec (step : σ → ε → Option σ) : σ → List ε → Option σ
  | s, [] => some s
  | s, e :: es => (step s e).bind fun t => exec step t es

/-- Every step of the run satisfies `P`. The run ends where an event cannot happen. -/
def Along (step : σ → ε → Option σ) (P : σ → ε → σ → Prop) : σ → List ε → Prop
  | _, [] => True
  | s, e :: es => ∀ t ∈ step s e, P s e t ∧ Along step P t es

/-- Steps that satisfy `C` lead from states with `I` to states with `I`. -/
def Keeps (step : σ → ε → Option σ) (C : σ → ε → σ → Prop) (I : σ → Prop) : Prop :=
  ∀ s e t, I s → C s e t → step s e = some t → I t

/-- Some run whose steps all satisfy `C` leads from `s` to `t`. -/
def Reaches (step : σ → ε → Option σ) (C : σ → ε → σ → Prop) (s t : σ) : Prop :=
  ∃ es, exec step s es = some t ∧ Along step C s es

/-- No restriction on the steps of a run. -/
def anyStep (_ : σ) (_ : ε) (_ : σ) : Prop := True

instance Along.decidable {P : σ → ε → σ → Prop} [∀ s e t, Decidable (P s e t)] :
    ∀ (s : σ) (es : List ε), Decidable (Along step P s es)
  | _, [] => isTrue trivial
  | s, e :: es =>
      have : ∀ t, Decidable (Along step P t es) := fun t => Along.decidable t es
      inferInstanceAs (Decidable (∀ t ∈ step s e, P s e t ∧ Along step P t es))

@[simp] theorem exec_nil (s : σ) : exec step s [] = some s := rfl

theorem exec_cons {s t : σ} {e : ε} (h : step s e = some t) (es : List ε) :
    exec step s (e :: es) = exec step t es := by
  simp [exec, h]

theorem exec_cons_some {s u : σ} {e : ε} {es : List ε} (h : exec step s (e :: es) = some u) :
    ∃ t, step s e = some t ∧ exec step t es = some u :=
  Option.bind_eq_some_iff.mp h

theorem exec_append (s : σ) (es fs : List ε) :
    exec step s (es ++ fs) = (exec step s es).bind fun t => exec step t fs := by
  induction es generalizing s with
  | nil => rfl
  | cons e es ih =>
    simp only [List.cons_append, exec, Option.bind_assoc]
    exact congrArg _ (funext ih)

section Along

variable {P Q : σ → ε → σ → Prop}

theorem Along.cons {s t : σ} {e : ε} {es : List ε} (h : Along step P s (e :: es))
    (hs : step s e = some t) : P s e t ∧ Along step P t es :=
  h t hs

theorem along_cons_of {s t : σ} {e : ε} {es : List ε} (hs : step s e = some t)
    (h : P s e t) (htail : Along step P t es) : Along step P s (e :: es) := by
  intro u hu
  obtain rfl : t = u := Option.some.inj (hs.symm.trans hu)
  exact ⟨h, htail⟩

theorem along_of_forall (h : ∀ s e t, P s e t) (s : σ) (es : List ε) : Along step P s es := by
  induction es generalizing s with
  | nil => trivial
  | cons e es ih => exact fun t _ => ⟨h s e t, ih t⟩

theorem Along.of_mem {Q : ε → Prop} {s t : σ} {es : List ε}
    (h : Along step (fun _ e _ => Q e) s es) (he : exec step s es = some t) : ∀ e ∈ es, Q e := by
  induction es generalizing s with
  | nil => simp
  | cons e es ih =>
    obtain ⟨u, hu, htail⟩ := exec_cons_some he
    obtain ⟨hfirst, hrest⟩ := h.cons hu
    exact List.forall_mem_cons.mpr ⟨hfirst, ih hrest htail⟩

theorem along_of_step (h : ∀ s e t, step s e = some t → P s e t) (s : σ) (es : List ε) :
    Along step P s es := by
  induction es generalizing s with
  | nil => trivial
  | cons e es ih => exact fun t ht => ⟨h s e t ht, ih t⟩

theorem along_anyStep (s : σ) (es : List ε) : Along step anyStep s es :=
  along_of_forall (fun _ _ _ => trivial) s es

theorem along_append (s : σ) (es fs : List ε) :
    Along step P s (es ++ fs) ↔
      Along step P s es ∧ ∀ t ∈ exec step s es, Along step P t fs := by
  induction es generalizing s with
  | nil => simp [Along]
  | cons e es ih =>
    simp only [List.cons_append, Along, ih, exec, Option.mem_def, Option.bind_eq_some_iff]
    constructor
    · intro h
      exact ⟨fun t ht => ⟨(h t ht).1, (h t ht).2.1⟩, fun u ⟨t, ht, hu⟩ => (h t ht).2.2 u hu⟩
    · intro h t ht
      exact ⟨(h.1 t ht).1, (h.1 t ht).2, fun u hu => h.2 u ⟨t, ht, hu⟩⟩

/-- The invariant rule: `I` holds after every run whose steps satisfy `C`. -/
theorem Keeps.exec {I : σ → Prop} (hk : Keeps step P I) {s t : σ} {es : List ε} (hs : I s)
    (ha : Along step P s es) (he : exec step s es = some t) : I t := by
  induction es generalizing s with
  | nil => exact Option.some.inj he ▸ hs
  | cons e es ih =>
    obtain ⟨u, hu, htail⟩ := exec_cons_some he
    obtain ⟨hc, ha'⟩ := ha.cons hu
    exact ih (hk s e u hs hc hu) ha' htail

theorem Keeps.reaches {I : σ → Prop} (hk : Keeps step P I) {s t : σ} (hs : I s)
    (h : Reaches step P s t) : I t := by
  obtain ⟨es, he, ha⟩ := h
  exact hk.exec hs ha he

/-- What follows from `P` in one step, under an invariant that `P` keeps, follows along a run. -/
theorem Along.imp {I : σ → Prop}
    (hk : ∀ s e t, I s → P s e t → step s e = some t → I t ∧ Q s e t) {s : σ} {es : List ε}
    (hs : I s) (h : Along step P s es) : Along step Q s es := by
  induction es generalizing s with
  | nil => trivial
  | cons e es ih =>
    intro t ht
    obtain ⟨hp, htail⟩ := h.cons ht
    obtain ⟨hi, hq⟩ := hk s e t hs hp ht
    exact ⟨hq, ih hi htail⟩

/-- What one system can do in a step, another one can follow: it can follow whole runs. -/
theorem exec_simulates {τ : Type*} {step' : τ → ε → Option τ} {R : σ → τ → Prop}
    (hk : ∀ s r e t, R s r → step s e = some t → ∃ u, step' r e = some u ∧ R t u) {s t : σ} {r : τ}
    {es : List ε} (hr : R s r) (he : exec step s es = some t) :
    ∃ u, exec step' r es = some u ∧ R t u := by
  induction es generalizing s r with
  | nil =>
    obtain rfl := Option.some.inj he
    exact ⟨r, rfl, hr⟩
  | cons e es ih =>
    obtain ⟨s', hs', htail⟩ := exec_cons_some he
    obtain ⟨r', hr', hrel⟩ := hk s r e s' hr hs'
    obtain ⟨u, hu, hrel'⟩ := ih hrel htail
    refine ⟨u, ?_, hrel'⟩
    rw [exec_cons hr']
    exact hu

/-- A part of the state that takes a step of its own in every step: its events stand for those of
the whole. -/
theorem exec_follows {τ ε' : Type*} {step' : τ → ε' → Option τ} {S : ε → ε' → Prop} (f : σ → τ)
    (hk : ∀ s e t, step s e = some t → ∃ e', S e e' ∧ step' (f s) e' = some (f t)) {s t : σ}
    {es : List ε} (he : exec step s es = some t) :
    ∃ fs, List.Forall₂ S es fs ∧ exec step' (f s) fs = some (f t) := by
  induction es generalizing s with
  | nil =>
    obtain rfl := Option.some.inj he
    exact ⟨[], .nil, rfl⟩
  | cons e es ih =>
    obtain ⟨u, hu, htail⟩ := exec_cons_some he
    obtain ⟨e', hstands, hstep⟩ := hk s e u hu
    obtain ⟨fs, hfs, hrest⟩ := ih htail
    exact ⟨e' :: fs, .cons hstands hfs, (exec_cons hstep fs).trans hrest⟩

/-- The same for calls that are made one after the other. -/
theorem foldlM_simulates {τ : Type*} {f : σ → ε → Option σ} {g : τ → ε → Option τ}
    {R : σ → τ → Prop}
    (hk : ∀ s r e t, R s r → f s e = some t → ∃ u, g r e = some u ∧ R t u) {s t : σ} {r : τ}
    {es : List ε} (hr : R s r) (he : es.foldlM f s = some t) :
    ∃ u, es.foldlM g r = some u ∧ R t u := by
  induction es generalizing s r with
  | nil =>
    obtain rfl := Option.some.inj he
    exact ⟨r, rfl, hr⟩
  | cons e es ih =>
    rw [List.foldlM_cons] at he
    obtain ⟨s', hs', htail⟩ := Option.bind_eq_some_iff.mp he
    obtain ⟨r', hr', hrel⟩ := hk s r e s' hr hs'
    obtain ⟨u, hu, hrel'⟩ := ih hrel htail
    refine ⟨u, ?_, hrel'⟩
    rw [List.foldlM_cons, hr']
    exact hu

/-- A property of the steps of a run is one of the steps of the run that follows it. -/
theorem Along.simulates {τ : Type*} {step' : τ → ε → Option τ} {R : σ → τ → Prop}
    {P' : τ → ε → τ → Prop}
    (hk : ∀ s r e t, R s r → step s e = some t → ∃ u, step' r e = some u ∧ R t u)
    (hp : ∀ s r e t u, R s r → R t u → P s e t → P' r e u) {s t : σ} {r : τ} {es : List ε}
    (hr : R s r) (he : exec step s es = some t) (h : Along step P s es) :
    Along step' P' r es := by
  induction es generalizing s r with
  | nil => trivial
  | cons e es ih =>
    obtain ⟨s', hs', htail⟩ := exec_cons_some he
    obtain ⟨hfirst, hrest⟩ := h.cons hs'
    obtain ⟨r', hr', hrel⟩ := hk s r e s' hr hs'
    exact along_cons_of hr' (hp s r e s' r' hr hrel hfirst) (ih hrel htail hrest)

/-- What every step appends to a list accumulates over a run. -/
theorem exec_appends {α : Type*} {I : σ → Prop} (m : σ → List α) (added : ε → List α) {s t : σ}
    {es : List ε} (hs : I s) (ha : Along step P s es) (he : exec step s es = some t)
    (hk : ∀ s e t, I s → P s e t → step s e = some t → I t ∧ m t = m s ++ added e) :
    I t ∧ m t = m s ++ (es.map added).flatten := by
  induction es generalizing s with
  | nil =>
    obtain rfl := Option.some.inj he
    simpa using hs
  | cons e es ih =>
    obtain ⟨u, hu, htail⟩ := exec_cons_some he
    obtain ⟨hc, ha'⟩ := ha.cons hu
    obtain ⟨hi, hm⟩ := hk s e u hs hc hu
    obtain ⟨hit, hmt⟩ := ih hi ha' htail
    exact ⟨hit, by rw [hmt, hm, List.map_cons, List.flatten_cons, List.append_assoc]⟩

/-- What the steps of a run bring, each in the state that it finds. -/
def collected {α : Type*} (step : σ → ε → Option σ) (brings : σ → ε → List α) :
    σ → List ε → List α
  | _, [] => []
  | s, e :: es =>
      brings s e ++
        match step s e with
        | some t => collected step brings t es
        | none => []

/-- What does not depend on the states. -/
theorem collected_of_exec {α : Type*} (brings : ε → List α) {s t : σ} {es : List ε}
    (he : exec step s es = some t) :
    collected step (fun _ => brings) s es = (es.map brings).flatten := by
  induction es generalizing s with
  | nil => rfl
  | cons e es ih =>
    obtain ⟨u, hu, htail⟩ := exec_cons_some he
    rw [collected, hu, List.map_cons, List.flatten_cons]
    exact congrArg _ (ih htail)

/-- Some run whose steps satisfy `P` leads from `s` to `t`, and its events bring `brought`. -/
def Brings {α : Type*} (step : σ → ε → Option σ) (P : σ → ε → σ → Prop) (brings : ε → List α)
    (s t : σ) (brought : List α) : Prop :=
  ∃ es, exec step s es = some t ∧ Along step P s es ∧ (es.map brings).flatten = brought

section Brings

variable {α : Type*} {brings : ε → List α} {s t u : σ} {l l' : List α}

theorem Brings.refl (s : σ) : Brings step P brings s s [] := ⟨[], rfl, trivial, rfl⟩

theorem Brings.of_step {e : ε} (h : step s e = some t) (hp : P s e t) :
    Brings step P brings s t (brings e) :=
  ⟨[e], exec_cons h [], along_cons_of h hp trivial, List.append_nil _⟩

theorem Brings.trans (h : Brings step P brings s t l) (h' : Brings step P brings t u l') :
    Brings step P brings s u (l ++ l') := by
  obtain ⟨es, he, ha, rfl⟩ := h
  obtain ⟨fs, hf, hb, rfl⟩ := h'
  refine ⟨es ++ fs, ?_, ?_, ?_⟩
  · rw [exec_append, he]
    exact hf
  · refine (along_append s es fs).mpr ⟨ha, fun v hv => ?_⟩
    obtain rfl : t = v := Option.some.inj (he.symm.trans hv)
    exact hb
  · rw [List.map_append, List.flatten_append]

/-- A system that a relation ties to another one: where each of its steps is a run of the other
system, so is each of its runs, and what the steps bring is what the events of the other one do. -/
theorem exec_brings_related {τ ε' : Type*} {outer : τ → ε' → Option τ} {P' : τ → ε' → τ → Prop}
    {R : τ → σ → Prop} {brought : τ → ε' → List α}
    (hstep : ∀ a r e b, R a r → outer a e = some b → P' a e b →
      ∃ u, Brings step P brings r u (brought a e) ∧ R b u)
    {a b : τ} {r : σ} {es : List ε'} (hr : R a r) (he : exec outer a es = some b)
    (ha : Along outer P' a es) :
    ∃ u, Brings step P brings r u (collected outer brought a es) ∧ R b u := by
  induction es generalizing a r with
  | nil =>
    obtain rfl := Option.some.inj he
    exact ⟨r, .refl r, hr⟩
  | cons e es ih =>
    obtain ⟨c, hc, htail⟩ := exec_cons_some he
    obtain ⟨hp, ha'⟩ := ha.cons hc
    obtain ⟨v, hfirst, hv⟩ := hstep a r e c hr hc hp
    obtain ⟨u, hrest, hu⟩ := ih hv htail ha'
    rw [collected, hc]
    exact ⟨u, hfirst.trans hrest, hu⟩

/-- The same for a system around another one. -/
theorem exec_brings {τ ε' : Type*} {outer : τ → ε' → Option τ} {P' : τ → ε' → τ → Prop}
    (inner : τ → σ) (brought : τ → ε' → List α)
    (hstep : ∀ a e b, outer a e = some b → P' a e b →
      Brings step P brings (inner a) (inner b) (brought a e))
    {a b : τ} {es : List ε'} (he : exec outer a es = some b) (ha : Along outer P' a es) :
    Brings step P brings (inner a) (inner b) (collected outer brought a es) := by
  obtain ⟨u, hu, rfl⟩ := exec_brings_related (R := fun a r => inner a = r)
    (fun a r e b hr hs hp => ⟨inner b, hr ▸ hstep a e b hs hp, rfl⟩) rfl he ha
  exact hu

/-- A run of a system is one of any system that it is a part of. -/
theorem Brings.map {τ ε' : Type*} {step' : τ → ε' → Option τ} {P' : τ → ε' → τ → Prop}
    {brings' : ε' → List α} (f : σ → τ) (g : ε → ε')
    (hstep : ∀ s e t, step s e = some t → P s e t →
      step' (f s) (g e) = some (f t) ∧ P' (f s) (g e) (f t))
    (hbrings : ∀ e, brings' (g e) = brings e) (h : Brings step P brings s t l) :
    Brings step' P' brings' (f s) (f t) l := by
  obtain ⟨es, he, ha, rfl⟩ := h
  induction es generalizing s with
  | nil =>
    obtain rfl := Option.some.inj he
    exact .refl _
  | cons e es ih =>
    obtain ⟨u, hu, htail⟩ := exec_cons_some he
    obtain ⟨hp, ha'⟩ := ha.cons hu
    obtain ⟨hs, hp'⟩ := hstep s e u hu hp
    rw [List.map_cons, List.flatten_cons, ← hbrings e]
    exact (Brings.of_step hs hp').trans (ih htail ha')

/-- And a run of a system that never leaves a part of it is one of that part. -/
theorem Brings.unmap {τ ε' : Type*} {step' : τ → ε' → Option τ} {P' : τ → ε' → τ → Prop}
    {brings' : ε' → List α} (f : σ → τ)
    (hstep : ∀ s e' b, step' (f s) e' = some b → P' (f s) e' b →
      ∃ e t, b = f t ∧ step s e = some t ∧ P s e t ∧ brings e = brings' e')
    {b : τ} (h : Brings step' P' brings' (f s) b l) : ∃ t, b = f t ∧ Brings step P brings s t l := by
  obtain ⟨es, he, ha, rfl⟩ := h
  induction es generalizing s with
  | nil => exact ⟨s, (Option.some.inj he).symm, .refl s⟩
  | cons e' es ih =>
    obtain ⟨c, hc, htail⟩ := exec_cons_some he
    obtain ⟨hp', ha'⟩ := ha.cons hc
    obtain ⟨e, u, rfl, hu, hp, hbrings⟩ := hstep s e' c hc hp'
    obtain ⟨t, rfl, hrest⟩ := ih htail ha'
    refine ⟨t, rfl, ?_⟩
    rw [List.map_cons, List.flatten_cons, ← hbrings]
    exact (Brings.of_step hu hp).trans hrest

end Brings

/-- Under an invariant of every step, two properties of steps that agree where
the invariant holds agree along every run. -/
theorem along_congr {I : σ → Prop} (hk : Keeps step anyStep I)
    (hpq : ∀ s e t, I s → step s e = some t → (P s e t ↔ Q s e t)) {s : σ} (hs : I s)
    (es : List ε) : Along step P s es ↔ Along step Q s es := by
  induction es generalizing s with
  | nil => exact Iff.rfl
  | cons e es ih =>
    refine forall₂_congr fun t ht => ?_
    rw [hpq s e t hs ht, ih (hk s e t hs trivial ht)]

/-- A run keeps to `P` and to the invariant that goes with it, or leaves `P` at some
step and ends where leaving it leads to. -/
theorem along_or_of_leave {I B : σ → Prop} (hk : Keeps step P I)
    (hleave : ∀ s e t, I s → ¬ P s e t → step s e = some t → B t) (hb : Keeps step anyStep B)
    {s t : σ} {es : List ε} (hs : I s) (he : exec step s es = some t) :
    (Along step P s es ∧ I t) ∨ (¬ Along step P s es ∧ B t) := by
  induction es generalizing s with
  | nil => exact .inl ⟨trivial, Option.some.inj he ▸ hs⟩
  | cons e es ih =>
    obtain ⟨u, hu, htail⟩ := exec_cons_some he
    by_cases hp : P s e u
    · rcases ih (hk s e u hs hp hu) htail with ⟨ha, hi⟩ | ⟨ha, hbt⟩
      · exact .inl ⟨along_cons_of hu hp ha, hi⟩
      · exact .inr ⟨fun h => ha (h.cons hu).2, hbt⟩
    · refine .inr ⟨fun h => hp (h.cons hu).1, ?_⟩
      exact hb.exec (hleave s e u hs hp hu) (along_anyStep u es) htail

/-- Where the step property implies that the invariant is kept, the first step
that breaks `C` breaks `Q`: the two agree along every run. -/
theorem along_iff_of_first {I : σ → Prop}
    (hk : ∀ s e t, I s → step s e = some t → P s e t → I t)
    (hpq : ∀ s e t, I s → step s e = some t → (P s e t ↔ Q s e t)) {s : σ} (hs : I s)
    (es : List ε) : Along step P s es ↔ Along step Q s es := by
  induction es generalizing s with
  | nil => exact Iff.rfl
  | cons e es ih =>
    refine forall₂_congr fun t ht => ?_
    rw [hpq s e t hs ht]
    refine and_congr_right fun hq => ih ?_
    exact hk s e t hs ht ((hpq s e t hs ht).mpr hq)

/-- A property of states that each step adds `P` to holds after a run exactly where it held
before and every step satisfies `P`. -/
theorem holds_iff_along {I S : σ → Prop} (hk : Keeps step anyStep I)
    (hstep : ∀ s e t, I s → step s e = some t → (S t ↔ S s ∧ P s e t)) {s t : σ} {es : List ε}
    (hs : I s) (he : exec step s es = some t) : S t ↔ S s ∧ Along step P s es := by
  induction es generalizing s with
  | nil =>
    obtain rfl := Option.some.inj he
    exact (and_iff_left trivial).symm
  | cons e es ih =>
    obtain ⟨u, hu, htail⟩ := exec_cons_some he
    rw [ih (hk s e u hs trivial hu) htail, hstep s e u hs hu, and_assoc]
    apply and_congr_right
    intro _
    constructor
    · intro h
      exact along_cons_of hu h.1 h.2
    · intro h
      exact h.cons hu

/-- A step function whose events can always happen. -/
def always {τ : Type*} (f : τ → ε → τ) (r : τ) (e : ε) : Option τ := some (f r e)

/-- A run beside a run of what the system is to do: where the steps of the two correspond as
long as `N` holds, and their properties agree, the runs agree. -/
theorem along_iff_of_lockstep {τ : Type*} {f : τ → ε → τ} {R : σ → τ → Prop}
    {N Q : τ → ε → τ → Prop}
    (h : ∀ s r e, R s r → N r e (f r e) →
      ∃ t, step s e = some t ∧ R t (f r e) ∧ (P s e t ↔ Q r e (f r e)))
    {s : σ} {r : τ} (hr : R s r) (es : List ε) (hn : Along (always f) N r es) :
    Along step P s es ↔ Along (always f) Q r es := by
  induction es generalizing s r with
  | nil => exact Iff.rfl
  | cons e es ih =>
    obtain ⟨hne, hntail⟩ := hn.cons rfl
    obtain ⟨t, hs, ht, hpq⟩ := h s r e hr hne
    have htail := ih ht hntail
    constructor
    · intro ha
      obtain ⟨hp, ha'⟩ := ha.cons hs
      exact along_cons_of rfl (hpq.mp hp) (htail.mp ha')
    · intro ha
      obtain ⟨hq, ha'⟩ := ha.cons rfl
      exact along_cons_of hs (hpq.mpr hq) (htail.mpr ha')

end Along

theorem Reaches.refl (C : σ → ε → σ → Prop) (s : σ) : Reaches step C s s :=
  ⟨[], rfl, trivial⟩

theorem Reaches.head {C : σ → ε → σ → Prop} {s t u : σ} {e : ε} (hs : step s e = some t)
    (hc : C s e t) (h : Reaches step C t u) : Reaches step C s u := by
  obtain ⟨es, he, ha⟩ := h
  exact ⟨e :: es, (exec_cons hs es).trans he, along_cons_of hs hc ha⟩

theorem Reaches.trans {C : σ → ε → σ → Prop} {s t u : σ} (h : Reaches step C s t)
    (h' : Reaches step C t u) : Reaches step C s u := by
  obtain ⟨es, he, ha⟩ := h
  obtain ⟨fs, hf, hb⟩ := h'
  refine ⟨es ++ fs, ?_, ?_⟩
  · rw [exec_append, he]
    exact hf
  · refine (along_append s es fs).mpr ⟨ha, fun v hv => ?_⟩
    obtain rfl : t = v := Option.some.inj (he.symm.trans hv)
    exact hb

end DeviceTester.Lib

import Mathlib.Data.List.Basic

/-!
# Serving a queue in turns

A queue holds the servers that are asked for, in the order of the requests. The servers
take turns in a fixed order: each serves the first request for it, and the requests
that stand before that one are lost.
-/
namespace DeviceTester.Lib

variable {α : Type*}

/-- The turn of the server `p`: what is lost of the queue, and what is left of it. -/
inductive Serves (p : α) : List α → List α → List α → Prop where
  | idle {queue : List α} (h : p ∉ queue) : Serves p queue [] queue
  | serve {lost queue : List α} (h : p ∉ lost) : Serves p (lost ++ p :: queue) lost queue

/-- One turn each, in the order given. -/
inductive Round : List α → List α → List α → List α → Prop where
  | nil (queue : List α) : Round [] queue [] queue
  | cons {p : α} {ps queue queue' queue'' lost lost' : List α} (h : Serves p queue lost queue')
      (htail : Round ps queue' lost' queue'') : Round (p :: ps) queue (lost ++ lost') queue''

/-- Any number of rounds. -/
inductive Rounds (order : List α) : List α → List α → List α → Prop where
  | nil (queue : List α) : Rounds order queue [] queue
  | cons {queue queue' queue'' lost lost' : List α} (h : Round order queue lost queue')
      (htail : Rounds order queue' lost' queue'') : Rounds order queue (lost ++ lost') queue''

/-- The requests come in rounds: each is in the order of the servers, and has every
server that is asked for after it. -/
inductive InTurn (order : List α) : List α → Prop where
  | nil : InTurn order []
  | round {turn queue : List α} (hne : turn ≠ []) (hturn : turn.Sublist order)
      (hlater : ∀ p ∈ queue, p ∈ turn) (hrest : InTurn order queue) : InTurn order (turn ++ queue)

variable {p : α} {ps order queue queue' lost turn rest : List α}

/-- A round that loses nothing serves requests in the order of the servers, among them
every server that is asked for later. -/
theorem Round.exists_turn (h : Round ps queue lost queue') (hlost : lost = []) :
    ∃ turn, queue = turn ++ queue' ∧ turn.Sublist ps ∧ ∀ p ∈ queue', p ∈ ps → p ∈ turn := by
  induction h with
  | nil queue => exact ⟨[], rfl, List.Sublist.refl [], fun _ _ hp => hp⟩
  | @cons p ps queue queue₁ queue₂ lost lost' hserves _ ih =>
    obtain ⟨rfl, hlost'⟩ := List.append_eq_nil_iff.mp hlost
    obtain ⟨turn, rfl, hturn, hlater⟩ := ih hlost'
    cases hserves with
    | idle hp =>
      refine ⟨turn, rfl, hturn.cons p, fun q hq hmem => ?_⟩
      rcases List.mem_cons.mp hmem with rfl | hmem
      · exact absurd (List.mem_append_right _ hq) hp
      · exact hlater q hq hmem
    | serve _ =>
      refine ⟨p :: turn, rfl, hturn.cons_cons p, fun q hq hmem => ?_⟩
      rcases List.mem_cons.mp hmem with rfl | hmem
      · exact List.mem_cons_self
      · exact List.mem_cons_of_mem _ (hlater q hq hmem)

theorem sublist_of_not_mem (h : turn.Sublist (p :: ps)) (hp : p ∉ turn) : turn.Sublist ps := by
  cases h with
  | cons _ hsub => exact hsub
  | cons_cons _ _ => exact absurd List.mem_cons_self hp

theorem exists_cons_of_mem (h : turn.Sublist (p :: ps)) (hp : p ∈ turn) (hps : p ∉ ps) :
    ∃ turn', turn = p :: turn' ∧ turn'.Sublist ps := by
  cases h with
  | cons _ hsub => exact absurd (hsub.subset hp) hps
  | cons_cons _ hsub => exact ⟨_, rfl, hsub⟩

/-- When the queue starts with requests in the order of the servers, among them every
server that is asked for later, the round serves these and loses nothing. -/
theorem Round.of_turn (h : Round ps queue lost queue')
    (hone : ps.Pairwise fun p q => p = q → p ∉ queue) (hqueue : queue = turn ++ rest)
    (hturn : turn.Sublist ps) (hlater : ∀ p ∈ rest, p ∈ ps → p ∈ turn) :
    lost = [] ∧ queue' = rest := by
  induction h generalizing turn with
  | nil queue =>
    obtain rfl := List.sublist_nil.mp hturn
    exact ⟨rfl, hqueue⟩
  | @cons p ps queue queue₁ queue₂ lost lost' hserves _ ih =>
    obtain ⟨hp, hone'⟩ := List.pairwise_cons.mp hone
    by_cases hasked : p ∈ queue
    · have hps : p ∉ ps := fun hmem => hp p hmem rfl hasked
      have hserved : p ∈ turn := by
        rw [hqueue] at hasked
        rcases List.mem_append.mp hasked with hserved | hrest
        · exact hserved
        · exact hlater p hrest List.mem_cons_self
      obtain ⟨turn, rfl, hsub⟩ := exists_cons_of_mem hturn hserved hps
      cases hserves with
      | idle hnot => exact absurd hasked hnot
      | serve hnot =>
        cases lost with
        | cons q lost =>
          have hpq : q = p := (List.cons.inj hqueue).1
          exact absurd (hpq ▸ List.mem_cons_self) hnot
        | nil =>
          refine ih ?_ (List.cons.inj hqueue).2 hsub fun q hq hmem => ?_
          · exact hone'.imp fun hpq heq hmem => hpq heq (List.mem_cons_of_mem _ hmem)
          · rcases List.mem_cons.mp (hlater q hq (List.mem_cons_of_mem _ hmem)) with rfl | hmem'
            · exact absurd hmem hps
            · exact hmem'
    · have hnot : p ∉ turn := fun hmem => hasked (hqueue ▸ List.mem_append_left _ hmem)
      have hsub : turn.Sublist ps := sublist_of_not_mem hturn hnot
      cases hserves with
      | serve _ => exact absurd (List.mem_append_right _ List.mem_cons_self) hasked
      | idle _ =>
        exact ih hone' hqueue hsub fun q hq hmem => hlater q hq (List.mem_cons_of_mem _ hmem)

theorem InTurn.first (h : InTurn order queue) : ∃ turn rest, queue = turn ++ rest ∧
    turn.Sublist order ∧ (∀ p ∈ rest, p ∈ turn) ∧ InTurn order rest := by
  cases h with
  | nil => exact ⟨[], [], rfl, List.nil_sublist _, fun _ hp => hp, .nil⟩
  | round _ hturn hlater hrest => exact ⟨_, _, rfl, hturn, hlater, hrest⟩

/-- Rounds that empty the queue lose nothing exactly when the requests come in turn. -/
theorem Rounds.lost_eq_nil_iff (h : Rounds order queue lost queue') (hempty : queue' = [])
    (hmem : ∀ p ∈ queue, p ∈ order) (hone : order.Pairwise fun p q => p = q → p ∉ queue) :
    lost = [] ↔ InTurn order queue := by
  induction h with
  | nil queue =>
    rw [hempty]
    exact iff_of_true rfl .nil
  | @cons queue queue₁ queue₂ lost lost' hround _ ih =>
    constructor
    · intro hlost
      obtain ⟨rfl, hlost'⟩ := List.append_eq_nil_iff.mp hlost
      obtain ⟨turn, rfl, hturn, hlater⟩ := hround.exists_turn rfl
      have hmem' : ∀ p ∈ queue₁, p ∈ order := fun p hp => hmem p (List.mem_append_right _ hp)
      have hone' : order.Pairwise fun p q => p = q → p ∉ queue₁ :=
        hone.imp fun hpq heq hp => hpq heq (List.mem_append_right _ hp)
      have hlater' : ∀ p ∈ queue₁, p ∈ turn := fun p hp => hlater p hp (hmem' p hp)
      have hrest := (ih hempty hmem' hone').mp hlost'
      by_cases hne : turn = []
      · subst hne
        exact hrest
      · exact .round hne hturn hlater' hrest
    · intro hinTurn
      obtain ⟨turn, rest, rfl, hturn, hlater, hrest⟩ := hinTurn.first
      obtain ⟨rfl, rfl⟩ := hround.of_turn hone rfl hturn fun p hp _ => hlater p hp
      rw [List.nil_append]
      refine (ih hempty (fun p hp => hmem p (List.mem_append_right _ hp)) ?_).mpr hrest
      exact hone.imp fun hpq heq hp => hpq heq (List.mem_append_right _ hp)

end DeviceTester.Lib

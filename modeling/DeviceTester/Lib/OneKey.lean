import Mathlib.Data.List.AList

/-!
# Maps that store a value under one key at most
-/
namespace DeviceTester.Lib

variable {α β : Type*} [DecidableEq α] {s s' : AList fun _ : α => β} {k k' : α} {v v' : β}

theorem lookup_erase_eq_some :
    (s.erase k').lookup k = some v ↔ k ≠ k' ∧ s.lookup k = some v := by
  by_cases h : k = k'
  · subst h
    simp [AList.lookup_erase]
  · rw [AList.lookup_erase_ne h]
    simp [h]

theorem lookup_insert_eq_some :
    (s.insert k' v').lookup k = some v ↔ k = k' ∧ v' = v ∨ k ≠ k' ∧ s.lookup k = some v := by
  by_cases h : k = k'
  · subst h
    simp [AList.lookup_insert]
  · rw [AList.lookup_insert_ne h]
    simp [h]

theorem erase_insert : (s.insert k v).erase k = s.erase k := by
  apply AList.ext
  exact List.kerase_cons_eq rfl

theorem mem_iff_of_lookup (h : s'.lookup k = s.lookup k) : k ∈ s' ↔ k ∈ s := by
  rw [← AList.lookup_isSome, ← AList.lookup_isSome, h]

def Stores (s : AList fun _ : α => β) (v : β) : Prop := ∃ k, s.lookup k = some v

theorem stores_iff : Stores s v ↔ v ∈ s.entries.map Sigma.snd := by
  constructor
  · intro h
    obtain ⟨k, hk⟩ := h
    exact List.mem_map.mpr ⟨⟨k, v⟩, AList.mem_lookup_iff.mp hk, rfl⟩
  · intro h
    obtain ⟨⟨k, v'⟩, hmem, rfl⟩ := List.mem_map.mp h
    exact ⟨k, AList.mem_lookup_iff.mpr hmem⟩

instance [DecidableEq β] (s : AList fun _ : α => β) (v : β) : Decidable (Stores s v) :=
  decidable_of_iff _ stores_iff.symm

theorem Stores.of_erase (h : Stores (s.erase k) v) : Stores s v := by
  obtain ⟨k', hk'⟩ := h
  exact ⟨k', (lookup_erase_eq_some.mp hk').2⟩

theorem Stores.of_insert (h : Stores (s.insert k v') v) :
    v' = v ∨ ∃ k', k' ≠ k ∧ s.lookup k' = some v := by
  obtain ⟨k', hk'⟩ := h
  rcases lookup_insert_eq_some.mp hk' with ⟨-, hv⟩ | hold
  · exact .inl hv
  · exact .inr ⟨k', hold⟩

/-- No value is stored under two keys. -/
def OneKey (s : AList fun _ : α => β) : Prop :=
  ∀ ⦃k k' v⦄, s.lookup k = some v → s.lookup k' = some v → k = k'

theorem oneKey_empty : OneKey (∅ : AList fun _ : α => β) := by
  intro k k' v h
  cases h

theorem OneKey.erase (h : OneKey s) (k : α) : OneKey (s.erase k) :=
  fun _ _ _ h₁ h₂ => h (lookup_erase_eq_some.mp h₁).2 (lookup_erase_eq_some.mp h₂).2

/-- A value that is new to the map may be stored under any key. -/
theorem OneKey.insert (h : OneKey s) (hv : ¬ Stores s v) (k : α) : OneKey (s.insert k v) := by
  intro k₁ k₂ w h₁ h₂
  rcases lookup_insert_eq_some.mp h₁ with ⟨hk₁, hw⟩ | ⟨-, h₁⟩
  · rcases lookup_insert_eq_some.mp h₂ with ⟨hk₂, -⟩ | ⟨-, h₂⟩
    · exact hk₁.trans hk₂.symm
    · exact absurd ⟨k₂, hw ▸ h₂⟩ hv
  · rcases lookup_insert_eq_some.mp h₂ with ⟨-, hw⟩ | ⟨-, h₂⟩
    · exact absurd ⟨k₁, hw ▸ h₁⟩ hv
    · exact h h₁ h₂

/-- The value under the erased key is stored no more. -/
theorem OneKey.ne_of_stores_erase (h : OneKey s) (hs : Stores (s.erase k) v) :
    s.lookup k ≠ some v := by
  obtain ⟨k', hk'⟩ := hs
  obtain ⟨hne, hold⟩ := lookup_erase_eq_some.mp hk'
  exact fun hk => hne (h hold hk)

end DeviceTester.Lib

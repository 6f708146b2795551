import ModuleIndex.Index.Category
import Mathlib.Data.Set.Operations
import Mathlib.Tactic.SplitIfs

/-!
# Keys and their categories

A key has one category, which has that key again. Other categories are none of any key: they
would hold a known key as if it were unknown.
-/

namespace ModuleIndex.Category

/-- A key that some known category has. -/
def IsKnownKey (key : String) : Prop := ∃ c : Category, c.isKnown = true ∧ c.key = key

/-! ## From keys to categories -/

/-- One test of a key against a known one. -/
theorem key_ite {key known : String} {c other : Category} (hc : c.key = known)
    (hother : other.key = key) : (if key = known then c else other).key = key := by
  split_ifs with h
  · rw [hc, h]
  · exact hother

theorem key_ofKey (key : String) : (ofKey key).key = key := by
  unfold ofKey
  repeat refine key_ite rfl ?_
  rfl

theorem ofKey_injective : Function.Injective ofKey :=
  Function.LeftInverse.injective key_ofKey

theorem eq_of_ofKey_eq_other {key held : String} (h : ofKey key = .other held) : held = key := by
  have hkey := key_ofKey key
  rwa [h] at hkey

theorem ofGivenKey_eq_ofKey (key : String) : ofGivenKey key = ofKey key := by
  unfold ofGivenKey
  split
  · next held h => rw [h, eq_of_ofKey_eq_other h]
  · rfl

/-! ## From categories to keys -/

/-- No known category has lost its key. -/
theorem ofKey_key {c : Category} (h : c.isKnown = true) : ofKey c.key = c := by
  cases c with
  | other held => simp [isKnown] at h
  | _ => rfl

theorem isKnown_ofKey_iff (key : String) : (ofKey key).isKnown = true ↔ IsKnownKey key := by
  constructor
  · intro h
    exact ⟨ofKey key, h, key_ofKey key⟩
  · rintro ⟨c, hc, rfl⟩
    rwa [ofKey_key hc]

theorem eq_other_of_not_isKnown {c : Category} (h : ¬ c.isKnown = true) : c = .other c.key := by
  cases c with
  | other held => rfl
  | _ => simp [isKnown] at h

theorem ofKey_of_not_isKnownKey {key : String} (h : ¬ IsKnownKey key) : ofKey key = .other key := by
  rw [← isKnown_ofKey_iff] at h
  have hother := eq_other_of_not_isKnown h
  rwa [key_ofKey] at hother

theorem mem_range_ofKey_iff (c : Category) :
    c ∈ Set.range ofKey ↔
      c.isKnown = true ∨ ∃ held, c = .other held ∧ ¬ IsKnownKey held := by
  constructor
  · rintro ⟨key, rfl⟩
    by_cases h : IsKnownKey key
    · exact .inl ((isKnown_ofKey_iff key).mpr h)
    · exact .inr ⟨key, ofKey_of_not_isKnownKey h, h⟩
  · rintro (h | ⟨held, rfl, h⟩)
    · exact ⟨c.key, ofKey_key h⟩
    · exact ⟨held, ofKey_of_not_isKnownKey h⟩

/-! ## One to one -/

/-- However a category is made from a key, it has this key, and another key has another category.
The categories that come from keys are the ones that their key leads back to: the known ones, and
those that hold a key that is not known. -/
theorem keys_one_to_one :
    (∀ key, (ofKey key).key = key ∧ ofLentKey key = ofKey key ∧ ofGivenKey key = ofKey key) ∧
    (∀ c, c ∈ Set.range ofKey ↔ ofKey c.key = c) ∧
    (∀ k₁ k₂, ofKey k₁ = ofKey k₂ ↔ k₁ = k₂) ∧
    ∀ c, c ∈ Set.range ofKey ↔
      c.isKnown = true ∨ ∃ held, c = .other held ∧ ¬ IsKnownKey held := by
  refine ⟨fun key => ⟨key_ofKey key, rfl, ofGivenKey_eq_ofKey key⟩, fun c => ⟨?_, ?_⟩,
    fun _ _ => ofKey_injective.eq_iff, mem_range_ofKey_iff⟩
  · rintro ⟨key, rfl⟩
    rw [key_ofKey]
  · intro h
    exact ⟨c.key, h⟩

end ModuleIndex.Category

import ModuleIndex.Proofs.Index.WellFormed
import ModuleIndex.Proofs.Json.RoundTrip

/-!
# The JSON form is faithful

The JSON form of a well-formed index is a value that can be written, and the index is read from
it again.
-/

namespace ModuleIndex

namespace Index

/-! ## Reading the JSON form -/

theorem entryOfJson_toJson (category : String) (entry : Nat) (e : Entry) :
    entryOfJson category entry e.toJson = .ok e := by
  simp [entryOfJson, Entry.toJson, fieldOfJson, bind, Except.bind]

theorem entriesOfJson_toJson (category : String) (entry : Nat) (es : List Entry) :
    entriesOfJson category entry (es.map Entry.toJson) = .ok es := by
  induction es generalizing entry with
  | nil => rfl
  | cons e es ih =>
    simp [entriesOfJson, entryOfJson_toJson, ih, bind, Except.bind]

/-- The field of a section in the JSON form. -/
def fieldOf (s : Section) : String × Json.Value :=
  (s.category.key, .array (s.entries.map Entry.toJson))

theorem toJson_eq (index : Index) : index.toJson = .object (index.sections.map fieldOf) := rfl

/-- Sections are added from their fields again, behind those that are there. -/
theorem addFields_toJson (before ss : List Section) (h : WellFormed ⟨before ++ ss⟩) :
    addFields ⟨before⟩ (ss.map fieldOf) = .ok ⟨before ++ ss⟩ := by
  induction ss generalizing before with
  | nil => simp [addFields]
  | cons s ss ih =>
    have hs : s ∈ before ++ s :: ss := by simp
    have hnew : s.category ∉ categories ⟨before⟩ := by
      intro hmem
      have hnodup := h.nodup_categories
      rw [categories, List.map_append] at hnodup
      exact List.disjoint_of_nodup_append hnodup hmem (by simp)
    have hadd : addSection ⟨before⟩ s = .ok ⟨before ++ [s]⟩ :=
      addSection_eq_ok_iff.mpr ⟨hnew, h.nodup_names s hs, rfl⟩
    have hsection : (⟨.ofKey s.category.key, s.entries⟩ : Section) = s := by
      rw [h.ofKey_key s hs]
    have ih := ih (before ++ [s]) (by simpa using h)
    rw [List.append_assoc, List.singleton_append] at ih
    simp only [List.map_cons, fieldOf, addFields, entriesOfJson_toJson, hsection, hadd, bind,
      Except.bind]
    exact ih

theorem ofJson_toJson {index : Index} (h : index.WellFormed) : ofJson index.toJson = .ok index :=
  addFields_toJson [] index.sections h

/-! ## Writing the JSON form -/

theorem fits_entry (levels : Nat) (e : Entry) : e.toJson.Fits (levels + 1) := by
  simp [Entry.toJson, Json.Value.Fits]

theorem keys_nodup {index : Index} (h : index.WellFormed) :
    (index.sections.map (·.category.key)).Nodup := by
  have hcategories : (index.sections.map (·.category.key)).map Category.ofKey = index.categories := by
    rw [List.map_map, categories]
    exact List.map_congr_left h.ofKey_key
  apply List.Nodup.of_map Category.ofKey
  rw [hcategories]
  exact h.nodup_categories

theorem fits_toJson {index : Index} (h : index.WellFormed) (levels : Nat) :
    index.toJson.Fits (levels + 3) := by
  rw [toJson_eq]
  refine ⟨?_, ?_⟩
  · simpa [fieldOf, Function.comp_def] using keys_nodup h
  · rw [List.forall_mem_map]
    intro s _
    show ∀ v ∈ s.entries.map Entry.toJson, v.Fits (levels + 1)
    rw [List.forall_mem_map]
    intro e _
    exact fits_entry levels e

end Index

end ModuleIndex

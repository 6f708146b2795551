import ModuleIndex.Proofs.Index.Shape
import Mathlib.Data.Set.Function

/-!
# JSON values and indexes

Reading a JSON value and writing an index undo one another: a value that is read is the JSON form
of its index, with the same order of categories and entries.
-/

namespace ModuleIndex.Index

variable {index index' : Index} {v : Json.Value}

theorem entries_eq_of_entriesOfJson {category : String} {entry : Nat} {vs : List Json.Value}
    {es : List Entry} (h : entriesOfJson category entry vs = .ok es) : vs = es.map Entry.toJson := by
  obtain ⟨es', rfl⟩ | ⟨before, v, after, fault, rfl, hfault⟩ := entries_cases category entry vs
  · rw [entriesOfJson_toJson, Except.ok.injEq] at h
    rw [h]
  · simp [entriesOfJson_of_fault before entry after hfault] at h

/-- A field that is added is the field of the section that it adds. -/
theorem exists_section_of_addFields_cons {f : String × Json.Value}
    {fields : List (String × Json.Value)} (h : index.addFields (f :: fields) = .ok index') :
    ∃ s, fieldOf s = f ∧ addFields ⟨index.sections ++ [s]⟩ fields = .ok index' := by
  obtain ⟨key, v⟩ := f
  cases v with
  | array vs =>
    cases hentries : entriesOfJson key 0 vs with
    | error fault => simp [addFields, hentries, bind, Except.bind] at h
    | ok entries =>
      cases hadd : index.addSection ⟨.ofKey key, entries⟩ with
      | error fault => simp [addFields, hentries, hadd, bind, Except.bind] at h
      | ok next =>
        obtain ⟨-, -, rfl⟩ := addSection_eq_ok_iff.mp hadd
        simp only [addFields, hentries, hadd, bind, Except.bind] at h
        refine ⟨⟨.ofKey key, entries⟩, ?_, h⟩
        rw [fieldOf, Category.key_ofKey, entries_eq_of_entriesOfJson hentries]
  | _ => simp [addFields] at h

theorem fields_eq_of_addFields {before : List Section} {fields : List (String × Json.Value)}
    (h : addFields ⟨before⟩ fields = .ok index) :
    index.sections.map fieldOf = before.map fieldOf ++ fields := by
  induction fields generalizing before with
  | nil =>
    rw [addFields, Except.ok.injEq] at h
    simp [← h]
  | cons f fields ih =>
    obtain ⟨s, rfl, hrest⟩ := exists_section_of_addFields_cons h
    simp [ih hrest]

theorem toJson_of_ofJson (h : ofJson v = .ok index) : index.toJson = v := by
  cases v with
  | object fields =>
    have hfields := fields_eq_of_addFields h
    rw [toJson_eq, hfields]
    simp
  | _ => simp [ofJson] at h

theorem ofJson_eq_ok_iff : ofJson v = .ok index ↔ index.Built ∧ index.toJson = v := by
  constructor
  · intro h
    exact ⟨.ofJson v h, toJson_of_ofJson h⟩
  · rintro ⟨hbuilt, rfl⟩
    exact ofJson_toJson hbuilt.wellFormed

/-- A value is read as an index exactly if it is written for it, so the built indexes and the
values that are read correspond one to one. -/
theorem ofJson_toJson_inverse :
    (∀ (v : Json.Value) (index : Index),
      ofJson v = .ok index ↔ index.Built ∧ index.toJson = v) ∧
      Set.BijOn toJson {index | index.Built} {v | ∃ index, ofJson v = .ok index} := by
  refine ⟨fun _ _ => ofJson_eq_ok_iff, ?_, ?_, ?_⟩
  · intro index hbuilt
    exact ⟨index, ofJson_toJson (Built.wellFormed hbuilt)⟩
  · intro index hbuilt other hother heq
    have hread := ofJson_toJson (Built.wellFormed hbuilt)
    rw [heq, ofJson_toJson (Built.wellFormed hother), Except.ok.injEq] at hread
    exact hread.symm
  · rintro v ⟨index, hread⟩
    exact ⟨index, ofJson_eq_ok_iff.mp hread⟩

end ModuleIndex.Index

import ModuleIndex.Index.Script
import ModuleIndex.Proofs.Index.Category
import Mathlib.Data.List.Nodup
import Mathlib.Tactic.SplitIfs

/-!
# Built indexes

An index is built from sections with keys, from a JSON value or from a text. However it is
built, no key comes twice in it, and no name twice in a section.
-/

namespace ModuleIndex

namespace Index

/-! ## The invariant -/

/-- What holds of an index at every moment of its building. -/
structure WellFormed (index : Index) : Prop where
  /-- Every category is the one of its key. -/
  ofKey_key : ∀ s ∈ index.sections, Category.ofKey s.category.key = s.category
  nodup_categories : index.categories.Nodup
  nodup_names : ∀ s ∈ index.sections, (s.entries.map (·.name)).Nodup

theorem wellFormed_nil : WellFormed ⟨[]⟩ := by
  constructor <;> simp [categories]

theorem firstRepeat?_eq_none_iff (seen : List String) (es : List Entry) :
    firstRepeat? seen es = none ↔
      (es.map (·.name)).Nodup ∧ ∀ name ∈ es.map (·.name), name ∉ seen := by
  induction es generalizing seen with
  | nil => simp [firstRepeat?]
  | cons e es ih =>
    by_cases hseen : e.name ∈ seen
    · simp [firstRepeat?, hseen]
    · rw [firstRepeat?, if_neg hseen, ih]
      rw [List.map_cons, List.nodup_cons, List.forall_mem_cons]
      simp only [List.mem_cons, not_or]
      constructor
      · rintro ⟨hnodup, hnew⟩
        exact ⟨⟨fun hmem => (hnew _ hmem).1 rfl, hnodup⟩, hseen, fun n hn => (hnew n hn).2⟩
      · rintro ⟨⟨hfirst, hnodup⟩, -, hnew⟩
        exact ⟨hnodup, fun n hn => ⟨fun heq => hfirst (heq ▸ hn), hnew n hn⟩⟩

/-- A section can be added exactly if its category is new and its names are distinct. -/
theorem addSection_eq_ok_iff {index index' : Index} {s : Section} :
    index.addSection s = .ok index' ↔
      s.category ∉ index.categories ∧ (s.entries.map (·.name)).Nodup ∧
        index' = ⟨index.sections ++ [s]⟩ := by
  have hany : index.sections.any (·.category = s.category) = true ↔
      s.category ∈ index.categories := by
    simp [categories]
  unfold addSection
  rw [if_congr hany rfl rfl]
  split_ifs with hold
  · simp [hold]
  · have hrepeat := firstRepeat?_eq_none_iff [] s.entries
    simp only [List.not_mem_nil, not_false_eq_true, implies_true, and_true] at hrepeat
    cases hfirst : firstRepeat? [] s.entries with
    | some e =>
      have hnames : ¬ (s.entries.map (·.name)).Nodup := by
        rw [← hrepeat, hfirst]
        simp
      simp [hnames]
    | none =>
      have hnames := hrepeat.mp hfirst
      simp [hold, hnames, eq_comm]

/-- One step of building keeps the invariant. -/
theorem WellFormed.addSection {index index' : Index} {s : Section} (h : index.WellFormed)
    (hkey : Category.ofKey s.category.key = s.category)
    (hadd : index.addSection s = .ok index') : index'.WellFormed := by
  obtain ⟨hnew, hnames, rfl⟩ := addSection_eq_ok_iff.mp hadd
  refine ⟨?_, ?_, ?_⟩
  · intro t ht
    rcases List.mem_append.mp ht with ht | ht
    · exact h.ofKey_key t ht
    · rw [List.mem_singleton.mp ht]; exact hkey
  · have hcategories := h.nodup_categories.concat hnew
    simpa [categories] using hcategories
  · intro t ht
    rcases List.mem_append.mp ht with ht | ht
    · exact h.nodup_names t ht
    · rw [List.mem_singleton.mp ht]; exact hnames

theorem WellFormed.addSections {index index' : Index} (h : index.WellFormed) {ss : List Section}
    (hkeys : ∀ s ∈ ss, Category.ofKey s.category.key = s.category)
    (hadd : index.addSections ss = .ok index') : index'.WellFormed := by
  induction ss generalizing index with
  | nil =>
    rw [Index.addSections, Except.ok.injEq] at hadd
    exact hadd ▸ h
  | cons s ss ih =>
    rw [List.forall_mem_cons] at hkeys
    cases hfirst : index.addSection s with
    | error fault => simp [Index.addSections, hfirst, bind, Except.bind] at hadd
    | ok next =>
      simp only [Index.addSections, hfirst, bind, Except.bind] at hadd
      exact ih (h.addSection hkeys.1 hfirst) hkeys.2 hadd

theorem WellFormed.addFields {index index' : Index} (h : index.WellFormed)
    {fields : List (String × Json.Value)} (hadd : index.addFields fields = .ok index') :
    index'.WellFormed := by
  induction fields generalizing index with
  | nil =>
    rw [Index.addFields, Except.ok.injEq] at hadd
    exact hadd ▸ h
  | cons f fields ih =>
    obtain ⟨key, v⟩ := f
    cases v with
    | array vs =>
      cases hentries : entriesOfJson key 0 vs with
      | error fault => simp [Index.addFields, hentries, bind, Except.bind] at hadd
      | ok entries =>
        cases hfirst : index.addSection ⟨.ofKey key, entries⟩ with
        | error fault => simp [Index.addFields, hentries, hfirst, bind, Except.bind] at hadd
        | ok next =>
          simp only [Index.addFields, hentries, hfirst, bind, Except.bind] at hadd
          have hkey : Category.ofKey (Category.ofKey key).key = Category.ofKey key := by
            rw [Category.key_ofKey]
          exact ih (h.addSection hkey hfirst) hadd
    | _ => simp [Index.addFields] at hadd

/-! ## Ways to build an index -/

def sectionOf (key : String) (entries : List Entry) : Section :=
  ⟨.ofKey key, entries⟩

/-- An index that has been built. -/
inductive Built (index : Index) : Prop
  | ofSections (sections : List (String × List Entry))
      (h : Index.ofSections (sections.map fun s => sectionOf s.1 s.2) = .ok index)
  | ofJson (v : Json.Value) (h : Index.ofJson v = .ok index)
  | parse (script : String) (h : Index.parse script = .ok index)

theorem wellFormed_of_ofJson {index : Index} {v : Json.Value} (h : ofJson v = .ok index) :
    index.WellFormed := by
  cases v with
  | object fields => exact wellFormed_nil.addFields h
  | _ => simp [ofJson] at h

/-- The index of a text is the index of a JSON value in it. -/
theorem ofJson_of_parse {index : Index} {script : String} (h : parse script = .ok index) :
    ∃ v, ofJson v = .ok index := by
  unfold parse at h
  split at h
  · simp at h
  · split at h
    · simp at h
    · exact ⟨_, h⟩

theorem Built.wellFormed {index : Index} (h : index.Built) : index.WellFormed := by
  cases h with
  | ofSections sections h =>
    refine wellFormed_nil.addSections ?_ h
    rw [List.forall_mem_map]
    intro s _
    rw [sectionOf, Category.key_ofKey]
  | ofJson v h => exact wellFormed_of_ofJson h
  | parse script h =>
    obtain ⟨v, hv⟩ := ofJson_of_parse h
    exact wellFormed_of_ofJson hv

end Index

end ModuleIndex

import ModuleIndex.Proofs.Index.Shape

/-!
# Indexes from sections

Sections with keys are added one after the other. The first one that repeats a key, or a name of
its own, is refused. Sections with distinct keys are read from their JSON form in the same way.
-/

namespace ModuleIndex.Index

/-- Entries under a key. -/
abbrev Keyed := String × List Entry

def sectionsOf (sections : List Keyed) : List Section :=
  sections.map fun s => sectionOf s.1 s.2

/-! ## What breaks a list of sections -/

/-- The section comes twice, given the keys in front of it, or one of its names does. -/
def Repeats (keys : List String) (s : Keyed) : Prop :=
  s.1 ∈ keys ∨ ¬ (s.2.map (·.name)).Nodup

/-- What is wrong with a section, given the keys in front of it. The key is judged before the
names. -/
inductive SectionFault (keys : List String) : Keyed → IndexFault → Prop
  | category {key entries} (h : key ∈ keys) :
      SectionFault keys (key, entries) (.duplicateCategory key)
  | name {key before e after} (hkey : key ∉ keys) (hbefore : (before.map (·.name)).Nodup)
      (he : e.name ∈ before.map (·.name)) :
      SectionFault keys (key, before ++ e :: after) (.duplicateName key e.name)

/-- No section repeats a key in front of it or a name. -/
def Distinct (sections : List Keyed) : Prop :=
  (sections.map (·.1)).Nodup ∧ ∀ s ∈ sections, (s.2.map (·.name)).Nodup

/-- The fault of the first section that has one. -/
def FirstFault (sections : List Keyed) (fault : IndexFault) : Prop :=
  ∃ before s after, sections = before ++ s :: after ∧ Distinct before ∧
    SectionFault (before.map (·.1)) s fault

variable {sections before : List Keyed} {fault : IndexFault}

theorem section_cases (keys : List String) (s : Keyed) :
    ¬ Repeats keys s ∨ ∃ fault, SectionFault keys s fault := by
  obtain ⟨key, entries⟩ := s
  by_cases hkey : key ∈ keys
  · exact .inr ⟨_, .category hkey⟩
  · obtain hnames | ⟨before, e, after, rfl, hbefore, he⟩ := names_cases entries
    · left
      rintro (h | h)
      · exact hkey h
      · exact h hnames
    · exact .inr ⟨_, .name hkey hbefore he⟩

theorem repeats_of_sectionFault {keys : List String} {s : Keyed}
    (h : SectionFault keys s fault) : Repeats keys s := by
  cases h with
  | category h => exact .inl h
  | @name key before e after _ _ he =>
    right
    intro hnodup
    rw [List.map_append] at hnodup
    exact List.disjoint_of_nodup_append hnodup he (by simp)

theorem distinct_concat_iff {s : Keyed} :
    Distinct (before ++ [s]) ↔ Distinct before ∧ ¬ Repeats (before.map (·.1)) s := by
  unfold Distinct Repeats
  rw [List.map_append, List.map_singleton, ← List.concat_eq_append, List.nodup_concat,
    List.forall_mem_append, List.forall_mem_singleton, not_or, not_not]
  tauto

theorem sections_cases (sections : List Keyed) :
    Distinct sections ∨ ∃ fault, FirstFault sections fault := by
  -- From the end, so that the first fault of the front stays the first.
  induction sections using List.reverseRecOn with
  | nil => exact .inl ⟨by simp, by simp⟩
  | append_singleton sections s ih =>
    obtain hdistinct | ⟨fault, before, t, after, rfl, hbefore, ht⟩ := ih
    · obtain hs | ⟨fault, hfault⟩ := section_cases (sections.map (·.1)) s
      · exact .inl (distinct_concat_iff.mpr ⟨hdistinct, hs⟩)
      · exact .inr ⟨fault, sections, s, [], rfl, hdistinct, hfault⟩
    · exact .inr ⟨fault, before, t, after ++ [s], by simp, hbefore, ht⟩

theorem not_distinct_iff : ¬ Distinct sections ↔
    ∃ before s after, sections = before ++ s :: after ∧ Repeats (before.map (·.1)) s := by
  constructor
  · intro h
    obtain ⟨fault, before, s, after, heq, -, hs⟩ := (sections_cases sections).resolve_left h
    exact ⟨before, s, after, heq, repeats_of_sectionFault hs⟩
  · rintro ⟨before, s, after, rfl, hs⟩ ⟨hkeys, hnames⟩
    rcases hs with hkey | hname
    · rw [List.map_append] at hkeys
      exact List.disjoint_of_nodup_append hkeys hkey (by simp)
    · exact hname (hnames s (by simp))

/-! ## Adding sections -/

theorem mem_categories_iff (before : List Keyed) (key : String) :
    Category.ofKey key ∈ categories ⟨sectionsOf before⟩ ↔ key ∈ before.map (·.1) := by
  have hcategories : categories ⟨sectionsOf before⟩ = (before.map (·.1)).map Category.ofKey := by
    simp [categories, sectionsOf, sectionOf]
  rw [hcategories, List.mem_map_of_injective Category.ofKey_injective]

theorem addSection_of_not_repeats {s : Keyed} (hs : ¬ Repeats (before.map (·.1)) s) :
    addSection ⟨sectionsOf before⟩ (sectionOf s.1 s.2) = .ok ⟨sectionsOf (before ++ [s])⟩ := by
  unfold Repeats at hs
  rw [not_or, not_not] at hs
  rw [addSection_eq_ok_iff]
  refine ⟨?_, hs.2, ?_⟩
  · unfold sectionOf
    rw [mem_categories_iff]
    exact hs.1
  · simp [sectionsOf]

theorem addSection_of_sectionFault {s : Keyed} (h : SectionFault (before.map (·.1)) s fault) :
    addSection ⟨sectionsOf before⟩ (sectionOf s.1 s.2) = .error fault := by
  cases h with
  | @category key entries h =>
    have hany : (sectionsOf before).any (·.category = Category.ofKey key) = true := by
      rw [← mem_categories_iff] at h
      simpa [categories] using h
    unfold addSection sectionOf
    rw [if_pos hany, Category.key_ofKey]
  | @name key front e back hkey hfront he =>
    rw [← mem_categories_iff] at hkey
    have hadd := addSection_of_repeat hkey back hfront he
    rwa [Category.key_ofKey] at hadd

/-- Distinct sections are all added, and the rest is added behind them. -/
theorem ofSections_append (h : Distinct before) (rest : List Section) :
    ofSections (sectionsOf before ++ rest) = addSections ⟨sectionsOf before⟩ rest := by
  induction before using List.reverseRecOn generalizing rest with
  | nil => rfl
  | append_singleton before s ih =>
    obtain ⟨hbefore, hs⟩ := distinct_concat_iff.mp h
    have hsplit : sectionsOf (before ++ [s]) ++ rest =
        sectionsOf before ++ sectionOf s.1 s.2 :: rest := by
      simp [sectionsOf]
    rw [hsplit, ih hbefore, addSections, addSection_of_not_repeats hs]
    rfl

theorem ofSections_of_distinct (h : Distinct sections) :
    ofSections (sectionsOf sections) = .ok ⟨sectionsOf sections⟩ := by
  have happend := ofSections_append h []
  rwa [List.append_nil] at happend

theorem ofSections_of_fault (h : FirstFault sections fault) :
    ofSections (sectionsOf sections) = .error fault := by
  obtain ⟨before, s, after, rfl, hbefore, hs⟩ := h
  have hsplit : sectionsOf (before ++ s :: after) =
      sectionsOf before ++ sectionOf s.1 s.2 :: sectionsOf after := by
    simp [sectionsOf]
  rw [hsplit, ofSections_append hbefore, addSections, addSection_of_sectionFault hs]
  rfl

theorem ofSections_eq_error_iff :
    ofSections (sectionsOf sections) = .error fault ↔ FirstFault sections fault := by
  refine ⟨fun h => ?_, ofSections_of_fault⟩
  obtain hdistinct | ⟨first, hfirst⟩ := sections_cases sections
  · simp [ofSections_of_distinct hdistinct] at h
  · rw [ofSections_of_fault hfirst, Except.error.injEq] at h
    exact h ▸ hfirst

theorem exists_error_iff :
    (∃ fault, ofSections (sectionsOf sections) = .error fault) ↔ ¬ Distinct sections := by
  constructor
  · rintro ⟨fault, h⟩ hdistinct
    simp [ofSections_of_distinct hdistinct] at h
  · intro h
    obtain ⟨fault, hfault⟩ := (sections_cases sections).resolve_left h
    exact ⟨fault, ofSections_of_fault hfault⟩

/-! ## The JSON form of sections -/

/-- The object that lists the entries of each section under its key. A key that comes again would
replace the entries that it had. -/
def objectOf (sections : List Keyed) : Json.Value :=
  .object (sections.foldl
    (fun fields s => Json.setField s.1 (.array (s.2.map Entry.toJson)) fields) [])

theorem objectOf_of_nodup (h : (sections.map (·.1)).Nodup) :
    objectOf sections = .object (sections.map fun s => (s.1, .array (s.2.map Entry.toJson))) := by
  unfold objectOf
  congr 1
  induction sections using List.reverseRecOn with
  | nil => rfl
  | append_singleton sections s ih =>
    rw [List.map_append, List.map_singleton, ← List.concat_eq_append, List.nodup_concat] at h
    rw [List.foldl_append, ih h.2, List.foldl_cons, List.foldl_nil, Json.setField_of_notMem,
      List.map_append, List.map_singleton]
    simpa using h.1

theorem addFields_sections (index : Index) (sections : List Keyed) :
    index.addFields (sections.map fun s => (s.1, .array (s.2.map Entry.toJson))) =
      index.addSections (sectionsOf sections) := by
  induction sections generalizing index with
  | nil => rfl
  | cons s sections ih =>
    simp only [List.map_cons, addFields, entriesOfJson_toJson, sectionsOf, addSections, sectionOf,
      bind, Except.bind] at ih ⊢
    cases index.addSection ⟨.ofKey s.1, s.2⟩ with
    | error fault => rfl
    | ok next => exact ih next

theorem ofJson_objectOf (h : (sections.map (·.1)).Nodup) :
    ofJson (objectOf sections) = ofSections (sectionsOf sections) := by
  rw [objectOf_of_nodup h]
  exact addFields_sections ⟨[]⟩ sections

/-- Sections with distinct keys and their JSON form give the same index or the same fault. Any
sections are refused exactly if one of them repeats a key in front of it or a name, and with the
fault of the first one that does. -/
theorem sections_agree_with_json (sections : List Keyed) :
    ((sections.map (·.1)).Nodup →
      ofSections (sectionsOf sections) = ofJson (objectOf sections)) ∧
      ((∃ fault, ofSections (sectionsOf sections) = .error fault) ↔
        ∃ before s after, sections = before ++ s :: after ∧ Repeats (before.map (·.1)) s) ∧
      ∀ fault, ofSections (sectionsOf sections) = .error fault ↔ FirstFault sections fault := by
  refine ⟨fun h => (ofJson_objectOf h).symm, ?_, fun _ => ofSections_eq_error_iff⟩
  rw [exists_error_iff, not_distinct_iff]

/-- Names that come twice in two sections, one of them behind another such name. -/
theorem sections_agree_with_json_repeats :
    let sections := [("mod", []), ("fn", [⟨"a", ""⟩, ⟨"b", ""⟩, ⟨"b", "again"⟩, ⟨"a", ""⟩]),
      ("struct", [⟨"c", ""⟩, ⟨"c", ""⟩])]
    (sections.map (·.1)).Nodup ∧
      ofSections (sectionsOf sections) = ofJson (objectOf sections) ∧
      ofSections (sectionsOf sections) = .error (.duplicateName "fn" "b") := by
  intro sections
  have hkeys : (sections.map (·.1)).Nodup := by decide
  have hfault : SectionFault ["mod"] ("fn", [⟨"a", ""⟩, ⟨"b", ""⟩] ++ ⟨"b", "again"⟩ :: [⟨"a", ""⟩])
      (.duplicateName "fn" "b") := .name (by simp) (by simp) (by simp)
  obtain ⟨hagree, -, herror⟩ := sections_agree_with_json sections
  refine ⟨hkeys, hagree hkeys, (herror _).mpr ?_⟩
  exact ⟨[("mod", [])], _, _, rfl, ⟨by simp, by simp⟩, hfault⟩

end ModuleIndex.Index

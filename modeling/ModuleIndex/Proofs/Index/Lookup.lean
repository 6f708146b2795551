import ModuleIndex.Proofs.Index.Encoding

/-!
# Look-ups agree

Sections are looked up by their key and items by their name, but there is one enumeration of the
items of a built index, and everything that is looked up is a part of it.
-/

namespace ModuleIndex.Index

variable {index : Index}

/-! ## Sections by key -/

theorem entriesOf_of_mem (h : index.WellFormed) {s : Section} (hs : s ∈ index.sections) :
    index.entriesOf s.category.key = s.entries := by
  unfold entriesOf
  cases hfind : index.sections.find? (·.category.key = s.category.key) with
  | none =>
    have hkey := List.find?_eq_none.mp hfind s hs
    simp at hkey
  | some t =>
    have hkey : t.category.key = s.category.key := by simpa using List.find?_some hfind
    have ht := List.mem_of_find?_eq_some hfind
    rw [List.inj_on_of_nodup_map (keys_nodup h) ht hs hkey]

theorem entriesOf_of_notMem {key : String} (h : key ∉ index.categories.map Category.key) :
    index.entriesOf key = [] := by
  have hfind : index.sections.find? (·.category.key = key) = none := by
    rw [List.find?_eq_none]
    intro s hs hkey
    refine h (List.mem_map.mpr ⟨s.category, List.mem_map_of_mem hs, ?_⟩)
    simpa using hkey
  rw [entriesOf, hfind]

theorem flatMap_entriesOf (h : index.WellFormed) :
    (index.categories.flatMap fun c => (index.entriesOf c.key).map (c, ·)) = index.items := by
  rw [categories, List.flatMap_map, items]
  refine List.flatMap_congr fun s hs => ?_
  rw [entriesOf_of_mem h hs]

theorem nodup_entriesOf (h : index.WellFormed) {c : Category} (hc : c ∈ index.categories) :
    ((index.entriesOf c.key).map (·.name)).Nodup := by
  obtain ⟨s, hs, rfl⟩ := List.mem_map.mp hc
  rw [entriesOf_of_mem h hs]
  exact h.nodup_names s hs

theorem length_items (index : Index) : index.items.length = index.size := by
  obtain ⟨sections⟩ := index
  induction sections with
  | nil => rfl
  | cons s sections ih =>
    simp only [items, size, countEntries, List.flatMap_cons, List.length_append,
      List.length_map] at ih ⊢
    rw [ih]

/-! ## Items by name -/

theorem mem_findAll {name : String} {item : Category × Entry} :
    item ∈ index.findAll name ↔ item ∈ index.items ∧ item.2.name = name := by
  simp [findAll]

theorem length_filter_name_le {entries : List Entry} (h : (entries.map (·.name)).Nodup)
    (name : String) : (entries.filter (·.name = name)).length ≤ 1 := by
  have hsame : (entries.filter (·.name = name)).map (·.name) =
      List.replicate (entries.filter (·.name = name)).length name := by
    rw [List.eq_replicate_iff, List.length_map]
    refine ⟨rfl, ?_⟩
    rw [List.forall_mem_map]
    intro e he
    simpa using List.of_mem_filter he
  have hsub : List.Sublist ((entries.filter (·.name = name)).map (·.name))
      (entries.map (·.name)) := List.filter_sublist.map _
  have hnodup := h.sublist hsub
  rwa [hsame, List.nodup_replicate] at hnodup

/-- The items of a section that have the name are at most one. -/
theorem findAll_section_sublist {s : Section} (h : (s.entries.map (·.name)).Nodup)
    (name : String) :
    List.Sublist (((s.entries.map fun e => (s.category, e)).filter (·.2.name = name)).map (·.1))
      [s.category] := by
  have hlength := length_filter_name_le h name
  have hmap : ((s.entries.map fun e => (s.category, e)).filter (·.2.name = name)).map (·.1) =
      List.replicate (s.entries.filter (·.name = name)).length s.category := by
    rw [List.filter_map, List.map_map]
    exact List.map_const' ..
  rw [hmap]
  exact (List.replicate_sublist_replicate s.category).mpr hlength

theorem findAll_sublist_categories (h : ∀ s ∈ index.sections, (s.entries.map (·.name)).Nodup)
    (name : String) : List.Sublist ((index.findAll name).map (·.1)) index.categories := by
  obtain ⟨sections⟩ := index
  induction sections with
  | nil => exact List.Sublist.refl _
  | cons s sections ih =>
    rw [List.forall_mem_cons] at h
    simp only [findAll, items, categories, List.flatMap_cons, List.filter_append, List.map_append,
      List.map_cons] at ih ⊢
    exact (findAll_section_sublist h.1 name).append (ih h.2)

theorem find?_eq_head? (name : String) :
    index.find? name = (index.findAll name).head?.map (·.2) := by
  rw [find?, findAll, List.head?_filter]

theorem find?_eq_none_iff (name : String) : index.find? name = none ↔ index.findAll name = [] := by
  rw [find?_eq_head?, Option.map_eq_none_iff, List.head?_eq_none_iff]

/-! ## All of them -/

/-- No key comes twice and no name in a category, and all look-ups show the same items. -/
structure Consistent (index : Index) : Prop where
  nodup_keys : (index.categories.map Category.key).Nodup
  nodup_names : ∀ c ∈ index.categories, ((index.entriesOf c.key).map (·.name)).Nodup
  items_eq : index.items =
    index.categories.flatMap fun c => (index.entriesOf c.key).map fun e => (c, e)
  size_eq : index.size = index.items.length
  entriesOf_absent : ∀ key ∉ index.categories.map Category.key, index.entriesOf key = []
  findAll_sublist : ∀ name, List.Sublist (index.findAll name) index.items
  mem_findAll : ∀ name item,
    item ∈ index.findAll name ↔ item ∈ index.items ∧ item.2.name = name
  nodup_findAll : ∀ name, ((index.findAll name).map (·.1)).Nodup
  find?_eq : ∀ name, index.find? name = (index.findAll name).head?.map (·.2)
  find?_eq_none : ∀ name, index.find? name = none ↔ index.findAll name = []

theorem built_consistent (index : Index) (h : index.Built) : index.Consistent where
  nodup_keys := by
    rw [categories, List.map_map]
    exact keys_nodup h.wellFormed
  nodup_names _ hc := nodup_entriesOf h.wellFormed hc
  items_eq := (flatMap_entriesOf h.wellFormed).symm
  size_eq := (length_items index).symm
  entriesOf_absent _ hkey := entriesOf_of_notMem hkey
  findAll_sublist _ := List.filter_sublist
  mem_findAll _ _ := mem_findAll
  nodup_findAll name :=
    h.wellFormed.nodup_categories.sublist (findAll_sublist_categories h.wellFormed.nodup_names name)
  find?_eq := find?_eq_head?
  find?_eq_none := find?_eq_none_iff

/-- An item of one name in two categories, between an empty category and an unknown one. -/
theorem built_consistent_shared_name :
    ∃ index, ofSections [sectionOf "mod" [⟨"fmt", "Formatting."⟩], sectionOf "constant" [],
        sectionOf "fn" [⟨"init", ""⟩, ⟨"fmt", ""⟩], sectionOf "opaque" [⟨"", ""⟩]] = .ok index ∧
      index.Built ∧ index.Consistent :=
  have h := .ofSections [("mod", [⟨"fmt", "Formatting."⟩]), ("constant", []),
    ("fn", [⟨"init", ""⟩, ⟨"fmt", ""⟩]), ("opaque", [⟨"", ""⟩])] rfl
  ⟨_, rfl, h, built_consistent _ h⟩

end ModuleIndex.Index

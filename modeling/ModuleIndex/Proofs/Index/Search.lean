import ModuleIndex.Index.Search
import ModuleIndex.Proofs.Index.Lookup
import ModuleIndex.Proofs.Text.Pieces
import Mathlib.Data.List.Infix

/-!
# What a search finds

The rules of a search come to two: the names that end with the pattern, or else the names that
contain it.
-/

namespace ModuleIndex.Index

variable {index : Index} {pattern : String}

/-! ## The items -/

theorem nodup_items (h : index.WellFormed) : index.items.Nodup := by
  unfold items
  rw [List.nodup_flatMap]
  constructor
  · intro s hs
    have hentries : s.entries.Nodup := (h.nodup_names s hs).of_map _
    apply hentries.map
    intro e e' heq
    exact (Prod.mk.inj heq).2
  · -- Items of two sections differ in their category.
    have hcategories := h.nodup_categories
    unfold categories at hcategories
    rw [List.nodup_iff_pairwise_ne, List.pairwise_map] at hcategories
    apply hcategories.imp
    intro s t hne item hs ht
    simp only [List.mem_map] at hs ht
    obtain ⟨e, -, rfl⟩ := hs
    obtain ⟨e', -, heq⟩ := ht
    exact hne (Prod.mk.inj heq).1.symm

/-! ## Endings and occurrences -/

theorem endingWith_eq (index : Index) (pattern : String) : index.endingWith pattern =
    index.items.filter fun item => pattern.toList <:+ item.2.name.toList := by
  unfold endingWith
  congr 1
  funext item
  rw [Bool.eq_iff_iff, List.isSuffixOf_iff_suffix, decide_eq_true_iff]

theorem containing_eq (index : Index) (pattern : String) : index.containing pattern =
    index.items.filter fun item => pattern.toList <:+: item.2.name.toList := by
  unfold containing
  congr 1
  funext item
  rw [Bool.eq_iff_iff, Text.contains_iff_isInfix, decide_eq_true_iff]

/-- A name that ends with the pattern contains it, so the endings are found among the
occurrences. -/
theorem endingWith_sublist_containing (index : Index) (pattern : String) :
    List.Sublist (index.endingWith pattern) (index.containing pattern) := by
  rw [endingWith_eq, containing_eq]
  apply List.monotone_filter_right
  intro item hsuffix
  rw [decide_eq_true_iff] at hsuffix ⊢
  exact hsuffix.isInfix

/-! ## The search -/

theorem search_empty (index : Index) : index.search "" = index.endingWith "" := by
  unfold search endingWith
  simp

/-- A single occurrence that is found before several endings cannot be, since the endings are
among the occurrences. -/
theorem search_eq (index : Index) (pattern : String) : index.search pattern =
    if index.endingWith pattern = [] then index.containing pattern
    else index.endingWith pattern := by
  by_cases hpattern : pattern.isEmpty
  · obtain rfl := String.isEmpty_iff.mp hpattern
    have hall : index.containing "" = index.endingWith "" := by
      unfold containing endingWith
      simp [Text.contains_iff_isInfix]
    rw [search_empty, hall, ite_self]
  · unfold search
    rw [if_neg hpattern]
    rcases hendings : index.endingWith pattern with _ | ⟨first, _ | ⟨second, endings⟩⟩
    · simp
    · simp
    · have hlength := (endingWith_sublist_containing index pattern).length_le
      rw [hendings] at hlength
      have hmany : (index.containing pattern).length ≠ 1 := by
        simp only [List.length_cons] at hlength
        omega
      simp [hmany]

theorem search_sublist (index : Index) (pattern : String) :
    List.Sublist (index.search pattern) index.items := by
  rw [search_eq]
  unfold endingWith containing
  split_ifs
  · exact List.filter_sublist
  · exact List.filter_sublist

theorem search_eq_nil_iff (index : Index) (pattern : String) :
    index.search pattern = [] ↔ index.containing pattern = [] := by
  have hsub := endingWith_sublist_containing index pattern
  rw [search_eq]
  split_ifs with hnone
  · rfl
  · constructor
    · intro hending
      exact absurd hending hnone
    · intro hcontaining
      rw [hcontaining] at hsub
      exact List.sublist_nil.mp hsub

theorem mem_search_of_mem_findAll {name : String} {item : Category × Entry}
    (h : item ∈ index.findAll name) : item ∈ index.search name := by
  have hending : item ∈ index.endingWith name := by
    obtain ⟨hitem, rfl⟩ := mem_findAll.mp h
    rw [endingWith_eq, List.mem_filter]
    exact ⟨hitem, by simp⟩
  rw [search_eq, if_neg (List.ne_nil_of_mem hending)]
  exact hending

/-- A search finds the items whose names end with the pattern, or if there are none, those whose
names contain it. -/
theorem search_endings_else_occurrences (index : Index) (h : index.Built) (pattern : String) :
    let endings := index.items.filter fun item => pattern.toList <:+ item.2.name.toList
    let occurrences := index.items.filter fun item => pattern.toList <:+: item.2.name.toList
    (index.search pattern = if endings ≠ [] then endings else occurrences) ∧
      List.Sublist (index.search pattern) index.items ∧
      (index.search pattern).Nodup ∧
      (index.search pattern = [] ↔
        ∀ item ∈ index.items, ¬ pattern.toList <:+: item.2.name.toList) ∧
      ∀ name, ∀ item ∈ index.findAll name, item ∈ index.search name := by
  intro endings occurrences
  refine ⟨?_, search_sublist index pattern, ?_, ?_, fun _ _ => mem_search_of_mem_findAll⟩
  · rw [search_eq, endingWith_eq, containing_eq, ite_not]
  · exact (nodup_items h.wellFormed).sublist (search_sublist index pattern)
  · rw [search_eq_nil_iff, containing_eq, List.filter_eq_nil_iff]
    simp

/-- Names that end with the pattern, one of them in two categories, around one that only contains
it. -/
theorem search_endings_else_occurrences_init :
    ∃ index, ofSections [sectionOf "mod" [⟨"init", ""⟩],
        sectionOf "fn" [⟨"try_init", ""⟩, ⟨"init_from_env", ""⟩, ⟨"init", ""⟩]] = .ok index ∧
      index.Built ∧
      index.search "init" = [(.module, ⟨"init", ""⟩), (.function, ⟨"try_init", ""⟩),
        (.function, ⟨"init", ""⟩)] ∧
      (index.search "init").Nodup ∧ ∀ item ∈ index.findAll "init", item ∈ index.search "init" := by
  have hbuilt := Built.ofSections [("mod", [⟨"init", ""⟩]),
    ("fn", [⟨"try_init", ""⟩, ⟨"init_from_env", ""⟩, ⟨"init", ""⟩])] rfl
  obtain ⟨hsearch, -, hnodup, -, hall⟩ := search_endings_else_occurrences _ hbuilt "init"
  refine ⟨_, rfl, hbuilt, ?_, hnodup, hall "init"⟩
  rw [hsearch]
  decide

end ModuleIndex.Index

import ModuleIndex.Crate.Spec
import ModuleIndex.Proofs.Text.Pieces
import Mathlib.Data.List.Basic
import Mathlib.Tactic.SplitIfs

/-!
# Module paths

Which segments a path is cut into, and which separators at its end count for nothing. A path that
is written with its segments is read as these segments again, whatever stands in front of it.
-/

namespace ModuleIndex.Crate

/-! ## Segments -/

/-- The parts that a text is cut into: no part holds a separator, not even together with the
beginning of the one behind it. -/
def IsCut : List (List Char) → Prop
  | [] => False
  | [s] => ¬ [':', ':'] <:+: s
  | s :: next :: ss => ¬ [':', ':'] <:+: s ++ [':'] ∧ IsCut (next :: ss)

theorem segments_ne_nil (text : List Char) : segments text ≠ [] := by
  fun_induction segments text <;> simp

theorem not_isPrefix_of_cons {c : Char} {text : List Char}
    (h : ∀ rest, c = ':' → text = ':' :: rest → False) : ¬ [':', ':'] <+: c :: text := by
  rintro ⟨rest, hrest⟩
  obtain ⟨hc, htext⟩ := List.cons.inj hrest
  exact h rest hc.symm htext.symm

theorem join_segments (text : List Char) : Text.join [':', ':'] (segments text) = text := by
  fun_induction segments text with
  | case1 => rfl
  | case2 text ih =>
    rw [Text.join_cons _ (segments_ne_nil text), ih]
    rfl
  | case3 c text hc s ss hss ih =>
    rw [hss] at ih
    cases ss with
    | nil => exact congrArg (c :: ·) ih
    | cons next ss => exact congrArg (c :: ·) ih
  | case4 c text hc hss ih => exact absurd hss (segments_ne_nil text)

theorem isCut_segments (text : List Char) : IsCut (segments text) := by
  fun_induction segments text with
  | case1 => simp [IsCut]
  | case2 text ih =>
    cases hss : segments text with
    | nil => exact absurd hss (segments_ne_nil text)
    | cons next ss =>
      rw [hss] at ih
      exact ⟨by decide, ih⟩
  | case3 c text hc s ss hss ih =>
    have hfront := not_isPrefix_of_cons hc
    have htext := join_segments text
    rw [hss] at ih htext
    cases ss with
    | nil =>
      obtain rfl : s = text := htext
      rw [IsCut, List.infix_cons_iff, not_or]
      exact ⟨hfront, ih⟩
    | cons next ss =>
      refine ⟨?_, ih.2⟩
      rw [List.cons_append, List.infix_cons_iff, not_or]
      refine ⟨fun hinner => hfront (hinner.trans ?_), ih.1⟩
      rw [← htext]
      exact Text.append_dropLast_isPrefix [':', ':'] (c :: s) (Text.join [':', ':'] (next :: ss))
  | case4 c text hc hss ih => exact absurd hss (segments_ne_nil text)

theorem segments_cons {c : Char} {text s : List Char} {ss : List (List Char)}
    (h : ¬ [':', ':'] <+: c :: text) (htext : segments text = s :: ss) :
    segments (c :: text) = (c :: s) :: ss := by
  rw [segments, htext]
  rintro rest rfl rfl
  exact h ⟨rest, rfl⟩

theorem segments_of_not_isInfix {text : List Char} (h : ¬ [':', ':'] <:+: text) :
    segments text = [text] := by
  induction text with
  | nil => rfl
  | cons c text ih =>
    rw [List.infix_cons_iff, not_or] at h
    exact segments_cons h.1 (ih h.2)

/-- The first segment stands in front of the first separator. -/
theorem segments_append {s : List Char} (h : ¬ [':', ':'] <:+: s ++ [':']) (rest : List Char) :
    segments (s ++ [':', ':'] ++ rest) = s :: segments rest := by
  induction s with
  | nil => rfl
  | cons c s ih =>
    rw [List.cons_append, List.infix_cons_iff, not_or] at h
    refine segments_cons (fun hfront => h.1 ?_) (ih h.2)
    exact List.prefix_of_prefix_length_le hfront
      (Text.append_dropLast_isPrefix [':', ':'] (c :: s) rest) (by simp)

theorem segments_join {ss : List (List Char)} (h : IsCut ss) :
    segments (Text.join [':', ':'] ss) = ss := by
  match ss with
  | [s] => exact segments_of_not_isInfix h
  | s :: next :: ss =>
    rw [Text.join_cons s (List.cons_ne_nil next ss), segments_append h.1, segments_join h.2]

/-! ## Separators at the end -/

/-- A number of separators, one behind the other. -/
def separators (k : Nat) : List Char :=
  (List.replicate k [':', ':']).flatten

theorem separators_zero : separators 0 = [] := rfl

theorem separators_succ (k : Nat) : separators (k + 1) = [':', ':'] ++ separators k := by
  rw [separators, List.replicate_succ, List.flatten_cons, separators]

theorem reverse_separators (k : Nat) : (separators k).reverse = separators k := by
  rw [separators, List.reverse_flatten, List.map_replicate, List.reverse_replicate]
  rfl

theorem exists_separators_dropSeparators (text : List Char) :
    ∃ k, text = separators k ++ dropSeparators text := by
  fun_induction dropSeparators text with
  | case1 text ih =>
    obtain ⟨k, hk⟩ := ih
    exact ⟨k + 1, by rw [separators_succ, List.append_assoc, ← hk]; rfl⟩
  | case2 text => exact ⟨0, rfl⟩

theorem dropSeparators_separators (k : Nat) (text : List Char) :
    dropSeparators (separators k ++ text) = dropSeparators text := by
  induction k with
  | zero => rfl
  | succ k ih =>
    rw [separators_succ]
    exact ih

theorem dropSeparators_of_not_isPrefix {text : List Char} (h : ¬ [':', ':'] <+: text) :
    dropSeparators text = text := by
  rw [dropSeparators.eq_2]
  rintro rest rfl
  exact h ⟨rest, rfl⟩

theorem not_isPrefix_dropSeparators (text : List Char) : ¬ [':', ':'] <+: dropSeparators text := by
  fun_induction dropSeparators text with
  | case1 text ih => exact ih
  | case2 text h =>
    rintro ⟨rest, rfl⟩
    exact h rest rfl

/-- Separators are dropped only up to the first other character. -/
theorem dropSeparators_append_cons {c : Char} (hc : c ≠ ':') (text rest : List Char) :
    dropSeparators (text ++ c :: rest) = dropSeparators text ++ c :: rest := by
  fun_induction dropSeparators text with
  | case1 text ih => exact ih
  | case2 text h =>
    apply dropSeparators_of_not_isPrefix
    rintro ⟨tail, htail⟩
    match text with
    | [] => exact hc (List.cons.inj htail).1.symm
    | [d] => exact hc (List.cons.inj (List.cons.inj htail).2).1.symm
    | d :: e :: text =>
      obtain ⟨rfl, hrest⟩ := List.cons.inj htail
      obtain ⟨rfl, -⟩ := List.cons.inj hrest
      exact h text rfl

/-- A path without the separators at its end. -/
def withoutEnd (path : List Char) : List Char :=
  (dropSeparators path.reverse).reverse

theorem exists_separators_withoutEnd (path : List Char) :
    ∃ k, path = withoutEnd path ++ separators k := by
  obtain ⟨k, hk⟩ := exists_separators_dropSeparators path.reverse
  refine ⟨k, ?_⟩
  rw [← List.reverse_inj, List.reverse_append, withoutEnd, List.reverse_reverse,
    reverse_separators, ← hk]

theorem withoutEnd_separators (path : List Char) (k : Nat) :
    withoutEnd (path ++ separators k) = withoutEnd path := by
  rw [withoutEnd, List.reverse_append, reverse_separators, dropSeparators_separators, withoutEnd]

theorem isSuffix_iff_isPrefix_reverse {path : List Char} :
    [':', ':'] <:+ path ↔ [':', ':'] <+: path.reverse := by
  rw [← List.reverse_prefix]
  rfl

theorem withoutEnd_of_not_isSuffix {path : List Char} (h : ¬ [':', ':'] <:+ path) :
    withoutEnd path = path := by
  rw [withoutEnd, dropSeparators_of_not_isPrefix (isSuffix_iff_isPrefix_reverse.not.mp h),
    List.reverse_reverse]

theorem not_isSuffix_withoutEnd (path : List Char) : ¬ [':', ':'] <:+ withoutEnd path := by
  rw [isSuffix_iff_isPrefix_reverse, withoutEnd, List.reverse_reverse]
  exact not_isPrefix_dropSeparators path.reverse

theorem withoutEnd_append_cons {c : Char} (hc : c ≠ ':') (path rest : List Char) :
    withoutEnd (path ++ c :: rest) = path ++ c :: withoutEnd rest := by
  rw [withoutEnd, List.reverse_append, List.reverse_cons, List.append_assoc,
    List.singleton_append, dropSeparators_append_cons hc, List.reverse_append, List.reverse_cons,
    List.reverse_reverse, List.append_assoc, List.singleton_append, withoutEnd]

/-! ## Module paths -/

theorem modulePathOf_eq (path : List Char) :
    modulePathOf path = if withoutEnd path = [] then [] else segments (withoutEnd path) := by
  rw [modulePathOf, ← withoutEnd]
  cases withoutEnd path <;> rfl

/-- Segments that are read from a path again: they are the parts of a text, none of them is empty,
and the last one is not the rest of a separator. -/
structure IsModulePath (segs : List (List Char)) : Prop where
  nil_notMem : [] ∉ segs
  isCut : segs ≠ [] → IsCut segs
  not_isSuffix : ¬ [':', ':'] <:+ Text.join [':', ':'] segs

theorem join_eq_nil_iff {segs : List (List Char)} (h : [] ∉ segs) :
    Text.join [':', ':'] segs = [] ↔ segs = [] := by
  match segs with
  | [] => simp [Text.join]
  | [] :: segs => simp at h
  | (c :: s) :: segs =>
    obtain ⟨text, htext⟩ := Text.exists_join_cons [':', ':'] c s segs
    simp [htext]

theorem modulePathOf_join {segs : List (List Char)} (h : IsModulePath segs) (k : Nat) :
    modulePathOf (Text.join [':', ':'] segs ++ separators k) = segs := by
  rw [modulePathOf_eq, withoutEnd_separators, withoutEnd_of_not_isSuffix h.not_isSuffix]
  split_ifs with hjoin
  · exact ((join_eq_nil_iff h.nil_notMem).mp hjoin).symm
  · exact segments_join (h.isCut fun hsegs => hjoin ((join_eq_nil_iff h.nil_notMem).mpr hsegs))

theorem join_modulePathOf (path : List Char) :
    Text.join [':', ':'] (modulePathOf path) = withoutEnd path := by
  rw [modulePathOf_eq]
  split_ifs with hpath
  · exact hpath.symm
  · exact join_segments _

theorem isModulePath_modulePathOf {path : List Char} (h : [] ∉ modulePathOf path) :
    IsModulePath (modulePathOf path) := by
  refine ⟨h, fun hne => ?_, ?_⟩
  · rw [modulePathOf_eq] at hne ⊢
    split_ifs at hne ⊢
    · exact absurd rfl hne
    · exact isCut_segments _
  · rw [join_modulePathOf]
    exact not_isSuffix_withoutEnd path

/-! ## Segments without a colon -/

theorem not_isInfix_concat {text : List Char} (h : ':' ∉ text) :
    ¬ [':', ':'] <:+: text ++ [':'] := by
  intro hfound
  have hcount := hfound.sublist.count_le ':'
  rw [List.count_append, List.count_eq_zero.mpr h] at hcount
  exact absurd hcount (by decide)

theorem not_isInfix_of_notMem {text : List Char} (h : ':' ∉ text) : ¬ [':', ':'] <:+: text :=
  fun hfound => h (hfound.subset (by simp))

theorem IsCut.not_isInfix {ss : List (List Char)} (h : IsCut ss) :
    ∀ s ∈ ss, ¬ [':', ':'] <:+: s := by
  match ss with
  | [s] => exact List.forall_mem_singleton.mpr h
  | s :: next :: ss =>
    rw [List.forall_mem_cons]
    exact ⟨fun hfound => h.1 (hfound.trans (List.prefix_append s _).isInfix), h.2.not_isInfix⟩

theorem isCut_of_notMem {ss : List (List Char)} (hne : ss ≠ []) (h : ∀ s ∈ ss, ':' ∉ s) :
    IsCut ss := by
  match ss with
  | [s] => exact not_isInfix_of_notMem (h s (by simp))
  | s :: next :: ss =>
    exact ⟨not_isInfix_concat (h s (by simp)),
      isCut_of_notMem (List.cons_ne_nil next ss) fun t ht => h t (List.mem_cons_of_mem s ht)⟩

theorem exists_join_concat {ss : List (List Char)} (hne : ss ≠ [])
    (h : ∀ s ∈ ss, s ≠ [] ∧ ':' ∉ s) :
    ∃ text c, Text.join [':', ':'] ss = text ++ [c] ∧ c ≠ ':' := by
  match ss with
  | [s] =>
    obtain ⟨hs, hcolon⟩ := h s (by simp)
    obtain ⟨text, c, rfl⟩ := (List.eq_nil_or_concat' s).resolve_left hs
    exact ⟨text, c, rfl, fun hc => hcolon (by simp [hc])⟩
  | s :: next :: ss =>
    obtain ⟨text, c, htext, hc⟩ := exists_join_concat (List.cons_ne_nil next ss)
      fun t ht => h t (List.mem_cons_of_mem s ht)
    refine ⟨s ++ [':', ':'] ++ text, c, ?_, hc⟩
    rw [Text.join_cons s (List.cons_ne_nil next ss), htext, List.append_assoc _ text]

theorem isModulePath_of_notMem {segs : List (List Char)} (h : ∀ s ∈ segs, s ≠ [] ∧ ':' ∉ s) :
    IsModulePath segs := by
  refine ⟨fun hnil => (h [] hnil).1 rfl, fun hne => isCut_of_notMem hne fun s hs => (h s hs).2, ?_⟩
  by_cases hne : segs = []
  · subst hne
    simp [Text.join]
  · obtain ⟨text, c, htext, hc⟩ := exists_join_concat hne h
    rintro ⟨start, hstart⟩
    have hlast := congrArg List.getLast? (hstart.trans htext)
    simp at hlast
    exact hc hlast.symm

/-! ## Empty segments -/

/-- Two separators in a row enclose an empty segment. -/
theorem nil_mem_tail_segments (before after : List Char) :
    [] ∈ (segments (before ++ [':', ':', ':', ':'] ++ after)).tail := by
  match before with
  | [] => simp [segments]
  | [c] =>
    by_cases hc : c = ':'
    · simp [hc, segments]
    · have hfront : ¬ [':', ':'] <+: c :: ([':', ':', ':', ':'] ++ after) := by
        simp [List.cons_prefix_cons, Ne.symm hc]
      rw [List.singleton_append, List.cons_append, segments_cons hfront rfl]
      simp [segments]
  | c :: d :: before =>
    by_cases hcd : c = ':' ∧ d = ':'
    · obtain ⟨rfl, rfl⟩ := hcd
      exact List.mem_of_mem_tail (nil_mem_tail_segments before after)
    · have hfront : ¬ [':', ':'] <+: c :: (d :: before ++ [':', ':', ':', ':'] ++ after) := by
        simpa [List.cons_prefix_cons, eq_comm] using hcd
      have ih := nil_mem_tail_segments (d :: before) after
      cases hss : segments (d :: before ++ [':', ':', ':', ':'] ++ after) with
      | nil => exact absurd hss (segments_ne_nil _)
      | cons s ss =>
        rw [hss] at ih
        rw [List.cons_append, List.cons_append, segments_cons hfront hss]
        exact ih

end ModuleIndex.Crate

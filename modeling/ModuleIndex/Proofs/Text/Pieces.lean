import ModuleIndex.Text.Pieces
import Mathlib.Data.List.Basic

/-!
# Ends, occurrences, cuts and joined parts

Which end of a text is taken off, what the search for a part of a text finds, where a text is cut,
and which characters a joined text has.
-/

namespace ModuleIndex.Text

theorem before?_append (text final : List Char) : before? final (text ++ final) = some text := by
  rw [before?, List.reverse_append, after?_append]
  simp

theorem before?_eq_some_iff {final text rest : List Char} :
    before? final text = some rest ↔ text = rest ++ final := by
  refine ⟨fun h => ?_, fun h => h ▸ before?_append rest final⟩
  obtain ⟨reversed, hafter, rfl⟩ := Option.map_eq_some_iff.mp h
  rw [← List.reverse_inj, eq_append_of_after? hafter]
  simp

theorem contains_iff_isInfix (part text : List Char) :
    contains part text = true ↔ part <:+: text := by
  induction text with
  | nil => simp [contains]
  | cons c text ih => simp [contains, ih, List.infix_cons_iff]

/-! ## Cuts -/

variable {separator text left right : List Char}

theorem after?_eq_none_iff : after? separator text = none ↔ ¬ separator <+: text := by
  constructor
  · rintro hnone ⟨rest, rfl⟩
    simp [after?_append] at hnone
  · intro hfront
    rw [Option.eq_none_iff_forall_not_mem]
    intro rest hrest
    exact hfront ⟨rest, (eq_append_of_after? hrest).symm⟩

theorem exists_cut?_of_isPrefix (h : separator <+: text) (hne : separator ≠ []) :
    ∃ rest, text = separator ++ rest ∧ cut? separator text = some ([], rest) := by
  obtain ⟨rest, rfl⟩ := h
  refine ⟨rest, rfl, ?_⟩
  cases separator with
  | nil => exact absurd rfl hne
  | cons c separator =>
    have hafter := after?_append (c :: separator) rest
    simp only [List.cons_append] at hafter ⊢
    simp only [cut?, hafter]

theorem cut?_cons_of_not_isPrefix {c : Char} (h : ¬ separator <+: c :: text) :
    cut? separator (c :: text) =
      (cut? separator text).map fun (left, right) => (c :: left, right) := by
  simp only [cut?, after?_eq_none_iff.mpr h]

theorem append_dropLast_isPrefix (separator left right : List Char) :
    left ++ separator.dropLast <+: left ++ separator ++ right :=
  ((List.prefix_append_right_inj left).mpr separator.dropLast_prefix).trans
    (List.prefix_append _ right)

/-- A text is cut where the separator occurs first: no occurrence starts further to the left. -/
theorem cut?_append (hne : separator ≠ []) (h : ¬ separator <:+: left ++ separator.dropLast)
    (right : List Char) : cut? separator (left ++ separator ++ right) = some (left, right) := by
  induction left with
  | nil =>
    obtain ⟨rest, hrest, hcut⟩ := exists_cut?_of_isPrefix (List.prefix_append separator right) hne
    rw [List.nil_append, hcut, List.append_cancel_left hrest]
  | cons c left ih =>
    rw [List.cons_append, List.infix_cons_iff, not_or] at h
    have hlength : separator.length ≤ (c :: (left ++ separator.dropLast)).length := by
      simp only [List.length_cons, List.length_append, List.length_dropLast]
      omega
    have hfront : ¬ separator <+: c :: (left ++ separator ++ right) := fun hfront =>
      h.1 (List.prefix_of_prefix_length_le hfront
        (append_dropLast_isPrefix separator (c :: left) right) hlength)
    rw [List.cons_append, List.cons_append, cut?_cons_of_not_isPrefix hfront, ih h.2]
    rfl

theorem cut?_eq_none_iff (hne : separator ≠ []) :
    cut? separator text = none ↔ ¬ separator <:+: text := by
  induction text with
  | nil => simp [cut?, after?_eq_none_iff]
  | cons c text ih =>
    rw [List.infix_cons_iff, not_or, ← ih]
    by_cases hfront : separator <+: c :: text
    · obtain ⟨rest, -, hcut⟩ := exists_cut?_of_isPrefix hfront hne
      simp [hcut, hfront]
    · simp [cut?_cons_of_not_isPrefix hfront, hfront]

theorem cut?_eq_some_iff (hne : separator ≠ []) :
    cut? separator text = some (left, right) ↔
      text = left ++ separator ++ right ∧ ¬ separator <:+: left ++ separator.dropLast := by
  refine ⟨fun h => ?_, fun ⟨htext, h⟩ => htext ▸ cut?_append hne h right⟩
  induction text generalizing left with
  | nil =>
    have hnone : cut? separator [] = none := (cut?_eq_none_iff hne).mpr (by simpa using hne)
    simp [hnone] at h
  | cons c text ih =>
    by_cases hfront : separator <+: c :: text
    · obtain ⟨rest, htext, hcut⟩ := exists_cut?_of_isPrefix hfront hne
      rw [hcut, Option.some.injEq, Prod.mk.injEq] at h
      obtain ⟨rfl, rfl⟩ := h
      refine ⟨htext, fun hfound => ?_⟩
      have hlength := hfound.length_le
      have hpos := List.length_pos_of_ne_nil hne
      rw [List.nil_append, List.length_dropLast] at hlength
      omega
    · rw [cut?_cons_of_not_isPrefix hfront] at h
      obtain ⟨⟨left', right'⟩, hcut, heq⟩ := Option.map_eq_some_iff.mp h
      obtain ⟨rfl, rfl⟩ := Prod.mk.inj heq
      obtain ⟨rfl, hfirst⟩ := ih hcut
      refine ⟨rfl, ?_⟩
      rw [List.cons_append, List.infix_cons_iff, not_or]
      refine ⟨fun hinner => hfront (hinner.trans ?_), hfirst⟩
      exact append_dropLast_isPrefix separator (c :: left') right'

/-- No occurrence of the separator starts in front of the place where a text is cut. -/
theorem length_le_of_cut? {before rest : List Char} (hne : separator ≠ [])
    (hcut : cut? separator (before ++ separator ++ rest) = some (left, right)) :
    left.length ≤ before.length := by
  obtain ⟨htext, hfirst⟩ := (cut?_eq_some_iff hne).mp hcut
  by_contra hlong
  have hlength : (before ++ separator).length ≤ (left ++ separator.dropLast).length := by
    simp only [List.length_append, List.length_dropLast]
    omega
  have hfront : before ++ separator <+: left ++ separator.dropLast :=
    List.prefix_of_prefix_length_le (List.prefix_append _ rest)
      (htext ▸ append_dropLast_isPrefix separator left right) hlength
  exact hfirst ((List.suffix_append before separator).isInfix.trans hfront.isInfix)

/-! ## Joined parts -/

theorem join_cons (part : List Char) {parts : List (List Char)} (h : parts ≠ []) :
    join separator (part :: parts) = part ++ separator ++ join separator parts := by
  cases parts with
  | nil => exact absurd rfl h
  | cons next parts => rfl

theorem join_concat (parts : List (List Char)) (part : List Char) :
    join separator (parts ++ [part]) = parts.flatMap (· ++ separator) ++ part := by
  induction parts with
  | nil => rfl
  | cons first parts ih =>
    rw [List.cons_append, join_cons first (by simp), ih, List.flatMap_cons]
    simp

theorem join_append_separator {parts : List (List Char)} (h : parts ≠ []) :
    join separator parts ++ separator = parts.flatMap (· ++ separator) := by
  obtain ⟨front, part, rfl⟩ := (List.eq_nil_or_concat' parts).resolve_left h
  simp [join_concat]

theorem exists_join_cons (separator : List Char) (c : Char) (part : List Char)
    (parts : List (List Char)) : ∃ text, join separator ((c :: part) :: parts) = c :: text := by
  cases parts with
  | nil => exact ⟨part, rfl⟩
  | cons next parts => exact ⟨_, rfl⟩

theorem mem_join {parts : List (List Char)} {c : Char} (h : c ∈ join separator parts) :
    c ∈ separator ∨ ∃ part ∈ parts, c ∈ part := by
  induction parts with
  | nil => simp [join] at h
  | cons part parts ih =>
    by_cases hparts : parts = []
    · subst hparts
      exact .inr ⟨part, by simp, h⟩
    · rw [join_cons part hparts, List.mem_append, List.mem_append] at h
      rcases h with (h | h) | h
      · exact .inr ⟨part, by simp, h⟩
      · exact .inl h
      · obtain h | ⟨p, hp, hc⟩ := ih h
        · exact .inl h
        · exact .inr ⟨p, by simp [hp], hc⟩

end ModuleIndex.Text

import ModuleIndex.Text.Blank

/-!
# Texts without the blanks around them

Trimming takes blanks only, all of them at an end, and stops at the first character that is none.
-/

namespace ModuleIndex.Text

def IsBlanks (text : List Char) : Prop := ∀ c ∈ text, isBlank c = true

variable {blanks : List Char}

theorem isBlanks_nil : IsBlanks [] := by simp [IsBlanks]

theorem isBlanks_singleton {c : Char} : IsBlanks [c] ↔ isBlank c = true := by simp [IsBlanks]

theorem isBlanks_takeWhile (text : List Char) : IsBlanks (text.takeWhile isBlank) :=
  List.all_eq_true.mp List.all_takeWhile

/-! ## At the start -/

theorem trimStart_cons {c : Char} (h : isBlank c = false) (text : List Char) :
    trimStart (c :: text) = c :: text := by
  rw [trimStart, List.dropWhile_cons_of_neg (by simp [h])]

theorem trimStart_blanks (h : IsBlanks blanks) (text : List Char) :
    trimStart (blanks ++ text) = trimStart text := by
  rw [trimStart, List.dropWhile_append_of_pos h, trimStart]

theorem exists_trimStart (text : List Char) :
    ∃ blanks, IsBlanks blanks ∧ text = blanks ++ trimStart text :=
  ⟨_, isBlanks_takeWhile text, List.takeWhile_append_dropWhile.symm⟩

/-! ## At the end -/

theorem trimEnd_concat {c : Char} (h : isBlank c = false) (text : List Char) :
    trimEnd (text ++ [c]) = text ++ [c] := by
  rw [trimEnd, List.reverse_concat, List.dropWhile_cons_of_neg (by simp [h]),
    ← List.reverse_concat, List.reverse_reverse]

theorem trimEnd_blanks (h : IsBlanks blanks) (text : List Char) :
    trimEnd (text ++ blanks) = trimEnd text := by
  have hreverse : ∀ c ∈ blanks.reverse, isBlank c = true :=
    fun c hc => h c (List.mem_reverse.mp hc)
  rw [trimEnd, List.reverse_append, List.dropWhile_append_of_pos hreverse, trimEnd]

theorem exists_trimEnd (text : List Char) :
    ∃ blanks, IsBlanks blanks ∧ text = trimEnd text ++ blanks := by
  refine ⟨(text.reverse.takeWhile isBlank).reverse, ?_, ?_⟩
  · intro c hc
    exact isBlanks_takeWhile _ c (List.mem_reverse.mp hc)
  · rw [trimEnd, ← List.reverse_append, List.takeWhile_append_dropWhile, List.reverse_reverse]

theorem isBlank_of_mem_getLast?_trimEnd {text : List Char} {c : Char}
    (h : c ∈ (trimEnd text).getLast?) : isBlank c = false := by
  rw [trimEnd, List.getLast?_reverse] at h
  have hstop := List.head?_dropWhile_not isBlank text.reverse
  rw [h] at hstop
  simpa using hstop

theorem mem_trimEnd {text : List Char} {c : Char} (hc : isBlank c = false) (h : c ∈ text) :
    c ∈ trimEnd text := by
  obtain ⟨blanks, hblanks, htext⟩ := exists_trimEnd text
  rw [htext, List.mem_append] at h
  refine h.resolve_right fun hmem => ?_
  simp [hblanks c hmem] at hc

theorem trimEnd_append_eq (text rest : List Char) :
    trimEnd (text ++ rest) = if trimEnd rest = [] then trimEnd text else text ++ trimEnd rest := by
  have hnil : (rest.reverse.dropWhile isBlank).isEmpty ↔ trimEnd rest = [] := by
    rw [List.isEmpty_iff, trimEnd, List.reverse_eq_nil_iff]
  rw [trimEnd, List.reverse_append, List.dropWhile_append]
  simp only [hnil]
  split
  · rfl
  · rw [List.reverse_append, List.reverse_reverse, trimEnd]

/-- Trimming stops before the last character that is no blank. -/
theorem trimEnd_append (text : List Char) {c : Char} (h : isBlank c = false) (rest : List Char) :
    trimEnd (text ++ [c] ++ rest) = text ++ [c] ++ trimEnd rest := by
  rw [trimEnd_append_eq, trimEnd_concat h]
  split
  · next hrest => rw [hrest, List.append_nil]
  · rfl

theorem trimEnd_cons (c : Char) (text : List Char) :
    trimEnd (c :: text) = if isBlank c = true ∧ trimEnd text = [] then [] else c :: trimEnd text := by
  rw [trimEnd, List.reverse_cons, List.dropWhile_append, trimEnd]
  cases hrest : text.reverse.dropWhile isBlank with
  | nil => cases hc : isBlank c <;> simp [hc]
  | cons d rest => simp

/-! ## At both ends -/

theorem exists_trim (text : List Char) :
    ∃ before after, IsBlanks before ∧ IsBlanks after ∧ text = before ++ trim text ++ after := by
  obtain ⟨before, hbefore, htext⟩ := exists_trimStart text
  obtain ⟨after, hafter, hstart⟩ := exists_trimEnd (trimStart text)
  refine ⟨before, after, hbefore, hafter, ?_⟩
  rw [trim, List.append_assoc, ← hstart, ← htext]

theorem trim_between {before after : List Char} (hbefore : IsBlanks before)
    (hafter : IsBlanks after) {first last : Char} (hfirst : isBlank first = false)
    (hlast : isBlank last = false) (text : List Char) :
    trim (before ++ (first :: text ++ [last]) ++ after) = first :: text ++ [last] := by
  rw [trim, List.append_assoc, trimStart_blanks hbefore, List.cons_append, List.cons_append,
    trimStart_cons hfirst, ← List.cons_append, ← List.cons_append, trimEnd_blanks hafter,
    trimEnd_concat hlast]

/-- A text between two characters that are no blanks has nothing to trim. -/
theorem trim_enclosed {first last : Char} (hfirst : isBlank first = false)
    (hlast : isBlank last = false) (text : List Char) :
    trim (first :: text ++ [last]) = first :: text ++ [last] := by
  simpa using trim_between isBlanks_nil isBlanks_nil hfirst hlast text

/-! ## Without blanks -/

def withoutBlanks (text : List Char) : List Char := text.filter (!isBlank ·)

@[simp] theorem withoutBlanks_append (text rest : List Char) :
    withoutBlanks (text ++ rest) = withoutBlanks text ++ withoutBlanks rest :=
  List.filter_append ..

theorem withoutBlanks_eq_nil_iff {text : List Char} :
    withoutBlanks text = [] ↔ IsBlanks text := by
  simp [withoutBlanks, IsBlanks]

theorem withoutBlanks_trimEnd (text : List Char) :
    withoutBlanks (trimEnd text) = withoutBlanks text := by
  obtain ⟨blanks, hblanks, htext⟩ := exists_trimEnd text
  conv => rhs; rw [htext]
  rw [withoutBlanks_append, withoutBlanks_eq_nil_iff.mpr hblanks, List.append_nil]

end ModuleIndex.Text

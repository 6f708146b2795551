import ModuleIndex.Proofs.Description.Spelling
import ModuleIndex.Proofs.Markdown.PlainLines

/-!
# Plain prose

Words without any marks are shown as they are, with single spaces between them. It does not matter
how they are spread over lines and paragraphs.
-/

namespace ModuleIndex.Description

open Markdown (Event IsPlainLine isLineBlank isMark ne_of_isAlpha toNat_of_isAlpha
  paragraphEvents)
open Style (Theme)

/-! ## Words -/

/-- What may stand behind a word. -/
inductive Stop where
  | comma
  | fullStop
  deriving DecidableEq, Repr

def Stop.char : Stop → Char
  | comma => ','
  | fullStop => '.'

/-- One or more ASCII letters, and perhaps a stop behind them. -/
structure Word where
  letters : List Char
  stop? : Option Stop
  ne_nil : letters ≠ []
  isAlpha : ∀ c ∈ letters, c.isAlpha = true

def Word.text (w : Word) : List Char :=
  w.letters ++ (w.stop?.map Stop.char).toList

/-- The words with single spaces between them. -/
def spaced (words : List Word) : List Char :=
  Text.join [' '] (words.map Word.text)

/-- The text with these lines of words. -/
def proseOf (lines : List (List Word)) : List Char :=
  Text.join ['\n'] (lines.map spaced)

def IsWordChar (c : Char) : Prop := c.isAlpha = true ∨ c = ',' ∨ c = '.'

namespace IsWordChar

variable {c : Char}

theorem isMark_eq_false (h : IsWordChar c) : isMark c = false := by
  obtain h | rfl | rfl := h
  · simp [isMark, ne_of_isAlpha h]
  · decide
  · decide

theorem isLineBlank_eq_false (h : IsWordChar c) : isLineBlank c = false := by
  obtain h | rfl | rfl := h
  · simp [isLineBlank, ne_of_isAlpha h]
  · decide
  · decide

theorem isBlank_eq_false (h : IsWordChar c) : Text.isBlank c = false := by
  obtain h | rfl | rfl := h
  · have hrange := toNat_of_isAlpha h
    simp only [Text.isBlank, Bool.or_eq_false_iff, Bool.and_eq_false_iff, beq_eq_false_iff_ne,
      decide_eq_false_iff_not]
    omega
  · decide
  · decide

end IsWordChar

namespace Word

variable {w : Word} {c : Char}

theorem isWordChar (h : c ∈ w.text) : IsWordChar c := by
  rcases List.mem_append.mp h with hletter | hstop
  · exact .inl (w.isAlpha c hletter)
  · obtain ⟨stop, -, rfl⟩ := Option.map_eq_some_iff.mp (Option.mem_toList.mp hstop)
    cases stop with
    | comma => exact .inr (.inl rfl)
    | fullStop => exact .inr (.inr rfl)

theorem exists_cons (w : Word) : ∃ c rest, w.text = c :: rest ∧ c.isAlpha = true := by
  obtain ⟨c, letters, heq⟩ := List.exists_cons_of_ne_nil w.ne_nil
  refine ⟨c, letters ++ (w.stop?.map Stop.char).toList, ?_, w.isAlpha c (by simp [heq])⟩
  rw [text, heq, List.cons_append]

theorem exists_concat (w : Word) : ∃ front c, w.text = front ++ [c] ∧ IsWordChar c := by
  obtain ⟨c, rest, heq, -⟩ := w.exists_cons
  have hne : w.text ≠ [] := by simp [heq]
  obtain ⟨front, last, hconcat⟩ := (List.eq_nil_or_concat' w.text).resolve_left hne
  exact ⟨front, last, hconcat, w.isWordChar (by simp [hconcat])⟩

end Word

/-! ## Lines of words -/

section Lines

variable {words : List Word} (hne : words ≠ [])
include hne

theorem exists_spaced_cons : ∃ c rest, spaced words = c :: rest ∧ c.isAlpha = true := by
  obtain ⟨w, words, rfl⟩ := List.exists_cons_of_ne_nil hne
  obtain ⟨c, rest, heq, hc⟩ := w.exists_cons
  obtain ⟨more, hmore⟩ := Text.exists_join_cons [' '] c rest (words.map Word.text)
  exact ⟨c, more, by rw [spaced, List.map_cons, heq, hmore], hc⟩

theorem exists_spaced_concat : ∃ front c, spaced words = front ++ [c] ∧ IsWordChar c := by
  obtain ⟨before, w, rfl⟩ := (List.eq_nil_or_concat' words).resolve_left hne
  obtain ⟨front, c, heq, hc⟩ := w.exists_concat
  refine ⟨(before.map Word.text).flatMap (· ++ [' ']) ++ front, c, ?_, hc⟩
  rw [spaced, List.map_append, List.map_singleton, Text.join_concat, heq, List.append_assoc]

theorem isPlainLine_spaced : IsPlainLine (spaced words) where
  starts := exists_spaced_cons hne
  unmarked := by
    intro c hc
    obtain hspace | ⟨text, htext, hc⟩ := Text.mem_join hc
    · rw [List.mem_singleton.mp hspace]
      decide
    · obtain ⟨w, -, rfl⟩ := List.mem_map.mp htext
      exact (Word.isWordChar hc).isMark_eq_false
  ends := by
    obtain ⟨front, c, heq, hc⟩ := exists_spaced_concat hne
    simpa [heq] using hc.isLineBlank_eq_false

theorem spaced_append_space : spaced words ++ [' '] = words.flatMap (·.text ++ [' ']) := by
  rw [spaced, Text.join_append_separator (by simpa using hne), List.flatMap_map]

end Lines

theorem flatMap_lines (lines : List (List Word)) :
    ((lines.map spaced).filter (· ≠ [])).flatMap (· ++ [' ']) =
      lines.flatten.flatMap (·.text ++ [' ']) := by
  induction lines with
  | nil => rfl
  | cons words lines ih =>
    rw [List.flatten_cons, List.flatMap_append, ← ih, List.map_cons]
    by_cases hwords : words = []
    · subst hwords
      rfl
    · have hne : spaced words ≠ [] := (isPlainLine_spaced hwords).ne_nil
      rw [List.filter_cons_of_pos (by simpa using hne), List.flatMap_cons,
        spaced_append_space hwords]

theorem trimEnd_words (words : List Word) :
    Text.trimEnd (words.flatMap (·.text ++ [' '])) = spaced words := by
  by_cases hwords : words = []
  · subst hwords
    rfl
  · obtain ⟨front, c, heq, hc⟩ := exists_spaced_concat hwords
    rw [← spaced_append_space hwords,
      Text.trimEnd_blanks (Text.isBlanks_singleton.mpr (by decide)), heq,
      Text.trimEnd_concat hc.isBlank_eq_false]

/-! ## Paragraphs -/

namespace Line

variable {l : Line} {text : List Char}

theorem space_push (h : IsPlainLine text) : (l.push text).space = l.push (text ++ [' ']) := by
  have hdue : (l.push text).due = true := by
    rw [due_eq, current_push, List.getLast?_append_of_ne_nil _ h.ne_nil,
      List.getLast?_eq_some_getLast h.ne_nil]
    have hlast := h.ends _ (List.getLast?_eq_some_getLast h.ne_nil)
    rw [Option.any_some, bne_iff_ne]
    intro hspace
    simp [hspace, isLineBlank] at hlast
  rw [space_of_due hdue, push_push]

/-- Each line is followed by a space: that of the break behind it, or of the end of the
paragraph. -/
theorem foldl_lines (theme? : Option Theme) {texts : List (List Char)}
    (h : ∀ t ∈ text :: texts, IsPlainLine t) (l : Line) :
    (((text :: texts).map Event.text).intersperse Event.softBreak ++
        [Event.endBlock .paragraph]).foldl (step theme?) l =
      l.push ((text :: texts).flatMap (· ++ [' '])) := by
  induction texts generalizing text l with
  | nil =>
    have htext : IsPlainLine text := h text List.mem_cons_self
    rw [List.flatMap_singleton, ← space_push htext]
    rfl
  | cons next texts ih =>
    obtain ⟨htext, hfollowing⟩ := List.forall_mem_cons.mp h
    have hrest := ih hfollowing (l.push text).space
    rw [List.flatMap_cons, ← push_push, ← space_push htext, ← hrest]
    rfl

theorem foldl_paragraphs (theme? : Option Theme) {groups : List (List (List Char))}
    (h : ∀ texts ∈ groups, texts ≠ [] ∧ ∀ t ∈ texts, IsPlainLine t) (l : Line) :
    (groups.flatMap paragraphEvents).foldl (step theme?) l =
      l.push (groups.flatten.flatMap (· ++ [' '])) := by
  induction groups generalizing l with
  | nil => simp
  | cons texts groups ih =>
    obtain ⟨⟨hne, htexts⟩, hgroups⟩ := List.forall_mem_cons.mp h
    obtain ⟨text, texts, rfl⟩ := List.exists_cons_of_ne_nil hne
    have hparagraph : (paragraphEvents (text :: texts)).foldl (step theme?) l =
        l.push ((text :: texts).flatMap (· ++ [' '])) := foldl_lines theme? htexts l
    rw [List.flatMap_cons, List.foldl_append, hparagraph, ih hgroups, push_push,
      ← List.flatMap_append, List.flatten_cons]

end Line

/-- Prose is shown as its words, in order and with single spaces between them. Where its lines
end and how many of them are empty does not matter. -/
theorem format_prose (theme? : Option Theme) (lines : List (List Word)) :
    format theme? (String.ofList (proseOf lines)) = spaced lines.flatten := by
  have hlines : ∀ t ∈ lines.map spaced, t = [] ∨ IsPlainLine t := by
    rw [List.forall_mem_map]
    intro words _
    by_cases hwords : words = []
    · subst hwords
      exact .inl rfl
    · exact .inr (isPlainLine_spaced hwords)
  have hgroups := Markdown.forall_mem_paragraphsFrom (List.forall_mem_nil IsPlainLine) hlines
  rw [format, String.toList_ofList, proseOf, Markdown.events_join hlines, ofEvents,
    Markdown.paragraphs, Line.foldl_paragraphs theme? hgroups, Markdown.flatten_paragraphsFrom,
    List.nil_append, flatMap_lines, Line.finish_push_empty, trimEnd_words]

end ModuleIndex.Description

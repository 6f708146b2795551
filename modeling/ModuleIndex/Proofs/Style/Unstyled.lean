import ModuleIndex.Proofs.Style.Terminal
import Mathlib.Data.List.Basic

/-!
# Styled text and the same text without styles

The sequences for looks are taken out of a text. In a painted text they are not blank, so what
stands at the end of it may not be what stands at the end of the text that is left. A mark in
place of each reset tells where the two differ.
-/

namespace ModuleIndex.Style

/-! ## Taking out sequences -/

def isCodeChar (c : Char) : Bool := c.isDigit || c = ';'

/-- How many characters behind an escape character belong to a sequence for looks. -/
def sequenceLength? : (text : List Char) → Option Nat
  | '[' :: text =>
    let codes := text.takeWhile isCodeChar
    if (text.drop codes.length).head? = some 'm' then some (codes.length + 2) else none
  | _ => none

/-- The text behind the first `skip` characters without its sequences for looks. -/
def unstyledFrom : (skip : Nat) → (text : List Char) → List Char
  | _, [] => []
  | skip + 1, _ :: text => unstyledFrom skip text
  | 0, c :: text =>
    if c = '\x1b' then
      match sequenceLength? text with
      | some n => unstyledFrom n text
      | none => c :: unstyledFrom 0 text
    else c :: unstyledFrom 0 text

def unstyled (text : List Char) : List Char := unstyledFrom 0 text

theorem unstyled_cons {c : Char} (hc : c ≠ '\x1b') (text : List Char) :
    unstyled (c :: text) = c :: unstyled text := by
  simp [unstyled, unstyledFrom, hc]

theorem unstyledFrom_append (front text : List Char) :
    unstyledFrom front.length (front ++ text) = unstyled text := by
  induction front with
  | nil => rfl
  | cons c front ih => simpa [unstyledFrom] using ih

theorem unstyled_codes (codes : List Char) (h : ∀ c ∈ codes, isCodeChar c = true)
    (text : List Char) : unstyled ('\x1b' :: '[' :: codes ++ 'm' :: text) = unstyled text := by
  have htake : (codes ++ 'm' :: text).takeWhile isCodeChar = codes := by
    rw [List.takeWhile_append_of_pos h, List.takeWhile_cons_of_neg (by decide), List.append_nil]
  have hlength : sequenceLength? ('[' :: (codes ++ 'm' :: text)) = some (codes.length + 2) := by
    simp [sequenceLength?, htake]
  have hskip := unstyledFrom_append ('[' :: codes ++ ['m']) text
  simpa [unstyled, unstyledFrom, hlength] using hskip

theorem unstyled_sequence (style : List Attribute) (text : List Char) :
    unstyled (sequence style ++ text) = unstyled text := by
  have hcodes : ∀ c ∈ codeText (style.flatMap Attribute.codes), isCodeChar c = true := by
    intro c hc
    simpa [isCodeChar] using isDigit_or_of_mem_codeText hc
  have h := unstyled_codes _ hcodes text
  rwa [sequence, List.append_assoc]

theorem unstyled_reset (text : List Char) : unstyled (reset ++ text) = unstyled text :=
  unstyled_codes ['0'] (List.forall_mem_singleton.mpr rfl) text

/-! ## Marks -/

/-- A text in color, and without color but with a mark in place of each reset. There is a mark
behind each style. -/
inductive Twin : (colored marked : List Char) → Prop
  | nil : Twin [] []
  | char {c colored marked} (hc : c ≠ '\x1b') (h : Twin colored marked) :
      Twin (c :: colored) (c :: marked)
  | style {style colored marked} (hstyle : style ≠ []) (hmark : '\x1b' ∈ marked)
      (h : Twin colored marked) : Twin (sequence style ++ colored) marked
  | reset {colored marked} (h : Twin colored marked) : Twin (reset ++ colored) ('\x1b' :: marked)

def withoutMarks (text : List Char) : List Char := text.filter (· ≠ '\x1b')

namespace Twin

variable {colored marked more rest : List Char}

theorem of_plain (h : '\x1b' ∉ marked) : Twin marked marked := by
  induction marked with
  | nil => exact .nil
  | cons c marked ih =>
    rw [List.mem_cons, not_or] at h
    exact .char (Ne.symm h.1) (ih h.2)

theorem append (h : Twin colored marked) (hmore : Twin more rest) :
    Twin (colored ++ more) (marked ++ rest) := by
  induction h with
  | nil => exact hmore
  | char hc _ ih => exact .char hc ih
  | style hstyle hmark _ ih =>
    rw [List.append_assoc]
    exact .style hstyle (List.mem_append_left _ hmark) ih
  | reset _ ih =>
    rw [List.append_assoc]
    exact .reset ih

/-- With the style again behind each reset, and a reset behind all. -/
theorem resume {style : List Attribute} (hstyle : style ≠ []) (h : Twin colored marked) :
    Twin (resume (sequence style) colored ++ Style.reset) (marked ++ ['\x1b']) := by
  induction h with
  | nil => exact .reset .nil
  | char hc _ ih =>
    rw [resume_cons hc]
    exact .char hc ih
  | style hinner _ _ ih =>
    rw [resume_sequence hinner, List.append_assoc]
    exact .style hinner (by simp) ih
  | @reset colored marked _ ih =>
    have hagain : Style.resume (sequence style) (Style.reset ++ colored) =
        Style.reset ++ sequence style ++ Style.resume (sequence style) colored := rfl
    rw [hagain, List.append_assoc, List.append_assoc]
    exact .reset (.style hstyle (by simp) ih)

theorem paint {style : List Attribute} (hstyle : style ≠ []) (h : Twin colored marked) :
    Twin (paint style colored) (marked ++ ['\x1b']) := by
  have hpaint := Twin.style hstyle (by simp) (h.resume hstyle)
  rwa [← List.append_assoc] at hpaint

theorem unstyled_eq (h : Twin colored marked) : unstyled colored = withoutMarks marked := by
  induction h with
  | nil => rfl
  | char hc _ ih => simp_all [unstyled_cons, withoutMarks]
  | style _ _ _ ih => rw [unstyled_sequence, ih]
  | reset _ ih =>
    rw [unstyled_reset, ih]
    rfl

theorem eq_nil_iff (h : Twin colored marked) : colored = [] ↔ marked = [] := by
  cases h with
  | nil | char => simp
  | style _ hmark => simp [List.ne_nil_of_mem hmark, sequence]
  | reset => simp [Style.reset]

/-- A twin ends with a space if the other one does. -/
theorem any_getLast?_eq (h : Twin colored marked) :
    colored.getLast?.any (· != ' ') = marked.getLast?.any (· != ' ') := by
  induction h with
  | nil => rfl
  | @char c colored marked _ h ih =>
    by_cases hnil : marked = []
    · simp [hnil, h.eq_nil_iff.mpr hnil]
    · have hcolored := mt h.eq_nil_iff.mp hnil
      rw [← List.singleton_append, List.getLast?_append_of_ne_nil _ hcolored, ih,
        ← List.singleton_append, List.getLast?_append_of_ne_nil _ hnil]
  | @style style colored marked _ hmark h ih =>
    have hcolored := mt h.eq_nil_iff.mp (List.ne_nil_of_mem hmark)
    rw [List.getLast?_append_of_ne_nil _ hcolored, ih]
  | @reset colored marked h ih =>
    by_cases hnil : marked = []
    · simp [hnil, h.eq_nil_iff.mpr hnil, Style.reset]
    · have hcolored := mt h.eq_nil_iff.mp hnil
      rw [List.getLast?_append_of_ne_nil _ hcolored, ih, ← List.singleton_append,
        List.getLast?_append_of_ne_nil _ hnil]

theorem trimEnd (h : Twin colored marked) : Twin (Text.trimEnd colored) (Text.trimEnd marked) := by
  induction h with
  | nil => exact .nil
  | @char c colored marked hc _ ih =>
    rw [Text.trimEnd_cons, Text.trimEnd_cons, if_congr (and_congr_right' ih.eq_nil_iff) rfl rfl]
    split
    · exact .nil
    · exact .char hc ih
  | style hstyle hmark _ ih =>
    rw [trimEnd_sequence]
    exact .style hstyle (Text.mem_trimEnd (by decide) hmark) ih
  | @reset colored marked _ ih =>
    have hmark : Text.trimEnd ('\x1b' :: marked) = '\x1b' :: Text.trimEnd marked :=
      Text.trimEnd_append [] (by decide) marked
    rw [trimEnd_reset, hmark]
    exact .reset ih

end Twin

end ModuleIndex.Style

import ModuleIndex.Markdown.Event
import ModuleIndex.Proofs.Markdown.Characters
import ModuleIndex.Proofs.Text.Pieces

/-!
# Texts of plain lines

A line that starts with a letter starts no block but a paragraph, and if it has no marks in it, it
is one piece of text. So a text of such lines is made of paragraphs. Empty lines stand between
them, and a soft break stands between two lines of a paragraph.
-/

namespace ModuleIndex.Markdown

/-- A line that starts with a letter, holds no marks and does not end with a blank. -/
structure IsPlainLine (text : List Char) : Prop where
  starts : ∃ c rest, text = c :: rest ∧ c.isAlpha = true
  unmarked : Over (isMark · = false) text
  ends : ∀ c ∈ text.getLast?, isLineBlank c = false

theorem ne_of_isAlpha {c d : Char} (hc : c.isAlpha = true) (hd : d.isAlpha = false) : c ≠ d := by
  rintro rfl
  simp [hd] at hc

theorem toNat_of_isAlpha {c : Char} (h : c.isAlpha = true) : 65 ≤ c.toNat ∧ c.toNat ≤ 122 := by
  obtain hupper | hlower : c.isUpper = true ∨ c.isLower = true := Bool.or_eq_true_iff.mp h
  · obtain ⟨hfrom, hto⟩ : c.val ≥ 65 ∧ c.val ≤ 90 := of_decide_eq_true hupper
    have hfrom : 65 ≤ c.toNat := UInt32.le_iff_toNat_le.mp hfrom
    have hto : c.toNat ≤ 90 := UInt32.le_iff_toNat_le.mp hto
    omega
  · obtain ⟨hfrom, hto⟩ := Bool.and_eq_true_iff.mp hlower
    have hfrom : 97 ≤ c.toNat := UInt32.le_iff_toNat_le.mp (of_decide_eq_true hfrom)
    have hto : c.toNat ≤ 122 := UInt32.le_iff_toNat_le.mp (of_decide_eq_true hto)
    omega

theorem isDigit_of_isAlpha {c : Char} (hc : c.isAlpha = true) : c.isDigit = false := by
  have hrange := toNat_of_isAlpha hc
  rw [Bool.eq_false_iff]
  intro hdigit
  have hto := of_decide_eq_true (Bool.and_eq_true_iff.mp hdigit).2
  have hto : c.toNat ≤ 57 := UInt32.le_iff_toNat_le.mp hto
  omega

/-! ## Lines -/

/-- The lines of a text, given without their line ends. The last one is no line if it is empty. -/
def endedLines : List (List Char) → List Line
  | [] => []
  | [text] => if text = [] then [] else [⟨text, [], []⟩]
  | text :: next :: texts => ⟨text, ['\n'], []⟩ :: endedLines (next :: texts)

theorem linesFrom_cons {c : Char} (hc : isLineEnd c = false) (line text : List Char) :
    linesFrom line (c :: text) = linesFrom (c :: line) text := by
  simp only [isLineEnd, Bool.or_eq_false_iff, beq_eq_false_iff_ne] at hc
  rw [linesFrom]
  · exact hc.1
  · exact fun _ hreturn _ => hc.2 hreturn
  · exact hc.2

theorem linesFrom_feed {text : List Char} (h : IsFlat text) (line rest : List Char) :
    linesFrom line (text ++ '\n' :: rest) =
      ⟨line.reverse ++ text, ['\n'], []⟩ :: linesFrom [] rest := by
  induction text generalizing line with
  | nil => simp [linesFrom]
  | cons c text ih =>
    rw [IsFlat, Over.cons_iff] at h
    rw [List.cons_append, linesFrom_cons h.1, ih h.2]
    simp

theorem linesFrom_flat {text : List Char} (h : IsFlat text) (line : List Char) :
    linesFrom line text =
      if line.reverse ++ text = [] then [] else [⟨line.reverse ++ text, [], []⟩] := by
  induction text generalizing line with
  | nil => cases line <;> simp [linesFrom]
  | cons c text ih =>
    rw [IsFlat, Over.cons_iff] at h
    rw [linesFrom_cons h.1, ih h.2]
    simp

theorem linesOf_join {texts : List (List Char)} (h : ∀ t ∈ texts, IsFlat t) :
    linesOf (Text.join ['\n'] texts) = endedLines texts := by
  unfold linesOf
  fun_induction endedLines texts with
  | case1 => rfl
  | case2 => rfl
  | case3 text hne =>
    rw [Text.join, linesFrom_flat (h text (by simp))]
    simp [hne]
  | case4 text next texts ih =>
    rw [List.forall_mem_cons] at h
    rw [Text.join, List.append_assoc, List.singleton_append, linesFrom_feed h.1, ih h.2]
    rfl

/-! ## Starts of lines -/

@[simp] theorem Cursor.rest_ofText (text : List Char) : (Cursor.ofText text).rest = text := rfl

section Starts

variable {c : Char} (hc : c.isAlpha = true) (rest : List Char)
include hc

theorem isRule_eq_false : isRule (c :: rest) = false := by
  have hmark : ['*', '-', '_'].contains c = false := by
    simp [ne_of_isAlpha hc]
  rw [isRule, hmark, Bool.false_and, Bool.false_and]

theorem isUnderline_eq_false : isUnderline (c :: rest) = false := by
  simp [isUnderline, ne_of_isAlpha hc]

theorem heading?_eq_none : heading? (c :: rest) = none := by
  simp [heading?, ne_of_isAlpha hc]

theorem fence?_eq_none : fence? (c :: rest) = none := by
  simp [fence?, ne_of_isAlpha hc]

theorem htmlEnd?_eq_none (interrupting : Bool) : htmlEnd? (c :: rest) interrupting = none := by
  unfold htmlEnd?
  split
  · next heq => exact absurd (List.cons.inj heq).1 (ne_of_isAlpha hc rfl)
  · rfl

theorem listMark?_eq_none : listMark? (c :: rest) = none := by
  simp [listMark?, ne_of_isAlpha hc, isDigit_of_isAlpha hc]

theorem interruptsParagraph_eq_false (more : List Char) (inside : Bool) :
    interruptsParagraph (c :: rest) (c :: more) inside = false := by
  simp [interruptsParagraph, isRule_eq_false hc, heading?_eq_none hc, fence?_eq_none hc,
    listMark?_eq_none hc, htmlEnd?_eq_none hc, ne_of_isAlpha hc]

theorem indent_eq_zero : (Cursor.ofText (c :: rest)).indent = 0 := by
  simp [Cursor.indent, Cursor.ofText, Cursor.indentFrom, ne_of_isAlpha hc]

theorem dropIndent_eq : (Cursor.ofText (c :: rest)).dropIndent = .ofText (c :: rest) := by
  rw [Cursor.dropIndent, indent_eq_zero hc]
  rfl

theorem isEmpty_eq_false : (Cursor.ofText (c :: rest)).isEmpty = false := by
  simp [Cursor.isEmpty, Cursor.ofText, isSpaceOrTab, ne_of_isAlpha hc]

theorem isBlank_eq_false : (Cursor.ofText (c :: rest)).isBlank = false := by
  simp [Cursor.isBlank, Cursor.ofText, isLineBlank, ne_of_isAlpha hc]

end Starts

/-! ## Passages -/

namespace IsPlainLine

variable {text : List Char}

theorem ne_nil (h : IsPlainLine text) : text ≠ [] := by
  obtain ⟨c, rest, rfl, -⟩ := h.starts
  exact List.cons_ne_nil c rest

theorem isFlat (h : IsPlainLine text) : IsFlat text := by
  intro c hc
  exact isLineEnd_eq_false (q := (!isMark ·)) (by decide) (by decide) (by simp [h.unmarked c hc])

theorem getLast?_append (h : IsPlainLine text) (front : List Char) :
    ∀ c ∈ (front ++ text).getLast?, isLineBlank c = false ∧ isLineEnd c = false := by
  intro c hc
  rw [List.getLast?_append_of_ne_nil front h.ne_nil] at hc
  exact ⟨h.ends c hc, h.isFlat c (List.mem_of_getLast? hc)⟩

end IsPlainLine

/-- A line of a paragraph outside of all containers. -/
def freeLine (ending text : List Char) : PassageLine := ⟨⟨[], false⟩, text, ending⟩

/-- The paragraph of lines that have nothing in front of them. -/
def paragraphOf (texts : List (List Char)) : Block :=
  .paragraph ⟨Text.join ['\n'] texts, List.replicate (texts.length - 1) ⟨[], false⟩, []⟩

/-- The line end of the last line does not count. -/
theorem ofLines_freeLines (texts : List (List Char)) {text ending : List Char}
    (h : IsPlainLine text) (hending : ∀ c ∈ ending, isLineEnd c = true) :
    Block.paragraph (.ofLines (texts.map (freeLine ['\n']) ++ [freeLine ending text])) =
      paragraphOf (texts ++ [text]) := by
  have hjoin : Passage.joinLines (texts.map (freeLine ['\n']) ++ [freeLine ending text]) =
      Text.join ['\n'] (texts ++ [text]) ++ ending := by
    rw [Text.join_concat]
    simp [Passage.joinLines, freeLine, List.flatMap_map]
  have hlast := h.getLast?_append (texts.flatMap (· ++ ['\n']))
  rw [← Text.join_concat] at hlast
  have hmargins : (texts.map (freeLine ['\n']) ++ [freeLine ending text]).map (·.margin) =
      List.replicate (texts.length + 1) ⟨[], false⟩ := by
    simp [freeLine, List.replicate_succ', Function.comp_def]
  rw [Passage.ofLines, hjoin, dropEnd_append hending, dropEnd_eq_self fun c hc => (hlast c hc).2,
    dropEnd_eq_self fun c hc => (hlast c hc).1, List.map_tail, hmargins, paragraphOf]
  simp

/-! ## Paragraphs -/

/-- The paragraph of some lines, unless there are none. -/
def grouped : (texts : List (List Char)) → List (List (List Char))
  | [] => []
  | text :: texts => [text :: texts]

theorem grouped_concat (texts : List (List Char)) (text : List Char) :
    grouped (texts ++ [text]) = [texts ++ [text]] := by
  cases texts <;> rfl

theorem reverse_grouped (texts : List (List Char)) : (grouped texts).reverse = grouped texts := by
  cases texts <;> rfl

/-- The paragraphs of lines, between which empty lines stand. The first one starts with
`texts`. -/
def paragraphsFrom : (texts : List (List Char)) → List (List Char) → List (List (List Char))
  | texts, [] => grouped texts
  | texts, text :: following =>
    if text = [] then grouped texts ++ paragraphsFrom [] following
    else paragraphsFrom (texts ++ [text]) following

def paragraphs (lines : List (List Char)) : List (List (List Char)) :=
  paragraphsFrom [] lines

theorem flatten_grouped (texts : List (List Char)) : (grouped texts).flatten = texts := by
  cases texts <;> simp [grouped]

theorem flatten_paragraphsFrom (texts lines : List (List Char)) :
    (paragraphsFrom texts lines).flatten = texts ++ lines.filter (· ≠ []) := by
  induction lines generalizing texts with
  | nil => simp [paragraphsFrom, flatten_grouped]
  | cons text lines ih =>
    rw [paragraphsFrom]
    split
    · next hempty => simp [ih, flatten_grouped, hempty]
    · next hne => simp [ih, hne]

/-! ## Reading lines outside of containers -/

namespace Builder

/-- A builder without open containers and labels. -/
def outside (blocks : List Block) (leaf : Leaf) (afterBlank : Bool) : Builder :=
  ⟨[], blocks, leaf, [], afterBlank, false⟩

/-- The leaf for the lines of a paragraph, the latest one first. There is none for no lines. -/
def leafOf : (lines : List PassageLine) → Leaf
  | [] => .none
  | l :: lines => .paragraph (l :: lines)

/-- The block that the lines of a paragraph make, the latest one first. -/
def closed : (lines : List PassageLine) → List Block
  | [] => []
  | l :: lines => [.paragraph (.ofLines (l :: lines).reverse)]

variable {blocks : List Block} {afterBlank : Bool}

theorem finish_outside (lines : List PassageLine) :
    (outside blocks (leafOf lines) afterBlank).finish =
      ⟨blocks.reverse ++ closed lines, []⟩ := by
  cases lines with
  | nil => simp [finish, closeLeaf, leafOf, outside, closed, popMany]
  | cons l lines =>
    simp [finish, closeLeaf, leafOf, outside, closed, popMany, addBlock]

theorem line_empty (lines : List PassageLine) (ending : List Char) (following : List Line) :
    (outside blocks (leafOf lines) afterBlank).line ⟨[], ending, []⟩ following =
      (outside (closed lines ++ blocks) .none true, 0) := by
  cases lines <;> rfl

section Plain

variable {c : Char} (hc : c.isAlpha = true) (rest ending : List Char) (following : List Line)
include hc

theorem openContainers_plain (bound : Nat) (b : Builder) :
    openContainers (bound + 1) b (.ofText (c :: rest)) = (b, some (.ofText (c :: rest))) := by
  have hquote : (c :: rest).head? ≠ some '>' := by
    simpa using ne_of_isAlpha hc (d := '>') rfl
  rw [openContainers]
  simp only [indent_eq_zero hc, dropIndent_eq hc, Cursor.rest_ofText, listMark?_eq_none hc,
    if_neg hquote]
  rfl

theorem startParagraph_plain (bound : Nat) (b : Builder) :
    startParagraph (bound + 1) b (c :: rest) ending following =
      ({ b with leaf := .paragraph [freeLine ending (c :: rest)] }, 0) := by
  have hlabel : (c :: rest).head? ≠ some '[' := by
    simpa using ne_of_isAlpha hc (d := '[') rfl
  rw [startParagraph, definition?, if_neg hlabel]
  rfl

theorem startLeaf_plain :
    (outside blocks .none afterBlank).startLeaf (.ofText (c :: rest)) ⟨c :: rest, ending, []⟩
        following =
      (outside blocks (leafOf [freeLine ending (c :: rest)]) false, 0) := by
  have hbegin : (outside blocks .none afterBlank).beginBlock = outside blocks .none false := by
    cases afterBlank <;> rfl
  have hfence : fence? (Line.whole ⟨c :: rest, ending, []⟩ (c :: rest)) = none :=
    fence?_eq_none hc _
  unfold startLeaf
  simp only [hbegin, indent_eq_zero hc, dropIndent_eq hc, Cursor.rest_ofText,
    htmlEnd?_eq_none hc, isRule_eq_false hc, heading?_eq_none hc, hfence, startParagraph_plain hc]
  rfl

theorem newBlocks_plain :
    (outside blocks .none afterBlank).newBlocks 0 (.ofText (c :: rest)) ⟨c :: rest, ending, []⟩
        following =
      (outside blocks (leafOf [freeLine ending (c :: rest)]) false, 0) := by
  have hclose : (outside blocks .none afterBlank).closeLeaf = outside blocks .none afterBlank := rfl
  have hpop : popMany ((outside blocks .none afterBlank).frames.length - 0)
      (outside blocks .none afterBlank) = outside blocks .none afterBlank := rfl
  unfold newBlocks
  simp only [hclose, hpop, openContainers_plain hc, isBlank_eq_false hc, startLeaf_plain hc]
  rfl

theorem paragraphLine_plain (lines : List PassageLine) :
    (outside blocks (.paragraph lines) afterBlank).paragraphLine lines 0 (.ofText (c :: rest))
        ⟨c :: rest, ending, []⟩ following =
      (outside blocks (.paragraph (freeLine ending (c :: rest) :: lines)) afterBlank, 0) := by
  have hmargin : (outside blocks (.paragraph lines) afterBlank).margin 0 (.ofText (c :: rest))
      ⟨c :: rest, ending, []⟩ = ⟨[], false⟩ := by
    simp [margin, outside]
  have hinterrupts (inside : Bool) : interruptsParagraph (c :: rest)
      (Line.whole ⟨c :: rest, ending, []⟩ (c :: rest)) inside = false :=
    interruptsParagraph_eq_false hc rest _ inside
  unfold paragraphLine
  simp only [isEmpty_eq_false hc, indent_eq_zero hc, dropIndent_eq hc, Cursor.rest_ofText,
    isUnderline_eq_false hc, hinterrupts, hmargin, Bool.and_false]
  rfl

end Plain

theorem line_plain {text : List Char} (h : IsPlainLine text) (lines : List PassageLine)
    (ending : List Char) (following : List Line) :
    ∃ blank, (outside blocks (leafOf lines) afterBlank).line ⟨text, ending, []⟩ following =
      (outside blocks (leafOf (freeLine ending text :: lines)) blank, 0) := by
  obtain ⟨c, rest, rfl, hc⟩ := h.starts
  cases lines with
  | nil => exact ⟨false, newBlocks_plain hc rest ending following⟩
  | cons l lines => exact ⟨afterBlank, paragraphLine_plain hc rest ending following (l :: lines)⟩

theorem closed_freeLine (texts : List (List Char)) {text ending : List Char}
    (h : IsPlainLine text) (hending : ∀ c ∈ ending, isLineEnd c = true) :
    closed (freeLine ending text :: (texts.map (freeLine ['\n'])).reverse) =
      [paragraphOf (texts ++ [text])] := by
  rw [closed, List.reverse_cons, List.reverse_reverse, ofLines_freeLines texts h hending]

theorem closed_freeLines {texts : List (List Char)} (h : ∀ t ∈ texts, IsPlainLine t) :
    closed (texts.map (freeLine ['\n'])).reverse = (grouped texts).map paragraphOf := by
  obtain rfl | ⟨front, text, rfl⟩ := List.eq_nil_or_concat' texts
  · rfl
  · have htext : IsPlainLine text := h text (by simp)
    rw [List.map_append, List.map_singleton, List.reverse_concat,
      closed_freeLine front htext (by simp [isLineEnd]), grouped_concat]
    rfl

/-- Reading goes on with the paragraph `texts`, all lines of which have ended. -/
theorem finish_lines {texts lines : List (List Char)} (htexts : ∀ t ∈ texts, IsPlainLine t)
    (hlines : ∀ t ∈ lines, t = [] ∨ IsPlainLine t) (blocks : List Block) (afterBlank : Bool) :
    (Builder.lines 0 (outside blocks (leafOf (texts.map (freeLine ['\n'])).reverse) afterBlank)
        (endedLines lines)).finish =
      ⟨blocks.reverse ++ (paragraphsFrom texts lines).map paragraphOf, []⟩ := by
  fun_induction endedLines lines generalizing texts blocks afterBlank with
  | case1 => rw [Builder.lines, finish_outside, closed_freeLines htexts, paragraphsFrom]
  | case2 =>
    rw [Builder.lines, finish_outside, closed_freeLines htexts]
    simp [paragraphsFrom, grouped]
  | case3 text hne =>
    have htext := (hlines text (by simp)).resolve_left hne
    obtain ⟨blank, hline⟩ := line_plain htext (texts.map (freeLine ['\n'])).reverse [] []
    rw [Builder.lines, hline]
    dsimp only
    rw [Builder.lines, finish_outside, closed_freeLine texts htext (by simp)]
    simp [paragraphsFrom, hne, grouped_concat]
  | case4 text next following ih =>
    rw [List.forall_mem_cons] at hlines
    obtain ⟨htext, hfollowing⟩ := hlines
    by_cases hne : text = []
    · subst hne
      have hrest := ih (List.forall_mem_nil IsPlainLine) hfollowing
        ((grouped texts).map paragraphOf ++ blocks) true
      rw [Builder.lines, line_empty, closed_freeLines htexts]
      refine hrest.trans ?_
      simp [paragraphsFrom, ← List.map_reverse, reverse_grouped]
    · have htext := htext.resolve_left hne
      obtain ⟨blank, hline⟩ := line_plain htext (texts.map (freeLine ['\n'])).reverse ['\n']
        (endedLines (next :: following))
      have htexts' : ∀ t ∈ texts ++ [text], IsPlainLine t :=
        List.forall_mem_append.mpr ⟨htexts, List.forall_mem_singleton.mpr htext⟩
      have hrest := ih htexts' hfollowing blocks blank
      rw [List.map_append, List.map_singleton, List.reverse_concat] at hrest
      rw [Builder.lines, hline, paragraphsFrom, if_neg hne]
      exact hrest

end Builder

theorem ofText_join {lines : List (List Char)} (h : ∀ t ∈ lines, t = [] ∨ IsPlainLine t) :
    Document.ofText (Text.join ['\n'] lines) = ⟨(paragraphs lines).map paragraphOf, []⟩ := by
  have hflat : ∀ t ∈ lines, IsFlat t := by
    intro t ht
    obtain rfl | hplain := h t ht
    · exact .nil
    · exact hplain.isFlat
  rw [Document.ofText, linesOf_join hflat]
  exact Builder.finish_lines (List.forall_mem_nil IsPlainLine) h [] false

/-! ## Inline content -/

theorem foldl_step_inline (content : List Inline) (base : List Inline) :
    (content.map Piece.inline).foldl Openers.step ⟨[], base⟩ = ⟨[], content.reverse ++ base⟩ := by
  induction content generalizing base with
  | nil => rfl
  | cons i content ih =>
    rw [List.map_cons, List.foldl_cons]
    exact (ih (i :: base)).trans (by simp)

theorem resolveEmphasis_inline (content : List Inline) :
    resolveEmphasis (content.map Piece.inline) = content := by
  rw [resolveEmphasis, foldl_step_inline]
  simp [Openers.flatten]

section Scan

variable {defined : List (List Char)} {f : Found}

theorem exists_scan_append (place : Place) (front rest : List Char) :
    ∃ place' : Place, place'.tail = place.tail ∧
      scan defined f place front.length (front ++ rest) = scan defined f place' 0 rest := by
  induction front generalizing place with
  | nil => exact ⟨place, rfl, rfl⟩
  | cons c front ih =>
    obtain ⟨place', htail, hscan⟩ := ih (place.next c (front ++ rest))
    exact ⟨place', htail, hscan⟩

theorem lexeme_of_unmarked {c : Char} (hc : isMark c = false) (place : Place) (text : List Char) :
    lexeme defined f place c text = plain f (c :: text) := by
  have hne {d : Char} (hd : isMark d = true) : c ≠ d := by
    rintro rfl
    simp [hc] at hd
  rw [lexeme]
  · rw [if_neg (by simp [hc])]
  all_goals exact hne rfl

/-- A line up to the end of the passage, or up to a line feed. -/
theorem plain_line {text rest : List Char} (h : IsPlainLine text)
    (hrest : rest = [] ∨ ∃ more, rest = '\n' :: more) :
    plain f (text ++ rest) = ⟨f.add (.text text), text.length, false⟩ := by
  obtain ⟨c, front, heq, -⟩ := h.starts
  have hadd : f.addText text = f.add (.text text) := by
    rw [heq, Found.addText]
    exact List.cons_ne_nil c front
  have hunmarked : ∀ c ∈ text, (!isMark c) = true := fun c hc => by simp [h.unmarked c hc]
  have hrun : (text ++ rest).takeWhile (!isMark ·) = text := by
    rw [List.takeWhile_append_of_pos hunmarked]
    obtain rfl | ⟨more, rfl⟩ := hrest
    · simp
    · simp [isMark]
  unfold plain
  simp only [hrun, List.drop_left, hadd]
  obtain rfl | ⟨more, rfl⟩ := hrest
  · rfl
  · have hshown : ¬ text.length + 2 ≤ text.length := by omega
    simp only [afterLineEnd?, dropEnd_eq_self h.ends, if_neg hshown, hadd]

theorem exists_scan_line {text rest : List Char} (h : IsPlainLine text)
    (hrest : rest = [] ∨ ∃ more, rest = '\n' :: more) (place : Place) :
    ∃ place' : Place, place'.tail = place.tail ∧
      scan defined f place 0 (text ++ rest) = scan defined (f.add (.text text)) place' 0 rest := by
  obtain ⟨c, front, rfl, -⟩ := h.starts
  have hlexeme : lexeme defined f place c (front ++ rest) =
      ⟨f.add (.text (c :: front)), (c :: front).length, false⟩ :=
    (lexeme_of_unmarked (h.unmarked c List.mem_cons_self) place _).trans (plain_line h hrest)
  obtain ⟨place', htail, hscan⟩ := exists_scan_append (place.next c (front ++ rest)) front rest
  refine ⟨place', htail, ?_⟩
  rw [List.cons_append, scan, hlexeme]
  exact hscan

theorem scan_lineFeed {text : List Char} (h : lineIndent text = 0) (place : Place) :
    scan defined f place 0 ('\n' :: text) =
      scan defined (f.add .softBreak) (place.next '\n' text) 0 text := by
  have hlexeme : lexeme defined f place '\n' text = ⟨f.add .softBreak, 1, false⟩ := by
    simp [lexeme, lineEnd, afterLineEnd?, h]
  rw [scan, hlexeme]
  rfl

theorem lineIndent_join {text : List Char} (h : IsPlainLine text) (texts : List (List Char)) :
    lineIndent (Text.join ['\n'] (text :: texts)) = 0 := by
  obtain ⟨c, front, rfl, hc⟩ := h.starts
  obtain ⟨more, hjoin⟩ := Text.exists_join_cons ['\n'] c front texts
  rw [hjoin]
  simp [lineIndent, isSpaceOrTab, ne_of_isAlpha hc]

/-- The lines as texts, with soft breaks between them. -/
def brokenLines (texts : List (List Char)) : List Inline :=
  (texts.map Inline.text).intersperse .softBreak

theorem scan_lines {text : List Char} {texts : List (List Char)}
    (h : ∀ t ∈ text :: texts, IsPlainLine t) (base : List Piece) {place : Place}
    (hplace : place.tail = []) :
    scan defined ⟨[], base⟩ place 0 (Text.join ['\n'] (text :: texts)) =
      ⟨[], ((brokenLines (text :: texts)).map Piece.inline).reverse ++ base⟩ := by
  induction texts generalizing text base place with
  | nil =>
    have htext : IsPlainLine text := h text List.mem_cons_self
    obtain ⟨place', htail, hscan⟩ := exists_scan_line htext (.inl rfl) place
    rw [List.append_nil] at hscan
    rw [Text.join, hscan, scan, htail, hplace]
    rfl
  | cons next texts ih =>
    obtain ⟨htext, hfollowing⟩ := List.forall_mem_cons.mp h
    have hnext : IsPlainLine next := hfollowing next List.mem_cons_self
    obtain ⟨place', htail, hscan⟩ := exists_scan_line htext (.inr ⟨_, rfl⟩) place
    rw [Text.join, List.append_assoc, List.singleton_append, hscan,
      scan_lineFeed (lineIndent_join hnext texts)]
    have hplace' : (place'.next '\n' (Text.join ['\n'] (next :: texts))).tail = [] :=
      htail.trans hplace
    refine (ih hfollowing _ hplace').trans ?_
    simp [brokenLines, Found.add, Found.push]

end Scan

/-! ## Events -/

/-- The events of a paragraph with these lines. -/
def paragraphEvents (texts : List (List Char)) : List Event :=
  blockEvents .paragraph ((texts.map Event.text).intersperse .softBreak)

theorem inlineEvents_brokenLines (texts : List (List Char)) :
    inlineEvents (brokenLines texts) = (texts.map Event.text).intersperse .softBreak := by
  induction texts with
  | nil => rfl
  | cons text texts ih =>
    cases texts with
    | nil => rfl
    | cons next texts => exact congrArg (.text text :: .softBreak :: ·) ih

theorem ofPassage_lines (defined : List (List Char)) (margins : List Margin)
    {texts : List (List Char)} (hne : texts ≠ []) (h : ∀ t ∈ texts, IsPlainLine t) :
    Inline.ofPassage defined ⟨Text.join ['\n'] texts, margins, []⟩ = brokenLines texts := by
  obtain ⟨text, texts, rfl⟩ := List.exists_cons_of_ne_nil hne
  have hscan : scan defined ⟨[], []⟩ ⟨none, margins, []⟩ 0 (Text.join ['\n'] (text :: texts)) =
      ⟨[], ((brokenLines (text :: texts)).map Piece.inline).reverse ++ []⟩ := scan_lines h [] rfl
  rw [Inline.ofPassage]
  dsimp only
  rw [hscan, List.append_nil, Found.pieces, Found.flatten, List.reverse_reverse,
    resolveEmphasis_inline]

theorem eventsOf_paragraphs (labels : List (List Char)) {groups : List (List (List Char))}
    (h : ∀ texts ∈ groups, texts ≠ [] ∧ ∀ t ∈ texts, IsPlainLine t) :
    eventsOf labels false (groups.map paragraphOf) = groups.flatMap paragraphEvents := by
  induction groups with
  | nil => rfl
  | cons texts groups ih =>
    obtain ⟨⟨hne, htexts⟩, hgroups⟩ := List.forall_mem_cons.mp h
    rw [List.map_cons, eventsOf, ih hgroups, List.flatMap_cons, paragraphOf, Block.events,
      ofPassage_lines labels _ hne htexts, inlineEvents_brokenLines]
    rfl

theorem forall_mem_grouped {texts : List (List Char)} (h : ∀ t ∈ texts, IsPlainLine t) :
    ∀ group ∈ grouped texts, group ≠ [] ∧ ∀ t ∈ group, IsPlainLine t := by
  cases texts with
  | nil => simp [grouped]
  | cons text texts => exact List.forall_mem_singleton.mpr ⟨List.cons_ne_nil _ _, h⟩

theorem forall_mem_paragraphsFrom {texts lines : List (List Char)}
    (htexts : ∀ t ∈ texts, IsPlainLine t) (hlines : ∀ t ∈ lines, t = [] ∨ IsPlainLine t) :
    ∀ group ∈ paragraphsFrom texts lines, group ≠ [] ∧ ∀ t ∈ group, IsPlainLine t := by
  induction lines generalizing texts with
  | nil => exact forall_mem_grouped htexts
  | cons text lines ih =>
    obtain ⟨htext, hlines⟩ := List.forall_mem_cons.mp hlines
    rw [paragraphsFrom]
    split
    · exact List.forall_mem_append.mpr ⟨forall_mem_grouped htexts, ih (by simp) hlines⟩
    · next hne =>
      have hplain := List.forall_mem_singleton.mpr (htext.resolve_left hne)
      exact ih (List.forall_mem_append.mpr ⟨htexts, hplain⟩) hlines

/-- A text of plain and empty lines is read as the paragraphs that the empty ones divide. -/
theorem events_join {lines : List (List Char)} (h : ∀ t ∈ lines, t = [] ∨ IsPlainLine t) :
    events (Text.join ['\n'] lines) = (paragraphs lines).flatMap paragraphEvents := by
  rw [events, ofText_join h]
  exact eventsOf_paragraphs [] (forall_mem_paragraphsFrom (by simp) h)

end ModuleIndex.Markdown

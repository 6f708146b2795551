import ModuleIndex.Markdown.Inline.Scan
import ModuleIndex.Proofs.Markdown.Characters

/-!
# Characters of inline content

In a paragraph or heading without character references, the text and the code hold no line ends,
since lines end with breaks there. Only HTML keeps the line ends of the passage. Text and HTML are
made of the characters of the passage, and code needs a backtick.
-/

namespace ModuleIndex.Markdown

/-- A character of a text: no line end, and one that satisfies `p` unless it marks something. -/
def InText (p : Char → Prop) (c : Char) : Prop :=
  isLineEnd c = false ∧ (p c ∨ isMark c = true)

/-- Text and code stand in one line, and HTML is made of characters that satisfy `p`. -/
inductive Inline.Flat (p : Char → Prop) : Inline → Prop
  | text {text} (h : Over (InText p) text) : Flat p (.text text)
  | code {text} (h : IsFlat text) (hmark : p '\u0060') : Flat p (.code text)
  | html {text} (h : Over p text) : Flat p (.html text)
  | softBreak : Flat p .softBreak
  | hardBreak : Flat p .hardBreak
  | span {kind content} (h : ∀ i ∈ content, Flat p i) : Flat p (.span kind content)

def Piece.Flat (p : Char → Prop) : Piece → Prop
  | .inline content => content.Flat p
  | .run r tail => InText p r.char ∧ Over (InText p) tail
  | .escapedLineEnd => True

variable {p : Char → Prop}

theorem InText.of_mark {c : Char} (hflat : isLineEnd c = false) (hmark : isMark c = true) :
    InText p c :=
  ⟨hflat, .inr hmark⟩

theorem over_inText {text : List Char} (hflat : IsFlat text) (h : Over p text) :
    Over (InText p) text :=
  fun c hc => ⟨hflat c hc, .inl (h c hc)⟩

theorem isFlat_of_inText {text : List Char} (h : Over (InText p) text) : IsFlat text :=
  fun c hc => (h c hc).1

/-! ## Emphasis -/

namespace Openers

structure Flat (p : Char → Prop) (s : Openers) : Prop where
  char : ∀ o ∈ s.openers, InText p o.run.char
  inner : ∀ o ∈ s.openers, ∀ i ∈ o.inner, i.Flat p
  base : ∀ i ∈ s.base, i.Flat p

theorem flat_delimiterText {char : Char} (h : InText p char) (count : Nat) :
    (delimiterText char count).Flat p :=
  .text (.replicate h count)

theorem Flat.push {s : Openers} (h : s.Flat p) {i : Inline} (hi : i.Flat p) : (s.push i).Flat p := by
  obtain ⟨openers, base⟩ := s
  obtain ⟨hchar, hinner, hbase⟩ := h
  cases openers with
  | nil => exact ⟨by simp [Openers.push], by simp [Openers.push], List.forall_mem_cons.mpr ⟨hi, hbase⟩⟩
  | cons o os =>
    simp only [List.forall_mem_cons] at hchar hinner
    refine ⟨?_, ?_, hbase⟩
    · exact List.forall_mem_cons.mpr hchar
    · exact List.forall_mem_cons.mpr ⟨List.forall_mem_cons.mpr ⟨hi, hinner.1⟩, hinner.2⟩

theorem Flat.pushAll {s : Openers} (h : s.Flat p) {content : List Inline}
    (hcontent : ∀ i ∈ content, i.Flat p) : (content.foldl Openers.push s).Flat p := by
  induction content generalizing s with
  | nil => exact h
  | cons i content ih =>
    rw [List.forall_mem_cons] at hcontent
    exact ih (h.push hcontent.1) hcontent.2

theorem flat_flatten {openers : List Opener} {base : List Inline}
    (hchar : ∀ o ∈ openers, InText p o.run.char)
    (hinner : ∀ o ∈ openers, ∀ i ∈ o.inner, i.Flat p) (hbase : ∀ i ∈ base, i.Flat p) :
    ∀ i ∈ flatten openers base, i.Flat p := by
  induction openers with
  | nil => exact hbase
  | cons o os ih =>
    rw [List.forall_mem_cons] at hchar hinner
    rw [flatten, List.forall_mem_append, List.forall_mem_cons]
    exact ⟨hinner.1, flat_delimiterText hchar.1 o.count, ih hchar.2 hinner.2⟩

theorem flat_wrap (char : Char) (count : Nat) {content : List Inline}
    (h : ∀ i ∈ content, i.Flat p) : ∀ i ∈ wrap char count content, i.Flat p := by
  fun_induction wrap char count content with
  | case1 => exact h
  | case2 => exact List.forall_mem_singleton.mpr (.span h)
  | case3 _ _ ih => exact ih (List.forall_mem_singleton.mpr (.span h))

theorem findOpener?_eq {closer : Run} {openers inside around : List Opener} {o : Opener}
    (h : findOpener? closer openers = some (inside, o, around)) :
    openers = inside ++ o :: around := by
  induction openers generalizing inside with
  | nil => simp [findOpener?] at h
  | cons first openers ih =>
    unfold findOpener? at h
    split at h
    · obtain ⟨rfl, rfl, rfl⟩ := by simpa using h
      rfl
    · obtain ⟨⟨inside, _, _⟩, hfound, heq⟩ := Option.map_eq_some_iff.mp h
      obtain ⟨rfl, rfl, rfl⟩ := by simpa using heq
      rw [ih hfound, List.cons_append]

theorem Flat.passBy {s : Openers} (h : s.Flat p) (closer : Run) : (passBy closer s).Flat p := by
  unfold Openers.passBy
  split
  · refine ⟨?_, ?_, h.base⟩
    · rw [List.forall_mem_map]
      intro o ho
      split <;> exact h.char o ho
    · rw [List.forall_mem_map]
      intro o ho
      split <;> exact h.inner o ho
  · exact h

theorem Flat.close {s : Openers} (h : s.Flat p) (closer : Run) (bound left : Nat) :
    (close closer bound left s).2.Flat p := by
  induction bound generalizing left s with
  | zero => exact h
  | succ bound ih =>
    unfold Openers.close
    split
    · exact h
    · split
      · exact h.passBy closer
      · next inside o around hfound =>
        have heq := findOpener?_eq hfound
        obtain ⟨hchar, hinner, hbase⟩ := h
        rw [heq, List.forall_mem_append, List.forall_mem_cons] at hchar hinner
        have hcontent : ∀ count, ∀ i ∈ wrap closer.char count (flatten inside o.inner).reverse,
            i.Flat p := by
          intro count
          apply flat_wrap
          intro i hi
          exact flat_flatten hchar.1 hinner.1 hinner.2.1 i (List.mem_reverse.mp hi)
        dsimp only
        split
        · apply ih
          exact ⟨List.forall_mem_cons.mpr hchar.2,
            List.forall_mem_cons.mpr ⟨hcontent _, hinner.2.2⟩, hbase⟩
        · apply ih
          apply Flat.pushAll _ (hcontent _)
          exact ⟨hchar.2.2, hinner.2.2, hbase⟩

theorem Flat.openRun {s : Openers} (h : s.Flat p) {r : Run} (hchar : InText p r.char)
    (count : Nat) : Flat p { s with openers := ⟨r, count, false, []⟩ :: s.openers } where
  char := List.forall_mem_cons.mpr ⟨hchar, h.char⟩
  inner := List.forall_mem_cons.mpr ⟨by simp, h.inner⟩
  base := h.base

theorem Flat.step {s : Openers} (h : s.Flat p) {piece : Piece} (hpiece : piece.Flat p) :
    (s.step piece).Flat p := by
  cases piece with
  | inline content => exact h.push hpiece
  | escapedLineEnd => exact h.push .hardBreak
  | run r tail =>
    obtain ⟨hchar, htail⟩ := hpiece
    have hclosed : (if r.canClose then Openers.close r r.length r.length s
        else (r.length, s)).2.Flat p := by
      split
      · exact h.close r _ _
      · exact h
    rw [Openers.step]
    generalize (if r.canClose then Openers.close r r.length r.length s
      else (r.length, s)) = closed at hclosed ⊢
    obtain ⟨left, s⟩ := closed
    dsimp only at hclosed ⊢
    split
    · exact hclosed
    · split
      · exact hclosed.openRun hchar left
      · exact hclosed.push (.text (Over.append_iff.mpr ⟨.replicate hchar left, htail⟩))

theorem Flat.steps {s : Openers} (h : s.Flat p) {pieces : List Piece}
    (hpieces : ∀ piece ∈ pieces, piece.Flat p) : (pieces.foldl Openers.step s).Flat p := by
  induction pieces generalizing s with
  | nil => exact h
  | cons piece pieces ih =>
    rw [List.forall_mem_cons] at hpieces
    exact ih (h.step hpieces.1) hpieces.2

end Openers

theorem flat_resolveEmphasis {pieces : List Piece} (h : ∀ piece ∈ pieces, piece.Flat p) :
    ∀ i ∈ resolveEmphasis pieces, i.Flat p := by
  have hs : (pieces.foldl Openers.step ⟨[], []⟩).Flat p :=
    Openers.Flat.steps ⟨by simp, by simp, by simp⟩ h
  intro i hi
  exact Openers.flat_flatten hs.char hs.inner hs.base i (List.mem_reverse.mp hi)

theorem flat_linkPieces {pieces : List Piece} (h : ∀ piece ∈ pieces, piece.Flat p) :
    ∀ piece ∈ linkPieces pieces, piece.Flat p := by
  unfold linkPieces
  split
  · split
    · rw [List.forall_mem_append, List.forall_mem_singleton]
      refine ⟨fun piece hpiece => h piece (List.dropLast_subset _ hpiece), .text ?_⟩
      exact Over.cons_iff.mpr ⟨.of_mark (by decide) (by decide), .nil⟩
    · exact h
  · exact h

/-! ## What has been found -/

namespace Found

structure Flat (p : Char → Prop) (f : Found) : Prop where
  inner : ∀ b ∈ f.brackets, ∀ piece ∈ b.inner, piece.Flat p
  base : ∀ piece ∈ f.base, piece.Flat p

variable {f : Found}

theorem Flat.push (h : f.Flat p) {piece : Piece} (hpiece : piece.Flat p) :
    (f.push piece).Flat p := by
  obtain ⟨brackets, base⟩ := f
  obtain ⟨hinner, hbase⟩ := h
  cases brackets with
  | nil => exact ⟨by simp [Found.push], List.forall_mem_cons.mpr ⟨hpiece, hbase⟩⟩
  | cons b bs =>
    simp only [List.forall_mem_cons] at hinner
    refine ⟨?_, hbase⟩
    exact List.forall_mem_cons.mpr ⟨List.forall_mem_cons.mpr ⟨hpiece, hinner.1⟩, hinner.2⟩

theorem Flat.add (h : f.Flat p) {i : Inline} (hi : i.Flat p) : (f.add i).Flat p :=
  h.push hi

theorem Flat.addText (h : f.Flat p) {text : List Char} (htext : Over (InText p) text) :
    (f.addText text).Flat p := by
  cases text with
  | nil => exact h
  | cons c text => exact h.add (.text htext)

theorem Flat.addMark (h : f.Flat p) {c : Char} (hc : InText p c) :
    (f.addText [c]).Flat p :=
  h.addText (Over.cons_iff.mpr ⟨hc, .nil⟩)

theorem Flat.openBracket (h : f.Flat p) (image : Bool) (source : List Char) :
    (f.openBracket image source).Flat p :=
  ⟨List.forall_mem_cons.mpr ⟨by simp, h.inner⟩, h.base⟩

theorem over_marker (b : Bracket) : Over (InText p) b.marker := by
  unfold Bracket.marker
  split
  · simp [InText, Over, isLineEnd, isMark]
  · simp [InText, Over, isLineEnd, isMark]

theorem flat_flatten {brackets : List Bracket} {base : List Piece}
    (hinner : ∀ b ∈ brackets, ∀ piece ∈ b.inner, piece.Flat p)
    (hbase : ∀ piece ∈ base, piece.Flat p) : ∀ piece ∈ flatten brackets base, piece.Flat p := by
  induction brackets with
  | nil => exact hbase
  | cons b bs ih =>
    rw [List.forall_mem_cons] at hinner
    rw [flatten, List.forall_mem_append, List.forall_mem_cons]
    exact ⟨hinner.1, .text (over_marker b), ih hinner.2⟩

theorem Flat.pieces (h : f.Flat p) : ∀ piece ∈ f.pieces, piece.Flat p := by
  intro piece hpiece
  exact flat_flatten h.inner h.base piece (List.mem_reverse.mp hpiece)

variable {b : Bracket} {around : List Bracket}

theorem Flat.giveUp (h : f.Flat p) (hb : ∀ piece ∈ b.inner, piece.Flat p)
    (haround : ∀ b ∈ around, ∀ piece ∈ b.inner, piece.Flat p) : (f.giveUp b around).Flat p := by
  have hpieces : ∀ piece ∈ Piece.inline (.text [']']) :: b.inner ++ [.inline (.text b.marker)],
      piece.Flat p := by
    rw [List.cons_append, List.forall_mem_cons, List.forall_mem_append, List.forall_mem_singleton]
    exact ⟨.text (Over.cons_iff.mpr ⟨.of_mark (by decide) (by decide), .nil⟩), hb, .text (over_marker b)⟩
  cases around with
  | nil => exact ⟨by simp [Found.giveUp], List.forall_mem_append.mpr ⟨hpieces, h.base⟩⟩
  | cons c cs =>
    rw [List.forall_mem_cons] at haround
    refine ⟨List.forall_mem_cons.mpr ⟨?_, haround.2⟩, h.base⟩
    exact List.forall_mem_append.mpr ⟨hpieces, haround.1⟩

theorem Flat.link (h : f.Flat p) (hb : ∀ piece ∈ b.inner, piece.Flat p)
    (haround : ∀ b ∈ around, ∀ piece ∈ b.inner, piece.Flat p) : (f.link b around).Flat p := by
  have hcontent : ∀ i ∈ resolveEmphasis (linkPieces b.inner.reverse), i.Flat p := by
    apply flat_resolveEmphasis
    apply flat_linkPieces
    intro piece hpiece
    exact hb piece (List.mem_reverse.mp hpiece)
  unfold Found.link
  dsimp only
  apply Flat.add _ (.span hcontent)
  refine ⟨?_, h.base⟩
  split
  · exact haround
  · rw [List.forall_mem_map]
    exact haround

/-! ## Lexemes -/

theorem flat_codeContent (text : List Char) : IsFlat (codeContent text) := by
  have hspaces : IsFlat (text.map fun c => if isLineEnd c then ' ' else c) := by
    unfold IsFlat Over
    rw [List.forall_mem_map]
    intro c _
    cases hc : isLineEnd c with
    | true => simp [isLineEnd]
    | false => simpa using hc
  unfold codeContent
  dsimp only
  split
  · exact hspaces.sublist ((List.dropLast_sublist _).trans (List.tail_sublist _))
  · exact hspaces

theorem Flat.plain (h : f.Flat p) {text : List Char} (htext : Over p text) :
    (plain f text).found.Flat p := by
  have hrun : Over (InText p) (text.takeWhile (!isMark ·)) :=
    over_inText (isFlat_takeWhile (by decide) (by decide) text)
      (htext.sublist (List.takeWhile_sublist _))
  have hshown := hrun.sublist (dropEnd_sublist isLineBlank _)
  unfold Markdown.plain
  dsimp only
  split
  · split
    · exact (h.addText hshown).add .hardBreak
    · exact h.addText hshown
  · exact h.addText hrun

theorem Flat.backslash (h : f.Flat p) {text : List Char} (htext : Over p text) :
    (backslash f text).found.Flat p := by
  unfold Markdown.backslash
  split
  · exact h.push trivial
  · split
    · split
      · next c hhead hpunctuation =>
        exact h.addMark ⟨isLineEnd_eq_false (by decide) (by decide) hpunctuation,
          .inl (htext c (List.mem_of_head? hhead))⟩
      · exact h.addMark (.of_mark (by decide) (by decide))
    · exact h.addMark (.of_mark (by decide) (by decide))

theorem Flat.backticks (h : f.Flat p) (hmark : p '\u0060') (margins : List Margin)
    {text : List Char} (htext : Over p text) : (backticks f margins text).found.Flat p := by
  unfold Markdown.backticks
  dsimp only
  split
  · exact h.add (.code (flat_codeContent _) hmark)
  · apply h.addText
    rw [take_length_takeWhile]
    exact over_inText (isFlat_takeWhile (by decide) (by decide) text)
      (htext.sublist (List.takeWhile_sublist _))

theorem Flat.angle (h : f.Flat p) (hbracket : p '<') {margins : List Margin}
    (hmargins : ∀ m ∈ margins, Over p m.marks) {text : List Char} (htext : Over p text) :
    (angle f margins text).found.Flat p := by
  unfold Markdown.angle
  split
  · next rest hrest =>
    obtain ⟨address, hflat, rfl⟩ := Link.closesBefore_of_afterAutolink? hrest
    apply h.add
    apply Inline.Flat.span
    rw [List.forall_mem_singleton]
    apply Inline.Flat.text
    have hlength : (address ++ '>' :: rest).length - rest.length - 1 = address.length := by
      simp only [List.length_append, List.length_cons]
      omega
    rw [hlength, List.take_left]
    exact over_inText hflat (Over.append_iff.mp htext).1
  · split
    · next shown rest hread =>
      exact h.add (.html (Html.over_inline? hbracket hmargins htext hread))
    · exact h.addMark (.of_mark (by decide) (by decide))

theorem Flat.closeBracket (h : f.Flat p) (defined : List (List Char)) (tail text : List Char) :
    (closeBracket defined tail f text).found.Flat p := by
  unfold Markdown.closeBracket
  split
  · exact h.addMark (.of_mark (by decide) (by decide))
  · next b around hbrackets =>
    have hinner := h.inner
    rw [hbrackets, List.forall_mem_cons] at hinner
    dsimp only
    split
    · exact h.giveUp hinner.1 hinner.2
    · split
      · exact h.link hinner.1 hinner.2
      · split
        · exact h.link hinner.1 hinner.2
        · exact h.giveUp hinner.1 hinner.2

theorem char_of_run? {char : Char} {length : Nat} {before? after? : Option Char} {r : Run}
    (h : run? char length before? after? = some r) : r.char = char := by
  unfold run? at h
  dsimp only at h
  split at h
  · obtain rfl := Option.some.inj h
    rfl
  · simp at h

theorem Flat.delimiters (h : f.Flat p) (before? : Option Char) {char : Char}
    (hchar : InText p char) {tail : List Char} (htail : Over (InText p) tail) (text : List Char) :
    (delimiters f before? char tail text).found.Flat p := by
  unfold Markdown.delimiters
  dsimp only
  split
  · next r hr =>
    rw [← char_of_run? hr] at hchar
    apply h.push
    refine ⟨hchar, ?_⟩
    split
    · exact htail
    · exact .nil
  · apply h.addText
    rw [take_length_takeWhile]
    intro c hc
    have heq := List.all_eq_true.mp List.all_takeWhile c hc
    rwa [beq_iff_eq.mp heq]

end Found

/-- Where the margins and the blanks at the end of the passage are as they should be. -/
structure Place.Flat (p : Char → Prop) (place : Place) : Prop where
  margins : ∀ m ∈ place.margins, Over p m.marks
  tail : Over (InText p) place.tail

theorem Place.Flat.next {place : Place} (h : place.Flat p) (c : Char) (text : List Char) :
    (place.next c text).Flat p := by
  refine ⟨?_, h.tail⟩
  unfold Place.next
  dsimp only
  split
  · exact fun m hm => h.margins m (List.mem_of_mem_tail hm)
  · exact h.margins

variable {f : Found} {place : Place} {c : Char} {text : List Char}

theorem flat_lexeme (hamp : ¬ p '&') (defined : List (List Char)) (hf : f.Flat p)
    (hplace : place.Flat p) (hc : p c) (htext : Over p text) :
    (lexeme defined f place c text).found.Flat p := by
  unfold lexeme
  split
  · exact hf.backslash htext
  · exact hf.add .softBreak
  · exact hf.add .softBreak
  · exact hf.backticks hc _ (Over.cons_iff.mpr ⟨hc, htext⟩)
  · exact hf.angle hc hplace.margins htext
  · exact hf.openBracket _ _
  · exact hf.closeBracket _ _ _
  · exact absurd hc hamp
  · split
    · exact hf.openBracket _ _
    · exact hf.addMark (.of_mark (by decide) (by decide))
  · have hchar : InText p c := by
      refine ⟨?_, .inl hc⟩
      simp only [isLineEnd, Bool.or_eq_false_iff, beq_eq_false_iff_ne]
      exact ⟨‹c = '\n' → False›, ‹c = '\r' → False›⟩
    split
    · exact hf.delimiters _ hchar hplace.tail _
    · exact hf.plain (Over.cons_iff.mpr ⟨hc, htext⟩)

theorem flat_scan (hamp : ¬ p '&') (defined : List (List Char)) (hf : f.Flat p)
    (hplace : place.Flat p) (skip : Nat) (htext : Over p text) :
    (scan defined f place skip text).Flat p := by
  induction text generalizing f place skip with
  | nil => exact hf.addText hplace.tail
  | cons c text ih =>
    rw [Over.cons_iff] at htext
    cases skip with
    | succ skip => exact ih hf (hplace.next c text) skip htext.2
    | zero =>
      have hlexeme := flat_lexeme hamp defined hf hplace htext.1 htext.2
      rw [scan]
      apply ih hlexeme _ _ htext.2
      split
      · exact ⟨(hplace.next c text).margins, .nil⟩
      · exact hplace.next c text

/-- A passage with characters that satisfy `p`, also in the container marks of its lines. -/
structure Passage.Over (p : Char → Prop) (passage : Passage) : Prop where
  text : Markdown.Over p passage.text
  margins : ∀ m ∈ passage.margins, Markdown.Over p m.marks
  tail : Markdown.Over (InText p) passage.tail

theorem flat_ofPassage (hamp : ¬ p '&') (defined : List (List Char)) {passage : Passage}
    (h : passage.Over p) : ∀ i ∈ Inline.ofPassage defined passage, i.Flat p := by
  apply flat_resolveEmphasis
  apply Found.Flat.pieces
  exact flat_scan hamp defined ⟨by simp, by simp⟩ ⟨h.margins, h.tail⟩ 0 h.text

end ModuleIndex.Markdown

import ModuleIndex.Markdown.Event
import ModuleIndex.Proofs.Markdown.Inline

/-!
# Characters of documents

The blocks of a document are made of the characters of its text, and of spaces in place of tabs.
So are its events, but for character references.
-/

namespace ModuleIndex.Markdown

variable {p : Char → Prop} {text rest : List Char}

/-! ## Lines -/

structure Line.Over (p : Char → Prop) (line : Line) : Prop where
  text : Markdown.Over p line.text
  ending : Markdown.Over p line.ending
  beyond : Markdown.Over p line.beyond

theorem throughLineFeed_sublist (text : List Char) : List.Sublist (throughLineFeed text) text := by
  induction text with
  | nil => exact .slnil
  | cons c text ih =>
    unfold throughLineFeed
    split
    · next hc => exact hc ▸ (List.nil_sublist text).cons_cons c
    · exact ih.cons_cons c

theorem over_linesFrom {line : List Char} (hline : Over p line) (h : Over p text) :
    ∀ l ∈ linesFrom line text, l.Over p := by
  have hreverse : ∀ line, Over p line → Over p line.reverse :=
    fun line hline c hc => hline c (List.mem_reverse.mp hc)
  fun_induction linesFrom line text with
  | case1 => simp
  | case2 line =>
    rw [List.forall_mem_singleton]
    exact ⟨hreverse line hline, .nil, .nil⟩
  | case3 line text ih =>
    rw [Over.cons_iff] at h
    rw [List.forall_mem_cons]
    exact ⟨⟨hreverse line hline, Over.cons_iff.mpr ⟨h.1, .nil⟩, .nil⟩, ih .nil h.2⟩
  | case4 line text ih =>
    rw [Over.cons_iff, Over.cons_iff] at h
    rw [List.forall_mem_cons]
    refine ⟨⟨hreverse line hline, ?_, .nil⟩, ih .nil h.2.2⟩
    exact Over.cons_iff.mpr ⟨h.1, Over.cons_iff.mpr ⟨h.2.1, .nil⟩⟩
  | case5 line text _ ih =>
    rw [Over.cons_iff] at h
    rw [List.forall_mem_cons]
    exact ⟨⟨hreverse line hline, Over.cons_iff.mpr ⟨h.1, .nil⟩,
      h.2.sublist (throughLineFeed_sublist text)⟩, ih .nil h.2⟩
  | case6 line c text _ _ _ ih =>
    rw [Over.cons_iff] at h
    exact ih (Over.cons_iff.mpr ⟨h.1, hline⟩) h.2

theorem Line.Over.whole {line : Line} (h : line.Over p) (hrest : Markdown.Over p rest) :
    Markdown.Over p (line.whole rest) :=
  Over.append_iff.mpr ⟨Over.append_iff.mpr ⟨hrest, h.ending⟩, h.beyond⟩

theorem dropReturn_sublist (text : List Char) : List.Sublist (dropReturn text) text := by
  fun_induction dropReturn text with
  | case1 => exact .slnil
  | case2 c => exact (List.Sublist.refl [c]).cons _
  | case3 => exact .refl _
  | case4 c _ _ ih => exact ih.cons_cons c

namespace Cursor

theorem dropFrom_sublist (column n : Nat) (text : List Char) :
    List.Sublist (dropFrom column n text).rest text := by
  fun_induction dropFrom column n text with
  | case1 => exact .slnil
  | case2 => exact .refl _
  | case3 _ _ _ _ ih => exact ih.cons _
  | case4 _ _ _ _ _ _ _ ih => exact ih.cons _
  | case5 _ _ rest => exact (List.Sublist.refl rest).cons _
  | case6 => exact .refl _

theorem drop_sublist (c : Cursor) (n : Nat) : List.Sublist (c.drop n).rest c.rest := by
  unfold drop
  split
  · exact .refl _
  · exact dropFrom_sublist _ _ _

theorem skip_sublist (c : Cursor) (n : Nat) : List.Sublist (c.skip n).rest c.rest :=
  List.drop_sublist n c.rest

theorem dropIndent_sublist (c : Cursor) : List.Sublist c.dropIndent.rest c.rest :=
  c.drop_sublist c.indent

theorem over_codeLine (hspace : p ' ') {c : Cursor} (hc : Over p c.rest) {line : Line}
    (hline : line.Over p) : Over p (c.codeLine line) := by
  unfold codeLine
  rw [Over.append_iff]
  exact ⟨.replicate hspace _, (hline.whole hc).sublist (dropReturn_sublist _)⟩

end Cursor

/-! ## Passages -/

theorem flat_drop_dropEnd (text : List Char) :
    IsFlat (text.drop (dropEnd isLineBlank text).length) := by
  have hsplit : dropEnd isLineBlank text ++ (text.reverse.takeWhile isLineBlank).reverse = text := by
    rw [dropEnd, ← List.reverse_append, List.takeWhile_append_dropWhile, List.reverse_reverse]
  have htail : text.drop (dropEnd isLineBlank text).length =
      (text.reverse.takeWhile isLineBlank).reverse := by
    have hdrop : (dropEnd isLineBlank text ++ (text.reverse.takeWhile isLineBlank).reverse).drop
        (dropEnd isLineBlank text).length = (text.reverse.takeWhile isLineBlank).reverse :=
      List.drop_left
    rwa [hsplit] at hdrop
  rw [htail]
  intro c hc
  exact isFlat_takeWhile (by decide) (by decide) text.reverse c (List.mem_reverse.mp hc)

theorem Passage.over_ofText (h : Markdown.Over p text) : (Passage.ofText text).Over p :=
  ⟨h, by simp [Passage.ofText], .nil⟩

theorem over_headingPassage (h : Over p text) : (headingPassage text).Over p := by
  have hbody := dropEnd_sublist (· == ' ') text
  unfold headingPassage
  dsimp only
  split
  · exact Passage.over_ofText .nil
  · split
    · exact Passage.over_ofText (h.sublist
        ((dropEnd_sublist _ _).trans ((dropEnd_sublist _ _).trans hbody)))
    · have htail := over_inText (flat_drop_dropEnd _) ((h.sublist hbody).sublist
        (List.drop_sublist _ _))
      exact ⟨h.sublist ((dropEnd_sublist _ _).trans hbody), by simp, htail⟩

theorem over_heading? {passage : Passage} (h : Over p text) (hread : heading? text = some passage) :
    passage.Over p := by
  unfold heading? at hread
  dsimp only at hread
  split at hread
  · obtain rfl := Option.some.inj hread
    exact over_headingPassage
      (h.sublist ((List.dropWhile_sublist _).trans (List.drop_sublist _ _)))
  · simp at hread

structure PassageLine.Over (p : Char → Prop) (line : PassageLine) : Prop where
  marks : Markdown.Over p line.margin.marks
  text : Markdown.Over p line.text
  ending : Markdown.Over p line.ending

variable {lines : List PassageLine}

theorem over_joinLines (h : ∀ l ∈ lines, l.Over p) : Over p (Passage.joinLines lines) := by
  intro c hc
  obtain ⟨l, hl, hc⟩ := List.mem_flatMap.mp hc
  rcases List.mem_append.mp hc with hc | hc
  · exact (h l hl).text c hc
  · exact (h l hl).ending c hc

theorem over_margins (h : ∀ l ∈ lines, l.Over p) :
    ∀ m ∈ lines.tail.map (·.margin), Over p m.marks := by
  rw [List.forall_mem_map]
  exact fun l hl => (h l (List.mem_of_mem_tail hl)).marks

theorem Passage.over_ofLines (h : ∀ l ∈ lines, l.Over p) : (Passage.ofLines lines).Over p :=
  ⟨(over_joinLines h).sublist ((dropEnd_sublist _ _).trans (dropEnd_sublist _ _)),
    over_margins h, .nil⟩

theorem Passage.over_ofUnderlined (h : ∀ l ∈ lines, l.Over p) {margin : Margin}
    (hmargin : Markdown.Over p margin.marks) : (Passage.ofUnderlined lines margin).Over p := by
  refine ⟨?_, ?_, .nil⟩
  · unfold Passage.ofUnderlined
    dsimp only
    split
    · exact (over_joinLines h).sublist (dropEnd_sublist _ _)
    · exact over_joinLines h
  · exact List.forall_mem_append.mpr ⟨over_margins h, List.forall_mem_singleton.mpr hmargin⟩

/-! ## Blocks that are being built -/

inductive Block.Over (p : Char → Prop) : Block → Prop
  | paragraph {passage} (h : passage.Over p) : Over p (.paragraph passage)
  | heading {passage} (h : passage.Over p) : Over p (.heading passage)
  | code {shown} (h : Markdown.Over p shown) : Over p (.code shown)
  | html {shown} (h : Markdown.Over p shown) : Over p (.html shown)
  | rule : Over p .rule
  | quote {blocks} (h : ∀ b ∈ blocks, Over p b) : Over p (.quote blocks)
  | list {tight items} (h : ∀ b ∈ items, Over p b) : Over p (.list tight items)
  | item {blocks} (h : ∀ b ∈ blocks, Over p b) : Over p (.item blocks)

def Leaf.Over (p : Char → Prop) : Leaf → Prop
  | .none => True
  | .paragraph lines => ∀ l ∈ lines, l.Over p
  | .indentedCode lines blanks => (∀ l ∈ lines, Markdown.Over p l) ∧ ∀ l ∈ blanks, Markdown.Over p l
  | .fencedCode _ _ lines | .html _ lines => ∀ l ∈ lines, Markdown.Over p l

namespace Builder

/-- The invariant of reading: all that has been built is made of characters that satisfy `p`. -/
structure Over (p : Char → Prop) (b : Builder) : Prop where
  frames : ∀ f ∈ b.frames, ∀ block ∈ f.blocks, block.Over p
  blocks : ∀ block ∈ b.blocks, block.Over p
  leaf : b.leaf.Over p

variable {b : Builder}

/-! ### Closing -/

theorem Over.addBlock (h : b.Over p) {block : Block} (hblock : block.Over p) :
    (b.addBlock block).Over p := by
  have hframes := h.frames
  unfold Builder.addBlock
  split
  · next hnil =>
    exact ⟨h.frames, List.forall_mem_cons.mpr ⟨hblock, h.blocks⟩, h.leaf⟩
  · next f fs hcons =>
    rw [hcons, List.forall_mem_cons] at hframes
    refine ⟨List.forall_mem_cons.mpr ⟨?_, hframes.2⟩, h.blocks, h.leaf⟩
    exact List.forall_mem_cons.mpr ⟨hblock, hframes.1⟩

theorem over_frameClose {f : Frame} (h : ∀ block ∈ f.blocks, block.Over p) :
    (Frame.close f).Over p := by
  have hreverse : ∀ block ∈ f.blocks.reverse, block.Over p :=
    fun block hblock => h block (List.mem_reverse.mp hblock)
  unfold Frame.close
  split
  · exact .quote hreverse
  · exact .list hreverse
  · exact .item hreverse

theorem Over.pop (h : b.Over p) : b.pop.Over p := by
  have hframes := h.frames
  unfold Builder.pop
  split
  · exact h
  · next f fs hcons =>
    rw [hcons, List.forall_mem_cons] at hframes
    apply Over.addBlock _ (over_frameClose hframes.1)
    exact ⟨hframes.2, h.blocks, h.leaf⟩

theorem Over.popMany (h : b.Over p) (n : Nat) : (popMany n b).Over p := by
  induction n generalizing b with
  | zero => exact h
  | succ n ih => exact ih h.pop

theorem Over.withLeaf (h : b.Over p) {leaf : Leaf} (hleaf : leaf.Over p) :
    Over p { b with leaf } :=
  ⟨h.frames, h.blocks, hleaf⟩

theorem over_reverse_flatten {lines : List (List Char)} (h : ∀ l ∈ lines, Markdown.Over p l) :
    Markdown.Over p lines.reverse.flatten :=
  .flatten fun l hl => h l (List.mem_reverse.mp hl)

theorem Over.closeLeaf (h : b.Over p) : b.closeLeaf.Over p := by
  have hleaf := h.leaf
  have hclosed : Over p { b with leaf := .none } := h.withLeaf trivial
  unfold Builder.closeLeaf
  dsimp only
  split
  · exact hclosed
  · next lines heq =>
    rw [heq] at hleaf
    exact hclosed.addBlock (.paragraph
      (Passage.over_ofLines fun l hl => hleaf l (List.mem_reverse.mp hl)))
  · next lines blanks heq =>
    rw [heq] at hleaf
    exact hclosed.addBlock (.code (over_reverse_flatten hleaf.1))
  · next lines heq =>
    rw [heq] at hleaf
    exact hclosed.addBlock (.code (over_reverse_flatten hleaf))
  · next lines heq =>
    rw [heq] at hleaf
    exact hclosed.addBlock (.html (over_reverse_flatten hleaf))

/-! ### Opening -/

theorem Over.closeFreshItem (h : b.Over p) : b.closeFreshItem.Over p := by
  have hfresh : Over p { b with freshItem := false } := ⟨h.frames, h.blocks, h.leaf⟩
  unfold Builder.closeFreshItem
  dsimp only
  split
  · exact hfresh.pop
  · exact hfresh

theorem Over.loosen (h : b.Over p) : b.loosen.Over p := by
  have hframes := h.frames
  unfold Builder.loosen
  split
  · next f char tight blocks fs _ hcons =>
    rw [hcons] at hframes
    exact ⟨by simpa using hframes, h.blocks, h.leaf⟩
  · exact ⟨h.frames, h.blocks, h.leaf⟩

theorem Over.beginBlock (h : b.Over p) : b.beginBlock.Over p := by
  unfold Builder.beginBlock
  dsimp only
  split
  · exact h.closeFreshItem.pop.loosen
  · exact h.closeFreshItem.loosen

theorem Over.openContainer (h : b.Over p) (container : Container) :
    (b.openContainer container).Over p :=
  ⟨List.forall_mem_cons.mpr ⟨by simp, h.frames⟩, h.blocks, h.leaf⟩

theorem Over.beginItem (h : b.Over p) (char : Char) : (b.beginItem char).Over p := by
  have hclosed := h.closeFreshItem
  have hframes := hclosed.frames
  unfold Builder.beginItem
  dsimp only
  split
  · next other tight blocks fs hcons =>
    rw [hcons] at hframes
    split
    · exact ⟨by simpa using hframes, hclosed.blocks, hclosed.leaf⟩
    · exact hclosed.beginBlock.openContainer _
  · exact hclosed.beginBlock.openContainer _

/-! ### Entering containers -/

theorem afterQuoteMark_sublist (c : Cursor) : List.Sublist (afterQuoteMark c).rest c.rest :=
  ((c.skip 1).drop_sublist 1).trans (c.skip_sublist 1)

theorem enter_sublist (containers : List Container) (entered : Nat) (c : Cursor) :
    List.Sublist (enter containers entered c).2.rest c.rest := by
  induction containers generalizing entered c with
  | nil => exact .refl _
  | cons container containers ih =>
    cases container with
    | list char tight => exact ih _ _
    | quote =>
      rw [enter]
      split
      · exact (ih _ _).trans ((afterQuoteMark_sublist _).trans (c.drop_sublist 3))
      · exact .refl _
    | item indent =>
      rw [enter]
      split
      · exact (ih _ _).trans (c.drop_sublist indent)
      · exact .refl _

theorem enterLine_sublist (b : Builder) (line : Line) :
    List.Sublist (b.enterLine line).2.rest line.text :=
  enter_sublist _ _ _

theorem Over.openContainers (h : b.Over p) (bound : Nat) {c : Cursor} (hc : Markdown.Over p c.rest) :
    (openContainers bound b c).1.Over p ∧
      ∀ c' ∈ (openContainers bound b c).2, Markdown.Over p c'.rest := by
  induction bound generalizing b c with
  | zero => exact ⟨h, by simpa [Builder.openContainers] using hc⟩
  | succ bound ih =>
    have htext := hc.sublist c.dropIndent_sublist
    rw [Builder.openContainers]
    dsimp only
    split
    · exact ⟨h, by simpa using hc⟩
    · split
      · next mark _ =>
        have hitem := h.beginItem mark.char
        have hcontent := htext.sublist (c.dropIndent.skip_sublist mark.width)
        split
        · refine ⟨?_, by simp⟩
          have hopen := hitem.openContainer (.item (c.indent + mark.width + 1))
          exact ⟨hopen.frames, hopen.blocks, hopen.leaf⟩
        · exact ih (hitem.openContainer _) (hcontent.sublist (Cursor.drop_sublist _ _))
      · split
        · exact ih (h.beginBlock.openContainer .quote)
            (htext.sublist (afterQuoteMark_sublist _))
        · exact ⟨h, by simpa using hc⟩

/-! ### Leaves -/

theorem over_of_continued? {line : Line} (hline : line.Over p) {c : Cursor}
    (h : b.continued? line = some c) : Markdown.Over p c.rest := by
  have henter := hline.text.sublist (b.enterLine_sublist line)
  unfold Builder.continued? at h
  dsimp only at h
  split at h
  · simp at h
  · split at h
    · simp at h
    · obtain rfl := Option.some.inj h
      exact henter

theorem Over.startParagraph (h : b.Over p) (bound : Nat) {text ending : List Char}
    (htext : Markdown.Over p text) (hending : Markdown.Over p ending) {following : List Line}
    (hfollowing : ∀ l ∈ following, l.Over p) :
    (startParagraph bound b text ending following).1.Over p := by
  induction bound generalizing b text ending following with
  | zero => exact h
  | succ bound ih =>
    rw [Builder.startParagraph]
    split
    · exact h.withLeaf (List.forall_mem_singleton.mpr ⟨.nil, htext, hending⟩)
    · next label taken _ =>
      have hlabel : Over p { b with labels := b.labels ++ [label] } := ⟨h.frames, h.blocks, h.leaf⟩
      dsimp only
      split
      · exact hlabel
      · next line rest hdrop =>
        have hrest : ∀ l ∈ line :: rest, l.Over p := by
          rw [← hdrop]
          exact fun l hl => hfollowing l (List.mem_of_mem_drop hl)
        rw [List.forall_mem_cons] at hrest
        split
        · exact hlabel
        · next c hc =>
          have hc := over_of_continued? hrest.1 hc
          exact ih hlabel (hc.sublist c.dropIndent_sublist) hrest.1.ending hrest.2

variable {line : Line} {following : List Line}

theorem Over.htmlLine (h : b.Over p) (hspace : p ' ') (e : HtmlEnd) {lines : List (List Char)}
    (hlines : ∀ l ∈ lines, Markdown.Over p l) {c : Cursor} (hc : Markdown.Over p c.rest)
    (hline : line.Over p) : (b.htmlLine e lines c line).Over p := by
  have hleaf : Over p { b with leaf := .html e (c.codeLine line :: lines) } :=
    h.withLeaf (List.forall_mem_cons.mpr ⟨Cursor.over_codeLine hspace hc hline, hlines⟩)
  unfold Builder.htmlLine
  dsimp only
  split
  · exact hleaf.closeLeaf
  · exact hleaf

theorem Over.startLeaf (h : b.Over p) (hspace : p ' ') {c : Cursor} (hc : Markdown.Over p c.rest)
    (hline : line.Over p) (hfollowing : ∀ l ∈ following, l.Over p) :
    (b.startLeaf c line following).1.Over p := by
  have hbegin := h.beginBlock
  have htext := hc.sublist c.dropIndent_sublist
  unfold Builder.startLeaf
  dsimp only
  split
  · have hcode := Cursor.over_codeLine hspace (hc.sublist (c.drop_sublist 4)) hline
    exact hbegin.withLeaf ⟨List.forall_mem_singleton.mpr hcode, by simp⟩
  · split
    · exact hbegin.htmlLine hspace _ (by simp) htext hline
    · split
      · exact hbegin.addBlock .rule
      · split
        · next passage hpassage =>
          exact hbegin.addBlock (.heading (over_heading? htext hpassage))
        · split
          · exact hbegin.withLeaf (by simp [Leaf.Over])
          · exact hbegin.startParagraph _ htext hline.ending hfollowing

theorem Over.blankLine (h : b.Over p) : b.blankLine.Over p := by
  have hframes := h.frames
  unfold Builder.blankLine
  split
  · exact h
  · next indent blocks fs hcons =>
    rw [hcons] at hframes
    exact ⟨by simpa using hframes, h.blocks, h.leaf⟩
  · exact ⟨h.frames, h.blocks, h.leaf⟩

theorem Over.newBlocks (h : b.Over p) (hspace : p ' ') (entered : Nat) {c : Cursor}
    (hc : Markdown.Over p c.rest) (hline : line.Over p)
    (hfollowing : ∀ l ∈ following, l.Over p) : (b.newBlocks entered c line following).1.Over p := by
  have hopen := (h.closeLeaf.popMany (b.closeLeaf.frames.length - entered)).openContainers
    (c.rest.length + 1) hc
  unfold Builder.newBlocks
  dsimp only
  split
  · next b' heq =>
    rw [heq] at hopen
    exact hopen.1
  · next b' c' heq =>
    rw [heq] at hopen
    split
    · exact hopen.1.blankLine
    · exact hopen.1.startLeaf hspace (hopen.2 c' rfl) hline hfollowing

/-! ### Lines -/

theorem over_margin (b : Builder) (entered : Nat) (c : Cursor) (hline : line.Over p) :
    Markdown.Over p (b.margin entered c line).marks :=
  hline.text.sublist (List.take_sublist _ _)

theorem Over.paragraphLine (h : b.Over p) (hspace : p ' ') {lines : List PassageLine}
    (hlines : ∀ l ∈ lines, l.Over p) (entered : Nat) {c : Cursor} (hc : Markdown.Over p c.rest)
    (hline : line.Over p) (hfollowing : ∀ l ∈ following, l.Over p) :
    (b.paragraphLine lines entered c line following).1.Over p := by
  have hmargin := over_margin b entered c hline
  have hgoesOn : Over p
      { b with leaf := .paragraph (⟨b.margin entered c line, c.rest, line.ending⟩ :: lines) } :=
    h.withLeaf (List.forall_mem_cons.mpr ⟨⟨hmargin, hc, hline.ending⟩, hlines⟩)
  have hnew := h.newBlocks hspace entered hc hline hfollowing
  unfold Builder.paragraphLine
  dsimp only
  split
  · exact hnew
  · split
    · exact hgoesOn
    · split
      · have hclosed : Over p { b with leaf := .none } := h.withLeaf trivial
        apply hclosed.addBlock
        exact .heading (Passage.over_ofUnderlined
          (fun l hl => hlines l (List.mem_reverse.mp hl)) hmargin)
      · split
        · exact hnew
        · exact hgoesOn

/-- A blank line behind indented code is held apart until more code follows it. -/
theorem over_indentedCode {lines blanks : List (List Char)} {shown : List Char}
    (h : (Leaf.indentedCode lines blanks).Over p) (hshown : Markdown.Over p shown) (blank : Bool) :
    Leaf.Over p (if blank = true then .indentedCode lines (shown :: blanks)
      else .indentedCode (shown :: blanks ++ lines) []) := by
  obtain ⟨hlines, hblanks⟩ := h
  have hmore := List.forall_mem_cons.mpr ⟨hshown, hblanks⟩
  split
  · exact ⟨hlines, hmore⟩
  · exact ⟨List.forall_mem_append.mpr ⟨hmore, hlines⟩, by simp⟩

theorem Over.readLine (h : b.Over p) (hspace : p ' ') (hline : line.Over p)
    (hfollowing : ∀ l ∈ following, l.Over p) : (b.line line following).1.Over p := by
  have hc := hline.text.sublist (b.enterLine_sublist line)
  have hleaf := h.leaf
  have hnew := h.newBlocks hspace (b.enterLine line).1 hc hline hfollowing
  have hcode (n : Nat) := Cursor.over_codeLine hspace (hc.sublist (Cursor.drop_sublist _ n)) hline
  unfold Builder.line
  dsimp only
  split
  · exact hnew
  · next lines heq =>
    rw [heq] at hleaf
    exact h.paragraphLine hspace hleaf _ hc hline hfollowing
  · next lines blanks heq =>
    rw [heq] at hleaf
    split
    · exact ⟨h.frames, h.blocks, over_indentedCode hleaf (hcode 4) _⟩
    · exact hnew
  · next fence indent lines heq =>
    rw [heq] at hleaf
    split
    · exact hnew
    · split
      · exact h.closeLeaf
      · exact h.withLeaf (List.forall_mem_cons.mpr ⟨hcode indent, hleaf⟩)
  · next e lines heq =>
    rw [heq] at hleaf
    have hhtml := h.htmlLine hspace e hleaf hc hline
    cases e with
    | atMark mark =>
      dsimp only
      split
      · exact hnew
      · exact hhtml
    | atBlankLine =>
      dsimp only
      split
      · exact hnew
      · exact hhtml

theorem Over.readLines (h : b.Over p) (hspace : p ' ') (skip : Nat) {ls : List Line}
    (hls : ∀ l ∈ ls, l.Over p) : (Builder.lines skip b ls).Over p := by
  induction ls generalizing skip b with
  | nil => simpa [Builder.lines] using h
  | cons l following ih =>
    rw [List.forall_mem_cons] at hls
    cases skip with
    | zero => exact ih (h.readLine hspace hls.1 hls.2) _ hls.2
    | succ skip => exact ih h skip hls.2

theorem Over.finish (h : b.Over p) : ∀ block ∈ b.finish.blocks, block.Over p := by
  have hclosed := h.closeLeaf.popMany b.closeLeaf.frames.length
  intro block hblock
  exact hclosed.blocks block (List.mem_reverse.mp hblock)

end Builder

theorem Document.over_ofText (hspace : p ' ') (h : Over p text) :
    ∀ block ∈ (Document.ofText text).blocks, block.Over p := by
  have hstart : Builder.start.Over p := ⟨by simp [Builder.start], by simp [Builder.start], trivial⟩
  exact (hstart.readLines hspace 0 (over_linesFrom .nil h)).finish

/-! ## Events -/

/-- Text may have characters in it that mark something. Code needs a backtick. -/
def Event.Over (p : Char → Prop) : Event → Prop
  | .text text => Markdown.Over (fun c => p c ∨ isMark c = true) text
  | .html text => Markdown.Over p text
  | .code _ => p '\u0060'
  | _ => True

theorem over_blockEvents {content : List Event} (h : ∀ e ∈ content, e.Over p) (kind : BlockKind) :
    ∀ e ∈ blockEvents kind content, e.Over p := by
  simp only [blockEvents, List.cons_append, List.forall_mem_cons, List.forall_mem_append]
  exact ⟨trivial, h, trivial, by simp⟩

mutual

theorem over_inline : (i : Inline) → i.Flat p → ∀ e ∈ i.events, e.Over p
  | .text _, .text h => List.forall_mem_singleton.mpr fun c hc => (h c hc).2
  | .code _, .code _ hmark => List.forall_mem_singleton.mpr hmark
  | .html _, .html h => List.forall_mem_singleton.mpr h
  | .softBreak, _ | .hardBreak, _ => List.forall_mem_singleton.mpr trivial
  | .span _ content, .span h => by
    simp only [Inline.events, List.cons_append, List.forall_mem_cons, List.forall_mem_append]
    exact ⟨trivial, over_inlineEvents content h, trivial, by simp⟩

theorem over_inlineEvents : (is : List Inline) → (∀ i ∈ is, i.Flat p) →
    ∀ e ∈ inlineEvents is, e.Over p
  | [], _ => by simp [inlineEvents]
  | i :: is, h => by
    rw [List.forall_mem_cons] at h
    exact List.forall_mem_append.mpr ⟨over_inline i h.1, over_inlineEvents is h.2⟩

end

theorem over_passageEvents (hamp : ¬ p '&') (labels : List (List Char)) {passage : Passage}
    (h : passage.Over p) : ∀ e ∈ inlineEvents (Inline.ofPassage labels passage), e.Over p :=
  over_inlineEvents _ (flat_ofPassage hamp labels h)

mutual

theorem over_block (hamp : ¬ p '&') (labels : List (List Char)) (tight : Bool) :
    (b : Block) → b.Over p → ∀ e ∈ b.events labels tight, e.Over p
  | .paragraph _, .paragraph h => by
    have hcontent := over_passageEvents hamp labels h
    rw [Block.events]
    split
    · exact hcontent
    · exact over_blockEvents hcontent .paragraph
  | .heading _, .heading h => over_blockEvents (over_passageEvents hamp labels h) .heading
  | .code shown, .code h => by
    have htext : Event.Over p (.text shown) := fun c hc => .inl (h c hc)
    exact over_blockEvents (List.forall_mem_singleton.mpr htext) .code
  | .html shown, .html h => by
    have hhtml : Event.Over p (.html shown) := h
    exact over_blockEvents (List.forall_mem_singleton.mpr hhtml) .html
  | .rule, _ => List.forall_mem_singleton.mpr trivial
  | .quote blocks, .quote h => over_blockEvents (over_eventsOf hamp labels false blocks h) .quote
  | .list tight items, .list h => over_blockEvents (over_eventsOf hamp labels tight items h) .list
  | .item blocks, .item h => over_blockEvents (over_eventsOf hamp labels tight blocks h) .item

theorem over_eventsOf (hamp : ¬ p '&') (labels : List (List Char)) (tight : Bool) :
    (bs : List Block) → (∀ b ∈ bs, b.Over p) → ∀ e ∈ eventsOf labels tight bs, e.Over p
  | [], _ => by simp [eventsOf]
  | b :: bs, h => by
    rw [List.forall_mem_cons] at h
    exact List.forall_mem_append.mpr
      ⟨over_block hamp labels tight b h.1, over_eventsOf hamp labels tight bs h.2⟩

end

theorem over_events (hamp : ¬ p '&') (hspace : p ' ') (h : Over p text) :
    ∀ e ∈ events text, e.Over p :=
  over_eventsOf hamp _ false _ (Document.over_ofText hspace h)

end ModuleIndex.Markdown

import ModuleIndex.Proofs.Description.Looks
import ModuleIndex.Proofs.Markdown.Document

/-!
# Line ends of a description

Breaks and the ends of blocks come out as spaces. What stands verbatim in the Markdown does not:
the line ends of a code block, of HTML and of a character reference are on the line that is shown,
unless they are at its end.
-/

namespace ModuleIndex.Description

open Markdown (Event Span isLineEnd Over IsFlat)
open Style (Theme)

/-! ## What events leave behind -/

/-- What an event leaves on the line without the spaces between words. Of a style, only the reset
behind it counts, which keeps blanks in front of it from being trimmed. -/
def piece (theme? : Option Theme) : Event → List Char
  | .text text | .html text => text
  | .code text => Style.inlineCode theme? text
  | .endSpan .emphasis | .endSpan .strong => if theme?.isSome then Style.reset else []
  | _ => []

def pieces (theme? : Option Theme) (events : List Event) : List Char :=
  events.flatMap (piece theme?)

def lineEnds (text : List Char) : List Char :=
  text.filter isLineEnd

/-- Two texts with the same line ends, also after trimming. -/
structure Alike (text other : List Char) : Prop where
  all : lineEnds text = lineEnds other
  kept : lineEnds (Text.trimEnd text) = lineEnds (Text.trimEnd other)
  blank_iff : Text.trimEnd text = [] ↔ Text.trimEnd other = []

variable {text other more rest : List Char}

@[simp] theorem lineEnds_append (text rest : List Char) :
    lineEnds (text ++ rest) = lineEnds text ++ lineEnds rest :=
  List.filter_append ..

theorem lineEnds_eq_nil_iff : lineEnds text = [] ↔ IsFlat text := by
  simp [lineEnds, IsFlat, Over]

namespace Alike

theorem refl (text : List Char) : Alike text text := ⟨rfl, rfl, .rfl⟩

theorem space : Alike [' '] [] := ⟨by decide, by decide, by decide⟩

theorem append (h : Alike text other) (hrest : Alike more rest) :
    Alike (text ++ more) (other ++ rest) := by
  have hblank := hrest.blank_iff
  -- The end of the front is trimmed only if nothing is left of what follows.
  refine ⟨?_, ?_, ?_⟩
  · rw [lineEnds_append, lineEnds_append, h.all, hrest.all]
  · rw [Text.trimEnd_append_eq, Text.trimEnd_append_eq]
    by_cases hmore : Text.trimEnd more = []
    · rw [if_pos hmore, if_pos (hblank.mp hmore), h.kept]
    · rw [if_neg hmore, if_neg (mt hblank.mpr hmore), lineEnds_append, lineEnds_append, h.all,
        hrest.kept]
  · rw [Text.trimEnd_append_eq, Text.trimEnd_append_eq]
    by_cases hmore : Text.trimEnd more = []
    · rw [if_pos hmore, if_pos (hblank.mp hmore)]
      exact h.blank_iff
    · rw [if_neg hmore, if_neg (mt hblank.mpr hmore)]
      simp [hmore, mt hblank.mpr hmore]

end Alike

/-! ## Styles -/

theorem lineEnds_sequence (style : List Style.Attribute) :
    lineEnds (Style.sequence style) = [] := by
  have hcodes : IsFlat (Style.codeText (style.flatMap Style.Attribute.codes)) := by
    intro c hc
    obtain hdigit | rfl := Style.isDigit_or_of_mem_codeText hc
    · exact Markdown.isLineEnd_eq_false (q := Char.isDigit) rfl rfl hdigit
    · rfl
  have hnil := lineEnds_eq_nil_iff.mpr hcodes
  unfold Style.sequence
  rw [lineEnds_append]
  simpa [lineEnds, isLineEnd] using hnil

theorem lineEnds_resume {again : List Char} (h : lineEnds again = []) (text : List Char) :
    lineEnds (Style.resume again text) = lineEnds text := by
  fun_induction Style.resume again text with
  | case1 text ih =>
    rw [lineEnds_append, lineEnds_append, h, ih]
    rfl
  | case2 c text _ ih =>
    simp only [lineEnds, List.filter_cons] at ih ⊢
    rw [ih]
  | case3 => rfl

theorem Alike.paint (h : Alike text other) (style : List Style.Attribute) :
    Alike (Style.paint style text) (other ++ Style.reset) := by
  have hreset (front : List Char) :
      Text.trimEnd (front ++ Style.reset) = front ++ Style.reset := by
    have hconcat := Text.trimEnd_concat (c := 'm') (by decide) (front ++ ['\x1b', '[', '0'])
    simpa [Style.reset] using hconcat
  have hall : lineEnds (Style.paint style text) = lineEnds (other ++ Style.reset) := by
    have hsequence := lineEnds_sequence style
    rw [Style.paint, lineEnds_append, lineEnds_append, lineEnds_resume hsequence, hsequence,
      h.all, List.nil_append, lineEnds_append]
  refine ⟨hall, ?_, ?_⟩
  · rw [Style.paint, hreset, hreset]
    exact hall
  · rw [Style.paint, hreset, hreset]
    simp [Style.reset]

/-! ## The line -/

theorem exists_alike_leaf {e : Event} (he : isSpanEdge e = false) (theme? : Option Theme)
    (l : Line) :
    ∃ text, Line.step theme? l e = l.push text ∧ Alike text (piece theme? e) := by
  have hspace : ∃ text, l.space = l.push text ∧ Alike text [] := by
    obtain h | h := l.space_cases
    · exact ⟨[], h, .refl []⟩
    · exact ⟨[' '], h, .space⟩
  have hnone : ∃ text, l = l.push text ∧ Alike text [] := ⟨[], l.push_nil.symm, .refl []⟩
  cases e with
  | startSpan kind => simp [isSpanEdge] at he
  | endSpan kind => simp [isSpanEdge] at he
  | text text | html text => exact ⟨text, rfl, .refl text⟩
  | code text => exact ⟨_, rfl, .refl _⟩
  | softBreak | hardBreak => exact hspace
  | endBlock kind =>
    rw [Line.step]
    split
    · exact hspace
    · exact hnone
  | startBlock kind | rule => exact hnone

theorem exists_alike_span (kind : Span) (theme? : Option Theme) (l : Line) (h : Alike text other) :
    ∃ outer, Line.step theme? ((Line.step theme? l (.startSpan kind)).push text) (.endSpan kind) =
        l.push outer ∧ Alike outer (other ++ piece theme? (.endSpan kind)) := by
  have hsame : Alike text (other ++ []) := by rwa [List.append_nil]
  cases kind with
  | strikethrough | link | image => exact ⟨text, rfl, hsame⟩
  | emphasis | strong =>
    cases theme? with
    | none => exact ⟨text, rfl, hsame⟩
    | some theme => exact ⟨_, rfl, h.paint _⟩

/-- Whatever is on the line, a nested stream pushes a text with the line ends of its pieces. -/
theorem exists_alike {events : List Event} (h : Nested events) (theme? : Option Theme) (l : Line) :
    ∃ text, events.foldl (Line.step theme?) l = l.push text ∧
      Alike text (pieces theme? events) := by
  -- Over the nesting: what a span holds is pushed on the line that its start leaves.
  induction h generalizing l with
  | nil => exact ⟨[], l.push_nil.symm, .refl []⟩
  | @leaf e events he _ ih =>
    obtain ⟨text, hstep, htext⟩ := exists_alike_leaf he theme? l
    obtain ⟨more, hfold, hmore⟩ := ih (l.push text)
    refine ⟨text ++ more, ?_, ?_⟩
    · rw [List.foldl_cons, hstep, hfold, Line.push_push]
    · rw [pieces, List.flatMap_cons]
      exact htext.append hmore
  | @span kind inner events _ _ ihinner ih =>
    obtain ⟨text, hinner, htext⟩ := ihinner (Line.step theme? l (.startSpan kind))
    obtain ⟨outer, hclose, houter⟩ := exists_alike_span kind theme? l htext
    obtain ⟨more, hfold, hmore⟩ := ih (l.push outer)
    refine ⟨outer ++ more, ?_, ?_⟩
    · rw [List.cons_append, List.foldl_cons, List.foldl_append, List.foldl_cons, hinner, hclose,
        hfold, Line.push_push]
    · have hpieces : pieces theme? (.startSpan kind :: inner ++ .endSpan kind :: events) =
          (pieces theme? inner ++ piece theme? (.endSpan kind)) ++ pieces theme? events := by
        simp [pieces, piece]
      rw [hpieces]
      exact houter.append hmore

theorem lineEnds_ofEvents {events : List Event} (h : Nested events) (theme? : Option Theme) :
    lineEnds (ofEvents theme? events) = lineEnds (Text.trimEnd (pieces theme? events)) := by
  obtain ⟨text, hfold, halike⟩ := exists_alike h theme? .empty
  rw [ofEvents, hfold, Line.finish_push_empty, halike.kept]

/-! ## Verbatim text -/

/-- The events tell of a code block or of HTML. -/
def HasVerbatim (events : List Event) : Prop :=
  .startBlock .code ∈ events ∨ ∃ text, .html text ∈ events

theorem HasVerbatim.mono {events others : List Event} (h : HasVerbatim events)
    (hsub : ∀ e ∈ events, e ∈ others) : HasVerbatim others := by
  obtain h | ⟨text, h⟩ := h
  · exact .inl (hsub _ h)
  · exact .inr ⟨text, hsub _ h⟩

/-- The line ends in the contents of events belong to verbatim text, and satisfy `p`. -/
def EndsVerbatim (p : Char → Prop) (events : List Event) : Prop :=
  ∀ e ∈ events, ∀ c ∈ content e, isLineEnd c = true → p c ∧ HasVerbatim events

namespace EndsVerbatim

variable {p : Char → Prop} {events others : List Event}

theorem append (h : EndsVerbatim p events) (hothers : EndsVerbatim p others) :
    EndsVerbatim p (events ++ others) := by
  intro e he c hc hend
  rcases List.mem_append.mp he with he | he
  · obtain ⟨hp, hverbatim⟩ := h e he c hc hend
    exact ⟨hp, hverbatim.mono (fun _ => List.mem_append_left others)⟩
  · obtain ⟨hp, hverbatim⟩ := hothers e he c hc hend
    exact ⟨hp, hverbatim.mono (fun _ => List.mem_append_right events)⟩

theorem of_flat {e : Event} (h : IsFlat (content e)) : EndsVerbatim p [e] := by
  intro e' he' c hc hend
  obtain rfl := List.mem_singleton.mp he'
  simp [h c hc] at hend

theorem of_over {e : Event} (h : Over p (content e)) (hverbatim : HasVerbatim [e]) :
    EndsVerbatim p [e] := by
  intro e' he' c hc _
  obtain rfl := List.mem_singleton.mp he'
  exact ⟨h c hc, hverbatim⟩

theorem between (h : EndsVerbatim p events) {first last : Event} (hfirst : IsFlat (content first))
    (hlast : IsFlat (content last)) : EndsVerbatim p (first :: events ++ [last]) :=
  ((of_flat hfirst).append h).append (of_flat hlast)

theorem blockEvents (h : EndsVerbatim p events) (kind : Markdown.BlockKind) :
    EndsVerbatim p (Markdown.blockEvents kind events) :=
  h.between .nil .nil

/-- The text of a code block is verbatim because of the start of the block in front of it. -/
theorem code (h : Over p text) : EndsVerbatim p (Markdown.blockEvents .code [.text text]) := by
  intro e he c hc _
  refine ⟨?_, .inl List.mem_cons_self⟩
  have hcontent : e ∈ [.startBlock .code, .text text, .endBlock .code] := he
  simp only [List.mem_cons, List.not_mem_nil, or_false] at hcontent
  rcases hcontent with rfl | rfl | rfl
  · simp [content] at hc
  · exact h c hc
  · simp [content] at hc

end EndsVerbatim

section Documents

variable {p : Char → Prop}

mutual

theorem endsVerbatim_inline : (i : Markdown.Inline) → i.Flat p → EndsVerbatim p i.events
  | .text _, .text h => .of_flat (Markdown.isFlat_of_inText h)
  | .code _, .code h _ => .of_flat h
  | .html _, .html h => .of_over h (.inr ⟨_, List.mem_singleton_self _⟩)
  | .softBreak, _ | .hardBreak, _ => .of_flat .nil
  | .span _ content, .span h => (endsVerbatim_inlineEvents content h).between .nil .nil

theorem endsVerbatim_inlineEvents : (is : List Markdown.Inline) → (∀ i ∈ is, i.Flat p) →
    EndsVerbatim p (Markdown.inlineEvents is)
  | [], _ => by simp [EndsVerbatim, Markdown.inlineEvents]
  | i :: is, h =>
    (endsVerbatim_inline i (h i List.mem_cons_self)).append
      (endsVerbatim_inlineEvents is fun i' hi' => h i' (List.mem_cons_of_mem _ hi'))

end

theorem endsVerbatim_passage (hamp : ¬ p '&') (labels : List (List Char))
    {passage : Markdown.Passage} (h : passage.Over p) :
    EndsVerbatim p (Markdown.inlineEvents (Markdown.Inline.ofPassage labels passage)) :=
  endsVerbatim_inlineEvents _ (Markdown.flat_ofPassage hamp labels h)

mutual

theorem endsVerbatim_block (hamp : ¬ p '&') (labels : List (List Char)) (tight : Bool) :
    (b : Markdown.Block) → b.Over p → EndsVerbatim p (b.events labels tight)
  | .paragraph passage, .paragraph h => by
    have hcontent := endsVerbatim_passage hamp labels h
    rw [Markdown.Block.events]
    split
    · exact hcontent
    · exact hcontent.blockEvents .paragraph
  | .heading _, .heading h => (endsVerbatim_passage hamp labels h).blockEvents .heading
  | .code _, .code h => .code h
  | .html _, .html h =>
    (EndsVerbatim.of_over h (.inr ⟨_, List.mem_singleton_self _⟩)).blockEvents .html
  | .rule, _ => .of_flat .nil
  | .quote blocks, .quote h => (endsVerbatim_eventsOf hamp labels false blocks h).blockEvents .quote
  | .list tight items, .list h => (endsVerbatim_eventsOf hamp labels tight items h).blockEvents .list
  | .item blocks, .item h => (endsVerbatim_eventsOf hamp labels tight blocks h).blockEvents .item

theorem endsVerbatim_eventsOf (hamp : ¬ p '&') (labels : List (List Char)) (tight : Bool) :
    (bs : List Markdown.Block) → (∀ b ∈ bs, b.Over p) →
      EndsVerbatim p (Markdown.eventsOf labels tight bs)
  | [], _ => by simp [EndsVerbatim, Markdown.eventsOf]
  | b :: bs, h =>
    (endsVerbatim_block hamp labels tight b (h b List.mem_cons_self)).append
      (endsVerbatim_eventsOf hamp labels tight bs fun b' hb' => h b' (List.mem_cons_of_mem _ hb'))

end

theorem endsVerbatim_events (hamp : ¬ p '&') (hspace : p ' ') (h : Over p text) :
    EndsVerbatim p (Markdown.events text) :=
  endsVerbatim_eventsOf hamp _ false _ (Markdown.Document.over_ofText hspace h)

end Documents

/-! ## Descriptions -/

theorem lineEnds_piece (theme? : Option Theme) (e : Event) :
    lineEnds (piece theme? e) = lineEnds (content e) := by
  cases e with
  | code text =>
    cases theme? with
    | none => simp [piece, Style.inlineCode, content, lineEnds, isLineEnd]
    | some theme =>
      have hpaint := ((Alike.refl text).paint [.foreground theme.code]).all
      rwa [lineEnds_append, show lineEnds Style.reset = [] from rfl, List.append_nil] at hpaint
  | endSpan kind => cases kind <;> cases theme? <;> rfl
  | _ => rfl

theorem exists_content {theme? : Option Theme} {events : List Event} {c : Char}
    (h : c ∈ lineEnds (Text.trimEnd (pieces theme? events))) :
    isLineEnd c = true ∧ ∃ e ∈ events, c ∈ content e := by
  obtain ⟨blanks, -, hpieces⟩ := Text.exists_trimEnd (pieces theme? events)
  obtain ⟨hc, hend⟩ := List.mem_filter.mp h
  have hmem : c ∈ pieces theme? events := by
    rw [hpieces]
    exact List.mem_append_left _ hc
  obtain ⟨e, he, hce⟩ := List.mem_flatMap.mp hmem
  have hends : c ∈ lineEnds (content e) := by
    rw [← lineEnds_piece theme? e]
    exact List.mem_filter.mpr ⟨hce, hend⟩
  exact ⟨hend, e, he, (List.mem_filter.mp hends).1⟩

/-- The line ends that are shown are those of texts, code and HTML, but for the ones trimmed at
the end. Without an ampersand there is no character reference; they then come from the
description, and there is a code block or HTML in it. -/
theorem lineEnds_format (theme? : Option Theme) (description : String) :
    lineEnds (format theme? description) =
        lineEnds (Text.trimEnd (pieces theme? (Markdown.events description.toList))) ∧
      ('&' ∉ description.toList → ∀ c ∈ lineEnds (format theme? description),
        c ∈ description.toList ∧ HasVerbatim (Markdown.events description.toList)) := by
  have hends := lineEnds_ofEvents (nested_events description.toList) theme?
  refine ⟨hends, fun hamp c hc => ?_⟩
  -- In code, spaces stand for a tab that is cut, so a space need not be in the description.
  have hover : Over (fun c => c ∈ description.toList ∨ c = ' ') description.toList :=
    fun c hc => .inl hc
  have hverbatim := endsVerbatim_events (by simp [hamp]) (by simp) hover
  rw [format, hends] at hc
  obtain ⟨hend, e, he, hce⟩ := exists_content hc
  obtain ⟨hp, hevents⟩ := hverbatim e he c hce hend
  refine ⟨hp.resolve_right ?_, hevents⟩
  rintro rfl
  simp [isLineEnd] at hend

/-- A tag that goes on in the next line. -/
theorem lineEnds_format_tag :
    let description := "a <b\nc> d"
    '&' ∉ description.toList ∧ '\n' ∈ lineEnds (format (some .dark) description) ∧
      '\n' ∈ description.toList ∧ HasVerbatim (Markdown.events description.toList) := by
  intro description
  have hamp : '&' ∉ description.toList := by decide
  have hfeed : '\n' ∈ lineEnds (format (some .dark) description) := by decide +kernel
  exact ⟨hamp, hfeed, (lineEnds_format (some .dark) description).2 hamp '\n' hfeed⟩

/-- The lines of a code block stay apart. -/
theorem format_code_block :
    format none "```\nfirst\nsecond\n```" = "first\nsecond".toList ∧
      format (some .dark) "```\nfirst\nsecond\n```" = "first\nsecond".toList := by
  decide +kernel

end ModuleIndex.Description

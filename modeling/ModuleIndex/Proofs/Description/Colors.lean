import ModuleIndex.Proofs.Description.Spelling
import ModuleIndex.Proofs.Markdown.Document
import ModuleIndex.Proofs.Style.Unstyled

/-!
# Color and spacing

In color, a reset stands behind each span that is styled, and the breaks that follow take it for
text. So with its sequences taken out, a text in color is the one without color, spaced as if a
mark stood there. The mark changes nothing behind a character that is no blank.
-/

namespace ModuleIndex.Description

open Markdown (Event)
open Style (Theme Twin withoutMarks)

/-! ## Marks -/

def endsStyle : Event → Bool
  | .endSpan .emphasis | .endSpan .strong => true
  | _ => false

/-- A mark behind each span that color styles. An escape character will do: it is no blank. -/
def withMarks (events : List Event) : List Event :=
  events.flatMap fun e => if endsStyle e then [e, .text ['\x1b']] else [e]

theorem withMarks_cons (e : Event) (events : List Event) :
    withMarks (e :: events) =
      (if endsStyle e then [e, .text ['\x1b']] else [e]) ++ withMarks events := rfl

theorem withMarks_leaf {e : Event} (he : isSpanEdge e = false) (events : List Event) :
    withMarks (e :: events) = e :: withMarks events := by
  cases e <;> simp_all [withMarks_cons, endsStyle, isSpanEdge]

@[simp] theorem withMarks_append (events rest : List Event) :
    withMarks (events ++ rest) = withMarks events ++ withMarks rest := by
  simp [withMarks]

/-- A piece of text without an escape character, or no text. -/
def IsPlain : Event → Prop
  | .text text | .html text => '\x1b' ∉ text
  | .code _ => False
  | _ => True

/-! ## Two lines -/

namespace Line

theorem closeSpan_push_openSpan (theme? : Option Theme) (l : Line) (mark : Mark)
    (text : List Char) :
    ((l.openSpan mark).push text).closeSpan theme? = l.push (mark.apply theme? text) := rfl

theorem due_push (l : Line) (text : List Char) :
    (l.push text).due = if text = [] then l.due else text.getLast?.any (· != ' ') := by
  split
  · next h => rw [h, push_nil]
  · next h => rw [due_eq, current_push, List.getLast?_append_of_ne_nil _ h]

variable {l m : Line} {text marked : List Char}

theorem due_push_twin (hdue : l.due = m.due) (h : Twin text marked) :
    (l.push text).due = (m.push marked).due := by
  simp only [due_push, hdue, h.eq_nil_iff, h.any_getLast?_eq]

end Line

/-- The events push twins on the two lines, in color on `l` and with marks on `m`. -/
structure PushesTwins (theme : Theme) (events : List Event) (l m : Line)
    (text marked : List Char) : Prop where
  colored : events.foldl (Line.step (some theme)) l = l.push text
  plain : (withMarks events).foldl (Line.step none) m = m.push marked
  twin : Twin text marked

namespace PushesTwins

variable {theme : Theme} {events rest : List Event} {l m : Line}
  {text marked more moreMarked : List Char}

theorem nil : PushesTwins theme [] l m [] [] := ⟨l.push_nil.symm, m.push_nil.symm, .nil⟩

theorem append (h : PushesTwins theme events l m text marked)
    (hrest : PushesTwins theme rest (l.push text) (m.push marked) more moreMarked) :
    PushesTwins theme (events ++ rest) l m (text ++ more) (marked ++ moreMarked) where
  colored := by rw [List.foldl_append, h.colored, hrest.colored, Line.push_push]
  plain := by rw [withMarks_append, List.foldl_append, h.plain, hrest.plain, Line.push_push]
  twin := h.twin.append hrest.twin

theorem exists_of_leaf {e : Event} (he : isSpanEdge e = false) (hplain : IsPlain e)
    (theme : Theme) (hdue : l.due = m.due) :
    ∃ text marked, PushesTwins theme [e] l m text marked := by
  have hpush (text : List Char) (htext : '\x1b' ∉ text)
      (hl : l.step (some theme) e = l.push text) (hm : m.step none e = m.push text) :
      ∃ text marked, PushesTwins theme [e] l m text marked := by
    refine ⟨text, text, hl, ?_, .of_plain htext⟩
    rw [withMarks_leaf he]
    exact hm
  cases hbreak : isBreak e with
  | true =>
    have hl := Line.step_of_isBreak hbreak (some theme) l
    have hm := Line.step_of_isBreak hbreak none m
    cases hspace : m.due with
    | true =>
      rw [hspace] at hdue
      exact hpush [' '] (by decide) (hl.trans (Line.space_of_due hdue))
        (hm.trans (Line.space_of_due hspace))
    | false =>
      rw [hspace] at hdue
      refine hpush [] (by simp) (hl.trans ?_) (hm.trans ?_)
      · rw [Line.space_of_not_due hdue, Line.push_nil]
      · rw [Line.space_of_not_due hspace, Line.push_nil]
  | false =>
    cases e with
    | startSpan | endSpan => simp [isSpanEdge] at he
    | softBreak | hardBreak => simp [isBreak] at hbreak
    | code => exact absurd hplain id
    | text text | html text => exact hpush text hplain rfl rfl
    | startBlock | rule => exact hpush [] (by simp) l.push_nil.symm m.push_nil.symm
    | endBlock kind =>
      rw [isBreak] at hbreak
      exact hpush [] (by simp) (by simp [Line.step, hbreak]) (by simp [Line.step, hbreak])

/-- A span is closed where it was opened. If it is styled, a reset stands behind it, or a mark. -/
theorem exists_of_span (kind : Markdown.Span)
    (h : PushesTwins theme events (l.step (some theme) (.startSpan kind))
      (m.step none (.startSpan kind)) text marked) :
    ∃ outer outerMarked,
      PushesTwins theme (.startSpan kind :: events ++ [.endSpan kind]) l m outer outerMarked := by
  have hcolored : (Event.startSpan kind :: events ++ [Event.endSpan kind]).foldl
      (Line.step (some theme)) l =
        ((l.step (some theme) (.startSpan kind)).push text).step (some theme) (.endSpan kind) := by
    simp [h.colored]
  have hplain : (withMarks (.startSpan kind :: events ++ [.endSpan kind])).foldl
      (Line.step none) m = (withMarks [.endSpan kind]).foldl (Line.step none)
        ((m.step none (.startSpan kind)).push marked) := by
    simp [withMarks_cons, endsStyle, h.plain]
  have hstyled {mark : Mark} {style : List Style.Attribute} (hstyle : style ≠ [])
      (hmark : markOf? kind = some mark) (hends : endsStyle (.endSpan kind) = true)
      (happly : ∀ text, mark.apply (some theme) text = Style.paint style text) :
      ∃ outer outerMarked,
        PushesTwins theme (.startSpan kind :: events ++ [.endSpan kind]) l m outer outerMarked := by
    have hclose : ((l.step (some theme) (.startSpan kind)).push text).step (some theme)
        (.endSpan kind) = l.push (Style.paint style text) := by
      simp [Line.step, hmark, Line.closeSpan_push_openSpan, happly]
    have hcloseMarked : (withMarks [.endSpan kind]).foldl (Line.step none)
        ((m.step none (.startSpan kind)).push marked) = m.push (marked ++ ['\x1b']) := by
      simp [withMarks, hends, Line.step, hmark, Line.closeSpan_push_openSpan]
    exact ⟨_, _, hcolored.trans hclose, hplain.trans hcloseMarked, h.twin.paint hstyle⟩
  cases kind with
  | strikethrough | link | image => exact ⟨text, marked, hcolored, hplain, h.twin⟩
  | emphasis => exact hstyled (List.cons_ne_nil .italic []) rfl rfl fun _ => rfl
  | strong => exact hstyled (List.cons_ne_nil .bold []) rfl rfl fun _ => rfl

end PushesTwins

/-- A nested stream pushes twins on two lines that are due a space at the same time. -/
theorem exists_pushesTwins {events : List Event} (h : Nested events)
    (hplain : ∀ e ∈ events, IsPlain e) (theme : Theme) {l m : Line} (hdue : l.due = m.due) :
    ∃ text marked, PushesTwins theme events l m text marked := by
  induction h generalizing l m with
  | nil => exact ⟨[], [], .nil⟩
  | @leaf e events he _ ih =>
    rw [List.forall_mem_cons] at hplain
    obtain ⟨text, marked, hleaf⟩ := PushesTwins.exists_of_leaf he hplain.1 theme hdue
    obtain ⟨_, _, hrest⟩ := ih hplain.2 (Line.due_push_twin hdue hleaf.twin)
    exact ⟨_, _, hleaf.append hrest⟩
  | @span kind inner events _ _ ihinner ih =>
    have hsplit : .startSpan kind :: inner ++ .endSpan kind :: events =
        (.startSpan kind :: inner ++ [.endSpan kind]) ++ events := by simp
    have hopen : (l.step (some theme) (.startSpan kind)).due =
        (m.step none (.startSpan kind)).due := by
      cases kind with
      | image => exact hdue
      | _ => rfl
    obtain ⟨_, _, hinner⟩ := ihinner (fun e he => hplain e (by simp [he])) hopen
    obtain ⟨_, _, hspan⟩ := hinner.exists_of_span kind
    obtain ⟨_, _, hrest⟩ := ih (fun e he => hplain e (by simp [he]))
      (Line.due_push_twin hdue hspan.twin)
    rw [hsplit]
    exact ⟨_, _, hspan.append hrest⟩

theorem unstyled_ofEvents {events : List Event} (h : Nested events)
    (hplain : ∀ e ∈ events, IsPlain e) (theme : Theme) :
    Style.unstyled (ofEvents (some theme) events) =
      withoutMarks (ofEvents none (withMarks events)) := by
  obtain ⟨text, marked, hpush⟩ := exists_pushesTwins h hplain theme (rfl : Line.empty.due = _)
  rw [ofEvents, ofEvents, hpush.colored, hpush.plain, Line.finish_push_empty,
    Line.finish_push_empty, hpush.twin.trimEnd.unstyled_eq]

/-! ## Marks behind words -/

/-- Each span that is styled ends behind a character that is no blank. -/
def solidEnds : Line → List Event → Bool
  | _, [] => true
  | l, e :: events =>
    (!endsStyle e || (l.step none e).current.getLast?.any (!Text.isBlank ·)) &&
      solidEnds (l.step none e) events

/-- A text with marks in it, each of them behind a character that is no blank. -/
inductive MarkedText : (marked text : List Char) → Prop
  | nil : MarkedText [] []
  | char {marked text c} (h : MarkedText marked text) (hc : c ≠ '\x1b') :
      MarkedText (marked ++ [c]) (text ++ [c])
  | mark {marked text c} (h : MarkedText marked text) (hlast : c ∈ text.getLast?)
      (hc : Text.isBlank c = false) : MarkedText (marked ++ ['\x1b']) text

namespace MarkedText

variable {marked text more rest : List Char}

theorem append (h : MarkedText marked text) (hmore : MarkedText more rest) :
    MarkedText (marked ++ more) (text ++ rest) := by
  induction hmore with
  | nil => simpa using h
  | char _ hc ih =>
    rw [← List.append_assoc, ← List.append_assoc]
    exact .char ih hc
  | mark _ hlast hc ih =>
    rw [← List.append_assoc]
    exact .mark ih (List.mem_getLast?_append_of_mem_getLast? hlast) hc

theorem append_plain (h : MarkedText marked text) (hplain : '\x1b' ∉ more) :
    MarkedText (marked ++ more) (text ++ more) := by
  induction more generalizing marked text with
  | nil => simpa using h
  | cons c more ih =>
    rw [List.mem_cons, not_or] at hplain
    rw [List.append_cons, List.append_cons text]
    exact ih (.char h (Ne.symm hplain.1)) hplain.2

theorem withoutMarks_eq (h : MarkedText marked text) : withoutMarks marked = text := by
  induction h with
  | nil => rfl
  | char _ hc ih => simp_all [withoutMarks]
  | mark _ _ _ ih => simp_all [withoutMarks]

theorem due_eq {m l : Line} (h : MarkedText m.current l.current) : m.due = l.due := by
  rw [Line.due_eq, Line.due_eq]
  generalize m.current = marked at h
  generalize l.current = text at h
  cases h with
  | nil => rfl
  | char => simp
  | @mark _ _ c _ hlast hc =>
    have hspace : c ≠ ' ' := by
      rintro rfl
      simp [Text.isBlank] at hc
    simp [Option.mem_def.mp hlast, hspace]

theorem withoutMarks_trimEnd (h : MarkedText marked text) :
    withoutMarks (Text.trimEnd marked) = Text.trimEnd text := by
  have heq := h.withoutMarks_eq
  induction h with
  | nil => rfl
  | @char marked text c h hc ih =>
    cases hblank : Text.isBlank c with
    | true =>
      have hblanks := Text.isBlanks_singleton.mpr hblank
      rw [Text.trimEnd_blanks hblanks, Text.trimEnd_blanks hblanks, ih h.withoutMarks_eq]
    | false => rw [Text.trimEnd_concat hblank, Text.trimEnd_concat hblank, heq]
  | @mark marked text c h hlast hc ih =>
    obtain ⟨front, rfl⟩ := List.getLast?_eq_some_iff.mp hlast
    rw [Text.trimEnd_concat (by decide), Text.trimEnd_concat hc, heq]

end MarkedText

/-! ## Lines with marks -/

/-- The line `m` is the line `l` with marks in it. -/
inductive Line.Marked : (m l : Line) → Prop
  | outside {marked text} (h : MarkedText marked text) : Line.Marked ⟨[], marked⟩ ⟨[], text⟩
  | span (mark) {marked text m l} (h : MarkedText marked text) (hrest : Line.Marked m l) :
      Line.Marked ⟨(mark, marked) :: m.spans, m.outside⟩ ⟨(mark, text) :: l.spans, l.outside⟩

namespace Line.Marked

variable {m l : Line} {marked text : List Char}

theorem current (h : m.Marked l) : MarkedText m.current l.current := by
  cases h with
  | outside h => exact h
  | span mark h => exact h

theorem push (h : m.Marked l)
    (hend : MarkedText (m.current ++ marked) (l.current ++ text)) :
    (m.push marked).Marked (l.push text) := by
  cases h with
  | outside => exact .outside hend
  | span mark _ hrest => exact .span mark hend hrest

theorem push_plain (h : m.Marked l) (htext : '\x1b' ∉ text) :
    (m.push text).Marked (l.push text) :=
  h.push (h.current.append_plain htext)

theorem push_mark (h : m.Marked l) (hsolid : l.current.getLast?.any (!Text.isBlank ·) = true) :
    (m.push ['\x1b']).Marked l := by
  obtain ⟨c, hlast, hc⟩ := (Option.any_eq_true ..).mp hsolid
  have hend : MarkedText (m.current ++ ['\x1b']) (l.current ++ []) := by
    rw [List.append_nil]
    exact .mark h.current hlast (by simpa using hc)
  simpa using h.push hend

theorem closeSpan (h : m.Marked l) : (m.closeSpan none).Marked (l.closeSpan none) := by
  cases h with
  | outside h => exact .outside h
  | span mark h hrest =>
    have hclosed := hrest.push (hrest.current.append h)
    simpa [Line.closeSpan] using hclosed

theorem space (h : m.Marked l) : m.space.Marked l.space := by
  have hdue := h.current.due_eq
  cases hspace : l.due with
  | true =>
    rw [Line.space_of_due hspace, Line.space_of_due (hdue.trans hspace)]
    exact h.push_plain (by decide)
  | false => rwa [Line.space_of_not_due hspace, Line.space_of_not_due (hdue.trans hspace)]

theorem step (h : m.Marked l) {e : Event} (he : IsPlain e) :
    (m.step none e).Marked (l.step none e) := by
  cases e with
  | text text | html text => exact h.push_plain he
  | code => exact absurd he id
  | softBreak | hardBreak => exact h.space
  | startBlock | rule => exact h
  | endBlock kind => cases kind <;> simp [Line.step, Line.separates, h, h.space]
  | startSpan kind =>
    have hopen (mark : Mark) : (m.openSpan mark).Marked (l.openSpan mark) := .span mark .nil h
    cases kind <;> simp [Line.step, markOf?, h, hopen]
  | endSpan kind => cases kind <;> simp [Line.step, markOf?, h, h.closeSpan]

theorem foldl_withMarks {events : List Event} (h : m.Marked l)
    (hplain : ∀ e ∈ events, IsPlain e) (hsolid : solidEnds l events = true) :
    ((withMarks events).foldl (Line.step none) m).Marked (events.foldl (Line.step none) l) := by
  induction events generalizing m l with
  | nil => exact h
  | cons e events ih =>
    rw [List.forall_mem_cons] at hplain
    rw [solidEnds, Bool.and_eq_true] at hsolid
    have hstep := h.step hplain.1
    rw [withMarks_cons, List.foldl_append, List.foldl_cons]
    refine ih ?_ hplain.2 hsolid.2
    split
    · next hstyle =>
      have hmark : (l.step none e).current.getLast?.any (!Text.isBlank ·) = true := by
        simpa [hstyle] using hsolid.1
      exact hstep.push_mark hmark
    · exact hstep

theorem closeAll (h : m.Marked l) (hinner : MarkedText marked text) :
    MarkedText (closeAll none marked m.spans m.outside)
      (closeAll none text l.spans l.outside) := by
  induction h generalizing marked text with
  | outside h => exact h.append hinner
  | span mark h _ ih =>
    simp only [Line.closeAll, Mark.apply_none]
    exact ih (h.append hinner)

end Line.Marked

theorem withoutMarks_ofEvents {events : List Event} (hplain : ∀ e ∈ events, IsPlain e)
    (hsolid : solidEnds .empty events = true) :
    withoutMarks (ofEvents none (withMarks events)) = ofEvents none events := by
  have hline := (Line.Marked.outside .nil).foldl_withMarks hplain hsolid
  exact (hline.closeAll .nil).withoutMarks_trimEnd

/-! ## Descriptions -/

theorem isPlain_events {text : List Char} (hescape : '\x1b' ∉ text) (htick : '\u0060' ∉ text)
    (hamp : '&' ∉ text) : ∀ e ∈ Markdown.events text, IsPlain e := by
  have hover : Markdown.Over (fun c => c ∈ text ∨ c = ' ') text := fun c hc => .inl hc
  have hevents := Markdown.over_events (by simp [hamp]) (by simp) hover
  intro e he
  have hevent := hevents e he
  cases e with
  | text text =>
    intro hmem
    simpa [hescape, Markdown.isMark] using hevent _ hmem
  | html text =>
    intro hmem
    simpa [hescape] using hevent _ hmem
  | code => simp [Markdown.Event.Over, htick] at hevent
  | _ => trivial

/-- Without its sequences for looks, a description in color is spaced as if a mark stood behind
each span that is styled. It is the description without color if each of these spans ends behind
a character that is no blank. -/
theorem unstyled_format (theme : Theme) (description : String)
    (hescape : '\x1b' ∉ description.toList) (htick : '\u0060' ∉ description.toList)
    (hamp : '&' ∉ description.toList) :
    let events := Markdown.events description.toList
    Style.unstyled (format (some theme) description) =
        withoutMarks (ofEvents none (withMarks events)) ∧
      (solidEnds .empty events = true →
        Style.unstyled (format (some theme) description) = format none description) := by
  intro events
  have hplain := isPlain_events hescape htick hamp
  have hmarks := unstyled_ofEvents (nested_events description.toList) hplain theme
  exact ⟨hmarks, fun hsolid => hmarks.trans (withoutMarks_ofEvents hplain hsolid)⟩

theorem unstyled_format_strong :
    let description := "**a *b***\nc [d\n](e) *f*"
    '\x1b' ∉ description.toList ∧ '\u0060' ∉ description.toList ∧ '&' ∉ description.toList ∧
      solidEnds .empty (Markdown.events description.toList) = true ∧
      Style.unstyled (format (some .dark) description) = format none description := by
  intro description
  have hescape : '\x1b' ∉ description.toList := by decide
  have htick : '\u0060' ∉ description.toList := by decide
  have hamp : '&' ∉ description.toList := by decide
  have hsolid : solidEnds .empty (Markdown.events description.toList) = true := by decide +kernel
  exact ⟨hescape, htick, hamp, hsolid,
    (unstyled_format .dark description hescape htick hamp).2 hsolid⟩

/-- Emphasis that ends with a space, in front of the end of a line: in color a second space stands
behind the reset. -/
theorem unstyled_format_space_in_emphasis :
    '\x1b' ∉ "*[a ](x)*\nb".toList ∧ '\u0060' ∉ "*[a ](x)*\nb".toList ∧
      '&' ∉ "*[a ](x)*\nb".toList ∧
      Style.unstyled (format (some .dark) "*[a ](x)*\nb") = "a  b".toList ∧
      format none "*[a ](x)*\nb" = "a b".toList := by
  decide +kernel

end ModuleIndex.Description

import ModuleIndex.Description
import ModuleIndex.Proofs.Style.Terminal
import Mathlib.Data.List.Forall2

/-!
# Looks of a description

Spans are styled from the inside out, on texts that are styled already. On a terminal each
character still looks as the spans around its event say, and nothing is left switched on.
-/

namespace ModuleIndex.Description

open Markdown (Event Span)
open Style (Cell Look Shows Theme cellsOf)

/-! ## Spans around events -/

def isSpanEdge : Event → Bool
  | .startSpan _ | .endSpan _ => true
  | _ => false

/-- Each span that starts ends again, spans inside of it first. Blocks and breaks stand
anywhere. -/
inductive Nested : List Event → Prop
  | nil : Nested []
  | leaf {e events} (he : isSpanEdge e = false) (h : Nested events) : Nested (e :: events)
  | span (kind) {inner events} (hinner : Nested inner) (h : Nested events) :
      Nested (.startSpan kind :: inner ++ .endSpan kind :: events)

/-- Each event with the spans around it, the innermost first. -/
def placed : (around : List Span) → List Event → List (List Span × Event)
  | _, [] => []
  | around, .startSpan kind :: events => (around, .startSpan kind) :: placed (kind :: around) events
  | around, .endSpan kind :: events => (around.tail, .endSpan kind) :: placed around.tail events
  | around, e :: events => (around, e) :: placed around events

theorem placed_leaf {e : Event} (he : isSpanEdge e = false) (around : List Span)
    (events : List Event) : placed around (e :: events) = (around, e) :: placed around events := by
  cases e with
  | startSpan kind => simp [isSpanEdge] at he
  | endSpan kind => simp [isSpanEdge] at he
  | _ => rfl

/-- Behind a nested stream the spans are those in front of it. -/
theorem placed_append {events : List Event} (h : Nested events) (around : List Span)
    (rest : List Event) :
    placed around (events ++ rest) = placed around events ++ placed around rest := by
  induction h generalizing around rest with
  | nil => rfl
  | leaf he _ ih => rw [List.cons_append, placed_leaf he, placed_leaf he, ih, List.cons_append]
  | span kind _ _ ihinner ih =>
    simp only [List.cons_append, List.append_assoc, placed, ihinner, ih, List.tail_cons]

theorem Nested.append {events rest : List Event} (h : Nested events) (hrest : Nested rest) :
    Nested (events ++ rest) := by
  induction h with
  | nil => exact hrest
  | leaf he _ ih => exact .leaf he ih
  | @span kind inner events hinner _ _ ih =>
    have hspan := Nested.span kind hinner ih
    simpa using hspan

theorem Nested.blockEvents {content : List Event} (h : Nested content)
    (kind : Markdown.BlockKind) : Nested (Markdown.blockEvents kind content) :=
  .leaf rfl (h.append (.leaf rfl .nil))

mutual

theorem nested_inline : (i : Markdown.Inline) → Nested i.events
  | .text _ | .code _ | .html _ | .softBreak | .hardBreak => .leaf rfl .nil
  | .span kind content => .span kind (nested_inlineEvents content) .nil

theorem nested_inlineEvents : (is : List Markdown.Inline) → Nested (Markdown.inlineEvents is)
  | [] => .nil
  | i :: is => (nested_inline i).append (nested_inlineEvents is)

end

mutual

theorem nested_block (labels : List (List Char)) (tight : Bool) :
    (b : Markdown.Block) → Nested (b.events labels tight)
  | .paragraph passage => by
    have hcontent := nested_inlineEvents (Markdown.Inline.ofPassage labels passage)
    rw [Markdown.Block.events]
    split
    · exact hcontent
    · exact hcontent.blockEvents .paragraph
  | .heading _ => (nested_inlineEvents _).blockEvents .heading
  | .code _ => Nested.blockEvents (.leaf rfl .nil) .code
  | .html _ => Nested.blockEvents (.leaf rfl .nil) .html
  | .rule => .leaf rfl .nil
  | .quote blocks => (nested_eventsOf labels false blocks).blockEvents .quote
  | .list tight items => (nested_eventsOf labels tight items).blockEvents .list
  | .item blocks => (nested_eventsOf labels tight blocks).blockEvents .item

theorem nested_eventsOf (labels : List (List Char)) (tight : Bool) :
    (bs : List Markdown.Block) → Nested (Markdown.eventsOf labels tight bs)
  | [] => .nil
  | b :: bs => (nested_block labels tight b).append (nested_eventsOf labels tight bs)

end

/-- The events of every document are nested. -/
theorem nested_events (text : List Char) : Nested (Markdown.events text) :=
  nested_eventsOf _ false _

/-! ## What events print -/

/-- Bold inside of a strong span, and italic inside of emphasis. -/
def lookWithin (around : List Span) : Look :=
  { Look.plain with bold := Span.strong ∈ around, italic := Span.emphasis ∈ around }

def codeWithin (theme : Theme) (around : List Span) : Look :=
  { lookWithin around with foreground := some theme.code }

/-- The cells that an event prints inside of the spans around it. A break, or the end of a block
that separates words, prints a space at most. -/
def Prints (theme : Theme) (around : List Span) : Event → List Cell → Prop
  | .text text, cells | .html text, cells => cells = cellsOf (lookWithin around) text
  | .code text, cells => cells = cellsOf (codeWithin theme around) text
  | .softBreak, cells | .hardBreak, cells =>
    cells = [] ∨ cells = cellsOf (lookWithin around) [' ']
  | .endBlock kind, cells =>
    cells = [] ∨ Line.separates kind = true ∧ cells = cellsOf (lookWithin around) [' ']
  | _, cells => cells = []

def content : Event → List Char
  | .text text | .code text | .html text => text
  | _ => []

theorem lookWithin_cons (kind : Span) (around : List Span) :
    lookWithin (kind :: around) = (lookWithin [kind]).above (lookWithin around) := by
  simp [lookWithin, Look.above, Look.plain]

theorem codeWithin_eq (theme : Theme) (around : List Span) :
    codeWithin theme around =
      (Look.plain.setAll [.foreground theme.code]).above (lookWithin around) := by
  simp [codeWithin, lookWithin, Look.above, Look.setAll, Look.set, Look.plain]

/-! ## The line -/

namespace Line

@[simp] theorem push_nil (l : Line) : l.push [] = l := by
  obtain ⟨spans, outside⟩ := l
  cases spans <;> simp [push]

@[simp] theorem push_push (l : Line) (text more : List Char) :
    (l.push text).push more = l.push (text ++ more) := by
  obtain ⟨spans, outside⟩ := l
  cases spans <;> simp [push]

theorem space_cases (l : Line) : l.space = l.push [] ∨ l.space = l.push [' '] := by
  unfold space
  split
  · exact .inl (push_nil l).symm
  · exact .inr rfl

theorem finish_push_empty (theme? : Option Theme) (text : List Char) :
    (empty.push text).finish theme? = Text.trimEnd text := by
  simp [finish, empty, push, closeAll]

end Line

/-! ## What a stream puts on the line -/

/-- The events push the text, which shows the cells. Under the looks of the spans around them,
these are what the events print, one after the other. -/
structure Pushes (theme : Theme) (around : List Span) (events : List Event) (l : Line)
    (text : List Char) (cells : List Cell) : Prop where
  foldl_eq : events.foldl (Line.step (some theme)) l = l.push text
  shows : Shows .plain text cells .plain
  prints : ∃ pieces,
    List.Forall₂ (fun p piece => Prints theme p.1 p.2 piece) (placed around events) pieces ∧
      pieces.flatten = cells.map (·.above (lookWithin around))

namespace Pushes

variable {theme : Theme} {around : List Span} {l : Line} {text : List Char} {cells : List Cell}

theorem nil : Pushes theme around [] l [] [] where
  foldl_eq := by simp
  shows := .nil
  prints := ⟨[], .nil, rfl⟩

theorem append {events rest : List Event} {more : List Char} {moreCells : List Cell}
    (hnested : Nested events) (h : Pushes theme around events l text cells)
    (hrest : Pushes theme around rest (l.push text) more moreCells) :
    Pushes theme around (events ++ rest) l (text ++ more) (cells ++ moreCells) where
  foldl_eq := by rw [List.foldl_append, h.foldl_eq, hrest.foldl_eq, Line.push_push]
  shows := h.shows.append hrest.shows
  prints := by
    obtain ⟨pieces, hpieces, hflatten⟩ := h.prints
    obtain ⟨morePieces, hmore, hmoreFlatten⟩ := hrest.prints
    refine ⟨pieces ++ morePieces, ?_, ?_⟩
    · rw [placed_append hnested]
      exact List.rel_append hpieces hmore
    · rw [List.flatten_append, hflatten, hmoreFlatten, List.map_append]

theorem of_step {e : Event} (he : isSpanEdge e = false)
    (hstep : Line.step (some theme) l e = l.push text) (hshows : Shows .plain text cells .plain)
    (hprints : Prints theme around e (cells.map (·.above (lookWithin around)))) :
    Pushes theme around [e] l text cells where
  foldl_eq := hstep
  shows := hshows
  prints := by
    refine ⟨[cells.map (·.above (lookWithin around))], ?_, List.flatten_singleton ..⟩
    rw [placed_leaf he]
    exact .cons hprints .nil

theorem of_text {e : Event} (he : isSpanEdge e = false)
    (hstep : Line.step (some theme) l e = l.push text) (htext : '\x1b' ∉ text)
    (hprints : Prints theme around e (cellsOf (lookWithin around) text)) :
    Pushes theme around [e] l text (cellsOf .plain text) := by
  refine of_step he hstep (.unstyled htext .plain) ?_
  rwa [Style.map_above_cellsOf, Look.plain_above]

theorem exists_of_space {e : Event} (he : isSpanEdge e = false)
    (hstep : Line.step (some theme) l e = l.space) (hnone : Prints theme around e [])
    (hspace : Prints theme around e (cellsOf (lookWithin around) [' '])) :
    ∃ text cells, Pushes theme around [e] l text cells := by
  obtain h | h := l.space_cases
  · exact ⟨[], _, of_text he (hstep.trans h) (by simp) hnone⟩
  · exact ⟨[' '], _, of_text he (hstep.trans h) (by decide) hspace⟩

theorem exists_of_leaf {e : Event} (he : isSpanEdge e = false) (hplain : '\x1b' ∉ content e)
    (theme : Theme) (around : List Span) (l : Line) :
    ∃ text cells, Pushes theme around [e] l text cells := by
  cases e with
  | startSpan kind => simp [isSpanEdge] at he
  | endSpan kind => simp [isSpanEdge] at he
  | text text => exact ⟨text, _, of_text rfl rfl hplain rfl⟩
  | html text => exact ⟨text, _, of_text rfl rfl hplain rfl⟩
  | code text =>
    have hshows := (Shows.unstyled hplain .plain).paint
      (List.cons_ne_nil (.foreground theme.code) [])
    refine ⟨_, _, of_step rfl rfl hshows ?_⟩
    rw [Style.map_above_cellsOf, Style.map_above_cellsOf, Look.plain_above, ← codeWithin_eq]
    rfl
  | softBreak | hardBreak => exact exists_of_space rfl rfl (.inl rfl) (.inr rfl)
  | endBlock kind =>
    cases hkind : Line.separates kind with
    | true => exact exists_of_space rfl (by simp [Line.step, hkind]) (.inl rfl) (.inr ⟨hkind, rfl⟩)
    | false => exact ⟨[], _, of_text rfl (by simp [Line.step, hkind]) (by simp) (.inl rfl)⟩
  | startBlock kind => exact ⟨[], _, of_text rfl (Line.push_nil l).symm (by simp) rfl⟩
  | rule => exact ⟨[], _, of_text rfl (Line.push_nil l).symm (by simp) rfl⟩

/-- A span is closed where it was opened, with its look below what it holds. -/
theorem exists_step_span (theme : Theme) (kind : Span) (l : Line) {inner : List Char}
    (h : Shows .plain inner cells .plain) :
    ∃ text, Line.step (some theme) ((Line.step (some theme) l (.startSpan kind)).push inner)
        (.endSpan kind) = l.push text ∧
      Shows .plain text (cells.map (·.above (lookWithin [kind]))) .plain := by
  cases kind with
  | emphasis => exact ⟨Style.paint [.italic] inner, rfl, h.paint (by simp)⟩
  | strong => exact ⟨Style.paint [.bold] inner, rfl, h.paint (by simp)⟩
  | strikethrough | link | image =>
    refine ⟨inner, rfl, ?_⟩
    have hcells := Style.map_above_plain cells
    rw [show lookWithin _ = Look.plain from rfl, hcells]
    exact h

theorem exists_of_span {kind : Span} {inner : List Event} (hnested : Nested inner)
    (h : Pushes theme (kind :: around) inner (Line.step (some theme) l (.startSpan kind)) text cells) :
    ∃ outer, Pushes theme around (.startSpan kind :: inner ++ [.endSpan kind]) l outer
      (cells.map (·.above (lookWithin [kind]))) := by
  obtain ⟨outer, hstep, hshows⟩ := exists_step_span theme kind l h.shows
  obtain ⟨pieces, hpieces, hflatten⟩ := h.prints
  refine ⟨outer, ?_, hshows, [] :: (pieces ++ [[]]), ?_, ?_⟩
  · rw [List.cons_append, List.foldl_cons, List.foldl_append, h.foldl_eq]
    exact hstep
  · rw [List.cons_append, placed, placed_append hnested]
    exact .cons rfl (List.rel_append hpieces (.cons rfl .nil))
  · rw [List.flatten_cons, List.flatten_append, hflatten, lookWithin_cons,
      Style.map_above_map_above]
    simp

end Pushes

/-- Whatever is on the line, a nested stream is printed behind it. -/
theorem exists_pushes {events : List Event} (h : Nested events)
    (hplain : ∀ e ∈ events, '\x1b' ∉ content e) (theme : Theme) (around : List Span) (l : Line) :
    ∃ text cells, Pushes theme around events l text cells := by
  -- Over the nesting, for any line: a span goes on with the line that its start leaves.
  induction h generalizing around l with
  | nil => exact ⟨[], [], .nil⟩
  | @leaf e events he _ ih =>
    rw [List.forall_mem_cons] at hplain
    obtain ⟨text, cells, hleaf⟩ := Pushes.exists_of_leaf he hplain.1 theme around l
    obtain ⟨more, moreCells, hrest⟩ := ih hplain.2 around (l.push text)
    exact ⟨_, _, hleaf.append (.leaf he .nil) hrest⟩
  | @span kind inner events hinner _ ihinner ih =>
    have hsplit : .startSpan kind :: inner ++ .endSpan kind :: events =
        (.startSpan kind :: inner ++ [.endSpan kind]) ++ events := by simp
    have hplainInner : ∀ e ∈ inner, '\x1b' ∉ content e :=
      fun e he => hplain e (by simp [he])
    have hplainRest : ∀ e ∈ events, '\x1b' ∉ content e :=
      fun e he => hplain e (by simp [he])
    obtain ⟨text, cells, hspan⟩ := ihinner hplainInner (kind :: around) _
    obtain ⟨outer, houter⟩ := hspan.exists_of_span hinner
    obtain ⟨more, moreCells, hrest⟩ := ih hplainRest around (l.push outer)
    rw [hsplit]
    exact ⟨_, _, houter.append (.span kind hinner .nil) hrest⟩

/-! ## On a terminal -/

/-- In color, a terminal shows what the events print, one after the other and each in the look of
the spans around it, without blanks at the end, and is then as it was before. -/
theorem showing_ofEvents (theme : Theme) (events : List Event) (hnested : Nested events)
    (hplain : ∀ e ∈ events, '\x1b' ∉ content e) :
    ∃ cells pieces trimmed,
      Style.Terminal.showing (ofEvents (some theme) events) = ⟨cells, .plain, .nothing⟩ ∧
      List.Forall₂ (fun p piece => Prints theme p.1 p.2 piece) (placed [] events) pieces ∧
      pieces.flatten = cells ++ trimmed ∧ ∀ c ∈ trimmed, Text.isBlank c.char = true := by
  obtain ⟨text, cells, h⟩ := exists_pushes hnested hplain theme [] .empty
  obtain ⟨kept, trimmed, rfl, hkept, htrimmed⟩ := h.shows.trimEnd
  obtain ⟨pieces, hpieces, hflatten⟩ := h.prints
  refine ⟨kept, pieces, trimmed, ?_, hpieces, ?_, htrimmed⟩
  · rw [ofEvents, h.foldl_eq, Line.finish_push_empty]
    exact hkept.readAll []
  · rw [hflatten]
    exact Style.map_above_plain _

/-- Code in emphasis in a strong span, with a break before the emphasis ends, the end of a
paragraph in the strong span, and a space to trim at the end. -/
theorem showing_ofEvents_code_in_emphasis :
    let events : List Event := [.startSpan .strong, .text ['a'], .startSpan .emphasis, .code ['b'],
      .softBreak, .endSpan .emphasis, .endBlock .paragraph, .text ['c'], .endSpan .strong,
      .text ['d', ' '], .hardBreak]
    Nested events ∧ (∀ e ∈ events, '\x1b' ∉ content e) ∧
      ∃ cells pieces trimmed,
        Style.Terminal.showing (ofEvents (some .dark) events) = ⟨cells, .plain, .nothing⟩ ∧
        List.Forall₂ (fun p piece => Prints .dark p.1 p.2 piece) (placed [] events) pieces ∧
        pieces.flatten = cells ++ trimmed ∧ ∀ c ∈ trimmed, Text.isBlank c.char = true := by
  intro events
  have hemphasis : Nested [.code ['b'], .softBreak] := .leaf rfl (.leaf rfl .nil)
  have hstrong : Nested [.text ['a'], .startSpan .emphasis, .code ['b'], .softBreak,
      .endSpan .emphasis, .endBlock .paragraph, .text ['c']] :=
    .leaf rfl (.span .emphasis hemphasis (.leaf rfl (.leaf rfl .nil)))
  have hnested : Nested events := .span .strong hstrong (.leaf rfl (.leaf rfl .nil))
  have hplain : ∀ e ∈ events, '\x1b' ∉ content e := by decide
  exact ⟨hnested, hplain, showing_ofEvents .dark events hnested hplain⟩

example :
    Style.Terminal.showing (ofEvents (some .dark)
      [.startSpan .strong, .code ['a'], .text ['b'], .endSpan .strong, .text ['c']]) =
    ⟨[⟨'a', { Look.plain with bold := true, foreground := some Theme.dark.code }⟩,
      ⟨'b', { Look.plain with bold := true }⟩, ⟨'c', .plain⟩], .plain, .nothing⟩ := by
  decide

end ModuleIndex.Description

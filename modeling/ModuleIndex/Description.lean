import ModuleIndex.Markdown.Event
import ModuleIndex.Style.Palette
import ModuleIndex.Text.Blank

/-!
# Descriptions

The description of an item is Markdown, and is shown as running text. Emphasis and code are
styled, links keep only their text, and the ends of lines and blocks become spaces.
-/

namespace ModuleIndex.Description

open Markdown (Event)
open Style (Theme)

/-- How a span is styled. -/
inductive Mark where
  | emphasis
  | strong
  | plain
  deriving DecidableEq, Repr

def Mark.apply (theme? : Option Theme) : Mark → List Char → List Char
  | emphasis, text => Style.emphasis theme? text
  | strong, text => Style.strong theme? text
  | plain, text => text

/-- How the spans of Markdown are styled. Images are not spans here: their text belongs to what
is around them. -/
def markOf? : Markdown.Span → Option Mark
  | .emphasis => some .emphasis
  | .strong => some .strong
  | .strikethrough | .link => some .plain
  | .image => none

/-- The open spans with what they hold, innermost first, and the text outside of them. -/
structure Line where
  spans : List (Mark × List Char)
  outside : List Char

namespace Line

def empty : Line := ⟨[], []⟩

def current (l : Line) : List Char :=
  match l.spans with
  | [] => l.outside
  | (_, text) :: _ => text

def push (l : Line) (text : List Char) : Line :=
  match l.spans with
  | [] => { l with outside := l.outside ++ text }
  | (mark, inner) :: spans => { l with spans := (mark, inner ++ text) :: spans }

/-- Adds a space, unless there is no text before it, or a space. -/
def space (l : Line) : Line :=
  if l.current.isEmpty || l.current.getLast? = some ' ' then l else l.push [' ']

def openSpan (l : Line) (mark : Mark) : Line :=
  { l with spans := (mark, []) :: l.spans }

/-- Closes the innermost open span. -/
def closeSpan (theme? : Option Theme) (l : Line) : Line :=
  match l.spans with
  | [] => l
  | (mark, text) :: spans => { l with spans }.push (mark.apply theme? text)

/-- Whether the end of a block separates words. -/
def separates : Markdown.BlockKind → Bool
  | .paragraph | .heading | .item => true
  | .code | .html | .quote | .list => false

def step (theme? : Option Theme) (l : Line) : Event → Line
  | .startSpan kind =>
    match markOf? kind with
    | some mark => l.openSpan mark
    | none => l
  | .endSpan kind => if (markOf? kind).isSome then l.closeSpan theme? else l
  | .endBlock kind => if separates kind then l.space else l
  | .text text | .html text => l.push text
  | .code text => l.push (Style.inlineCode theme? text)
  | .softBreak | .hardBreak => l.space
  | .startBlock _ | .rule => l

/-- Closes spans, innermost first, given the text that stands at the end of the innermost one. -/
def closeAll (theme? : Option Theme) (inner : List Char) : (spans : List (Mark × List Char)) →
    (outside : List Char) → List Char
  | [], outside => outside ++ inner
  | (mark, text) :: spans, outside =>
    closeAll theme? (mark.apply theme? (text ++ inner)) spans outside

def finish (theme? : Option Theme) (l : Line) : List Char :=
  Text.trimEnd (closeAll theme? [] l.spans l.outside)

end Line

def ofEvents (theme? : Option Theme) (events : List Event) : List Char :=
  (events.foldl (Line.step theme?) Line.empty).finish theme?

def format (theme? : Option Theme) (description : String) : List Char :=
  ofEvents theme? (Markdown.events description.toList)

end ModuleIndex.Description

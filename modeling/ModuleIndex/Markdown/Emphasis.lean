import ModuleIndex.Markdown.Flanking
import ModuleIndex.Markdown.Inline

/-!
# Emphasis

Delimiter runs are matched from left to right: a run that may close takes the nearest run before
it that fits, again and again, until its delimiters are used up. Runs that find no partner are
text.
-/

namespace ModuleIndex.Markdown

/-- Inline content in which emphasis has not been found yet. -/
inductive Piece where
  | inline (content : Inline)
  /-- A run of delimiters, and blanks behind it that stay with the last of them. -/
  | run (run : Run) (tail : List Char)
  /-- A backslash and the line end behind it. -/
  | escapedLineEnd

def Piece.isRun : Piece → Bool
  | .run _ _ => true
  | _ => false

/-- A run that waits for its closing one. -/
structure Opener where
  run : Run
  /-- How many of its delimiters are unused. -/
  count : Nat
  /-- Set once a closing run has passed it by for good. -/
  passed : Bool
  /-- What has been read since, latest first. -/
  inner : List Inline

/-- The open runs, innermost first, and what stands before the outermost one, latest first. -/
structure Openers where
  openers : List Opener
  base : List Inline

namespace Openers

/-! ## Contents -/

/-- Delimiters that are text. -/
def delimiterText (char : Char) (count : Nat) : Inline :=
  .text (List.replicate count char)

def push (s : Openers) (content : Inline) : Openers :=
  match s.openers with
  | [] => { s with base := content :: s.base }
  | o :: os => { s with openers := { o with inner := content :: o.inner } :: os }

/-- Gives up open runs: their delimiters become text. -/
def flatten : List Opener → (base : List Inline) → List Inline
  | [], base => base
  | o :: os, base => o.inner ++ delimiterText o.run.char o.count :: flatten os base

/-! ## Matching -/

/-- Whether a closing run may be paired with an open one. Tildes need runs of the same length.
If one of the runs may both open and close, the lengths must not add up to a multiple of three,
unless the closing one is such a multiple itself. -/
def fits (closer : Run) (o : Opener) : Bool :=
  !o.passed && o.run.char == closer.char &&
    (closer.char != '~' || o.run.length == closer.length) &&
    ((!closer.both && !o.run.both) || (closer.length + o.run.length) % 3 != 0 ||
      closer.length % 3 == 0)

/-- The innermost open run that fits, with the ones inside it and the ones around it. -/
def findOpener? (closer : Run) :
    (openers : List Opener) → Option (List Opener × Opener × List Opener)
  | [] => none
  | o :: os =>
    if fits closer o then some ([], o, os)
    else (findOpener? closer os).map fun (inside, found, around) => (o :: inside, found, around)

/-- Content between `count` pairs of delimiters: pairs of two first, from the inside out. -/
def wrap (char : Char) : (count : Nat) → List Inline → List Inline
  | 0, content => content
  | 1, content => [.span (if char = '~' then .strikethrough else .emphasis) content]
  | count + 2, content =>
    wrap char count [.span (if char = '~' then .strikethrough else .strong) content]

/-- Notes that a closing run found no partner. The open runs of tildes are then given up; those
of other characters may still fit a run of another length. -/
def passBy (closer : Run) (s : Openers) : Openers :=
  if closer.char = '~' then
    { s with
      openers := s.openers.map fun o =>
        if o.run.char = closer.char then { o with passed := true } else o }
  else s

/-- Pairs a closing run of which `left` delimiters are unused, and gives how many stay so.
`bound` is at least `left`. -/
def close (closer : Run) : (bound left : Nat) → Openers → Nat × Openers
  | 0, left, s => (left, s)
  | bound + 1, left, s =>
    if left = 0 then (0, s)
    else
      match findOpener? closer s.openers with
      | none => (left, passBy closer s)
      | some (inside, o, around) =>
        let count := min left o.count
        let content := wrap closer.char count (flatten inside o.inner).reverse
        let s : Openers :=
          if o.count > count then
            ⟨{ o with count := o.count - count, passed := false, inner := content } :: around,
              s.base⟩
          else content.foldl push ⟨around, s.base⟩
        close closer bound (left - count) s

def step (s : Openers) : Piece → Openers
  | .inline content => s.push content
  | .escapedLineEnd => s.push .hardBreak
  | .run r tail =>
    let (left, s) := if r.canClose then close r r.length r.length s else (r.length, s)
    if left = 0 then s
    else if r.canOpen then { s with openers := ⟨r, left, false, []⟩ :: s.openers }
    else s.push (.text (List.replicate left r.char ++ tail))

end Openers

/-- The pieces of a link. A line end at the end of it is no break if the link has runs of
delimiters: its backslash is then text. -/
def linkPieces (pieces : List Piece) : List Piece :=
  match pieces.getLast? with
  | some .escapedLineEnd =>
    if pieces.any Piece.isRun then pieces.dropLast ++ [.inline (.text ['\\'])] else pieces
  | _ => pieces

/-- The content with its emphasis found. -/
def resolveEmphasis (pieces : List Piece) : List Inline :=
  let s := pieces.foldl Openers.step ⟨[], []⟩
  (Openers.flatten s.openers s.base).reverse

end ModuleIndex.Markdown

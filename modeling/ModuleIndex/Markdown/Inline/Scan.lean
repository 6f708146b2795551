import ModuleIndex.Markdown.Emphasis
import ModuleIndex.Markdown.Entity
import ModuleIndex.Markdown.Link
import ModuleIndex.Markdown.Passage

/-!
# Finding inline content

The text of a paragraph or heading is read from left to right. Each character starts a lexeme:
an escape, a code span, a link, plain text and so on. A lexeme is added to what has been found,
and the characters it takes up are skipped.
-/

namespace ModuleIndex.Markdown

/-! ## What has been found -/

/-- An opening bracket that waits for its closing one. -/
structure Bracket where
  image : Bool
  /-- Cleared once a link stands inside the bracket, since links hold no links. -/
  active : Bool
  /-- The text after the bracket. -/
  source : List Char
  inner : List Piece

def Bracket.marker (b : Bracket) : List Char :=
  if b.image then ['!', '['] else ['[']

/-- The open brackets, innermost first, and what stands before the outermost one, latest
first. -/
structure Found where
  brackets : List Bracket
  base : List Piece

namespace Found

def push (f : Found) (piece : Piece) : Found :=
  match f.brackets with
  | [] => { f with base := piece :: f.base }
  | b :: bs => { f with brackets := { b with inner := piece :: b.inner } :: bs }

def add (f : Found) (content : Inline) : Found :=
  f.push (.inline content)

/-- Adds text, unless it is empty. -/
def addText (f : Found) : List Char → Found
  | [] => f
  | text => f.add (.text text)

def openBracket (f : Found) (image : Bool) (source : List Char) : Found :=
  { f with brackets := ⟨image, true, source, []⟩ :: f.brackets }

/-- Gives up brackets: they become text. -/
def flatten : List Bracket → (base : List Piece) → List Piece
  | [], base => base
  | b :: bs, base => b.inner ++ .inline (.text b.marker) :: flatten bs base

def pieces (f : Found) : List Piece :=
  (flatten f.brackets f.base).reverse

/-- Gives up the innermost bracket, which is closed here. -/
def giveUp (f : Found) (b : Bracket) (around : List Bracket) : Found :=
  let pieces := .inline (.text [']']) :: b.inner ++ [.inline (.text b.marker)]
  match around with
  | [] => ⟨[], pieces ++ f.base⟩
  | c :: cs => ⟨{ c with inner := pieces ++ c.inner } :: cs, f.base⟩

/-- Makes a link or an image of the innermost bracket. Around a link, no bracket but that of an
image stays active. -/
def link (f : Found) (b : Bracket) (around : List Bracket) : Found :=
  let around := if b.image then around
    else around.map fun c => { c with active := c.active && c.image }
  let content := resolveEmphasis (linkPieces b.inner.reverse)
  Found.add ⟨around, f.base⟩ (.span (if b.image then .image else .link) content)

end Found

/-! ## Code spans -/

/-- The number of characters before the next run of exactly `length` backticks, given the length
of the run in front of the text and the number of characters read. -/
def codeLength? (length : Nat) : (run read : Nat) → List Char → Option Nat
  | run, read, [] => if run = length then some (read - length) else none
  | run, read, c :: text =>
    if c = '\u0060' then codeLength? length (run + 1) (read + 1) text
    else if run = length then some (read - length)
    else codeLength? length 0 (read + 1) text

/-- The text of a code span, given the margins of the lines after its first one. Indentation that
is all of the last line does not count if the line is shallow. -/
def spanText (margins : List Margin) (text : List Char) : List Char :=
  let lines := countLineEnds text
  let shown := dropEnd isSpaceOrTab text
  match (margins.take lines).getLast? with
  | some m => if m.shallow && (shown.getLast?.map isLineEnd).getD false then shown else text
  | none => text

/-- The content of a code span: what ends a line becomes spaces, and one space is taken from both
ends if they have one, unless all of it is spaces. -/
def codeContent (text : List Char) : List Char :=
  let text := text.map fun c => if isLineEnd c then ' ' else c
  if text.head? = some ' ' && text.getLast? = some ' ' && text.any (· != ' ') then
    text.tail.dropLast
  else text

/-! ## Links by reference -/

/-- The label that a bracket itself makes with its closing one, given the text after that. -/
def ownLabel? (b : Bracket) (text : List Char) : Option (List Char) :=
  (Link.label? (b.source.take (b.source.length - text.length))).bind fun (label, rest) =>
    if rest.isEmpty then some label else none

/-- A reference behind the closing bracket of a link. -/
inductive Reference where
  | label (label rest : List Char)
  /-- Empty brackets: the label is that of the link itself. -/
  | collapsed (rest : List Char)
  | missing

/-- The reference at the start of a text. A backslash in front of it does not count. -/
def reference (text : List Char) : Reference :=
  let text := match text with
    | '\\' :: '[' :: rest => '[' :: rest
    | text => text
  match text with
  | '[' :: ']' :: rest => .collapsed rest
  | '[' :: inner =>
    match Link.label? inner with
    | some (label, rest) => .label label rest
    | none => .missing
  | _ => .missing

/-- The text after a link by reference, given the text after its closing bracket. `defined` are
the labels that have a target. Without a reference, the link may not have blanks glued to its
bracket. -/
def afterReference? (defined : List (List Char)) (b : Bracket) (glued : Bool)
    (text : List Char) : Option (List Char) :=
  let own (rest : List Char) : Option (List Char) :=
    (ownLabel? b text).bind fun label => if defined.contains label then some rest else none
  if defined.isEmpty then none
  else
    match reference text with
    | .label label rest => if defined.contains label then some rest else none
    | .collapsed rest => own rest
    | .missing => if glued then none else own text

/-! ## Lexemes -/

structure Lexeme where
  found : Found
  length : Nat
  /-- Whether it takes in the blanks behind it, at the end of a heading. -/
  takesTail : Bool

/-- A character that starts something other than plain text. -/
def isMark (c : Char) : Bool :=
  ['\\', '*', '_', '~', '\u0060', '<', '!', '[', ']', '&', '\n', '\r'].contains c

/-- The number of spaces and tabs that a line starts with. -/
def lineIndent (text : List Char) : Nat :=
  (text.takeWhile isSpaceOrTab).length

/-- Plain text up to the next mark. Blanks at the end of a line are dropped, and two of them make
a hard break of the line end. -/
def plain (f : Found) (text : List Char) : Lexeme :=
  let run := text.takeWhile (!isMark ·)
  match afterLineEnd? (text.drop run.length) with
  | some rest =>
    let shown := dropEnd isLineBlank run
    if shown.length + 2 ≤ run.length then
      ⟨(f.addText shown).add .hardBreak, text.length - rest.length + lineIndent rest, false⟩
    else ⟨f.addText shown, run.length, false⟩
  | none => ⟨f.addText run, run.length, false⟩

/-- What a backslash does, given the text after it. -/
def backslash (f : Found) (text : List Char) : Lexeme :=
  match afterLineEnd? text with
  | some rest => ⟨f.push .escapedLineEnd, 1 + (text.length - rest.length) + lineIndent rest, false⟩
  | none =>
    match text.head? with
    | some c =>
      if Text.isAsciiPunctuation c then ⟨f.addText [c], 2, false⟩
      else ⟨f.addText ['\\'], 1, false⟩
    | none => ⟨f.addText ['\\'], 1, false⟩

/-- The end of a line, and the indentation of the next one. -/
def lineEnd (f : Found) (text : List Char) : Lexeme :=
  let rest := (afterLineEnd? text).getD []
  ⟨f.add .softBreak, text.length - rest.length + lineIndent rest, false⟩

/-- A run of backticks: the start of a code span, or text. -/
def backticks (f : Found) (margins : List Margin) (text : List Char) : Lexeme :=
  let length := (text.takeWhile (· == '\u0060')).length
  let content := text.drop length
  match codeLength? length 0 0 content with
  | some n =>
    let code := codeContent (spanText margins (content.take n))
    ⟨f.add (.code code), length + n + length, true⟩
  | none => ⟨f.addText (text.take length), length, false⟩

/-- An address or a piece of HTML, given the text after its bracket; or text. -/
def angle (f : Found) (margins : List Margin) (text : List Char) : Lexeme :=
  match Link.afterAutolink? text with
  | some rest =>
    let n := text.length - rest.length
    ⟨f.add (.span .link [.text (text.take (n - 1))]), 1 + n, false⟩
  | none =>
    match Html.inline? margins text with
    | some (shown, rest) => ⟨f.add (.html shown), 1 + (text.length - rest.length), false⟩
    | none => ⟨f.addText ['<'], 1, false⟩

/-- A closing bracket, given the text after it. -/
def closeBracket (defined : List (List Char)) (tail : List Char) (f : Found) (text : List Char) :
    Lexeme :=
  match f.brackets with
  | [] => ⟨f.addText [']'], 1, false⟩
  | b :: around =>
    let closed (takesTail : Bool) (rest : List Char) : Lexeme :=
      ⟨f.link b around, 1 + (text.length - rest.length), takesTail⟩
    if !b.image && !b.active then ⟨f.giveUp b around, 1, false⟩
    else
      match Link.afterTarget? text with
      | some rest => closed false rest
      | none =>
        match afterReference? defined b (text.isEmpty && !tail.isEmpty) text with
        | some rest => closed true rest
        | none => ⟨f.giveUp b around, 1, false⟩

/-- A run of delimiters: something that may open or close emphasis, or text. -/
def delimiters (f : Found) (before? : Option Char) (char : Char) (tail text : List Char) :
    Lexeme :=
  let length := (text.takeWhile (· == char)).length
  let rest := text.drop length
  match run? char length before? rest.head? with
  | some r => ⟨f.push (.run r (if rest.isEmpty then tail else [])), length, true⟩
  | none => ⟨f.addText (text.take length), length, false⟩

/-- A character reference, given the text after its ampersand; or text. -/
def ampersand (f : Found) (text : List Char) : Lexeme :=
  match reference? text with
  | some (chars, n) => ⟨f.addText chars, 1 + n, true⟩
  | none => ⟨f.addText ['&'], 1, false⟩

structure Place where
  before? : Option Char
  /-- The margins of the lines to come. -/
  margins : List Margin
  /-- The blanks at the end of the passage. -/
  tail : List Char

/-- The place after the character `c`, which `text` follows. -/
def Place.next (p : Place) (c : Char) (text : List Char) : Place :=
  { p with before? := some c, margins := if endsLine c text then p.margins.tail else p.margins }

/-- The lexeme at the start of `c :: text`. -/
def lexeme (defined : List (List Char)) (f : Found) (p : Place) (c : Char) (text : List Char) :
    Lexeme :=
  match c with
  | '\\' => backslash f text
  | '\n' | '\r' => lineEnd f (c :: text)
  | '\u0060' => backticks f p.margins (c :: text)
  | '<' => angle f p.margins text
  | '[' => ⟨f.openBracket false text, 1, false⟩
  | ']' => closeBracket defined p.tail f text
  | '&' => ampersand f text
  | '!' =>
    match text with
    | '[' :: text => ⟨f.openBracket true text, 2, false⟩
    | _ => ⟨f.addText ['!'], 1, false⟩
  | c => if isMark c then delimiters f p.before? c p.tail (c :: text) else plain f (c :: text)

/-- Reads a text of which the first `skip` characters belong to the lexeme before it. -/
def scan (defined : List (List Char)) :
    (f : Found) → Place → (skip : Nat) → List Char → Found
  | f, p, _, [] => f.addText p.tail
  | f, p, skip + 1, c :: text => scan defined f (p.next c text) skip text
  | f, p, 0, c :: text =>
    let l := lexeme defined f p c text
    let p := p.next c text
    let p := if l.takesTail && l.length = text.length + 1 then { p with tail := [] } else p
    scan defined l.found p (l.length - 1) text

/-- The inline content of a passage, with the labels that have definitions. -/
def Inline.ofPassage (defined : List (List Char)) (passage : Passage) : List Inline :=
  let start : Place := ⟨none, passage.margins, passage.tail⟩
  resolveEmphasis (scan defined ⟨[], []⟩ start 0 passage.text).pieces

end ModuleIndex.Markdown

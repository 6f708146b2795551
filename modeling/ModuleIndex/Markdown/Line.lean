/-!
# Lines

A text is read line by line. What stands at the start of a line is measured in columns: a tab
goes up to the next multiple of four.
-/

namespace ModuleIndex.Markdown

/-! ## Blanks and line ends -/

/-- A blank that indents. -/
def isSpaceOrTab (c : Char) : Bool := c == ' ' || c == '\t'

def isLineBlank (c : Char) : Bool :=
  c == ' ' || c == '\t' || c == '\x0b' || c == '\x0c'

def isLineEnd (c : Char) : Bool := c == '\n' || c == '\r'

def isGap (c : Char) : Bool := isLineBlank c || isLineEnd c

/-- The text after the line end that it starts with: a line feed, a carriage return, or both in
that order. -/
def afterLineEnd? : List Char → Option (List Char)
  | '\n' :: text => some text
  | '\r' :: '\n' :: text => some text
  | '\r' :: text => some text
  | _ => none

/-- Whether a line is over with the character `c`, which `text` follows. -/
def endsLine (c : Char) (text : List Char) : Bool :=
  c == '\n' || (c == '\r' && text.head? != some '\n')

def countLineEnds : List Char → Nat
  | [] => 0
  | c :: text => (if endsLine c text then 1 else 0) + countLineEnds text

/-! ## Lines of a text -/

structure Line where
  text : List Char
  /-- What ends the line. It is empty if the text ends. -/
  ending : List Char
  /-- What follows up to the next line feed, if a carriage return alone ends the line. -/
  beyond : List Char

def throughLineFeed : List Char → List Char
  | [] => []
  | c :: text => if c = '\n' then ['\n'] else c :: throughLineFeed text

/-- The lines of a text, the first of which starts with `line`, latest character first. -/
def linesFrom : (line : List Char) → List Char → List Line
  | [], [] => []
  | line, [] => [⟨line.reverse, [], []⟩]
  | line, '\n' :: text => ⟨line.reverse, ['\n'], []⟩ :: linesFrom [] text
  | line, '\r' :: '\n' :: text => ⟨line.reverse, ['\r', '\n'], []⟩ :: linesFrom [] text
  | line, '\r' :: text => ⟨line.reverse, ['\r'], throughLineFeed text⟩ :: linesFrom [] text
  | line, c :: text => linesFrom (c :: line) text

/-- The lines of a text. A line ends with a line feed, a carriage return, or both in that
order. -/
def linesOf (text : List Char) : List Line :=
  linesFrom [] text

namespace Line

/-- What a code line holds, given the rest of its first line: code goes on past a lone carriage
return. -/
def whole (line : Line) (rest : List Char) : List Char :=
  rest ++ line.ending ++ line.beyond

/-- The number of lines after this one that `whole` takes in. -/
def lengthBeyond (line : Line) : Nat :=
  (linesOf line.beyond).length

end Line

/-- A line of code without the carriage return in front of its last byte. -/
def dropReturn : List Char → List Char
  | [] => []
  | ['\r', c] => if c.utf8Size = 1 then [c] else ['\r', c]
  | c :: text => c :: dropReturn text

/-! ## Columns -/

/-- What is left of a line. -/
structure Cursor where
  /-- The column that the rest starts in. -/
  column : Nat
  /-- How many columns of the tab in front of the rest are left. -/
  pending : Nat
  rest : List Char

namespace Cursor

def ofText (text : List Char) : Cursor := ⟨0, 0, text⟩

/-- The columns of the spaces and tabs at the start of a text. -/
def indentFrom : (column : Nat) → List Char → Nat
  | _, [] => 0
  | column, c :: rest =>
    if c = ' ' then 1 + indentFrom (column + 1) rest
    else if c = '\t' then
      let width := 4 - column % 4
      width + indentFrom (column + width) rest
    else 0

def indent (c : Cursor) : Nat :=
  c.pending + indentFrom c.column c.rest

/-- Goes on by `n` columns of spaces and tabs, as far as there are any. -/
def dropFrom : (column n : Nat) → List Char → Cursor
  | column, _, [] => ⟨column, 0, []⟩
  | column, n, c :: rest =>
    if n = 0 then ⟨column, 0, c :: rest⟩
    else if c = ' ' then dropFrom (column + 1) (n - 1) rest
    else if c = '\t' then
      let width := 4 - column % 4
      if width ≤ n then dropFrom (column + width) (n - width) rest
      else ⟨column + width, width - n, rest⟩
    else ⟨column, 0, c :: rest⟩

def drop (c : Cursor) (n : Nat) : Cursor :=
  if n ≤ c.pending then { c with pending := c.pending - n }
  else dropFrom c.column (n - c.pending) c.rest

/-- Goes on past `n` characters that are neither tabs nor line ends. -/
def skip (c : Cursor) (n : Nat) : Cursor :=
  { c with column := c.column + n, rest := c.rest.drop n }

def dropIndent (c : Cursor) : Cursor :=
  c.drop c.indent

def isEmpty (c : Cursor) : Bool :=
  c.rest.all isSpaceOrTab

def isBlank (c : Cursor) : Bool :=
  c.rest.all isLineBlank

/-- What is left of a line of code, with the rest of a tab as spaces. -/
def codeLine (c : Cursor) (line : Line) : List Char :=
  List.replicate c.pending ' ' ++ dropReturn (line.whole c.rest)

end Cursor

end ModuleIndex.Markdown

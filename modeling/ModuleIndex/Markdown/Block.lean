import ModuleIndex.Markdown.Html
import ModuleIndex.Markdown.Passage

/-!
# Blocks

The blocks of a document, and the beginnings of lines that start them. The scanners here are
given a line without its indentation.
-/

namespace ModuleIndex.Markdown

/-- A block. Inline content is still to be found in paragraphs and headings. -/
inductive Block where
  | paragraph (passage : Passage)
  | heading (passage : Passage)
  | code (text : List Char)
  | html (text : List Char)
  | rule
  | quote (blocks : List Block)
  | list (tight : Bool) (items : List Block)
  | item (blocks : List Block)

/-! ## Leaves -/

/-- Whether the line is a rule: three or more of one mark, with blanks between them. -/
def isRule (line : List Char) : Bool :=
  match line with
  | [] => false
  | c :: _ =>
    ['*', '-', '_'].contains c && line.all (fun d => d == c || isSpaceOrTab d) &&
      3 ≤ line.count c

/-- Whether the line makes a heading of the paragraph above it. -/
def isUnderline (line : List Char) : Bool :=
  match line with
  | [] => false
  | c :: _ => (c == '=' || c == '-') && (line.dropWhile (· == c)).all isLineBlank

/-- The text of a heading without the number signs that end it. They count only after a space,
or if there is nothing else. -/
def headingPassage (text : List Char) : Passage :=
  let text := dropEnd (· == ' ') text
  let body := dropEnd (· == '#') text
  if body.isEmpty then .ofText []
  else if body.getLast? = some ' ' then .ofText (dropEnd (· == ' ') body)
  else
    let shown := dropEnd isLineBlank text
    { text := shown, margins := [], tail := text.drop shown.length }

/-- The text of a line that is a heading: one to six number signs, and a blank behind them. -/
def heading? (line : List Char) : Option Passage :=
  let signs := line.takeWhile (· == '#')
  let rest := line.drop signs.length
  if 1 ≤ signs.length && signs.length ≤ 6 && (rest.head?.map isLineBlank).getD true then
    some (headingPassage (rest.dropWhile isLineBlank))
  else none

/-- What starts and ends a block of code: a character, and how many of them. -/
structure Fence where
  char : Char
  length : Nat

/-- The fence that a line starts with. After backticks there must be no more of them. -/
def fence? (line : List Char) : Option Fence :=
  match line with
  | [] => none
  | c :: _ =>
    let length := (line.takeWhile (· == c)).length
    if (c == '\u0060' || c == '~') && 3 ≤ length &&
        !(c == '\u0060' && (line.drop length).contains c) then
      some ⟨c, length⟩
    else none

/-- Whether the line ends a block of code: a fence that is at least as long, and spaces. -/
def Fence.endsWith (f : Fence) (line : List Char) : Bool :=
  f.length ≤ (line.takeWhile (· == f.char)).length &&
    (line.dropWhile (· == f.char)).all (· == ' ')

/-- What ends a block of HTML that starts in this line: a mark, or else a blank line. -/
inductive HtmlEnd where
  | atMark (mark : List Char)
  | atBlankLine

def HtmlEnd.endsIn (e : HtmlEnd) (line : List Char) : Bool :=
  match e with
  | .atMark mark => Text.contains mark line
  | .atBlankLine => false

/-- The end of the HTML that a line starts, if it starts any. A lone tag does not interrupt a
paragraph. -/
def htmlEnd? (line : List Char) (interrupting : Bool) : Option HtmlEnd :=
  match line with
  | '<' :: rest =>
    match Html.blockEnd? rest with
    | some mark => some (.atMark mark)
    | none =>
      if Html.startsBlockElement rest || (!interrupting && Html.isLoneTag rest) then
        some .atBlankLine
      else none
  | _ => none

/-! ## List items -/

/-- The mark in front of a list item. -/
structure ListMark where
  /-- The bullet, or the character behind the number. Items of one list share it. -/
  char : Char
  /-- How wide the mark is. -/
  width : Nat
  /-- The number of a numbered item. -/
  number? : Option Nat
  deriving DecidableEq

def decimal (digits : List Char) : Nat :=
  digits.foldl (fun n c => n * 10 + (c.toNat - '0'.toNat)) 0

/-- The list mark that a line starts with. A blank follows it, or the end of the line. -/
def listMark? (line : List Char) : Option ListMark :=
  let mark? : Option ListMark := match line with
    | [] => none
    | c :: _ =>
      if c == '-' || c == '+' || c == '*' then some ⟨c, 1, none⟩
      else
        let digits := line.takeWhile Char.isDigit
        match line.drop digits.length with
        | d :: _ =>
          if (d == '.' || d == ')') && 1 ≤ digits.length && digits.length ≤ 9 then
            some ⟨d, digits.length + 1, some (decimal digits)⟩
          else none
        | [] => none
  mark?.filter fun mark =>
    ((line.drop mark.width).head?.map isSpaceOrTab).getD true && !isRule line

/-! ## Interrupting a paragraph -/

/-- Whether a list item may interrupt a paragraph of its own container: not a number other than
one, and not an item without text. -/
def ListMark.interrupts (mark : ListMark) (line : List Char) : Bool :=
  (mark.number? = none || mark.number? = some 1) && !(line.drop mark.width).all isLineBlank

/-- Whether a line ends the paragraph before it. `inside` says whether the line lies in all the
containers of the paragraph. A fence looks at the whole line of code. -/
def interruptsParagraph (line whole : List Char) (inside : Bool) : Bool :=
  line.isEmpty || isRule line || (heading? line).isSome || (fence? whole).isSome ||
    line.head? = some '>' ||
    (match listMark? line with
      | some mark => !inside || mark.interrupts line
      | none => false) ||
    (htmlEnd? line true).isSome

end ModuleIndex.Markdown

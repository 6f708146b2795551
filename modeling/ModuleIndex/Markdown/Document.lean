import ModuleIndex.Markdown.Block
import ModuleIndex.Markdown.Link

/-!
# Documents

A document is built line by line. Containers (quotes, lists and their items) may hold more
containers; the innermost one may hold a leaf that goes on in the next line. A line first enters
the containers that are open, then opens new ones, and the rest of it belongs to a leaf.
-/

namespace ModuleIndex.Markdown

/-- The blocks of a text, and the normal forms of the labels that it defines. -/
structure Document where
  blocks : List Block
  labels : List (List Char)

/-! ## What is open -/

inductive Container where
  | quote
  /-- A list, by the character of its marks. -/
  | list (char : Char) (tight : Bool)
  /-- An item, by the columns that its content is indented by. -/
  | item (indent : Nat)

/-- An open container, and the blocks in it, latest first. -/
structure Frame where
  container : Container
  blocks : List Block

/-- A leaf that may go on, with its lines, latest first. -/
inductive Leaf where
  | none
  | paragraph (lines : List PassageLine)
  /-- Indented code, with the blank lines at its end apart. -/
  | indentedCode (lines blanks : List (List Char))
  | fencedCode (fence : Fence) (indent : Nat) (lines : List (List Char))
  | html (htmlEnd : HtmlEnd) (lines : List (List Char))

/-- A document that is being built. -/
structure Builder where
  /-- The open containers, innermost first. -/
  frames : List Frame
  /-- The finished blocks outside all containers, latest first. -/
  blocks : List Block
  leaf : Leaf
  labels : List (List Char)
  /-- Whether the last line was blank. -/
  afterBlank : Bool
  /-- Whether the last item began with a blank line, and nothing stands in it yet. -/
  freshItem : Bool

namespace Builder

def start : Builder := ⟨[], [], .none, [], false, false⟩

/-! ## Closing -/

def addBlock (b : Builder) (block : Block) : Builder :=
  match b.frames with
  | [] => { b with blocks := block :: b.blocks }
  | f :: fs => { b with frames := { f with blocks := block :: f.blocks } :: fs }

def Frame.close (f : Frame) : Block :=
  match f.container with
  | .quote => .quote f.blocks.reverse
  | .list _ tight => .list tight f.blocks.reverse
  | .item _ => .item f.blocks.reverse

def Frame.isTightList (f : Frame) : Bool :=
  match f.container with
  | .list _ tight => tight
  | _ => false

def pop (b : Builder) : Builder :=
  match b.frames with
  | [] => b
  | f :: fs =>
    { b with frames := fs, freshItem := b.freshItem && !Frame.isTightList f }.addBlock
      (Frame.close f)

def popMany : (n : Nat) → Builder → Builder
  | 0, b => b
  | n + 1, b => popMany n b.pop

/-- Closes the leaf that is open. Blank lines at the end of indented code are not part of it. -/
def closeLeaf (b : Builder) : Builder :=
  let closed := { b with leaf := .none }
  match b.leaf with
  | .none => closed
  | .paragraph lines => closed.addBlock (.paragraph (.ofLines lines.reverse))
  | .indentedCode lines _ => closed.addBlock (.code lines.reverse.flatten)
  | .fencedCode _ _ lines => closed.addBlock (.code lines.reverse.flatten)
  | .html _ lines => closed.addBlock (.html lines.reverse.flatten)

/-! ## Opening -/

/-- An item that began with a blank line ends at a second one. -/
def closeFreshItem (b : Builder) : Builder :=
  let b' := { b with freshItem := false }
  match b.freshItem && b.afterBlank, b.frames with
  | true, ⟨.item _, _⟩ :: _ => b'.pop
  | _, _ => b'

/-- A blank line before a block makes the list around it loose. -/
def loosen (b : Builder) : Builder :=
  match b.afterBlank, b.frames with
  | true, f :: ⟨.list char _, blocks⟩ :: fs =>
    { b with frames := f :: ⟨.list char false, blocks⟩ :: fs, afterBlank := false }
  | _, _ => { b with afterBlank := false }

/-- Makes room for a block that is no list item: a list without an open item ends. -/
def beginBlock (b : Builder) : Builder :=
  let b := b.closeFreshItem
  match b.frames with
  | ⟨.list _ _, _⟩ :: _ => b.pop.loosen
  | _ => b.loosen

def openContainer (b : Builder) (container : Container) : Builder :=
  { b with frames := ⟨container, []⟩ :: b.frames }

/-- Opens the list of an item, unless the item goes on with the list that is open. After a blank
line, such a list is loose. -/
def beginItem (b : Builder) (char : Char) : Builder :=
  let b := b.closeFreshItem
  match b.frames with
  | ⟨.list other tight, blocks⟩ :: fs =>
    if other = char then
      { b with
        frames := ⟨.list char (tight && !b.afterBlank), blocks⟩ :: fs
        afterBlank := false }
    else b.beginBlock.openContainer (.list char true)
  | _ => b.beginBlock.openContainer (.list char true)

/-! ## Entering containers -/

/-- Goes past the mark of a quote and one space behind it. -/
def afterQuoteMark (c : Cursor) : Cursor :=
  (c.skip 1).drop 1

/-- Enters the containers, outermost first, as far as the line has what they need. It gives how
many were entered, and the rest of the line. A quote takes up to three columns in front of its
mark, also of a wider tab. -/
def enter : (containers : List Container) → (entered : Nat) → Cursor → Nat × Cursor
  | [], entered, c => (entered, c)
  | .list _ _ :: containers, entered, c => enter containers (entered + 1) c
  | .quote :: containers, entered, c =>
    let mark := c.drop 3
    if mark.rest.head? = some '>' then enter containers (entered + 1) (afterQuoteMark mark)
    else (entered, c)
  | .item indent :: containers, entered, c =>
    if indent ≤ c.indent || c.isEmpty then enter containers (entered + 1) (c.drop indent)
    else (entered, c)

def enterLine (b : Builder) (line : Line) : Nat × Cursor :=
  enter (b.frames.map (·.container)).reverse 0 (.ofText line.text)

/-- Opens the containers that start in a line, and gives the rest of the line, unless the line
ends with a list mark. `bound` is more than the number of its characters. -/
def openContainers : (bound : Nat) → Builder → Cursor → Builder × Option Cursor
  | 0, b, c => (b, some c)
  | bound + 1, b, c =>
    let indent := c.indent
    if 4 ≤ indent then (b, some c)
    else
      let text := c.dropIndent
      match listMark? text.rest with
      | some mark =>
        let b := b.beginItem mark.char
        let content := text.skip mark.width
        if content.isBlank then
          ({ b.openContainer (.item (indent + mark.width + 1)) with freshItem := true }, none)
        else
          let width := if content.indent ≤ 4 then content.indent else 1
          openContainers bound (b.openContainer (.item (indent + mark.width + width)))
            (content.drop width)
      | none =>
        if text.rest.head? = some '>' then
          openContainers bound (b.beginBlock.openContainer .quote) (afterQuoteMark text)
        else (b, some c)

/-! ## Paragraphs -/

/-- The rest of a line that goes on with a paragraph in the innermost container. -/
def continued? (b : Builder) (line : Line) : Option Cursor :=
  let (entered, c) := b.enterLine line
  let text := c.dropIndent.rest
  if c.isEmpty then none
  else if c.indent < 4 &&
      interruptsParagraph text (line.whole text) (entered == b.frames.length) then none
  else some c

/-- What lines add to a definition that has come to `ending`. A line that could underline a
heading is no part of it. -/
def continuation (b : Builder) : (ending : List Char) → List Line → List Char
  | _, [] => []
  | ending, line :: following =>
    match b.continued? line with
    | some c =>
      if c.indent < 4 && isUnderline c.dropIndent.rest then []
      else ending ++ c.rest ++ continuation b line.ending following
    | none => []

/-- The label that a definition gives a target to, if the text and the lines behind it start with
one, and how many of these lines it takes in. -/
def definition? (b : Builder) (text ending : List Char) (following : List Line) :
    Option (List Char × Nat) :=
  if text.head? = some '[' then
    let source := text ++ b.continuation ending following
    (Link.definition? source).map fun (label, rest) =>
      (label, countLineEnds source - (if rest.isEmpty then 0 else countLineEnds rest + 1))
  else none

/-- Starts a paragraph. The definitions at the start of it are taken off. The result counts the
lines behind the first one that this takes in; `bound` is more than the number of lines. -/
def startParagraph : (bound : Nat) → Builder → (text ending : List Char) →
    (following : List Line) → Builder × Nat
  | 0, b, _, _, _ => (b, 0)
  | bound + 1, b, text, ending, following =>
    match b.definition? text ending following with
    | none => ({ b with leaf := .paragraph [⟨⟨[], false⟩, text, ending⟩] }, 0)
    | some (label, taken) =>
      let b := { b with labels := b.labels ++ [label] }
      match following.drop taken with
      | [] => (b, taken)
      | line :: rest =>
        match b.continued? line with
        | none => (b, taken)
        | some c =>
          let (b, more) := startParagraph bound b c.dropIndent.rest line.ending rest
          (b, taken + 1 + more)

/-! ## Leaves -/

/-- Adds a line to HTML. It may be the last one. -/
def htmlLine (b : Builder) (e : HtmlEnd) (lines : List (List Char)) (c : Cursor) (line : Line) :
    Builder :=
  let b := { b with leaf := .html e (c.codeLine line :: lines) }
  if e.endsIn (line.whole c.rest) then b.closeLeaf else b

/-- Starts a leaf with a line that is not blank. It gives the number of lines behind it that the
leaf has taken in. -/
def startLeaf (b : Builder) (c : Cursor) (line : Line) (following : List Line) :
    Builder × Nat :=
  let b := b.beginBlock
  let indent := c.indent
  if 4 ≤ indent then
    ({ b with leaf := .indentedCode [(c.drop 4).codeLine line] [] }, line.lengthBeyond)
  else
    let text := c.dropIndent.rest
    match htmlEnd? text false with
    | some e => (b.htmlLine e [] { c.dropIndent with pending := indent } line, line.lengthBeyond)
    | none =>
      if isRule text then (b.addBlock .rule, 0)
      else
        match heading? text with
        | some passage => (b.addBlock (.heading passage), 0)
        | none =>
          match fence? (line.whole text) with
          | some f => ({ b with leaf := .fencedCode f indent [] }, line.lengthBeyond)
          | none => startParagraph (following.length + 1) b text line.ending following

/-- Notes a blank line. It does not count in a quote. An item that began with a blank line is
over, so that the next line enters it whatever its indentation. -/
def blankLine (b : Builder) : Builder :=
  match b.frames with
  | ⟨.quote, _⟩ :: _ => b
  | ⟨.item indent, blocks⟩ :: fs =>
    { b with
      frames := ⟨.item (if b.freshItem then 0 else indent), blocks⟩ :: fs
      afterBlank := true }
  | _ => { b with afterBlank := true }

/-- Reads a line that starts new blocks, in the outermost `entered` containers. -/
def newBlocks (b : Builder) (entered : Nat) (c : Cursor) (line : Line) (following : List Line) :
    Builder × Nat :=
  let b := b.closeLeaf
  let b := popMany (b.frames.length - entered) b
  match openContainers (c.rest.length + 1) b c with
  | (b, none) => (b, 0)
  | (b, some c) => if c.isBlank then (b.blankLine, 0) else b.startLeaf c line following

/-! ## Lines -/

/-- The margin of a line that goes on with a paragraph, given the rest of it behind the outermost
`entered` containers. -/
def margin (b : Builder) (entered : Nat) (c : Cursor) (line : Line) : Margin where
  marks := line.text.take (line.text.length - c.rest.length)
  shallow :=
    match b.frames.reverse[entered]? with
    | some ⟨.item _, _⟩ => true
    | _ => false

/-- Reads a line after an open paragraph. -/
def paragraphLine (b : Builder) (lines : List PassageLine) (entered : Nat) (c : Cursor)
    (line : Line) (following : List Line) : Builder × Nat :=
  let inside := entered == b.frames.length
  let margin := b.margin entered c line
  let goesOn := { b with leaf := .paragraph (⟨margin, c.rest, line.ending⟩ :: lines) }
  let text := c.dropIndent.rest
  if c.isEmpty then b.newBlocks entered c line following
  else if 4 ≤ c.indent then (goesOn, 0)
  else if inside && isUnderline text then
    ({ b with leaf := .none }.addBlock (.heading (.ofUnderlined lines.reverse margin)), 0)
  else if interruptsParagraph text (line.whole text) inside then
    b.newBlocks entered c line following
  else (goesOn, 0)

/-- Reads the next line. It gives the number of lines behind it that have been read with it. -/
def line (b : Builder) (line : Line) (following : List Line) : Builder × Nat :=
  let (entered, c) := b.enterLine line
  let inside := entered == b.frames.length
  match b.leaf with
  | .none => b.newBlocks entered c line following
  | .paragraph lines => b.paragraphLine lines entered c line following
  | .indentedCode lines blanks =>
    if inside && (4 ≤ c.indent || c.isEmpty) then
      let content := c.drop 4
      let leaf : Leaf :=
        if content.isBlank then .indentedCode lines (content.codeLine line :: blanks)
        else .indentedCode (content.codeLine line :: blanks ++ lines) []
      ({ b with leaf, afterBlank := content.isBlank }, line.lengthBeyond)
    else b.newBlocks entered c line following
  | .fencedCode fence indent lines =>
    if !inside then b.newBlocks entered c line following
    else
      let content := c.drop indent
      if content.indent < 4 - indent && fence.endsWith content.dropIndent.rest then
        (b.closeLeaf, 0)
      else
        ({ b with leaf := .fencedCode fence indent (content.codeLine line :: lines) },
          line.lengthBeyond)
  | .html e lines =>
    let reached : Bool := match e with
      | .atMark _ => false
      | .atBlankLine => c.isBlank
    if !inside || reached then b.newBlocks entered c line following
    else (b.htmlLine e lines c line, line.lengthBeyond)

/-- Reads all lines but the first `skip` ones. -/
def lines : (skip : Nat) → Builder → List Line → Builder
  | _, b, [] => b
  | skip + 1, b, _ :: following => lines skip b following
  | 0, b, line :: following =>
    let (b, skip) := b.line line following
    lines skip b following

def finish (b : Builder) : Document :=
  let b := b.closeLeaf
  let b := popMany b.frames.length b
  ⟨b.blocks.reverse, b.labels⟩

end Builder

def Document.ofText (text : List Char) : Document :=
  (Builder.start.lines 0 (linesOf text)).finish

end ModuleIndex.Markdown

import ModuleIndex.Markdown.Document
import ModuleIndex.Markdown.Inline.Scan

/-!
# Events

A document as a flat sequence: the starts and ends of blocks and spans, and what stands between
them.
-/

namespace ModuleIndex.Markdown

/-- The kinds of blocks that hold something. -/
inductive BlockKind where
  | paragraph
  | heading
  | code
  | html
  | quote
  | list
  | item
  deriving DecidableEq, Repr

/-- A step through a document. -/
inductive Event where
  | startBlock (kind : BlockKind)
  | endBlock (kind : BlockKind)
  | startSpan (kind : Span)
  | endSpan (kind : Span)
  | text (text : List Char)
  | code (text : List Char)
  | html (text : List Char)
  | softBreak
  | hardBreak
  | rule
  deriving DecidableEq, Repr

/-! ## Inline content -/

mutual

def Inline.events : Inline → List Event
  | .text text => [.text text]
  | .code text => [.code text]
  | .html text => [.html text]
  | .softBreak => [.softBreak]
  | .hardBreak => [.hardBreak]
  | .span kind content => .startSpan kind :: inlineEvents content ++ [.endSpan kind]

def inlineEvents : List Inline → List Event
  | [] => []
  | i :: is => i.events ++ inlineEvents is

end

/-! ## Blocks -/

def blockEvents (kind : BlockKind) (content : List Event) : List Event :=
  .startBlock kind :: content ++ [.endBlock kind]

mutual

/-- The events of a block. A paragraph that is the direct part of an item of a tight list has no
start and no end. -/
def Block.events (labels : List (List Char)) (tight : Bool) : Block → List Event
  | .paragraph passage =>
    let content := inlineEvents (Inline.ofPassage labels passage)
    if tight then content else blockEvents .paragraph content
  | .heading passage => blockEvents .heading (inlineEvents (Inline.ofPassage labels passage))
  | .code text => blockEvents .code [.text text]
  | .html text => blockEvents .html [.html text]
  | .rule => [.rule]
  | .quote blocks => blockEvents .quote (eventsOf labels false blocks)
  | .list tight items => blockEvents .list (eventsOf labels tight items)
  | .item blocks => blockEvents .item (eventsOf labels tight blocks)

def eventsOf (labels : List (List Char)) (tight : Bool) : List Block → List Event
  | [] => []
  | b :: bs => b.events labels tight ++ eventsOf labels tight bs

end

def events (text : List Char) : List Event :=
  let document := Document.ofText text
  eventsOf document.labels false document.blocks

end ModuleIndex.Markdown

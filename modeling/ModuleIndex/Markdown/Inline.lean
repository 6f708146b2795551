/-!
# Inline content

What the text of a paragraph or heading is made of.
-/

namespace ModuleIndex.Markdown

/-- A stretch of inline content that is marked as a whole. -/
inductive Span where
  | emphasis
  | strong
  | strikethrough
  | link
  | image
  deriving DecidableEq, Repr

inductive Inline where
  | text (text : List Char)
  | code (text : List Char)
  | html (text : List Char)
  | softBreak
  | hardBreak
  | span (kind : Span) (content : List Inline)

end ModuleIndex.Markdown

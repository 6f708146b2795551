import ModuleIndex.Markdown.Line

/-!
# Passages

The text of a paragraph or heading, in which inline content is found. It holds its lines without
the container marks in front of them.
-/

namespace ModuleIndex.Markdown

/-- A text without the characters at its end that satisfy `p`. -/
def dropEnd (p : Char → Bool) (text : List Char) : List Char :=
  (text.reverse.dropWhile p).reverse

/-- What stands in front of a line of a passage. -/
structure Margin where
  /-- The container marks, which are no part of the text. -/
  marks : List Char
  /-- Whether the line lacks the indentation of an item that it goes on with all the same. -/
  shallow : Bool

/-- A line of a paragraph. -/
structure PassageLine where
  margin : Margin
  text : List Char
  ending : List Char

/-- The text of a paragraph or heading. -/
structure Passage where
  /-- The lines with their ends. -/
  text : List Char
  /-- The margins of all lines but the first. -/
  margins : List Margin
  /-- Blanks at the end of a heading, which belong to the last piece of its text. -/
  tail : List Char

namespace Passage

def ofText (text : List Char) : Passage := ⟨text, [], []⟩

def joinLines (lines : List PassageLine) : List Char :=
  lines.flatMap fun line => line.text ++ line.ending

/-- The passage of a paragraph. Blanks at its end do not count. -/
def ofLines (lines : List PassageLine) : Passage :=
  ⟨dropEnd isLineBlank (dropEnd isLineEnd (joinLines lines)), lines.tail.map (·.margin), []⟩

/-- The passage of a heading above a line with the given margin. It goes on up to that line,
unless a backslash stands at its end. -/
def ofUnderlined (lines : List PassageLine) (margin : Margin) : Passage :=
  let text := joinLines lines
  let shown := dropEnd isLineEnd text
  ⟨if shown.getLast? = some '\\' then shown else text,
    lines.tail.map (·.margin) ++ [margin], []⟩

end Passage

end ModuleIndex.Markdown

import ModuleIndex.Description
import ModuleIndex.Style.Palette

/-!
# Aligned rows

A row has a label and a description. In a group of rows the descriptions start in one column,
two characters to the right of the widest label.
-/

namespace ModuleIndex.Listing

open Style (Theme)

/-- A label with the source of its description. -/
structure Row where
  label : List Style.Token
  description : String
  deriving DecidableEq, Repr

/-- The number of characters between the start of a label and its description. -/
def descriptionColumn (rows : List Row) : Nat :=
  (rows.map fun r => Style.width r.label).foldl max 0 + 2

/-- The text of a row whose description starts in the given column. A row without description
ends with its label. -/
def Row.text (theme? : Option Theme) (column : Nat) (r : Row) : List Char :=
  let label := Style.tokenText theme? r.label
  match Description.format theme? r.description with
  | [] => label
  | c :: description =>
    label ++ List.replicate (column - Style.width r.label) ' ' ++ c :: description

/-- A group of rows, each on a line that starts with `indent`. -/
def alignedText (theme? : Option Theme) (indent : List Char) (rows : List Row) : List Char :=
  let column := descriptionColumn rows
  rows.flatMap fun r => indent ++ r.text theme? column ++ ['\n']

end ModuleIndex.Listing

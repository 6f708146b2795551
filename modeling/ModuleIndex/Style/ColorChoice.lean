import ModuleIndex.Text.Pieces

/-!
# When to use color

Color is used always, never, or only on a terminal.
-/

namespace ModuleIndex.Style

/-- When to use color. -/
inductive ColorChoice where
  | auto
  | never
  | always
  deriving DecidableEq, Repr

namespace ColorChoice

def word : ColorChoice → List Char
  | .auto => ['a', 'u', 't', 'o']
  | .never => ['n', 'e', 'v', 'e', 'r']
  | .always => ['a', 'l', 'w', 'a', 'y', 's']

/-- The choice that a word stands for, in letters of either case. No character outside ASCII
has a letter of these words as its lower case. -/
def ofWord? (text : String) : Option ColorChoice :=
  [.auto, .never, .always].find? fun c => c.word = Text.asciiLower text.toList

/-- Whether color is used; `auto` leaves it to the terminal. -/
def isActive? : ColorChoice → Option Bool
  | .auto => none
  | .never => some false
  | .always => some true

/-- Whether color is used, given whether the output goes to a terminal. -/
def isActive (terminal : Bool) (choice : ColorChoice) : Bool :=
  choice.isActive?.getD terminal

def faultMessage (text : String) : String :=
  s!"Invalid color option: {text} (expected auto, never or always)"

end ColorChoice

end ModuleIndex.Style

/-!
# Terminal styles

Text is styled by an escape sequence in front of it and a reset behind it. A reset ends every
style, so one that stands inside styled text is followed by the sequence of the outer style
again.
-/

namespace ModuleIndex.Style

structure Rgb where
  red : Nat
  green : Nat
  blue : Nat
  deriving DecidableEq, Repr

/-- One thing that an escape sequence switches on. -/
inductive Attribute where
  | bold
  | italic
  | background (color : Rgb)
  | foreground (color : Rgb)
  deriving DecidableEq, Repr

/-- The numbers of an attribute in an escape sequence. -/
def Attribute.codes : Attribute → List Nat
  | bold => [1]
  | italic => [3]
  | background c => [48, 2, c.red, c.green, c.blue]
  | foreground c => [38, 2, c.red, c.green, c.blue]

/-- The numbers of a sequence, with semicolons between them. -/
def codeText : List Nat → List Char
  | [] => []
  | [n] => Nat.toDigits 10 n
  | n :: m :: ns => Nat.toDigits 10 n ++ ';' :: codeText (m :: ns)

/-- The escape sequence that switches the attributes on. -/
def sequence (style : List Attribute) : List Char :=
  '\x1b' :: '[' :: codeText (style.flatMap Attribute.codes) ++ ['m']

def reset : List Char := ['\x1b', '[', '0', 'm']

/-- Puts `again` behind every reset of a text. -/
def resume (again : List Char) : List Char → List Char
  | '\x1b' :: '[' :: '0' :: 'm' :: text => reset ++ again ++ resume again text
  | c :: text => c :: resume again text
  | [] => []

def paint (style : List Attribute) (text : List Char) : List Char :=
  sequence style ++ resume (sequence style) text ++ reset

end ModuleIndex.Style

import ModuleIndex.Style.Ansi
import ModuleIndex.Style.Token

/-!
# What is printed in which style

Everything that is printed goes through this module. The colors are those of a theme. Without a
theme color is off, and all of it is plain text, except that code keeps its backticks.
-/

namespace ModuleIndex.Style

/-! ## Themes -/

def Rgb.gray (level : Nat) : Rgb := ⟨level, level, level⟩

/-- The colors for a dark or a light background. -/
structure Theme where
  isDark : Bool
  kind : Rgb
  function : Rgb
  typeName : Rgb
  constant : Rgb
  identifier : Rgb
  code : Rgb
  deriving DecidableEq, Repr

namespace Theme

/-- Functions are blue, types yellow and constants green; the rest is light gray. -/
def dark : Theme where
  isDark := true
  kind := ⟨211, 208, 200⟩
  function := ⟨102, 153, 204⟩
  typeName := ⟨255, 204, 102⟩
  constant := ⟨153, 204, 153⟩
  identifier := ⟨211, 208, 200⟩
  code := ⟨211, 208, 200⟩

/-- The color of a token; symbols and spaces have none. -/
def color? (theme : Theme) : Token → Option Rgb
  | .symbol _ | .space => none
  | .kind _ => some theme.kind
  | .function _ => some theme.function
  | .typeName _ => some theme.typeName
  | .constant _ => some theme.constant
  | .identifier _ => some theme.identifier

/-- A heading is bold, and dark on light where the background is dark. -/
def heading (theme : Theme) : List Attribute :=
  if theme.isDark then [.bold, .background (.gray 180), .foreground (.gray 0)]
  else [.bold, .background (.gray 80), .foreground (.gray 255)]

def paintToken (theme : Theme) (t : Token) : List Char :=
  match theme.color? t with
  | some c => paint [.foreground c] t.text.toList
  | none => t.text.toList

end Theme

/-! ## Styled text -/

def tokenText (theme? : Option Theme) (tokens : List Token) : List Char :=
  match theme? with
  | some theme => tokens.flatMap theme.paintToken
  | none => plainText tokens

/-- A heading, in color with a space on each side. -/
def heading (theme? : Option Theme) (text : List Char) : List Char :=
  match theme? with
  | some theme => paint theme.heading (' ' :: text ++ [' '])
  | none => text

def emphasis (theme? : Option Theme) (text : List Char) : List Char :=
  match theme? with
  | some _ => paint [.italic] text
  | none => text

def strong (theme? : Option Theme) (text : List Char) : List Char :=
  match theme? with
  | some _ => paint [.bold] text
  | none => text

/-- Code: colored, or else between backticks. -/
def inlineCode (theme? : Option Theme) (code : List Char) : List Char :=
  match theme? with
  | some theme => paint [.foreground theme.code] code
  | none => '`' :: code ++ ['`']

end ModuleIndex.Style

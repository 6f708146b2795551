/-!
# Tokens and lines

A printed line is made of pieces, and a piece of tokens. A token says what its text names, so
that it can be colored. Widths count characters.
-/

namespace ModuleIndex.Style

/-! ## Tokens -/

/-- A part of a line, by what it names. -/
inductive Token where
  | symbol (text : String)
  | kind (text : String)
  | space
  | identifier (text : String)
  | function (text : String)
  | typeName (text : String)
  | constant (text : String)
  deriving DecidableEq, Repr

def Token.text : Token → String
  | symbol text | kind text | identifier text | function text | typeName text
  | constant text => text
  | space => " "

def Token.width (t : Token) : Nat := t.text.length

def plainText (tokens : List Token) : List Char :=
  tokens.flatMap fun t => t.text.toList

/-- The number of characters that tokens take when they are printed. -/
def width : (tokens : List Token) → Nat
  | [] => 0
  | t :: tokens => t.width + width tokens

/-! ## Pieces -/

/-- A piece of a line. -/
inductive Piece where
  | token (t : Token)
  /-- A kind, filled up with spaces to a width. -/
  | kindPadded (text : String) (width : Nat)
  /-- Path segments, each with `::` behind it. -/
  | path (segments : List String)
  | group (pieces : List Piece)

mutual

def Piece.tokens : Piece → List Token
  | .token t => [t]
  | .kindPadded text width => .kind text :: List.replicate (width - text.length) .space
  | .path segments => segments.flatMap fun s => [.identifier s, .symbol "::"]
  | .group pieces => tokensOf pieces

def tokensOf : List Piece → List Token
  | [] => []
  | p :: pieces => p.tokens ++ tokensOf pieces

end

end ModuleIndex.Style

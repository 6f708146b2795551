import ModuleIndex.Text.Pieces

/-!
# Faults in JSON text

A fault has a cause and a place. The place is counted in bytes from the start of the text, and
is shown as a line and a column.
-/

namespace ModuleIndex.Json

inductive Cause where
  | eofInList
  | eofInObject
  | eofInString
  | eofInValue
  | expectedColon
  | expectedListEnd
  | expectedObjectEnd
  | expectedIdent
  | expectedValue
  | invalidEscape
  | invalidNumber
  | numberOutOfRange
  | controlCharacter
  | keyNotString
  | loneSurrogate
  | endOfHexEscape
  | trailingComma
  | trailingCharacters
  | recursionLimit
  deriving DecidableEq, Repr

def Cause.text : Cause → String
  | .eofInList => "EOF while parsing a list"
  | .eofInObject => "EOF while parsing an object"
  | .eofInString => "EOF while parsing a string"
  | .eofInValue => "EOF while parsing a value"
  | .expectedColon => "expected `:`"
  | .expectedListEnd => "expected `,` or `]`"
  | .expectedObjectEnd => "expected `,` or `\x7d`"
  | .expectedIdent => "expected ident"
  | .expectedValue => "expected value"
  | .invalidEscape => "invalid escape"
  | .invalidNumber => "invalid number"
  | .numberOutOfRange => "number out of range"
  | .controlCharacter => "control character (\\u0000-\\u001F) found while parsing a string"
  | .keyNotString => "key must be a string"
  | .loneSurrogate => "lone leading surrogate in hex escape"
  | .endOfHexEscape => "unexpected end of hex escape"
  | .trailingComma => "trailing comma"
  | .trailingCharacters => "trailing characters"
  | .recursionLimit => "recursion limit exceeded"

/-! ## Places -/

/-- A fault, with the part of the text that was still unread, and how many bytes of that part
had been looked at. -/
structure Fault where
  cause : Cause
  rest : List Char
  seen : Nat

/-- A fault with its place in the whole text. -/
structure SyntaxError where
  cause : Cause
  line : Nat
  column : Nat
  deriving DecidableEq, Repr

/-- The line and column after the first `bytes` bytes of a text. A line feed ends its line, and
a column counts the bytes since. A place past the end is the end. -/
def placeAfter : (bytes line column : Nat) → (text : List Char) → Nat × Nat
  | _, line, column, [] => (line, column)
  | bytes, line, column, c :: text =>
    if bytes < c.utf8Size then (line, column + bytes)
    else if c = '\n' then placeAfter (bytes - c.utf8Size) (line + 1) 0 text
    else placeAfter (bytes - c.utf8Size) line (column + c.utf8Size) text

/-- Places a fault in the text it was found in. -/
def Fault.locate (text : List Char) (f : Fault) : SyntaxError :=
  let read := Text.byteSize text - Text.byteSize f.rest + f.seen
  let (line, column) := placeAfter read 1 0 text
  ⟨f.cause, line, column⟩

def SyntaxError.message (e : SyntaxError) : String :=
  s!"{e.cause.text} at line {e.line} column {e.column}"

end ModuleIndex.Json

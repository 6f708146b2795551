import ModuleIndex.Json.Number
import ModuleIndex.Json.Value

/-!
# Reading JSON

Arrays and objects nest at most 127 deep. The readers recurse on the levels that are left, and
inside one level on a bound for the number of items.
-/

namespace ModuleIndex.Json

/-- A reader takes the text that is left, and gives a value with the text after it. -/
abbrev Reader (α : Type) := List Char → Except Fault (α × List Char)

/-- The four characters that JSON skips between its parts. -/
def isSpace (c : Char) : Bool :=
  c == ' ' || c == '\t' || c == '\n' || c == '\r'

def skipSpace (text : List Char) : List Char :=
  text.dropWhile isSpace

/-! ## Strings -/

def hexValue? (c : Char) : Option Nat :=
  if c.isDigit then some (c.toNat - '0'.toNat)
  else if 'a' ≤ c ∧ c ≤ 'f' then some (c.toNat - 'a'.toNat + 10)
  else if 'A' ≤ c ∧ c ≤ 'F' then some (c.toNat - 'A'.toNat + 10)
  else none

/-- The four hexadecimal digits of an escape. They are four bytes, whatever they are. -/
def hexEscape : Reader Nat := fun text =>
  match (text.take 4).map hexValue? with
  | [some a, some b, some c, some d] =>
    .ok (((a * 16 + b) * 16 + c) * 16 + d, text.drop 4)
  | _ =>
    if Text.byteSize (text.take 4) < 4 then .error ⟨.eofInString, [], 0⟩
    else .error ⟨.invalidEscape, text, 4⟩

def isLeadSurrogate (n : Nat) : Bool := 0xD800 ≤ n && n ≤ 0xDBFF

def isTrailSurrogate (n : Nat) : Bool := 0xDC00 ≤ n && n ≤ 0xDFFF

/-- The second half of a surrogate pair, given the text after the first half. -/
def trailSurrogate : Reader Nat
  | [] => .error ⟨.eofInString, [], 0⟩
  | ['\\'] => .error ⟨.eofInString, [], 0⟩
  | '\\' :: 'u' :: text => do
    let (n, rest) ← hexEscape text
    if isTrailSurrogate n then .ok (n, rest) else .error ⟨.loneSurrogate, rest, 0⟩
  | '\\' :: text => .error ⟨.endOfHexEscape, text, 1⟩
  | text => .error ⟨.endOfHexEscape, text, 1⟩

/-- The character of an escape, given the text after `\u`. -/
def unicodeEscape : Reader Char := fun text => do
  let (n, rest) ← hexEscape text
  if isTrailSurrogate n then .error ⟨.loneSurrogate, rest, 0⟩
  else if isLeadSurrogate n then
    let (low, rest) ← trailSurrogate rest
    .ok (Char.ofNat (0x10000 + (n - 0xD800) * 0x400 + (low - 0xDC00)), rest)
  else .ok (Char.ofNat n, rest)

/-- The character of an escape, given the text after its backslash. -/
def escape : Reader Char
  | [] => .error ⟨.eofInString, [], 0⟩
  | '"' :: rest => .ok ('"', rest)
  | '\\' :: rest => .ok ('\\', rest)
  | '/' :: rest => .ok ('/', rest)
  | 'b' :: rest => .ok ('\x08', rest)
  | 'f' :: rest => .ok ('\x0c', rest)
  | 'n' :: rest => .ok ('\n', rest)
  | 'r' :: rest => .ok ('\r', rest)
  | 't' :: rest => .ok ('\t', rest)
  | 'u' :: rest => unicodeEscape rest
  | text => .error ⟨.invalidEscape, text, 1⟩

/-- The characters of a string up to its closing quote, given the text after the opening one.
`bound` is at least the number of characters that are left. -/
def stringBody : (bound : Nat) → Reader (List Char)
  | 0, text => .error ⟨.eofInString, text, 0⟩
  | _ + 1, [] => .error ⟨.eofInString, [], 0⟩
  | _ + 1, '"' :: rest => .ok ([], rest)
  | bound + 1, '\\' :: text => do
    let (c, rest) ← escape text
    let (cs, rest) ← stringBody bound rest
    .ok (c :: cs, rest)
  | bound + 1, c :: text =>
    if c.toNat < 0x20 then .error ⟨.controlCharacter, c :: text, 1⟩
    else do
      let (cs, rest) ← stringBody bound text
      .ok (c :: cs, rest)

/-- A string, given the text after its opening quote. -/
def stringLiteral : Reader String := fun text => do
  let (cs, rest) ← stringBody text.length text
  .ok (String.ofList cs, rest)

/-! ## Words -/

/-- The text after the letters of a word. -/
def ident : (letters text : List Char) → Except Fault (List Char)
  | [], text => .ok text
  | _ :: _, [] => .error ⟨.eofInValue, [], 0⟩
  | l :: letters, c :: text =>
    if l = c then ident letters text else .error ⟨.expectedIdent, c :: text, 1⟩

/-! ## Arrays and objects -/

/-- The items of an array from its second one on, given a reader of items and the text after an
item. -/
def moreItems (item : Reader Value) : (bound : Nat) → Reader (List Value)
  | 0, text => .error ⟨.eofInList, text, 0⟩
  | bound + 1, text =>
    match skipSpace text with
    | [] => .error ⟨.eofInList, [], 1⟩
    | ']' :: rest => .ok ([], rest)
    | ',' :: text =>
      match skipSpace text with
      | [] => .error ⟨.eofInValue, [], 1⟩
      | ']' :: rest => .error ⟨.trailingComma, ']' :: rest, 1⟩
      | text => do
        let (v, rest) ← item text
        let (vs, rest) ← moreItems item bound rest
        .ok (v :: vs, rest)
    | text => .error ⟨.expectedListEnd, text, 1⟩

/-- The items of an array, given the text after its bracket. -/
def items (item : Reader Value) : Reader (List Value) := fun text =>
  match skipSpace text with
  | [] => .error ⟨.eofInList, [], 1⟩
  | ']' :: rest => .ok ([], rest)
  | text => do
    let (v, rest) ← item text
    let (vs, rest) ← moreItems item (rest.length + 1) rest
    .ok (v :: vs, rest)

/-- The value of a field, given the text after its name. -/
def fieldValue (item : Reader Value) : Reader Value := fun text =>
  match skipSpace text with
  | ':' :: rest => item rest
  | [] => .error ⟨.eofInObject, [], 1⟩
  | text => .error ⟨.expectedColon, text, 1⟩

/-- The fields of an object from its second one on, added to those before them. -/
def moreFields (item : Reader Value) :
    (bound : Nat) → (before : List (String × Value)) → Reader (List (String × Value))
  | 0, _, text => .error ⟨.eofInObject, text, 0⟩
  | bound + 1, before, text =>
    match skipSpace text with
    | [] => .error ⟨.eofInObject, [], 1⟩
    | '}' :: rest => .ok (before, rest)
    | ',' :: text =>
      match skipSpace text with
      | [] => .error ⟨.eofInValue, [], 1⟩
      | '"' :: text => do
        let (name, rest) ← stringLiteral text
        let (v, rest) ← fieldValue item rest
        moreFields item bound (setField name v before) rest
      | '}' :: rest => .error ⟨.trailingComma, '}' :: rest, 1⟩
      | text => .error ⟨.keyNotString, text, 1⟩
    | text => .error ⟨.expectedObjectEnd, text, 1⟩

/-- The fields of an object, given the text after its brace. -/
def fields (item : Reader Value) : Reader (List (String × Value)) := fun text =>
  match skipSpace text with
  | [] => .error ⟨.eofInObject, [], 1⟩
  | '}' :: rest => .ok ([], rest)
  | '"' :: text => do
    let (name, rest) ← stringLiteral text
    let (v, rest) ← fieldValue item rest
    moreFields item (rest.length + 1) [(name, v)] rest
  | text => .error ⟨.keyNotString, text, 1⟩

/-! ## Values -/

/-- A value that starts at the first character that is no space. `levels` more arrays and
objects may be opened inside each other. -/
def value (levels : Nat) : Reader Value := fun text =>
  match skipSpace text with
  | [] => .error ⟨.eofInValue, [], 1⟩
  | 'n' :: text => (ident ['u', 'l', 'l'] text).map fun rest => (.null, rest)
  | 't' :: text => (ident ['r', 'u', 'e'] text).map fun rest => (.bool true, rest)
  | 'f' :: text => (ident ['a', 'l', 's', 'e'] text).map fun rest => (.bool false, rest)
  | '"' :: text => (stringLiteral text).map fun (s, rest) => (.string s, rest)
  | '[' :: text =>
    match levels with
    | 0 => .error ⟨.recursionLimit, '[' :: text, 1⟩
    | levels + 1 => (items (value levels) text).map fun (vs, rest) => (.array vs, rest)
  | '{' :: text =>
    match levels with
    | 0 => .error ⟨.recursionLimit, '{' :: text, 1⟩
    | levels + 1 => (fields (value levels) text).map fun (fs, rest) => (.object fs, rest)
  | c :: text =>
    if c.isDigit || c = '-' then
      (Number.after (c :: text)).map fun rest =>
        (.number ((c :: text).take (text.length + 1 - rest.length)), rest)
    else .error ⟨.expectedValue, c :: text, 1⟩

def maxLevels : Nat := 127

def parseStart (text : List Char) : Except SyntaxError (Value × List Char) :=
  (value maxLevels text).mapError (Fault.locate text)

/-- Refuses anything but space, at the end of a text. -/
def parseEnd (text rest : List Char) : Except SyntaxError Unit :=
  match skipSpace rest with
  | [] => .ok ()
  | rest => .error (Fault.locate text ⟨.trailingCharacters, rest, 1⟩)

def parse (text : List Char) : Except SyntaxError Value := do
  let (v, rest) ← parseStart text
  parseEnd text rest
  .ok v

end ModuleIndex.Json

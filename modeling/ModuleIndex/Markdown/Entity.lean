import ModuleIndex.Markdown.Entity.Table
import Std.Data.HashMap

/-!
# Character references

A reference such as `&amp;`, `&#38;` or `&#x26;` stands for the characters it names.
-/

namespace ModuleIndex.Markdown

/-! ## Named references -/

/-- The value of a hexadecimal digit in upper case, or of a decimal digit. -/
def upperHexValue (c : Char) : Nat :=
  if c.isDigit then c.toNat - '0'.toNat else c.toNat - 'A'.toNat + 10

/-- One item of the table: a name, and its code points behind an equals sign. -/
def namedCharacter (item : List Char) : String × List Char :=
  let name := item.takeWhile (· != '=')
  let codes := (item.drop (name.length + 1)).splitOn ','
  (String.ofList name,
    codes.map fun code => Char.ofNat (code.foldl (fun n c => n * 16 + upperHexValue c) 0))

def characterTable : Std.HashMap String (List Char) :=
  let items := (namedCharacters.toList.splitOn '\n').flatMap (·.splitOn ' ')
  .ofList ((items.filter (!·.isEmpty)).map namedCharacter)

/-! ## References in text -/

/-- The character with a code point; the replacement character if that is zero. -/
def referencedChar? (n : Nat) : Option Char :=
  if n = 0 then some (Char.ofNat 0xFFFD)
  else if n.isValidChar then some (Char.ofNat n)
  else none

/-- What a number stands for, given the text after its mark. It has one to `limit` digits and
ends with a semicolon. The result counts the digits and the semicolon. -/
def numericReference? (base limit : Nat) (digit? : Char → Option Nat) (text : List Char) :
    Option (List Char × Nat) :=
  let digits := (text.take limit).takeWhile fun c => (digit? c).isSome
  if digits.isEmpty || (text.drop digits.length).head? ≠ some ';' then none
  else
    let n := digits.foldl (fun n c => n * base + (digit? c).getD 0) 0
    (referencedChar? n).map fun c => ([c], digits.length + 1)

def decimalDigit? (c : Char) : Option Nat :=
  if c.isDigit then some (c.toNat - '0'.toNat) else none

def hexDigit? (c : Char) : Option Nat :=
  if c.isDigit then some (c.toNat - '0'.toNat)
  else if 'a' ≤ c ∧ c ≤ 'f' then some (c.toNat - 'a'.toNat + 10)
  else if 'A' ≤ c ∧ c ≤ 'F' then some (c.toNat - 'A'.toNat + 10)
  else none

/-- What a reference stands for, given the text after its ampersand, and the number of
characters of the reference after the ampersand. -/
def reference? : List Char → Option (List Char × Nat)
  | '#' :: 'x' :: text => (numericReference? 16 6 hexDigit? text).map fun (cs, n) => (cs, n + 2)
  | '#' :: 'X' :: text => (numericReference? 16 6 hexDigit? text).map fun (cs, n) => (cs, n + 2)
  | '#' :: text => (numericReference? 10 7 decimalDigit? text).map fun (cs, n) => (cs, n + 1)
  | text =>
    let name := text.takeWhile Char.isAlphanum
    if (text.drop name.length).head? = some ';' then
      characterTable[String.ofList name]?.map fun cs => (cs, name.length + 1)
    else none

end ModuleIndex.Markdown

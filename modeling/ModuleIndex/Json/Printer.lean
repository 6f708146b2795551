import ModuleIndex.Json.Value

/-!
# Writing JSON

Two layouts: compact, with no space at all, and indented, with a line for each item and field.
Strings are written the same way in both.
-/

namespace ModuleIndex.Json

/-! ## Strings -/

def hexDigit (n : Nat) : Char :=
  if n < 10 then Char.ofNat ('0'.toNat + n) else Char.ofNat ('a'.toNat + (n - 10))

/-- A character inside a string. Only quotes, backslashes and control characters are escaped. -/
def escaped (c : Char) : List Char :=
  if c = '"' then ['\\', '"']
  else if c = '\\' then ['\\', '\\']
  else if c = '\x08' then ['\\', 'b']
  else if c = '\x0c' then ['\\', 'f']
  else if c = '\n' then ['\\', 'n']
  else if c = '\r' then ['\\', 'r']
  else if c = '\t' then ['\\', 't']
  else if c.toNat < 0x20 then
    ['\\', 'u', '0', '0', hexDigit (c.toNat / 16), hexDigit (c.toNat % 16)]
  else [c]

def quoted (s : String) : List Char :=
  '"' :: s.toList.flatMap escaped ++ ['"']

/-! ## Compact -/

mutual

/-- The value without any space. -/
def Value.compact : Value → List Char
  | .null => ['n', 'u', 'l', 'l']
  | .bool true => ['t', 'r', 'u', 'e']
  | .bool false => ['f', 'a', 'l', 's', 'e']
  | .number literal => literal
  | .string s => quoted s
  | .array [] => ['[', ']']
  | .array (v :: vs) => '[' :: v.compact ++ compactItems vs
  | .object [] => ['{', '}']
  | .object ((name, v) :: fs) => '{' :: quoted name ++ ':' :: v.compact ++ compactFields fs

/-- The items from the second one on, and the closing bracket. -/
def compactItems : List Value → List Char
  | [] => [']']
  | v :: vs => ',' :: v.compact ++ compactItems vs

/-- The fields from the second one on, and the closing brace. -/
def compactFields : List (String × Value) → List Char
  | [] => ['}']
  | (name, v) :: fs => ',' :: quoted name ++ ':' :: v.compact ++ compactFields fs

end

/-! ## Indented -/

/-- A new line, indented by two spaces a level. -/
def newLine (level : Nat) : List Char :=
  '\n' :: List.replicate (2 * level) ' '

mutual

/-- The value with its items and fields on lines of their own. -/
def Value.pretty (level : Nat) : Value → List Char
  | .null => ['n', 'u', 'l', 'l']
  | .bool true => ['t', 'r', 'u', 'e']
  | .bool false => ['f', 'a', 'l', 's', 'e']
  | .number literal => literal
  | .string s => quoted s
  | .array [] => ['[', ']']
  | .array (v :: vs) =>
    '[' :: newLine (level + 1) ++ v.pretty (level + 1) ++ prettyItems level vs
  | .object [] => ['{', '}']
  | .object ((name, v) :: fs) =>
    '{' :: newLine (level + 1) ++ quoted name ++ ':' :: ' ' :: v.pretty (level + 1)
      ++ prettyFields level fs

def prettyItems (level : Nat) : List Value → List Char
  | [] => newLine level ++ [']']
  | v :: vs => ',' :: newLine (level + 1) ++ v.pretty (level + 1) ++ prettyItems level vs

def prettyFields (level : Nat) : List (String × Value) → List Char
  | [] => newLine level ++ ['}']
  | (name, v) :: fs =>
    ',' :: newLine (level + 1) ++ quoted name ++ ':' :: ' ' :: v.pretty (level + 1)
      ++ prettyFields level fs

end

end ModuleIndex.Json

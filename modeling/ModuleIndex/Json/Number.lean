import ModuleIndex.Json.Fault

/-!
# JSON numbers

The grammar of a number, and the rule that refuses a number whose double is infinite.

A number is read as a decimal significand below `2^64` and a power of ten. Digits that do not
fit into the significand only count as places.
-/

namespace ModuleIndex.Json.Number

/-! ## Range -/

/-- The nearest number with 53 significant bits; a tie goes to the even one. -/
def round53 (n : Nat) : Nat :=
  let bits := n.log2 + 1
  if bits ≤ 53 then n
  else
    let unit := Nat.pow 2 (bits - 53)
    let quotient := n / unit
    let remainder := 2 * (n % unit)
    if remainder < unit || (remainder = unit && quotient % 2 = 0) then quotient * unit
    else (quotient + 1) * unit

/-- Whether `significand * 10 ^ exponent` is a finite double, with the power of ten and the
significand rounded before they are multiplied. -/
def isFinite (significand : Nat) (exponent : Int) : Bool :=
  match significand, exponent with
  | 0, _ => true
  | _, .negSucc _ => true
  | n, .ofNat e => e ≤ 308 && round53 (round53 n * round53 (Nat.pow 10 e)) < Nat.pow 2 1024

/-! ## Reading -/

/-- A digit sequence added to a significand: the new significand, how many digits went into it,
and the digits that no longer fit. -/
def addDigits : (significand taken : Nat) → (digits : List Char) → Nat × Nat × List Char
  | n, taken, [] => (n, taken, [])
  | n, taken, c :: digits =>
    let next := n * 10 + (c.toNat - '0'.toNat)
    if next < Nat.pow 2 64 then addDigits next (taken + 1) digits else (n, taken, c :: digits)

/-- The value of the digits up to the first one at which it exceeds `limit`: that value, and the
digits after it. -/
def boundedValue (limit : Nat) : (value : Nat) → (digits : List Char) → Nat × List Char
  | n, [] => (n, [])
  | n, c :: digits =>
    let next := n * 10 + (c.toNat - '0'.toNat)
    if next ≤ limit then boundedValue limit next digits else (next, digits)

/-- Ends a number at `rest`, unless it is out of range. -/
def finish (significand : Nat) (exponent : Int) (rest : List Char) : Except Fault (List Char) :=
  if isFinite significand exponent then .ok rest else .error ⟨.numberOutOfRange, rest, 0⟩

/-- The text after an exponent, given the text after its `e`. -/
def afterExponent (significand : Nat) (exponent : Int) (text : List Char) :
    Except Fault (List Char) :=
  let (positive, text) := match text with
    | '+' :: text => (true, text)
    | '-' :: text => (false, text)
    | text => (true, text)
  match text with
  | [] => .error ⟨.eofInValue, [], 0⟩
  | c :: _ =>
    if !c.isDigit then .error ⟨.invalidNumber, text, 1⟩
    else
      let digits := text.takeWhile Char.isDigit
      let rest := text.dropWhile Char.isDigit
      let (value, unread) := boundedValue (Nat.pow 2 31 - 1) 0 digits
      if value < Nat.pow 2 31 then
        finish significand (if positive then exponent + value else exponent - value) rest
      else if significand ≠ 0 && positive then .error ⟨.numberOutOfRange, unread ++ rest, 0⟩
      else .ok rest

/-- The text after the part of a number that follows its digits: maybe an exponent. -/
def afterDigits (significand : Nat) (exponent : Int) : List Char → Except Fault (List Char)
  | 'e' :: text => afterExponent significand exponent text
  | 'E' :: text => afterExponent significand exponent text
  | text => finish significand exponent text

/-- The text after a fraction, given the text after its point. -/
def afterPoint (significand : Nat) (exponent : Int) (text : List Char) :
    Except Fault (List Char) :=
  let digits := text.takeWhile Char.isDigit
  let rest := text.dropWhile Char.isDigit
  match digits, rest with
  | [], [] => .error ⟨.eofInValue, [], 1⟩
  | [], rest => .error ⟨.invalidNumber, rest, 1⟩
  | digits, rest =>
    let (significand, taken, _) := addDigits significand 0 digits
    afterDigits significand (exponent - taken) rest

/-- The text after the integer digits: maybe a fraction, maybe an exponent. -/
def afterInteger (significand : Nat) (exponent : Int) : List Char → Except Fault (List Char)
  | '.' :: text => afterPoint significand exponent text
  | text => afterDigits significand exponent text

/-- The text after a number without its sign. -/
def afterUnsigned : List Char → Except Fault (List Char)
  | [] => .error ⟨.eofInValue, [], 0⟩
  | '0' :: text =>
    match text with
    | c :: _ => if c.isDigit then .error ⟨.invalidNumber, text, 1⟩ else afterInteger 0 0 text
    | [] => .ok []
  | c :: text =>
    if !c.isDigit then .error ⟨.invalidNumber, c :: text, 1⟩
    else
      let (significand, _, unread) := addDigits 0 0 ((c :: text).takeWhile Char.isDigit)
      afterInteger significand unread.length ((c :: text).dropWhile Char.isDigit)

def after : List Char → Except Fault (List Char)
  | '-' :: text => afterUnsigned text
  | text => afterUnsigned text

end ModuleIndex.Json.Number

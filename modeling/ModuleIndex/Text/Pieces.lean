/-!
# Pieces of a text

What stands after a known start, before a known end, and on the two sides of a separator.
-/

namespace ModuleIndex.Text

/-! ## Starts and ends -/

/-- The rest of a text that starts with `start`. -/
def after? : (start text : List Char) → Option (List Char)
  | [], text => some text
  | _ :: _, [] => none
  | p :: start, c :: text => if p = c then after? start text else none

theorem after?_append (start rest : List Char) : after? start (start ++ rest) = some rest := by
  induction start with
  | nil => rfl
  | cons p start ih => simp [after?, ih]

theorem eq_append_of_after? {start text rest : List Char} (h : after? start text = some rest) :
    text = start ++ rest := by
  fun_induction after? start text with
  | case1 => simpa using h
  | case2 => simp at h
  | case3 start c text ih => simp [ih h]
  | case4 => simp at h

/-- What comes first in a text that ends with `final`. -/
def before? (final text : List Char) : Option (List Char) :=
  (after? final.reverse text.reverse).map List.reverse

def contains (part : List Char) : (text : List Char) → Bool
  | [] => part.isEmpty
  | c :: text => part.isPrefixOf (c :: text) || contains part text

/-! ## Separators -/

/-- The two sides of the first place where `separator` occurs. -/
def cut? (separator : List Char) : (text : List Char) → Option (List Char × List Char)
  | [] => (after? separator []).map fun rest => ([], rest)
  | c :: text =>
    match after? separator (c :: text) with
    | some rest => some ([], rest)
    | none => (cut? separator text).map fun (left, right) => (c :: left, right)

/-- The texts with `separator` between any two neighbours. -/
def join (separator : List Char) : (parts : List (List Char)) → List Char
  | [] => []
  | [part] => part
  | part :: next :: parts => part ++ separator ++ join separator (next :: parts)

/-! ## Sizes -/

def byteSize (text : List Char) : Nat :=
  text.foldl (fun n c => n + c.utf8Size) 0

/-- The lower case of an ASCII letter; other characters stay. -/
def asciiLower (text : List Char) : List Char :=
  text.map Char.toLower

end ModuleIndex.Text

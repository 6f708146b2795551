import ModuleIndex.Text.Blank
import ModuleIndex.Text.Punctuation

/-!
# Delimiter runs

A run of `*`, `_` or `~` may open a span, close one, or both. Which of them it may do depends on
the characters on its two sides.
-/

namespace ModuleIndex.Markdown

/-- A delimiter run that may open or close a span. -/
structure Run where
  char : Char
  length : Nat
  canOpen : Bool
  canClose : Bool
  deriving DecidableEq, Repr

def Run.both (r : Run) : Bool := r.canOpen && r.canClose

/-- The start of a text counts as a blank in front of it, its end as a blank behind it. -/
def blankBeside (c? : Option Char) : Bool :=
  (c?.map Text.isBlank).getD true

def punctuationBeside (c? : Option Char) : Bool :=
  (c?.map Text.isPunctuation).getD false

/-- Whether a run may open a span: something follows it, and it is not in the middle of a word.
Asterisks may open in a word unless punctuation follows, and double tildes may always. -/
def opens (char : Char) (length : Nat) (before? after? : Option Char) : Bool :=
  !blankBeside after? &&
    ((char == '*' && !punctuationBeside after?) ||
      (char == '~' && length > 1) ||
      (char == '~' && before? == some '~' && !punctuationBeside after?) ||
      blankBeside before? || punctuationBeside before?)

/-- Whether a run may close a span: something stands before it, and it is not in the middle of a
word. Asterisks and double tildes may close in a word unless punctuation stands before them. -/
def closes (char : Char) (length : Nat) (before? after? : Option Char) : Bool :=
  !blankBeside before? &&
    (((char == '*' || (char == '~' && length > 1)) && !punctuationBeside before?) ||
      (char == '~' && before? == some '~') ||
      blankBeside after? || punctuationBeside after?)

/-- The run of delimiters between two characters, if it may open or close anything. Three tildes
or more never do. -/
def run? (char : Char) (length : Nat) (before? after? : Option Char) : Option Run :=
  let canOpen := opens char length before? after?
  let canClose := closes char length before? after?
  if (canOpen || canClose) && (char != '~' || length ≤ 2) then
    some ⟨char, length, canOpen, canClose⟩
  else none

end ModuleIndex.Markdown

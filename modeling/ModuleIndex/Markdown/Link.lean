import ModuleIndex.Markdown.Html
import ModuleIndex.Text.CaseFold
import ModuleIndex.Text.Punctuation

/-!
# Links

Where a link leads to is not kept. What matters is which text belongs to a link, so the scanners
here only find the ends of destinations, titles and labels.
-/

namespace ModuleIndex.Markdown.Link

/-! ## Destinations -/

/-- The text after a destination in angle brackets, given the text after the first one. -/
def afterAngled? : List Char → Option (List Char)
  | [] => none
  | '>' :: text => some text
  | '<' :: _ => none
  | '\n' :: _ => none
  | '\r' :: _ => none
  | '\\' :: c :: text =>
    if Text.isAsciiPunctuation c then afterAngled? text else afterAngled? (c :: text)
  | _ :: text => afterAngled? text

def maxParentheses : Nat := 33

/-- The text after a destination without angle brackets, at which `depth` parentheses are open.
It ends at a blank or control character, or at a parenthesis that it did not open. -/
def afterBare? : (depth : Nat) → List Char → Option (List Char)
  | depth, [] => if depth = 0 then some [] else none
  | depth, '(' :: text => if depth < maxParentheses then afterBare? (depth + 1) text else none
  | 0, ')' :: text => some (')' :: text)
  | depth + 1, ')' :: text => afterBare? depth text
  | depth, '\\' :: c :: text =>
    if Text.isAsciiPunctuation c then afterBare? depth text else afterBare? depth (c :: text)
  | depth, c :: text =>
    if c.toNat ≤ 0x20 then if depth = 0 then some (c :: text) else none
    else afterBare? depth text

def afterDestination? : List Char → Option (List Char)
  | '<' :: text => afterAngled? text
  | text => afterBare? 0 text

/-! ## Titles -/

/-- The text after a title, given the text after its opening delimiter. `lineStart` says whether
only indentation stands before it in its line: there a backslash escapes nothing. -/
def afterTitleEnd? (opening closing : Char) : (lineStart : Bool) → List Char →
    Option (List Char)
  | _, [] => none
  | _, [c] => if c = closing then some [] else none
  | lineStart, c :: d :: text =>
    if c = closing then some (d :: text)
    else if c = opening then none
    else if c = '\\' && Text.isAsciiPunctuation d && !lineStart then
      afterTitleEnd? opening closing false text
    else
      afterTitleEnd? opening closing (isLineEnd c || (lineStart && isSpaceOrTab c)) (d :: text)

/-- The delimiter that ends a title which starts with the given one. -/
def titleEnd? (c : Char) : Option Char :=
  if c = '"' || c = '\'' then some c else if c = '(' then some ')' else none

def afterTitle? : List Char → Option (List Char)
  | [] => none
  | c :: text => (titleEnd? c).bind fun closing => afterTitleEnd? c closing false text

/-! ## Inline links -/

/-- Skips blanks and at most one line end. -/
def skipBlanks (text : List Char) : List Char :=
  let rest := text.dropWhile isLineBlank
  ((afterLineEnd? rest).map (·.dropWhile isLineBlank)).getD rest

/-- The text after the destination and the title of a link, in parentheses. -/
def afterTarget? : List Char → Option (List Char)
  | '(' :: text => do
    let rest := skipBlanks (← afterDestination? (skipBlanks text))
    match skipBlanks ((afterTitle? rest).getD rest) with
    | ')' :: rest => some rest
    | _ => none
  | _ => none

/-! ## Labels -/

/-- The characters of a label up to its closing bracket, and the text after it, given the text
after the opening bracket. Brackets in a label are escaped. -/
def labelText? : List Char → Option (List Char × List Char)
  | [] => none
  | ']' :: text => some ([], text)
  | '[' :: _ => none
  | '\\' :: c :: text => (labelText? text).map fun (label, rest) => ('\\' :: c :: label, rest)
  | c :: text => (labelText? text).map fun (label, rest) => (c :: label, rest)

/-- The weight of a label, which is limited: blanks and escapes count, and the bytes of
characters outside ASCII. Other characters of ASCII weigh nothing. -/
def labelWeight : List Char → Nat
  | [] => 0
  | '\\' :: c :: label => 1 + c.utf8Size + labelWeight label
  | c :: label =>
    (if isGap c then 1 else if c.toNat < 0x80 then 0 else c.utf8Size) + labelWeight label

def maxLabelWeight : Nat := 999

/-- A label with one space in place of each run of blanks. Escaped characters stay. -/
def collapseGaps : (afterGap : Bool) → List Char → List Char
  | _, [] => []
  | _, '\\' :: c :: label => '\\' :: c :: collapseGaps false label
  | afterGap, c :: label =>
    if isGap c then if afterGap then collapseGaps true label else ' ' :: collapseGaps true label
    else c :: collapseGaps false label

/-- Labels are the same if they differ only in case and in the lengths of their blanks. -/
def normalLabel (label : List Char) : List Char :=
  let label := (collapseGaps true label).reverse.dropWhile (· == ' ')
  Text.foldCase label.reverse

/-- A label, given the text after its opening bracket, and the text after its closing one. -/
def label? (text : List Char) : Option (List Char × List Char) := do
  let (label, rest) ← labelText? text
  if labelWeight label > maxLabelWeight || label.all isGap then none
  else some (normalLabel label, rest)

/-! ## Definitions -/

/-- The text after the line, if nothing but blanks is left on it. -/
def afterLine? (text : List Char) : Option (List Char) :=
  match text.dropWhile isLineBlank with
  | [] => some []
  | rest => afterLineEnd? rest

/-- The text after the title of a definition, given the text after its opening delimiter. -/
def afterDefinedTitleEnd? (opening closing : Char) : List Char → Option (List Char)
  | [] => none
  | '\\' :: _ :: text => afterDefinedTitleEnd? opening closing text
  | c :: text =>
    if c = closing then some text
    else if c = opening then none
    else afterDefinedTitleEnd? opening closing text

/-- The text after the title of a definition. -/
def afterDefinedTitle? : List Char → Option (List Char)
  | [] => none
  | c :: text => (titleEnd? c).bind fun closing => afterDefinedTitleEnd? c closing text

/-- The label that a definition at the start of a text gives a target to, and the text after the
definition. A title that does not end its line is no title, and makes a definition only of what
stands on the lines before it. -/
def definition? (text : List Char) : Option (List Char × List Char) := do
  let text ← Text.after? ['['] text
  let (label, rest) ← label? text
  let start := skipBlanks (← Text.after? [':'] rest)
  let target ← afterDestination? start
  if target.length = start.length then none
  else
    let untitled := afterLine? target
    let title := skipBlanks target
    let titled :=
      if title.length = target.length then none
      else (afterDefinedTitle? title).bind afterLine?
    (titled.or untitled).map fun rest => (label, rest)

/-! ## Addresses -/

/-- The text after the end of a web address in angle brackets. -/
def afterAddress? : List Char → Option (List Char)
  | [] => none
  | c :: text =>
    if c = '>' then some text
    else if c.toNat ≤ 0x20 || c = '<' then none
    else afterAddress? text

/-- The text after a web address, given the text after its opening bracket: a scheme of 2 to 32
characters, a colon, and no blanks. -/
def afterUri? (text : List Char) : Option (List Char) :=
  let scheme := text.takeWhile fun c => c.isAlphanum || c == '.' || c == '-' || c == '+'
  if (scheme.head?.map Char.isAlpha).getD false && 2 ≤ scheme.length && scheme.length ≤ 32 then
    (Text.after? [':'] (text.drop scheme.length)).bind afterAddress?
  else none

def isMailChar (c : Char) : Bool :=
  c.isAlphanum || ".!#$%&'*+/=?^_\u0060\x7b|\x7d~-".toList.contains c

/-- The text after the labels of a host name, up to the closing bracket. `bound` is at least the
number of labels. -/
def afterHost? : (bound : Nat) → List Char → Option (List Char)
  | 0, _ => none
  | bound + 1, text =>
    let label := text.takeWhile fun c => c.isAlphanum || c == '-'
    if label.isEmpty || label.length > 63 || label.head? == some '-' ||
        label.getLast? == some '-' then none
    else
      match text.drop label.length with
      | '.' :: rest => afterHost? bound rest
      | '>' :: rest => some rest
      | _ => none

/-- The text after a mail address, given the text after its opening bracket. -/
def afterMail? (text : List Char) : Option (List Char) :=
  let name := text.takeWhile isMailChar
  match name, text.drop name.length with
  | _ :: _, '@' :: rest => afterHost? (rest.length + 1) rest
  | _, _ => none

/-- The text after a web or mail address in angle brackets. -/
def afterAutolink? (text : List Char) : Option (List Char) :=
  (afterUri? text).or (afterMail? text)

end ModuleIndex.Markdown.Link

import ModuleIndex.Markdown.Passage
import ModuleIndex.Text.Pieces

/-!
# HTML in Markdown

Tags, comments and the like. Each scanner is given the text after a `<`, and gives the text
after what it found.
-/

namespace ModuleIndex.Markdown.Html

def skipGaps (text : List Char) : List Char :=
  text.dropWhile isGap

/-! ## Tags -/

def afterTagName? : List Char → Option (List Char)
  | c :: text =>
    if c.isAlpha then some (text.dropWhile fun c => c.isAlphanum || c == '-') else none
  | [] => none

/-- The text after a closing tag, given the text after its slash. -/
def afterClosingTag? (text : List Char) : Option (List Char) := do
  match (← afterTagName? text).dropWhile isLineBlank with
  | '>' :: rest => some rest
  | _ => none

def isAttributeStart (c : Char) : Bool :=
  c.isAlpha || c == '_' || c == ':'

def isAttributeChar (c : Char) : Bool :=
  c.isAlphanum || c == '_' || c == '.' || c == ':' || c == '-'

/-- A character that may stand in a value without quotes. -/
def isBareValueChar (c : Char) : Bool :=
  c ∉ ['\'', '"', ' ', '=', '>', '<', '\u0060', '\n', '\r']

def afterQuote? (quote : Char) : List Char → Option (List Char)
  | [] => none
  | c :: text => if c = quote then some text else afterQuote? quote text

def afterValue? : List Char → Option (List Char)
  | [] => none
  | c :: text =>
    if c = '"' || c = '\'' then afterQuote? c text
    else if isBareValueChar c then some (text.dropWhile isBareValueChar)
    else none

/-- The text after an attribute: a name, and maybe a value behind an equals sign. -/
def afterAttribute? : List Char → Option (List Char)
  | [] => none
  | c :: text =>
    if !isAttributeStart c then none
    else
      let rest := text.dropWhile isAttributeChar
      match skipGaps rest with
      | '=' :: value => afterValue? (skipGaps value)
      | _ => some rest

/-- The text after the attributes of a tag and the blanks behind them. There is a blank in front
of each attribute. `bound` is more than the number of characters left. -/
def afterAttributes? : (bound : Nat) → List Char → Option (List Char)
  | 0, _ => none
  | bound + 1, text =>
    match skipGaps text with
    | '/' :: rest => some ('/' :: rest)
    | '>' :: rest => some ('>' :: rest)
    | rest =>
      if (text.head?.map isGap).getD false then
        (afterAttribute? rest).bind (afterAttributes? bound)
      else none

def afterOpeningTag? (text : List Char) : Option (List Char) := do
  let rest ← afterTagName? text
  match ← afterAttributes? (rest.length + 1) rest with
  | '>' :: rest => some rest
  | '/' :: '>' :: rest => some rest
  | _ => none

def afterTag? : List Char → Option (List Char)
  | '/' :: text => afterClosingTag? text
  | text => afterOpeningTag? text

/-! ## Comments and other marks -/

/-- The text after the first place where `mark` stands. -/
def afterMark? (mark : List Char) : List Char → Option (List Char)
  | [] => none
  | c :: text => (Text.after? mark (c :: text)).or (afterMark? mark text)

/-- The text after a CDATA section, given its content: it ends at the first run of brackets,
which `>` must follow. -/
def afterCData? (text : List Char) : Option (List Char) :=
  match text.dropWhile (· != ']') with
  | ']' :: rest =>
    match rest.dropWhile (· == ']') with
    | '>' :: rest => some rest
    | _ => none
  | _ => none

/-- A text with the container marks that its further lines start with. -/
def withMarks : List Margin → List Char → List Char
  | _, [] => []
  | [], text => text
  | m :: margins, c :: text =>
    if endsLine c text then c :: m.marks ++ withMarks margins text
    else c :: withMarks (m :: margins) text

/-- A declaration with its container marks, and the text after it. The first `>` ends it, even
if that is a container mark; the text then goes on behind the indentation of the line. -/
def declaration? : List Margin → List Char → Option (List Char × List Char)
  | _, [] => none
  | margins, c :: text =>
    if c = '>' then some ([c], text)
    else if endsLine c text then
      let marks := (margins.head?.map (·.marks)).getD []
      if marks.contains '>' then
        some (c :: marks.takeWhile (· != '>') ++ ['>'], text.dropWhile isSpaceOrTab)
      else (declaration? margins.tail text).map fun (shown, rest) => (c :: marks ++ shown, rest)
    else (declaration? margins text).map fun (shown, rest) => (c :: shown, rest)

/-- The text after a comment or a CDATA section, given the text after `<!`. A comment ends at the
first `-->`, which may share its dashes with the start. -/
def afterComment? : List Char → Option (List Char)
  | '-' :: '-' :: text => afterMark? ['-', '-', '>'] ('-' :: '-' :: text)
  | '[' :: text => (Text.after? ['C', 'D', 'A', 'T', 'A', '['] text).bind afterCData?
  | _ => none

def before (text rest : List Char) : List Char :=
  text.take (text.length - rest.length)

/-- An inline piece of HTML as it is shown, and the text after it, given the text after its
bracket, and the margins of the lines after the first one. Container marks are shown in comments
and the like, but not in tags. -/
def inline? (margins : List Margin) (text : List Char) : Option (List Char × List Char) :=
  let kept (rest : List Char) := ('<' :: withMarks margins (before text rest), rest)
  match text with
  | '!' :: c :: inner =>
    if c.isAlpha then (declaration? margins text).map fun (shown, rest) => ('<' :: shown, rest)
    else (afterComment? (c :: inner)).map kept
  | '?' :: inner => (afterMark? ['?', '>'] inner).map kept
  | _ => (afterTag? text).map fun rest => ('<' :: before text rest, rest)

/-! ## Blocks -/

/-- The tags of block elements. -/
def blockTags : List String := [
  "address", "article", "aside", "base", "basefont", "blockquote", "body", "caption", "center",
  "col", "colgroup", "dd", "details", "dialog", "dir", "div", "dl", "dt", "fieldset",
  "figcaption", "figure", "footer", "form", "frame", "frameset", "h1", "h2", "h3", "h4", "h5",
  "h6", "head", "header", "hr", "html", "iframe", "legend", "li", "link", "main", "menu",
  "menuitem", "nav", "noframes", "ol", "optgroup", "option", "p", "param", "search", "section",
  "summary", "table", "tbody", "td", "tfoot", "th", "thead", "title", "tr", "track", "ul"]

/-- The elements whose content is kept up to their closing tag. -/
def rawTags : List String := ["pre", "style", "script", "textarea"]

/-- Whether the name of a tag is over: a blank follows, the end of the tag or of the line. -/
def endsTagName (isBlank : Char → Bool) (text : List Char) : Bool :=
  (text.head?.map fun c => isBlank c || c == '>').getD true

/-- What ends a block that starts in this line, if the block ends with a mark. -/
def blockEnd? (line : List Char) : Option (List Char) :=
  let name := Text.asciiLower (line.takeWhile Char.isAlpha)
  if rawTags.contains (String.ofList name) && endsTagName isLineBlank (line.drop name.length) then
    some ('<' :: '/' :: name ++ ['>'])
  else
    match line with
    | '!' :: '-' :: '-' :: _ => some ['-', '-', '>']
    | '?' :: _ => some ['?', '>']
    | '!' :: '[' :: 'C' :: 'D' :: 'A' :: 'T' :: 'A' :: '[' :: _ => some [']', ']', '>']
    | '!' :: c :: _ => if c.isAlpha then some ['>'] else none
    | _ => none

def startsBlockElement (line : List Char) : Bool :=
  let text := match line with
    | '/' :: text => text
    | text => text
  let name := text.takeWhile Char.isAlphanum
  let rest := text.drop name.length
  blockTags.contains (String.ofList (Text.asciiLower name)) &&
    (endsTagName isSpaceOrTab rest || ['/', '>'].isPrefixOf rest)

/-- Whether the line is a single tag and nothing else. -/
def isLoneTag (line : List Char) : Bool :=
  match afterTag? line with
  | some rest => rest.all isLineBlank
  | none => false

end ModuleIndex.Markdown.Html

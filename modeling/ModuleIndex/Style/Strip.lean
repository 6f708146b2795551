/-!
# Text without escape sequences

What is left of a text when the sequences that a terminal takes for commands are removed from
it, and the control characters that do not lay out text. A sequence starts with an escape
character. Another escape character breaks it off, and so does a cancel character.
-/

namespace ModuleIndex.Style

/-! ## Characters -/

/-- A control character that lays out text: a tab, a line feed, a form feed or a return. -/
def isLayout (c : Char) : Bool :=
  c = '\t' || c = '\n' || c = '\x0c' || c = '\r'

/-- A character that text is made of: everything but the control characters of ASCII. -/
def isShown (c : Char) : Bool :=
  (' ' ≤ c && c ≠ '\x7f') || isLayout c

/-- A character that stands between the parts of a sequence. -/
def isMark (c : Char) : Bool :=
  ' ' ≤ c && c ≤ '/'

/-- A character of the numbers in a sequence. -/
def isParameter (c : Char) : Bool :=
  '0' ≤ c && c ≤ '?'

/-- A character that can end a sequence with numbers. -/
def isFinal (c : Char) : Bool :=
  '@' ≤ c && c ≤ '~'

/-- Whether the UTF-8 form of a character holds the byte that ends a string for the terminal. -/
def endsString (c : Char) : Bool :=
  (String.utf8EncodeChar c).contains 0x9c

/-! ## Sequences -/

/-- How much of a sequence stands in front of a place. -/
inductive Mode where
  /-- No sequence: this is text. -/
  | text
  /-- An escape character. -/
  | escape
  /-- An escape character and marks behind it. -/
  | marked
  /-- The start of a sequence with numbers, which a final character ends. -/
  | control
  /-- The start of a string for a device. -/
  | device
  /-- The start of a string for a device, up to its numbers. -/
  | deviceNumbers
  /-- The start of a string for a device, up to the marks behind its numbers. -/
  | deviceMarks
  /-- The inside of a string, which has a byte of its own as its end. -/
  | string
  /-- The inside of a command for the system, which a bell ends. -/
  | command
  deriving DecidableEq, Repr

namespace Mode

/-- Whether a character is part of the text. One that lays out text is also shown inside the
short sequences, and breaks them off. -/
def shows (m : Mode) (c : Char) : Bool :=
  match m with
  | text => isShown c
  | escape | marked | control => isLayout c
  | _ => false

/-- Where a sequence stands behind a character that is not shown. -/
def next (m : Mode) (c : Char) : Mode :=
  if c = '\x1b' then escape
  else if c = '\x18' || c = '\x1a' then text
  else
    match m with
    | text => text
    | escape =>
      if isMark c then marked
      else if c = '[' then control
      else if c = ']' then command
      else if c = 'P' then device
      else if c = 'X' || c = '^' || c = '_' then string
      else if isParameter c || isFinal c then text
      else escape
    | marked => if isParameter c || isFinal c then text else marked
    | control => if isFinal c then text else control
    | device =>
      if isMark c then deviceMarks
      else if isParameter c then deviceNumbers
      else if isFinal c then string
      else device
    | deviceNumbers =>
      if isMark c then deviceMarks
      else if '<' ≤ c && c ≤ '~' then string
      else deviceNumbers
    | deviceMarks => if isParameter c || isFinal c then string else deviceMarks
    | string => if endsString c then text else string
    | command => if c = '\x07' then text else command

def shown (m : Mode) : List Char → List Char
  | [] => []
  | c :: cs => if m.shows c then c :: shown .text cs else shown (m.next c) cs

end Mode

def strip (s : String) : String :=
  String.ofList (Mode.text.shown s.toList)

end ModuleIndex.Style

import ModuleIndex.CommandLine.Usage

/-!
# Reading a command line

Arguments are read from left to right. An argument that takes a value stays open until the next
argument is known to be no value of its own; only then its value is looked at.
-/

namespace ModuleIndex.CommandLine

/-- Why reading stops: at the wish for help, in its long or its short form, or at a fault. -/
inductive Stop where
  | help (long : Bool)
  | fault (f : UsageFault)
  deriving DecidableEq, Repr

/-! ## Values -/

namespace Options

/-- The options with a value given to an argument. -/
def assign (o : Options) (a : Argument) (value : String) : Except UsageFault Options :=
  match a with
  | .spec =>
    match Crate.Spec.parse value with
    | .ok spec => .ok { o with spec := some spec }
    | .error f => .error (.invalid .spec value f.message)
  | .filter => .ok { o with filter := some value }
  | .file =>
    if value.isEmpty then .error (.missingValue .file) else .ok { o with file := some value }
  | .format =>
    match Listing.Format.ofWord? value with
    | some format => .ok { o with format }
    | none =>
      .error (if value.isEmpty then .missingValue .format else .unknownFormat value)
  | .color =>
    match Style.ColorChoice.ofWord? value with
    | some color => .ok { o with color }
    | none => .error (.invalid .color value (Style.ColorChoice.faultMessage value))
  | .noCache => .ok { o with noCache := true }
  | .clearCache => .ok { o with clearCache := true }
  | .verbose => .ok { o with verbose := true }
  | .help => .ok o

end Options

/-! ## States -/

/-- The options that have been read, with the arguments that set them, and the argument that is
still open, with its value if it has one. -/
structure Reading where
  options : Options := {}
  given : List Argument := []
  current : Option (Argument × Option String) := none
  positionals : List Argument := [.spec, .filter]
  deriving DecidableEq, Repr

namespace Reading

/-- Gives a value to an argument, which must be the first one that it gets. -/
def set (r : Reading) (a : Argument) (value : String) : Except Stop Reading :=
  if a ∈ r.given then .error (.fault (.repeated a))
  else
    match r.options.assign a value with
    | .ok options => .ok { r with options, given := a :: r.given }
    | .error f => .error (.fault f)

/-- Looks at the argument that is still open, and closes it. -/
def finish (r : Reading) : Except Stop Reading :=
  match r.current with
  | none => .ok r
  | some (a, none) => .error (.fault (.missingValue a))
  | some (a, some value) => { r with current := none }.set a value

/-- Opens an argument, after the one before it has been closed. -/
def start (r : Reading) (a : Argument) (value : Option String) : Except Stop Reading := do
  let r ← r.finish
  .ok { r with current := some (a, value) }

def flag (r : Reading) (a : Argument) : Except Stop Reading := do
  let r ← r.finish
  r.set a ""

def help (r : Reading) (long : Bool) : Except Stop Reading := do
  let _ ← r.finish
  .error (.help long)

def positional (r : Reading) (text : String) : Except Stop Reading :=
  match r.positionals with
  | [] => .error (.fault (.unknown text))
  | a :: positionals => do
    let r ← r.start a (some text)
    .ok { r with positionals }

/-- Reads what stands behind two hyphens: a name, and behind `=` a value. -/
def long (r : Reading) (text : List Char) : Except Stop Reading :=
  let (name, value) := match Text.cut? ['='] text with
    | some (name, value) => (String.ofList name, some (String.ofList value))
    | none => (String.ofList text, none)
  match Argument.ofLongName? name, value with
  | none, _ => .error (.fault (.unknown s!"--{name}"))
  | some a, some value =>
    if a.takesValue then do
      let r ← r.finish
      r.set a value
    else .error (.fault (.unexpectedValue a value))
  | some .help, none => r.help true
  | some a, none => if a.takesValue then r.start a none else r.flag a

def short (r : Reading) : List Char → Except Stop Reading
  | [] => .ok r
  | 'v' :: letters => do
    let r ← r.flag .verbose
    r.short letters
  | 'h' :: _ => r.help false
  | c :: _ => .error (.fault (.unknown s!"-{c}"))

/-- Reads a text that is no option: the value of an open argument, or a positional one. -/
def plain (r : Reading) (text : String) : Except Stop Reading :=
  match r.current with
  | some (a, none) => .ok { r with current := some (a, some text) }
  | _ => r.positional text

/-- Reads a text in front of the mark that ends the options. -/
def step (r : Reading) (text : String) : Except Stop Reading :=
  match text.toList with
  | '-' :: '-' :: rest => r.long rest
  | '-' :: c :: letters => r.short (c :: letters)
  | _ => r.plain text

def plains (r : Reading) : List String → Except Stop Reading
  | [] => .ok r
  | text :: texts => do
    let r ← r.positional text
    r.plains texts

/-- Reads all texts. Behind `--`, none is an option. -/
def all (r : Reading) : List String → Except Stop Reading
  | [] => .ok r
  | "--" :: texts => r.plains texts
  | text :: texts => do
    let r ← r.step text
    r.all texts

end Reading

def Options.parse (texts : List String) : Except Stop Options := do
  let r ← ({} : Reading).all texts
  let r ← r.finish
  .ok r.options

end ModuleIndex.CommandLine

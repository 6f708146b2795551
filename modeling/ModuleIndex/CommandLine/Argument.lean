import ModuleIndex.Crate.Spec
import ModuleIndex.Listing.View
import ModuleIndex.Style.ColorChoice

/-!
# Arguments

What can be given on the command line: two positional arguments, options with a value, and
flags.
-/

namespace ModuleIndex.CommandLine

/-- The arguments that the program knows. -/
inductive Argument where
  | spec
  | filter
  | file
  | format
  | color
  | noCache
  | clearCache
  | verbose
  | help
  deriving DecidableEq, Repr

/-- How messages name an argument. -/
def Argument.display : Argument → String
  | .spec => "[CRATE_SPEC]"
  | .filter => "[FILTER]"
  | .file => "--file <PATH>"
  | .format => "--format <FORMAT>"
  | .color => "--color <WHEN>"
  | .noCache => "--no-cache"
  | .clearCache => "--clear-cache"
  | .verbose => "--verbose"
  | .help => "--help"

def Argument.longName? : Argument → Option String
  | .spec | .filter => none
  | .file => some "file"
  | .format => some "format"
  | .color => some "color"
  | .noCache => some "no-cache"
  | .clearCache => some "clear-cache"
  | .verbose => some "verbose"
  | .help => some "help"

def Argument.ofLongName? (name : String) : Option Argument :=
  [.file, .format, .color, .noCache, .clearCache, .verbose, .help].find? fun a : Argument =>
    a.longName? = some name

/-- Whether an argument comes with a value; a flag does not. -/
def Argument.takesValue : Argument → Bool
  | .spec | .filter | .file | .format | .color => true
  | .noCache | .clearCache | .verbose | .help => false

/-- What the command line asks for. -/
structure Options where
  spec : Option Crate.Spec := none
  filter : Option String := none
  file : Option String := none
  format : Listing.Format := .sidebar
  color : Style.ColorChoice := .auto
  noCache : Bool := false
  clearCache : Bool := false
  verbose : Bool := false
  deriving DecidableEq, Repr

end ModuleIndex.CommandLine

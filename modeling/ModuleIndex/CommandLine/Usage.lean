import ModuleIndex.CommandLine.Argument
import ModuleIndex.Style.Ansi
import ModuleIndex.Style.Strip

/-!
# Wrong usage

The ways in which a command line is not understood, and what is said about them.
-/

namespace ModuleIndex.CommandLine

/-- Why a command line is not understood. -/
inductive UsageFault where
  /-- A value that does not stand for anything, and what is wrong with it. -/
  | invalid (argument : Argument) (value reason : String)
  | unknownFormat (value : String)
  | missingValue (argument : Argument)
  | unexpectedValue (argument : Argument) (value : String)
  | unknown (text : String)
  | repeated (argument : Argument)
  deriving DecidableEq, Repr

namespace UsageFault

def standOut (s : String) : String :=
  String.ofList (Style.paint [.bold] s.toList)

/-- The words for formats, as they are shown below a fault. -/
def formatWords : String :=
  let words := [Listing.Format.sidebar, .list, .json, .script].map Listing.Format.word
  let list := ", ".intercalate words
  s!"\n  [possible values: {list}]"

/-- What is wrong. The value and the argument that are at fault stand out. -/
def reason : UsageFault → String
  | .invalid argument value reason =>
    s!"invalid value '{standOut value}' for '{standOut argument.display}': {reason}"
  | .unknownFormat value =>
    s!"invalid value '{standOut value}' for '{standOut Argument.format.display}'{formatWords}"
  | .missingValue .format =>
    s!"a value is required for '{standOut Argument.format.display}' but none was supplied" ++
      formatWords
  | .missingValue argument =>
    s!"a value is required for '{standOut argument.display}' but none was supplied"
  | .unexpectedValue argument value =>
    s!"unexpected value '{standOut value}' for '{standOut argument.display}' found; " ++
      "no more were expected"
  | .unknown text => s!"unexpected argument '{standOut text}' found"
  | .repeated argument =>
    s!"the argument '{standOut argument.display}' cannot be used multiple times"

/-- What is said about a fault, without the sequences that make parts of it stand out. Sequences
that were given on the command line are gone as well, and one that was left open swallows what
follows it. -/
def message (f : UsageFault) : String :=
  let error := standOut "error:"
  let help := standOut "--help"
  Style.strip s!"{error} {f.reason}\n\nFor more information, try '{help}'."

end UsageFault

end ModuleIndex.CommandLine

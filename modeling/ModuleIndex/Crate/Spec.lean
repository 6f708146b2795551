import ModuleIndex.Crate.Name
import ModuleIndex.Text.Blank
import ModuleIndex.Text.Pieces

/-!
# Module specifications

A documented module is named by its crate, by a version of the crate if one is wanted, and by
the path of the module within the crate: `crate@version::module::path`.
-/

namespace ModuleIndex.Crate

structure Spec where
  name : String
  version : Option String
  modulePath : List String
  deriving DecidableEq, Repr

inductive SpecFault where
  | emptyName
  | emptyVersion
  | emptySegment
  deriving DecidableEq, Repr

def SpecFault.message : SpecFault → String
  | .emptyName => "Crate name cannot be empty"
  | .emptyVersion => "Version cannot be empty after '@'"
  | .emptySegment => "Module path cannot contain empty segments"

/-! ## Module paths -/

/-- A text without the `::` pairs at its start. -/
def dropSeparators : List Char → List Char
  | ':' :: ':' :: text => dropSeparators text
  | text => text

def segments : List Char → List (List Char)
  | [] => [[]]
  | ':' :: ':' :: text => [] :: segments text
  | c :: text =>
    match segments text with
    | s :: ss => (c :: s) :: ss
    | [] => [[c]]

/-- The segments of a module path. Separators at its end count for nothing. -/
def modulePathOf (path : List Char) : List (List Char) :=
  match (dropSeparators path.reverse).reverse with
  | [] => []
  | c :: path => segments (c :: path)

/-! ## Reading -/

/-- The name, the version and the module path of a specification. A version stands between the
first `@` and the `::` that follows it. -/
def split (text : List Char) : List Char × Option (List Char) × List Char :=
  match Text.cut? ['@'] text with
  | some (name, rest) =>
    match Text.cut? [':', ':'] rest with
    | some (version, path) => (name, some version, path)
    | none => (name, some rest, [])
  | none =>
    match Text.cut? [':', ':'] text with
    | some (name, path) => (name, none, path)
    | none => (text, none, [])

def isBlankText (text : List Char) : Bool :=
  text.all Text.isBlank

namespace Spec

/-- The specification made of a name, a version and a module path, as they were written. -/
def ofParts (name : List Char) (version : Option (List Char)) (path : List Char) :
    Except SpecFault Spec :=
  if isBlankText name then .error .emptyName
  else if version.any isBlankText then .error .emptyVersion
  else if [] ∈ modulePathOf path then .error .emptySegment
  else .ok {
    name := canonicalName (String.ofList name)
    version := version.map String.ofList
    modulePath := (modulePathOf path).map String.ofList }

def parse (text : String) : Except SpecFault Spec :=
  let (name, version, path) := split text.toList
  ofParts name version path

/-- The path of the module, from the crate on. -/
def segments (spec : Spec) : List String :=
  spec.name :: spec.modulePath

end Spec

end ModuleIndex.Crate

import ModuleIndex.Json.Fault

/-!
# Malformed indexes

The ways in which a text, a JSON value or a list of sections fails to be an index.
-/

namespace ModuleIndex

inductive Field where
  | name
  | description
  deriving DecidableEq, Repr

def Field.text : Field → String
  | .name => "name"
  | .description => "description"

/-- Why something is not an index. Entries are counted from zero within their category. -/
inductive IndexFault where
  | notAnObject
  | categoryNotSequence (category : String)
  | entryNotPair (category : String) (entry : Nat)
  | missingField (category : String) (entry : Nat) (field : Field)
  | fieldNotString (category : String) (entry : Nat) (field : Field)
  | duplicateName (category name : String)
  | duplicateCategory (category : String)
  | unknownWrapper
  | json (error : Json.SyntaxError)
  deriving DecidableEq, Repr

def IndexFault.message : IndexFault → String
  | .notAnObject => "sidebar index must be an object keyed by category"
  | .categoryNotSequence category => s!"category '{category}' is not a list of entries"
  | .entryNotPair category entry =>
    s!"entry {entry} in category '{category}' is not a [name, description] pair"
  | .missingField category entry field =>
    s!"entry {entry} in category '{category}' is missing its {field.text}"
  | .fieldNotString category entry field =>
    s!"{field.text} of entry {entry} in category '{category}' is not a string"
  | .duplicateName category name => s!"duplicate name '{name}' in category '{category}'"
  | .duplicateCategory category => s!"category '{category}' appears more than once"
  | .unknownWrapper => "expected initSidebarItems(\x7b...\x7d) or a JSON object"
  | .json error => s!"invalid sidebar JSON: {error.message}"

end ModuleIndex

/-!
# Categories of documented items

An item is filed under a key such as `fn` or `struct`. Sixteen keys are known; the set is open,
so any other key is kept as it is.
-/

namespace ModuleIndex

/-- The kind of a documented item. Categories are made with `Category.ofKey`, so a known key is
never held by `other`. -/
inductive Category where
  | constant
  | enumeration
  | function
  | module
  | struct
  | trait
  | macroRules
  | typeAlias
  | static
  | union
  | attributeMacro
  | deriveMacro
  | primitive
  | keyword
  | traitAlias
  | foreignType
  | other (key : String)
  deriving DecidableEq, Repr

namespace Category

def ofKey (key : String) : Category :=
  if key = "constant" then .constant
  else if key = "enum" then .enumeration
  else if key = "fn" then .function
  else if key = "mod" then .module
  else if key = "struct" then .struct
  else if key = "trait" then .trait
  else if key = "macro" then .macroRules
  else if key = "type" then .typeAlias
  else if key = "static" then .static
  else if key = "union" then .union
  else if key = "attr" then .attributeMacro
  else if key = "derive" then .deriveMacro
  else if key = "primitive" then .primitive
  else if key = "keyword" then .keyword
  else if key = "traitalias" then .traitAlias
  else if key = "foreigntype" then .foreignType
  else .other key

/-- The category of a key that is only lent: if it is unknown, the category holds a copy. -/
def ofLentKey (key : String) : Category := ofKey key

/-- The category of a key that is given away: if it is unknown, the category holds it. -/
def ofGivenKey (key : String) : Category :=
  match ofKey key with
  | .other _ => .other key
  | known => known

def key : Category → String
  | constant => "constant"
  | enumeration => "enum"
  | function => "fn"
  | module => "mod"
  | struct => "struct"
  | trait => "trait"
  | macroRules => "macro"
  | typeAlias => "type"
  | static => "static"
  | union => "union"
  | attributeMacro => "attr"
  | deriveMacro => "derive"
  | primitive => "primitive"
  | keyword => "keyword"
  | traitAlias => "traitalias"
  | foreignType => "foreigntype"
  | other key => key

/-- The heading above the items of a category. -/
def title : Category → String
  | constant => "Constants"
  | enumeration => "Enums"
  | function => "Functions"
  | module => "Modules"
  | struct => "Structs"
  | trait => "Traits"
  | macroRules => "Macros"
  | typeAlias => "Type Aliases"
  | static => "Statics"
  | union => "Unions"
  | attributeMacro => "Attribute Macros"
  | deriveMacro => "Derive Macros"
  | primitive => "Primitive Types"
  | keyword => "Keywords"
  | traitAlias => "Trait Aliases"
  | foreignType => "Foreign Types"
  | other key => key

/-- The word that declares an item of a category. -/
def declarator : Category → String
  | constant => "const"
  | enumeration => "enum"
  | function => "fn"
  | module => "mod"
  | struct => "struct"
  | trait | traitAlias => "trait"
  | macroRules => "macro"
  | typeAlias | foreignType => "type"
  | static => "static"
  | union => "union"
  | attributeMacro => "attr"
  | deriveMacro => "derive"
  | primitive => "primitive"
  | keyword => "keyword"
  | other key => key

def isKnown : Category → Bool
  | other _ => false
  | _ => true

end Category

end ModuleIndex

import ModuleIndex.Index.Basic
import ModuleIndex.Style.Token

/-!
# Items under their module

A listed item is an entry with its category and the path of the module it belongs to. It is
printed as a declaration, with the path in front of its name.
-/

namespace ModuleIndex.Listing

/-! ## Names -/

/-- The name of an item, as what an item of its category is. A macro is written with `!`. -/
def nameTokens (category : Category) (name : String) : List Style.Token :=
  match category with
  | .macroRules => [.identifier name, .symbol "!"]
  | .constant | .static => [.constant name]
  | .function => [.function name]
  | .struct | .enumeration | .trait | .traitAlias | .typeAlias | .union | .primitive
  | .foreignType => [.typeName name]
  | .module | .attributeMacro | .deriveMacro | .keyword | .other _ => [.identifier name]

/-! ## Items -/

structure Item where
  modulePath : List String
  category : Category
  entry : Entry
  deriving DecidableEq, Repr

namespace Item

/-- The name with the module path in front of it. -/
def pathPieces (item : Item) : List Style.Piece :=
  [.path item.modulePath,
    .group ((nameTokens item.category item.entry.name).map Style.Piece.token)]

/-- The width that declarators are filled up to in a list. -/
def declaratorWidth : Nat := 6

/-- The declaration in a list: declarators are filled up, so that paths line up. -/
def row (item : Item) : List Style.Token :=
  Style.tokensOf (.kindPadded item.category.declarator declaratorWidth :: .token .space ::
    item.pathPieces)

/-- The declaration on its own. -/
def declaration (item : Item) : List Style.Token :=
  Style.tokensOf (.token (.kind item.category.declarator) :: .token .space :: item.pathPieces)

end Item

def itemsOf (modulePath : List String) (entries : List (Category × Entry)) : List Item :=
  entries.map fun (category, entry) => ⟨modulePath, category, entry⟩

end ModuleIndex.Listing

import ModuleIndex.Index.Script
import ModuleIndex.Index.Search
import ModuleIndex.Listing.Item
import ModuleIndex.Listing.Row

/-!
# Showing an index

An index, or the part of it that a filter leaves, is shown in one of four formats: as the
sidebar of a documentation page, as a list of declarations, as JSON, or as a script.
-/

namespace ModuleIndex.Listing

open Style (Theme)

/-- How an index is shown. -/
inductive Format where
  | sidebar
  | list
  | json
  | script
  deriving DecidableEq, Repr

def Format.word : Format → String
  | .sidebar => "sidebar"
  | .list => "list"
  | .json => "json"
  | .script => "js"

def Format.ofWord? (word : String) : Option Format :=
  [.sidebar, .list, .json, .script].find? fun f => f.word = word

/-! ## Text for readers -/

/-- The rows of a category in the sidebar: bare names. -/
def sidebarRows (category : Category) (entries : List Entry) : List Row :=
  entries.map fun e => ⟨nameTokens category e.name, e.description⟩

/-- A category in the sidebar: its title, and below it the indented rows. -/
def sidebarSection (theme? : Option Theme) (category : Category) (entries : List Entry) :
    List Char :=
  Style.heading theme? category.title.toList ++
    '\n' :: alignedText theme? [' ', ' '] (sidebarRows category entries)

/-- The sidebar: the sections of all categories, with an empty line between any two. -/
def sidebarText (theme? : Option Theme) (index : Index) : List Char :=
  Text.join ['\n'] (index.categories.map fun category =>
    sidebarSection theme? category (index.entriesOf category.key))

def listText (theme? : Option Theme) (items : List Item) : List Char :=
  alignedText theme? [] (items.map fun item => ⟨item.row, item.entry.description⟩)

/-- An item on its own: the declaration, and below an empty line its description. -/
def detailText (theme? : Option Theme) (item : Item) : List Char :=
  let declaration := Style.tokenText theme? item.declaration ++ ['\n']
  match Description.format theme? item.entry.description with
  | [] => declaration
  | c :: description => declaration ++ '\n' :: c :: description ++ ['\n']

/-! ## Text for programs -/

def matchJson (found : Category × Entry) : Json.Value :=
  .object [
    ("category", .string found.1.key),
    ("name", .string found.2.name),
    ("description", .string found.2.description)]

def matchesJson (found : List (Category × Entry)) : Json.Value :=
  .array (found.map matchJson)

/-! ## Views -/

def indexText (theme? : Option Theme) (format : Format) (modulePath : List String)
    (index : Index) : List Char :=
  match format with
  | .sidebar => sidebarText theme? index
  | .list => listText theme? (itemsOf modulePath index.items)
  | .json => index.prettyText ++ ['\n']
  | .script => index.toScript.toList ++ ['\n']

/-- Why nothing is shown for a filter. -/
inductive FilterFault where
  | noMatch (filter : String)
  | scriptFormat
  deriving DecidableEq, Repr

def FilterFault.message : FilterFault → String
  | .noMatch filter => s!"No items matching '{filter}'"
  | .scriptFormat => "--format js cannot be combined with a filter"

/-- The items of a module that a filter finds. A single one is shown on its own. -/
def matchesText (theme? : Option Theme) (format : Format) (modulePath : List String)
    (index : Index) (filter : String) : Except FilterFault (List Char) :=
  match index.search filter with
  | [] => .error (.noMatch filter)
  | found =>
    match format with
    | .sidebar | .list =>
      match itemsOf modulePath found with
      | [item] => .ok (detailText theme? item)
      | items => .ok (listText theme? items)
    | .json => .ok ((matchesJson found).pretty 0 ++ ['\n'])
    | .script => .error .scriptFormat

/-- What is shown of an index: all of it, or what an optional filter finds. -/
def text (theme? : Option Theme) (format : Format) (modulePath : List String) (index : Index) :
    Option String → Except FilterFault (List Char)
  | some filter => matchesText theme? format modulePath index filter
  | none => .ok (indexText theme? format modulePath index)

end ModuleIndex.Listing

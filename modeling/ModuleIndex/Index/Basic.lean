import ModuleIndex.Index.Category
import ModuleIndex.Index.Fault

/-!
# The index of a module

An index lists the items of one documented module, in sections by category. Sections and
entries keep the order they were given in.
-/

namespace ModuleIndex

structure Entry where
  name : String
  description : String
  deriving DecidableEq, Repr

structure Section where
  category : Category
  entries : List Entry
  deriving DecidableEq, Repr

/-- The sections of a documented module. -/
structure Index where
  sections : List Section
  deriving DecidableEq, Repr

namespace Index

/-! ## Building -/

/-- The first entry whose name stands earlier in the list, or is one of `seen`. -/
def firstRepeat? : (seen : List String) → List Entry → Option Entry
  | _, [] => none
  | seen, e :: entries =>
    if e.name ∈ seen then some e else firstRepeat? (e.name :: seen) entries

/-- Adds a section at the end. Its category must be new, and its names distinct. -/
def addSection (index : Index) (s : Section) : Except IndexFault Index :=
  if index.sections.any (·.category = s.category) then
    .error (.duplicateCategory s.category.key)
  else
    match firstRepeat? [] s.entries with
    | some e => .error (.duplicateName s.category.key e.name)
    | none => .ok ⟨index.sections ++ [s]⟩

def addSections (index : Index) : List Section → Except IndexFault Index
  | [] => .ok index
  | s :: rest => do (← index.addSection s).addSections rest

def ofSections (sections : List Section) : Except IndexFault Index :=
  addSections ⟨[]⟩ sections

/-! ## Looking up -/

def categories (index : Index) : List Category :=
  index.sections.map (·.category)

def items (index : Index) : List (Category × Entry) :=
  index.sections.flatMap fun s => s.entries.map fun e => (s.category, e)

/-- The entries filed under a key; none for a key that is absent. -/
def entriesOf (index : Index) (key : String) : List Entry :=
  match index.sections.find? (·.category.key = key) with
  | some s => s.entries
  | none => []

def findAll (index : Index) (name : String) : List (Category × Entry) :=
  index.items.filter (·.2.name = name)

def find? (index : Index) (name : String) : Option Entry :=
  (index.items.find? (·.2.name = name)).map (·.2)

def countEntries : List Section → Nat
  | [] => 0
  | s :: rest => s.entries.length + countEntries rest

def size (index : Index) : Nat :=
  countEntries index.sections

def isEmpty (index : Index) : Bool :=
  index.size = 0

end Index

end ModuleIndex

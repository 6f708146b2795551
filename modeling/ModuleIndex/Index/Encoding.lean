import ModuleIndex.Index.Basic
import ModuleIndex.Json.Value

/-!
# The JSON form of an index

An index is an object from category keys to lists of pairs of a name and a description.
-/

namespace ModuleIndex

/-! ## Reading -/

namespace Index

/-- A part of an entry, from the items of its pair. -/
def fieldOfJson (category : String) (entry : Nat) (field : Field) :
    Option Json.Value → Except IndexFault String
  | some (.string text) => .ok text
  | some _ => .error (.fieldNotString category entry field)
  | none => .error (.missingField category entry field)

/-- An entry from its JSON form: at most two items, both of them there, both strings. -/
def entryOfJson (category : String) (entry : Nat) : Json.Value → Except IndexFault Entry
  | .array pair =>
    if 2 < pair.length then .error (.entryNotPair category entry)
    else do
      let name ← fieldOfJson category entry .name pair[0]?
      let description ← fieldOfJson category entry .description pair[1]?
      .ok ⟨name, description⟩
  | _ => .error (.entryNotPair category entry)

/-- The entries of a category, of which the first has the number `entry`. -/
def entriesOfJson (category : String) : (entry : Nat) → List Json.Value →
    Except IndexFault (List Entry)
  | _, [] => .ok []
  | entry, v :: vs => do
    let e ← entryOfJson category entry v
    let es ← entriesOfJson category (entry + 1) vs
    .ok (e :: es)

/-- Adds the sections of an object's fields, one field after the other. -/
def addFields (index : Index) : List (String × Json.Value) → Except IndexFault Index
  | [] => .ok index
  | (key, .array entries) :: fields => do
    let entries ← entriesOfJson key 0 entries
    let index ← index.addSection ⟨.ofKey key, entries⟩
    index.addFields fields
  | (key, _) :: _ => .error (.categoryNotSequence key)

/-- The index that a JSON value stands for. -/
def ofJson : Json.Value → Except IndexFault Index
  | .object fields => addFields ⟨[]⟩ fields
  | _ => .error .notAnObject

end Index

/-! ## Writing -/

def Entry.toJson (e : Entry) : Json.Value :=
  .array [.string e.name, .string e.description]

def Index.toJson (index : Index) : Json.Value :=
  .object (index.sections.map fun s => (s.category.key, .array (s.entries.map Entry.toJson)))

end ModuleIndex

/-!
# JSON values

The fields of an object keep their order, and no name is written twice.
-/

namespace ModuleIndex.Json

/-- A JSON value. A number is kept as it was written, since no rule of this library looks at its
size once it has been read. -/
inductive Value where
  | null
  | bool (value : Bool)
  | number (literal : List Char)
  | string (text : String)
  | array (items : List Value)
  | object (fields : List (String × Value))

/-- Sets a field: a name that is there keeps its place and takes the new value. -/
def setField (name : String) (value : Value) :
    List (String × Value) → List (String × Value)
  | [] => [(name, value)]
  | (n, v) :: fields =>
    if n = name then (n, value) :: fields else (n, v) :: setField name value fields

end ModuleIndex.Json

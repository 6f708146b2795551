/-!
# Crate names

A crate is published under a name that may hold hyphens, and documented under its canonical
name, which has underscores in their place.
-/

namespace ModuleIndex.Crate

/-- The name with an underscore for every hyphen. -/
def canonicalName (name : String) : String :=
  String.ofList (name.toList.map fun c => if c = '-' then '_' else c)

end ModuleIndex.Crate

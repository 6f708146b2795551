import ModuleIndex.Dependency.Direct
import ModuleIndex.Dependency.Transitive

/-!
# Versions in use

The version of a crate that a workspace uses.
-/

namespace ModuleIndex.Dependency.Workspace

/-- The version in use of a crate. Declared dependencies of members come before linked ones. -/
def resolve? (w : Workspace) (name : String) : Option Resolved :=
  let name := Crate.canonicalName name
  w.direct? name <|> w.transitive? name

end ModuleIndex.Dependency.Workspace

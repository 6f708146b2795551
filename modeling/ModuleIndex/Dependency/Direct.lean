import ModuleIndex.Dependency.Workspace

/-!
# Declared dependencies

The version of a crate that members declare a dependency on. Names are compared in their
canonical form.
-/

namespace ModuleIndex.Dependency

/-- The name under which a dependency is asked for as `name`: none if that is the name of its
crate, and `name` itself if the dependency is renamed to it. Without either, no match. -/
def Declaration.match? (name : String) (d : Declaration) : Option (Option String) :=
  if Crate.canonicalName d.name = name then some none
  else if d.rename.map Crate.canonicalName = some name then some (some name)
  else none

namespace Workspace

/-- The first package of a crate that has a node in the graph. -/
def locked? (w : Workspace) (nodes : List Node) (crate : String) : Option Package :=
  w.packages.find? fun p => Crate.canonicalName p.name = crate && nodes.any (·.id = p.id)

def declared? (w : Workspace) (nodes : List Node) (name : String) (d : Declaration) :
    Option Resolved := do
  let nickname ← d.match? name
  let p ← w.locked? nodes (Crate.canonicalName d.name)
  some ⟨p.name, p.version, .ofDeclared d.kind, nickname, none⟩

/-- The answer of the first declared dependency that gives one. -/
def direct? (w : Workspace) (name : String) : Option Resolved := do
  let nodes ← w.graph
  w.memberPackages.findSome? fun p => p.dependencies.findSome? (w.declared? nodes name)

end Workspace

end ModuleIndex.Dependency

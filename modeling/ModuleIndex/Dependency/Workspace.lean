import ModuleIndex.Crate.Name

/-!
# Workspaces

A workspace has members, which are packages, and a graph that says which packages each package
has been linked with. Packages and nodes of the graph are known by their identifiers; an
identifier may be missing from either list.
-/

namespace ModuleIndex.Dependency

/-- What a dependency is needed for. -/
inductive Kind where
  | normal
  | dev
  | build
  deriving DecidableEq, Repr

def Kind.text : Kind → String
  | .normal => "dependency"
  | .dev => "dev-dependency"
  | .build => "build-dependency"

/-- The kind of a dependency as a package declares it. There may be kinds that are not known
here. -/
inductive DeclaredKind where
  | normal
  | development
  | build
  | unknown
  deriving DecidableEq, Repr

/-- A kind that is not known counts as normal. -/
def Kind.ofDeclared : DeclaredKind → Kind
  | .development => .dev
  | .build => .build
  | .normal | .unknown => .normal

/-- A dependency that a package declares, and the name the package has for it if it is not the
name of the crate. -/
structure Declaration where
  name : String
  kind : DeclaredKind
  rename : Option String
  deriving DecidableEq, Repr

structure Package where
  id : String
  name : String
  version : String
  dependencies : List Declaration
  deriving DecidableEq, Repr

/-- A node of the graph, with the identifiers of the packages it is linked with. -/
structure Node where
  id : String
  links : List String
  deriving DecidableEq, Repr

/-- A workspace. The graph is absent while no versions have been chosen. -/
structure Workspace where
  members : List String
  packages : List Package
  graph : Option (List Node)
  deriving DecidableEq, Repr

def findLast? {α : Type} (p : α → Bool) (xs : List α) : Option α :=
  xs.reverse.find? p

namespace Workspace

/-- The package with an identifier: the last one, should there be several. -/
def package? (w : Workspace) (id : String) : Option Package :=
  findLast? (·.id = id) w.packages

theorem mem_of_package? {w : Workspace} {id : String} {p : Package}
    (h : w.package? id = some p) : p ∈ w.packages := by
  simpa using List.mem_of_find?_eq_some h

theorem id_of_package? {w : Workspace} {id : String} {p : Package}
    (h : w.package? id = some p) : p.id = id := by
  simpa using List.find?_some h

/-- The packages of the members, in the order of the packages. -/
def memberPackages (w : Workspace) : List Package :=
  w.packages.filter (·.id ∈ w.members)

end Workspace

/-- The links of the node with an identifier: of the last one, should there be several. -/
def linksOf (nodes : List Node) (id : String) : List String :=
  match findLast? (·.id = id) nodes with
  | some node => node.links
  | none => []

/-! ## Answers -/

/-- A version that a workspace uses of a crate. -/
structure Resolved where
  name : String
  version : String
  kind : Kind
  /-- The name that a member gives to the crate, if it was asked for under that name. -/
  nickname : Option String
  /-- The names of the packages from a member to this one, if no member declares it. -/
  chain : Option (List String)
  deriving DecidableEq, Repr

/-- Names with arrows between them. Of four and more, only the first two and the last. -/
def chainText : List String → String
  | [] => ""
  | [a] => a
  | [a, b] => s!"{a} → {b}"
  | [a, b, c] => s!"{a} → {b} → {c}"
  | a :: b :: c :: d :: names => s!"{a} → {b} → ... → {(d :: names).getLastD c}"

def Resolved.message (r : Resolved) : String :=
  match r.chain, r.nickname with
  | some chain, _ => s!"Found {r.name}@{r.version} via: {chainText chain}"
  | none, some nickname =>
    s!"Using {r.kind.text} {r.name}@{r.version} (aliased as '{nickname}')"
  | none, none => s!"Using {r.kind.text} {r.name}@{r.version}"

end ModuleIndex.Dependency

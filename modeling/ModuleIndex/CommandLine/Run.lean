import ModuleIndex.CommandLine.Help
import ModuleIndex.CommandLine.Parser
import ModuleIndex.Dependency.Resolve
import ModuleIndex.Store.Load

/-!
# Running a command line

A run reads the index that the command line asks for and shows it, or it clears the cache.
-/

namespace ModuleIndex.CommandLine

/-! ## Failures -/

/-- Why a run shows nothing. -/
inductive Failure where
  | usage (fault : UsageFault)
  | noSource
  | load (fault : LoadFault)
  | malformed (fault : IndexFault)
  | filter (fault : Listing.FilterFault)
  deriving DecidableEq, Repr

/-- The message about a failure. A malformed index is explained down to the cause of a fault in
its JSON text. -/
def Failure.message : Failure → String
  | .usage fault => fault.message
  | .noSource => "Missing required argument: CRATE_SPEC or --file"
  | .load fault => fault.message
  | .malformed fault =>
    let cause := match fault with
      | .json error => s!": {error.message}"
      | _ => ""
    s!"Malformed sidebar items: {fault.message}{cause}"
  | .filter fault => fault.message

/-! ## Options -/

/-- What a run finds around it: the workspace it is started in, whether its output goes to a
terminal, the theme for the background of that terminal, and the network. -/
structure Surroundings where
  workspace : Option Dependency.Workspace := none
  terminal : Bool := false
  theme : Style.Theme := .dark
  network : Network := .offline

/-- The version of a crate that is shown if none is asked for: the one that the workspace uses,
or else the latest one. -/
def Surroundings.versionOf (around : Surroundings) (crate : String) : String :=
  match around.workspace.bind (·.resolve? crate) with
  | some r => r.version
  | none => "latest"

namespace Options

/-- Where the index comes from. A local file comes before a page. -/
def source? (around : Surroundings) (o : Options) : Option Source :=
  match o.file, o.spec with
  | some path, _ => some (.file path)
  | none, some spec =>
    some (.page (.ofSpec spec (spec.version.getD (around.versionOf spec.name))))
  | none, none => none

def modulePath (o : Options) : List String :=
  match o.spec with
  | some spec => spec.segments
  | none => []

/-- The theme that an index is shown in, if color is used. -/
def theme? (around : Surroundings) (o : Options) : Option Style.Theme :=
  if o.color.isActive around.terminal then some around.theme else none

def indexText (around : Surroundings) (o : Options) (index : Index) :
    Except Listing.FilterFault (List Char) :=
  Listing.text (o.theme? around) o.format o.modulePath index o.filter

/-- The name that was given for a crate, though with a local file it looks like a filter: it
stands alone, and items of the index are found for it. -/
def misplacedFilter? (o : Options) (index : Index) : Option String :=
  match o.file, o.filter, o.spec with
  | some _, none, some ⟨name, none, []⟩ =>
    if (index.search name).isEmpty then none else some name
  | _, _, _ => none

/-- What is shown of the text that an index comes from. -/
def viewOf (around : Surroundings) (o : Options) (script : String) : Except Failure String :=
  match Index.parse script with
  | .error fault => .error (.malformed fault)
  | .ok index =>
    match o.indexText around index with
    | .error fault => .error (.filter fault)
    | .ok text => .ok (String.ofList text)

/-- What is shown for the options, and the store afterwards. -/
def view (around : Surroundings) (store : Store) (o : Options) : Except Failure String × Store :=
  match o.source? around with
  | none => (.error .noSource, store)
  | some source =>
    match store.fetch around.network (!o.noCache) source with
    | (.error fault, store) => (.error (.load fault), store)
    | (.ok script, store) => (o.viewOf around script, store)

end Options

/-! ## Runs -/

/-- Whether a command line is understood and asks for progress messages. -/
def wantsVerbose (texts : List String) : Bool :=
  match Options.parse texts with
  | .ok o => o.verbose
  | .error _ => false

/-- The outcome of a command line, and the store afterwards. -/
def run (around : Surroundings) (store : Store) (texts : List String) :
    Except Failure String × Store :=
  match Options.parse texts with
  | .error (.help long) => (.ok (helpText long), store)
  | .error (.fault fault) => (.error (.usage fault), store)
  | .ok o =>
    if o.clearCache then
      let (text, cache) := store.cache.clear
      (.ok text, { store with cache })
    else o.view around store

end ModuleIndex.CommandLine

import ModuleIndex.Page.Url
import ModuleIndex.Path
import ModuleIndex.Text.Pieces

/-!
# Places in the cache

The index of a page is cached in a file that is named after the page. All parts of the name are
checked first, so that the file lies inside the cache.
-/

namespace ModuleIndex

/-! ## Components -/

/-- Why a text cannot be a component of a path. -/
inductive ComponentFault where
  | empty
  | separator
  | dots
  | characters
  deriving DecidableEq, Repr

def ComponentFault.message (name : String) : ComponentFault → String
  | .empty => s!"{name} cannot be empty"
  | .separator => s!"{name} contains invalid path separator"
  | .dots => s!"{name} contains invalid path component"
  | .characters =>
    s!"{name} contains invalid characters (allowed: alphanumeric, hyphen, underscore, dot, plus)"

def isComponentChar (c : Char) : Bool :=
  c.isAlphanum || c = '-' || c = '_' || c = '.' || c = '+'

/-- What is wrong with a component: the first of the faults that it has. A component is a
letter or a digit, and after it any component characters, but no two dots in a row. -/
def componentFault? : List Char → Option ComponentFault
  | [] => some .empty
  | c :: text =>
    let value := c :: text
    if value.any fun c => c = '/' || c = '\\' then some .separator
    else if value = ['.'] || Text.contains ['.', '.'] value then some .dots
    else if c.isAlphanum && value.all isComponentChar then none
    else some .characters

/-! ## Pages -/

/-- The parts of a page that occur in its place. -/
inductive PagePart where
  | crate
  | version
  | segment
  deriving DecidableEq, Repr

def PagePart.text : PagePart → String
  | .crate => "crate name"
  | .version => "version"
  | .segment => "module path segment"

/-- A part of a page that cannot be a component. -/
structure PathFault where
  part : PagePart
  fault : ComponentFault
  deriving DecidableEq, Repr

def PathFault.message (f : PathFault) : String :=
  f.fault.message f.part.text

/-- Why a page has no place in the cache: a part of it cannot be a component, or the path that
the parts make does not lead through the folder of the cache. -/
inductive PlaceFault where
  | part (fault : PathFault)
  | outside
  deriving DecidableEq, Repr

def PlaceFault.message : PlaceFault → String
  | .part fault => fault.message
  | .outside => "Path traversal detected: resulting path escapes cache directory"

/-- A file of the cache, by its folder, the folder in it, and its name. -/
structure CachePath where
  crate : String
  version : String
  file : String
  deriving DecidableEq, Repr

def CachePath.text (path : CachePath) : String :=
  s!"{path.crate}/{path.version}/{path.file}"

/-- The path of the folder that the file is in, given the folder of the cache. -/
def CachePath.folderIn (folder : String) (path : CachePath) : String :=
  joinPath (joinPath folder path.crate) path.version

/-- The path of the file, given the folder of the cache. -/
def CachePath.pathIn (folder : String) (path : CachePath) : String :=
  joinPath (path.folderIn folder) path.file

namespace Page

/-- The parts of a page, in the order in which they are checked. -/
def parts (page : Page) : List (PagePart × String) :=
  (.crate, page.crate) :: (.version, page.version) :: page.modulePath.map fun s => (.segment, s)

/-- The first part of a page that cannot be a component. -/
def pathFault? (page : Page) : Option PathFault :=
  page.parts.findSome? fun (part, value) =>
    (componentFault? value.toList).map fun fault => ⟨part, fault⟩

/-- What a page is called in its place: its module path with dots, or a name of its own for the
root of the crate. -/
def stem (page : Page) : String :=
  match page.modulePath with
  | [] => "_root"
  | segments => String.ofList (Text.join ['.'] (segments.map String.toList))

def fileName (page : Page) : String :=
  page.stem ++ ".js.zst"

def cachePath (page : Page) : Except PathFault CachePath :=
  match page.pathFault? with
  | some fault => .error fault
  | none => .ok ⟨page.crate, page.version, page.fileName⟩

/-- The place of a page in the cache with a given folder. -/
def placeIn (folder : String) (page : Page) : Except PlaceFault CachePath :=
  match page.cachePath with
  | .error fault => .error (.part fault)
  | .ok path => if leadsThrough folder (path.pathIn folder) then .ok path else .error .outside

end Page

end ModuleIndex

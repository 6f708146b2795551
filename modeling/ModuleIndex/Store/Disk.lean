import ModuleIndex.Path
import ModuleIndex.Store.SystemFault

/-!
# Local files

The folders and files of a disk, as far as they are known. A path is walked name by name, from
the folder that the program is started in or from the root. Every name but the last one must lead
to a folder, also one that is left again at once.
-/

namespace ModuleIndex

/-! ## Places -/

/-- A place on a disk: the names that lead there from the root. -/
abbrev DiskPlace := List String

/-- The place that a name leads to. There is nothing above the root. -/
def DiskPlace.next (place : DiskPlace) (name : String) : DiskPlace :=
  if staysInPlace name then place
  else if name = ".." then place.dropLast
  else place ++ [name]

/-- The places that names lead through, one after the other. -/
def DiskPlace.trail (place : DiskPlace) : List String → List DiskPlace
  | [] => []
  | name :: names => place.next name :: (place.next name).trail names

/-! ## Disks -/

inductive DiskNode where
  | folder
  | file (bytes : ByteArray)

/-- The places of a disk at which something is known, and the folder that the program is started
in. -/
structure Disk where
  nodes : List (DiskPlace × DiskNode)
  here : DiskPlace

/-- Why a local file gives no text. -/
inductive FileFault where
  | zeroByte
  | system (fault : SystemFault)
  | notText
  deriving DecidableEq, Repr

def FileFault.message : FileFault → String
  | .zeroByte => "file name contained an unexpected NUL byte"
  | .system fault => fault.message
  | .notText => "stream did not contain valid UTF-8"

namespace Disk

def node? (disk : Disk) (place : DiskPlace) : Option DiskNode :=
  if place.isPrefixOf disk.here then some .folder
  else (disk.nodes.find? (·.1 = place)).map (·.2)

def start (disk : Disk) (path : String) : DiskPlace :=
  if isRooted path then [] else disk.here

/-- The place that a path leads to if nothing is missing on the way. -/
def placeOf (disk : Disk) (path : String) : DiskPlace :=
  (pathNames path).foldl DiskPlace.next (disk.start path)

/-- Puts something at the end of a path, and folders on the way to it. -/
def put (disk : Disk) (path : String) (node : DiskNode) : Disk :=
  let trail := (disk.start path).trail (pathNames path)
  let place := disk.placeOf path
  let others := disk.nodes.filter (·.1 ≠ place)
  { disk with nodes := (place, node) :: others ++ trail.dropLast.map fun p => (p, .folder) }

/-- The place that a name leads to from a place, if there is something. -/
def step (disk : Disk) (place : DiskPlace) (name : String) : Except SystemFault DiskPlace :=
  match disk.node? place with
  | none => .error .missing
  | some (.file _) => .error .notFolder
  | some .folder =>
    if isLongName name then .error .tooLong
    else if (disk.node? (place.next name)).isNone then .error .missing
    else .ok (place.next name)

/-- The place that names lead to, one after the other. -/
def walk (disk : Disk) (place : DiskPlace) : List String → Except SystemFault DiskPlace
  | [] => .ok place
  | name :: names => do
    let next ← disk.step place name
    disk.walk next names

def find (disk : Disk) (path : String) : Except SystemFault DiskPlace :=
  if path.isEmpty then .error .missing
  else if isLongPath path then .error .tooLong
  else disk.walk (disk.start path) (pathNames path)

def bytes (disk : Disk) (path : String) : Except SystemFault ByteArray := do
  match disk.node? (← disk.find path) with
  | some (.file bytes) => .ok bytes
  | some .folder => .error .folder
  | none => .error .missing

def text (disk : Disk) (path : String) : Except FileFault String :=
  if '\x00' ∈ path.toList then .error .zeroByte
  else
    match disk.bytes path with
    | .error fault => .error (.system fault)
    | .ok bytes =>
      match String.fromUTF8? bytes with
      | some text => .ok text
      | none => .error .notText

end Disk

end ModuleIndex

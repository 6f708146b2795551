/-!
# Faults of the system

What the system says when a path leads to nothing of use, and how long names and paths may be.
-/

namespace ModuleIndex

/-- Why the system does nothing at a path. -/
inductive SystemFault where
  | missing
  | notFolder
  | folder
  | tooLong
  deriving DecidableEq, Repr

def SystemFault.message : SystemFault → String
  | .missing => "No such file or directory (os error 2)"
  | .notFolder => "Not a directory (os error 20)"
  | .folder => "Is a directory (os error 21)"
  | .tooLong => "File name too long (os error 36)"

def nameLimit : Nat := 255

def pathLimit : Nat := 4095

def isLongName (name : String) : Bool :=
  nameLimit < name.utf8ByteSize

def isLongPath (path : String) : Bool :=
  pathLimit < path.utf8ByteSize

end ModuleIndex

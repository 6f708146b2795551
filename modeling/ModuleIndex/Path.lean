/-!
# Paths

A path is a text of names with slashes between them. It starts at the root of the disk if a slash
comes first, and else in some folder.
-/

namespace ModuleIndex

/-! ## Names -/

/-- Whether a name leads nowhere else. -/
def staysInPlace (name : String) : Bool :=
  name = "" || name = "."

def pathNames (path : String) : List String :=
  (path.toList.splitOn '/').map String.ofList

def isRooted (path : String) : Bool :=
  path.toList.head? = some '/'

/-! ## Joining and comparing -/

/-- A path that starts in a folder, with the path of the folder in front. One that starts at the
root stays as it is. -/
def joinPath (folder path : String) : String :=
  if isRooted path then path
  else if folder.isEmpty || folder.toList.getLast? = some '/' then folder ++ path
  else folder ++ "/" ++ path

/-- What a path is compared by: its names without those that lead nowhere else, behind the root
or a dot if it starts with one. -/
def pathSteps (path : String) : List String :=
  let names := (pathNames path).filter fun name => !staysInPlace name
  if isRooted path then "/" :: names
  else if (pathNames path).head? = some "." then "." :: names
  else names

/-- Whether a path leads through a folder, as far as their texts show. -/
def leadsThrough (folder path : String) : Bool :=
  (pathSteps folder).isPrefixOf (pathSteps path)

end ModuleIndex

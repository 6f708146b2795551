import ModuleIndex.CommandLine.Run

/-!
# The program

Reads the local file that the command line names, runs the command line, and prints the outcome.
-/

namespace ModuleIndex

/-- The folder of the cache, below the caches of the user. -/
def cacheFolder : IO String := do
  match ← IO.getEnv "XDG_CACHE_HOME", ← IO.getEnv "HOME" with
  | some caches, _ => return s!"{caches}/sidebar"
  | none, some home => return s!"{home}/.cache/sidebar"
  | none, none => return ".cache/sidebar"

/-- The disk as far as a command line needs it: the folder that the program is started in, and
what the path of a local file leads to. -/
def readDisk (texts : List String) : IO Disk := do
  let here ← IO.currentDir
  let disk : Disk := ⟨[], (pathNames s!"{here}").filter fun name => !staysInPlace name⟩
  match CommandLine.Options.parse texts with
  | .ok { file := some path, .. } =>
    try return disk.put path (.file (← IO.FS.readBinFile path))
    catch _ =>
      try
        let _ ← IO.FS.realPath s!"{path}/."
        return disk.put path .folder
      catch _ => return disk
  | _ => return disk

/-- The cache as far as it is known without a decompressor: whether its folder is there. -/
def readCache : IO Cache := do
  let folder ← cacheFolder
  try
    let _ ← IO.FS.realPath folder
    return ⟨folder, some []⟩
  catch _ => return ⟨folder, none⟩

end ModuleIndex

open ModuleIndex in
def main (texts : List String) : IO UInt32 := do
  let store : Store := ⟨← readDisk texts, ← readCache⟩
  let terminal ← (← IO.getStdout).isTty
  let (outcome, after) := CommandLine.run { terminal } store texts
  if store.cache.files.isSome && after.cache.files.isNone then
    IO.FS.removeDirAll store.cache.folder
  match outcome with
  | .ok text =>
    IO.print text
    return 0
  | .error failure =>
    IO.eprintln s!"Error: {failure.message}"
    return 1

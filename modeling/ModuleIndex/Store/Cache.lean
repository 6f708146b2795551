import ModuleIndex.Index.Script
import ModuleIndex.Page.CachePath
import ModuleIndex.Store.SystemFault

/-!
# The cache

The cache is a folder with the published indexes of pages in compressed form. Compression is not
looked into: a file is the compressed form of some bytes, or it is not a compressed form at all.
-/

namespace ModuleIndex

/-! ## Files -/

inductive CacheFile where
  | compressed (bytes : ByteArray)
  | other

/-- Why the cache gives no text for a page. -/
inductive CacheFault where
  | miss
  | notCompressed
  | notText
  deriving DecidableEq, Repr

def CacheFault.message : CacheFault → String
  | .miss => "Cache miss"
  | .notCompressed => "Failed to decompress cached blob"
  | .notText => "Cached blob is not UTF-8"

/-- Why nothing is put into the cache: there is no folder for the file, or no file. -/
inductive SaveFault where
  | folder (fault : SystemFault)
  | file (fault : SystemFault)
  deriving DecidableEq, Repr

def SaveFault.message : SaveFault → String
  | .folder fault => fault.message
  | .file fault => s!"Failed to save to cache: {fault.message}"

/-- What the system says about a file that is not put into the cache. -/
def SaveFault.system : SaveFault → SystemFault
  | .folder fault => fault
  | .file fault => fault

namespace CacheFile

def ofText (text : String) : CacheFile :=
  .compressed text.toUTF8

def text : CacheFile → Except CacheFault String
  | .compressed bytes =>
    match String.fromUTF8? bytes with
    | some text => .ok text
    | none => .error .notText
  | .other => .error .notCompressed

end CacheFile

/-! ## The folder -/

/-- The cache: the name of its folder, and the files in it. Without files there is no folder. -/
structure Cache where
  folder : String
  files : Option (List (CachePath × CacheFile))

namespace Cache

/-- The files with their places; none if there is no folder. -/
def entries (cache : Cache) : List (CachePath × CacheFile) :=
  cache.files.getD []

def file? (cache : Cache) (path : CachePath) : Option CacheFile :=
  (cache.entries.find? (·.1 = path)).map (·.2)

/-- Makes the folders for a place. The cache itself is made before a name in it is looked at,
so that it is there even if the name is too long. -/
def makeFolders (cache : Cache) (path : CachePath) : Except SystemFault Unit × Cache :=
  if isLongPath (path.folderIn cache.folder) then (.error .tooLong, cache)
  else
    let made := { cache with files := some cache.entries }
    if isLongName path.crate || isLongName path.version then (.error .tooLong, made)
    else (.ok (), made)

/-- Puts a file at a place, instead of the one that was there. -/
def put (cache : Cache) (path : CachePath) (file : CacheFile) : Except SaveFault Unit × Cache :=
  match cache.makeFolders path with
  | (.error fault, cache) => (.error (.folder fault), cache)
  | (.ok _, cache) =>
    if isLongName path.file || isLongPath (path.pathIn cache.folder) then
      (.error (.file .tooLong), cache)
    else
      let others := cache.entries.filter (·.1 ≠ path)
      (.ok (), { cache with files := some ((path, file) :: others) })

def load (cache : Cache) (path : CachePath) : Except CacheFault String :=
  match cache.file? path with
  | some file => file.text
  | none => .error .miss

/-- Caches a text, whatever it is. -/
def save (cache : Cache) (path : CachePath) (text : String) : Except SaveFault Unit × Cache :=
  cache.put path (.ofText text)

def isIndex (text : String) : Bool :=
  match Index.parse text with
  | .ok _ => true
  | .error _ => false

/-- Caches a text if it is an index. Says whether it has been cached. -/
def saveIndex (cache : Cache) (path : CachePath) (text : String) :
    Except SaveFault Bool × Cache :=
  if isIndex text then
    let (outcome, cache) := cache.save path text
    (outcome.map fun _ => true, cache)
  else (.ok false, cache)

/-- Removes the folder with all files. Says what has been done. -/
def clear (cache : Cache) : String × Cache :=
  match cache.files with
  | some _ => (s!"Cache cleared: {cache.folder}\n", { cache with files := none })
  | none => ("Cache directory does not exist\n", cache)

/-- The places of all files, in alphabetic order. -/
def listing (cache : Cache) : List String :=
  (cache.entries.map (·.1.text)).mergeSort fun a b => decide (a ≤ b)

end Cache

end ModuleIndex

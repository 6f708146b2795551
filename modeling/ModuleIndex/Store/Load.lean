import ModuleIndex.Store.Cache
import ModuleIndex.Store.Disk

/-!
# Sources of indexes

The text of an index comes from a local file, or from a published page. Pages are read from the
cache, or else downloaded.
-/

namespace ModuleIndex

/-- Where the text of an index comes from. -/
inductive Source where
  | file (path : String)
  | page (page : Page)
  deriving DecidableEq, Repr

def Source.url? : Source → Option String
  | .file _ => none
  | .page p => some p.url

/-- What can be read: local files, and the cache. No local file lies in the folder of the cache. -/
structure Store where
  disk : Disk
  cache : Cache

/-! ## Faults -/

/-- Why a source gives no text. What the network says about it is left out. -/
inductive LoadFault where
  | file (path : String) (fault : FileFault)
  | place (fault : PlaceFault)
  | download (url : String)
  | body (url : String)
  deriving DecidableEq, Repr

def LoadFault.message : LoadFault → String
  | .file path fault => s!"Failed to read sidebar items at {path}: {fault.message}"
  | .place fault => fault.message
  | .download url => s!"Failed to download {url}"
  | .body url => s!"Failed to read response body from {url}"

/-! ## The network -/

/-- What comes of a request: a text, no response, or a response without a readable text. -/
inductive Answer where
  | text (text : String)
  | unreachable
  | unreadable
  deriving DecidableEq, Repr

/-- The network, by what comes of a request for a URL. -/
abbrev Network := String → Answer

namespace Network

def offline : Network :=
  fun _ => .unreachable

def download (network : Network) (url : String) : Except LoadFault String :=
  match network url with
  | .text text => .ok text
  | .unreachable => .error (.download url)
  | .unreadable => .error (.body url)

end Network

/-! ## Reading -/

namespace Store

/-- Puts a local file at a path, instead of the one that was there. -/
def write (store : Store) (path : String) (bytes : ByteArray) : Store :=
  { store with disk := store.disk.put path (.file bytes) }

/-- The text of a local file. -/
def fileText (store : Store) (path : String) : Except LoadFault String :=
  match store.disk.text path with
  | .ok text => .ok text
  | .error fault => .error (.file path fault)

/-- The text of a source, and the store afterwards. A page that the cache has no text for is
downloaded, and then cached if it is an index. If it cannot be cached, its text is given all the
same. -/
def fetch (store : Store) (network : Network) (useCache : Bool) :
    Source → Except LoadFault String × Store
  | .file path => (store.fileText path, store)
  | .page page =>
    if useCache then
      match page.placeIn store.cache.folder with
      | .error fault => (.error (.place fault), store)
      | .ok path =>
        match store.cache.load path with
        | .ok text => (.ok text, store)
        | .error _ =>
          match network.download page.url with
          | .error fault => (.error fault, store)
          | .ok text => (.ok text, { store with cache := (store.cache.saveIndex path text).2 })
    else (network.download page.url, store)

/-- The text of a source, where there is no network. -/
def load (store : Store) (useCache : Bool) (source : Source) : Except LoadFault String :=
  (store.fetch .offline useCache source).1

end Store

end ModuleIndex

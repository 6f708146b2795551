import ModuleIndex.Crate.Spec

/-!
# Published pages

The documentation of a module, in one version of its crate, is published on a page of its own.
-/

namespace ModuleIndex

structure Page where
  crate : String
  version : String
  modulePath : List String
  deriving DecidableEq, Repr

namespace Page

def ofSpec (spec : Crate.Spec) (version : String) : Page :=
  ⟨spec.name, version, spec.modulePath⟩

def url (page : Page) : String :=
  let path := String.join (page.modulePath.map fun s => s ++ "/")
  s!"https://docs.rs/{page.crate}/{page.version}/{page.crate}/{path}sidebar-items.js"

end Page

end ModuleIndex

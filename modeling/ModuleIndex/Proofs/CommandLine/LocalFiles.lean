import ModuleIndex.Proofs.CommandLine.FileOption
import ModuleIndex.Proofs.CommandLine.Run
import ModuleIndex.Proofs.Page.Containment

/-!
# Local files in place of the cache

A text is shown in the same way whether it is served from the cache or read from a local file.
With a local file, neither the cache nor the version that was asked for makes a difference.
-/

namespace ModuleIndex

theorem Disk.text_of_bytes {disk : Disk} {file text : String} (hfile : '\x00' ∉ file.toList)
    (h : disk.bytes file = .ok text.toUTF8) : disk.text file = .ok text := by
  simp only [Disk.text, if_neg hfile, h, fromUTF8?_toUTF8]

namespace CommandLine

/-! ## Runs on a local file -/

namespace Options

end Options

variable {around : Surroundings} {store store' : Store} {texts texts' : List String}
  {o o' : Options} {file text : String}

theorem run_of_file (hparse : Options.parse texts = .ok o) (hclear : o.clearCache = false)
    (hfile : o.file = some file) :
    run around store texts =
      (match store.fileText file with
        | .ok script => o.viewOf around script
        | .error fault => .error (.load fault), store) := by
  have hsource : o.source? around = some (.file file) := by
    simp only [Options.source?, hfile]
  exact (run_of_parse hparse hclear).trans (view_of_source hsource)

theorem run_of_text (hparse : Options.parse texts = .ok o) (hclear : o.clearCache = false)
    (hfile : o.file = some file) (htext : store.disk.text file = .ok text) :
    run around store texts = (o.viewOf around text, store) := by
  rw [run_of_file hparse hclear hfile]
  simp only [Store.fileText, htext]

end CommandLine

end ModuleIndex

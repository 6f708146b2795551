import ModuleIndex.Store.Load
import Mathlib.Logic.Function.Basic
import Mathlib.Tactic.SplitIfs

/-!
# What the cache holds

A file that is put into the cache is the one at its place, and all other places keep theirs. If it
cannot be put there, since a name or a path is too long, nothing changes.
-/

namespace ModuleIndex

theorem fromUTF8?_toUTF8 (text : String) : String.fromUTF8? text.toUTF8 = some text :=
  dif_pos text.isValidUTF8

theorem CacheFile.text_ofText (text : String) : (ofText text).text = .ok text := by
  simp only [ofText, CacheFile.text, fromUTF8?_toUTF8]

/-- No name on the way to a file is too long, and neither is a path. -/
def CachePath.fits (folder : String) (path : CachePath) : Bool :=
  !isLongPath (path.folderIn folder) && !(isLongName path.crate || isLongName path.version) &&
    !(isLongName path.file || isLongPath (path.pathIn folder))

namespace Cache

variable {cache : Cache} {path other : CachePath} {file : CacheFile} {text : String}

/-! ## Putting a file -/

theorem entries_makeFolders (cache : Cache) (path : CachePath) :
    (cache.makeFolders path).2.entries = cache.entries := by
  unfold makeFolders
  split_ifs <;> rfl

theorem folder_makeFolders (cache : Cache) (path : CachePath) :
    (cache.makeFolders path).2.folder = cache.folder := by
  unfold makeFolders
  split_ifs <;> rfl

/-- A file is put at its place, or the files stay as they are and a fault is told. -/
theorem put_cases (cache : Cache) (path : CachePath) (file : CacheFile) :
    ((cache.put path file).1 = .ok () ∧
      (cache.put path file).2.entries = (path, file) :: cache.entries.filter (·.1 ≠ path)) ∨
    ((∃ fault, (cache.put path file).1 = .error fault) ∧
      (cache.put path file).2.entries = cache.entries) := by
  have hentries := entries_makeFolders cache path
  unfold put
  split
  · rename_i fault made hmade
    rw [hmade] at hentries
    exact .inr ⟨⟨_, rfl⟩, hentries⟩
  · rename_i made hmade
    rw [hmade] at hentries
    split_ifs
    · exact .inr ⟨⟨_, rfl⟩, hentries⟩
    · exact .inl ⟨rfl, by rw [← hentries]; rfl⟩

theorem folder_put (cache : Cache) (path : CachePath) (file : CacheFile) :
    (cache.put path file).2.folder = cache.folder := by
  have hfolder := folder_makeFolders cache path
  unfold put
  split
  · rename_i fault made hmade
    rw [hmade] at hfolder
    exact hfolder
  · rename_i made hmade
    rw [hmade] at hfolder
    split_ifs <;> exact hfolder

theorem put_eq_ok_iff : (cache.put path file).1 = .ok () ↔ path.fits cache.folder = true := by
  rw [CachePath.fits]
  cases hfolder : isLongPath (path.folderIn cache.folder) with
  | true => simp [put, makeFolders, hfolder]
  | false =>
    cases hnames : isLongName path.crate || isLongName path.version with
    | true => simp [put, makeFolders, hfolder, hnames]
    | false =>
      cases hfile : isLongName path.file || isLongPath (path.pathIn cache.folder) <;>
        simp [put, makeFolders, hfolder, hnames, hfile]

theorem file?_put (h : (cache.put path file).1 = .ok ()) :
    (cache.put path file).2.file? path = some file := by
  rcases put_cases cache path file with ⟨-, hentries⟩ | ⟨⟨fault, hfault⟩, -⟩
  · simp [file?, hentries]
  · rw [hfault] at h
    simp at h

theorem file?_put_of_ne (h : path ≠ other) :
    (cache.put other file).2.file? path = cache.file? path := by
  rcases put_cases cache other file with ⟨-, hentries⟩ | ⟨-, hentries⟩
  · have hkept : (cache.entries.filter (·.1 ≠ other)).find? (·.1 = path) =
        cache.entries.find? (·.1 = path) := by
      rw [List.find?_filter]
      congr 1
      funext entry
      by_cases hentry : entry.1 = path <;> simp [hentry, h]
    rw [file?, file?, hentries, List.find?_cons_of_neg (by simpa using h.symm), hkept]
  · rw [file?, file?, hentries]

theorem entries_put_of_not_fits (h : path.fits cache.folder = false) :
    (cache.put path file).2.entries = cache.entries := by
  rcases put_cases cache path file with ⟨hput, -⟩ | ⟨-, hentries⟩
  · rw [put_eq_ok_iff, h] at hput
    exact absurd hput Bool.false_ne_true
  · exact hentries

theorem file?_put_of_fits (h : path.fits cache.folder = true) :
    (cache.put path file).2.file? = Function.update cache.file? path (some file) := by
  funext other
  by_cases hother : other = path
  · subst hother
    rw [Function.update_self, file?_put (put_eq_ok_iff.mpr h)]
  · rw [Function.update_of_ne hother, file?_put_of_ne hother]

theorem file?_eq_of_entries_eq {other : Cache} (h : other.entries = cache.entries) :
    other.file? = cache.file? := by
  funext path
  rw [file?, file?, h]

theorem entries_clear (cache : Cache) : cache.clear.2.entries = [] := by
  unfold clear
  split
  · rfl
  · rename_i hfiles
    rw [entries, hfiles, Option.getD_none]

theorem folder_clear (cache : Cache) : cache.clear.2.folder = cache.folder := by
  unfold clear
  split <;> rfl

/-! ## Texts -/

theorem load_of_file? (h : cache.file? path = some (.ofText text)) :
    cache.load path = .ok text := by
  simp only [load, h, CacheFile.text_ofText]

/-- A text that has been cached is the one at its place. -/
theorem file?_save (h : (cache.save path text).1 = .ok ()) :
    (cache.save path text).2.file? path = some (.ofText text) :=
  file?_put h

theorem load_save (h : (cache.save path text).1 = .ok ()) :
    (cache.save path text).2.load path = .ok text :=
  load_of_file? (file?_save h)

theorem load_save_of_ne (h : path ≠ other) :
    (cache.save other text).2.load path = cache.load path := by
  rw [load, load, save, file?_put_of_ne h]

theorem saveIndex_of_isIndex (h : isIndex text = true) :
    cache.saveIndex path text =
      ((cache.save path text).1.map fun _ => true, (cache.save path text).2) := by
  rw [saveIndex, if_pos h]

theorem saveIndex_of_not_isIndex (h : isIndex text = false) :
    cache.saveIndex path text = (.ok false, cache) := by
  rw [saveIndex, if_neg (by simp [h])]

theorem file?_saveIndex_of_ne (h : path ≠ other) :
    (cache.saveIndex other text).2.file? path = cache.file? path := by
  cases hindex : isIndex text with
  | false => rw [saveIndex_of_not_isIndex hindex]
  | true =>
    rw [saveIndex_of_isIndex hindex]
    exact file?_put_of_ne h

theorem isIndex_iff : isIndex text = true ↔ ∃ index, Index.parse text = .ok index := by
  unfold isIndex
  cases Index.parse text <;> simp

end Cache

/-! ## Fetching -/

/-- Where the text of a source is cached, if the source is a page. -/
def Source.place? (folder : String) : Source → Option CachePath
  | .file _ => none
  | .page p => (p.placeIn folder).toOption

/-- No request gives a text. -/
def Network.Fails (network : Network) : Prop :=
  ∀ url text, network url ≠ .text text

theorem Network.Fails.exists_download {network : Network} (h : network.Fails) (url : String) :
    ∃ fault, network.download url = .error fault := by
  unfold download
  split
  · exact absurd ‹_› (h url _)
  · exact ⟨_, rfl⟩
  · exact ⟨_, rfl⟩

namespace Store

variable {store : Store} {network : Network} {page : Page} {path : CachePath} {text : String}

/-- The text of a page that the cache has is given, and the network is not asked. -/
theorem fetch_of_load (hpath : page.placeIn store.cache.folder = .ok path)
    (hload : store.cache.load path = .ok text) :
    store.fetch network true (.page page) = (.ok text, store) := by
  simp only [fetch, hpath, hload]
  rfl

/-- What has been cached at the place of a page is given for it. -/
theorem fetch_save {disk : Disk} {cache : Cache} (hpath : page.placeIn cache.folder = .ok path)
    (hsave : (cache.save path text).1 = .ok ()) :
    fetch ⟨disk, (cache.save path text).2⟩ network true (.page page) =
      (.ok text, ⟨disk, (cache.save path text).2⟩) := by
  have hplace : page.placeIn (cache.save path text).2.folder = .ok path := by
    rw [Cache.save, Cache.folder_put, hpath]
  exact fetch_of_load hplace (Cache.load_save hsave)

/-- Fetching leaves the store as it is, or caches an index at the place of the source. -/
theorem fetch_store_cases (store : Store) (network : Network) (useCache : Bool) (source : Source) :
    (store.fetch network useCache source).2 = store ∨
      ∃ path text, source.place? store.cache.folder = some path ∧
        (store.fetch network useCache source).2 =
          { store with cache := (store.cache.saveIndex path text).2 } := by
  cases source with
  | file file => exact .inl rfl
  | page page =>
    cases useCache with
    | false => exact .inl rfl
    | true =>
      simp only [fetch, if_true]
      split
      · exact .inl rfl
      · rename_i path hpath
        split
        · exact .inl rfl
        · split
          · exact .inl rfl
          · exact .inr ⟨path, _, by rw [Source.place?, hpath]; rfl, rfl⟩

/-- A fetch leaves alone what is cached for other sources. -/
theorem file?_fetch_of_ne {source : Source} (h : source.place? store.cache.folder ≠ some path)
    (useCache : Bool) :
    (store.fetch network useCache source).2.cache.file? path = store.cache.file? path := by
  rcases store.fetch_store_cases network useCache source with hstore | ⟨other, text, hother, hstore⟩
  · rw [hstore]
  · rw [hstore]
    refine Cache.file?_saveIndex_of_ne ?_
    rintro rfl
    exact h hother

theorem fetch_of_fails (h : network.Fails) (store : Store) (useCache : Bool) (source : Source) :
    (store.fetch network useCache source).2 = store := by
  cases source with
  | file file => rfl
  | page page =>
    cases useCache with
    | false => rfl
    | true =>
      obtain ⟨fault, hfault⟩ := h.exists_download page.url
      simp only [fetch, if_true, hfault]
      split
      · rfl
      · split <;> rfl

end Store

end ModuleIndex

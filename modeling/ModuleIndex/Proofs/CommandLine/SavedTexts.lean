import ModuleIndex.Proofs.CommandLine.Sessions
import ModuleIndex.Proofs.Page.Containment

/-!
# The cache as a map

As long as nothing can be downloaded, the cache behaves like a map from places to texts: saving is
an update, clearing takes everything away, and whatever else is done, or fails, changes nothing.
-/

namespace ModuleIndex.CommandLine

/-! ## Steps -/

/-- What can be done with a store, if texts can also be cached that are no indexes. -/
inductive Step where
  | act (action : Action)
  | save (page : Page) (text : String)

namespace Step

def perform (store : Store) : Step → Store
  | act action => action.perform store
  | save page text =>
    match page.placeIn store.cache.folder with
    | .ok path => { store with cache := (store.cache.save path text).2 }
    | .error _ => store

/-- A step fails if it tells a fault. Caching also fails if the text is no index. -/
def Fails (store : Store) : Step → Prop
  | act (.run around texts) => ∃ failure, (run around store texts).1 = .error failure
  | act (.fetch network useCache source) =>
    ∃ fault, (store.fetch network useCache source).1 = .error fault
  | act (.cache page text) => ∀ path, page.placeIn store.cache.folder = .ok path →
    (store.cache.saveIndex path text).1 ≠ .ok true
  | act .clear => False
  | save page text => ∀ path, page.placeIn store.cache.folder = .ok path →
    (store.cache.save path text).1 ≠ .ok ()

def DownloadsFail : Step → Prop
  | act (.run around _) => around.network.Fails
  | act (.fetch network _ _) => network.Fails
  | _ => True

def clears : Step → Bool
  | act (.run _ texts) =>
    match Options.parse texts with
    | .ok o => o.clearCache
    | .error _ => false
  | act .clear => true
  | _ => false

/-- The text that a step saves, and the page that it is saved for. -/
def saves? : Step → Option (Page × String)
  | act (.cache page text) => if Cache.isIndex text then some (page, text) else none
  | save page text => some (page, text)
  | _ => none

/-- The place that a step is about. -/
def place? (folder : String) : Step → Option CachePath
  | act (.run around texts) =>
    match Options.parse texts with
    | .ok o => (o.source? around).bind (Source.place? folder)
    | .error _ => none
  | act (.fetch _ _ source) => source.place? folder
  | act (.cache page _) => (page.placeIn folder).toOption
  | act .clear => none
  | save page _ => (page.placeIn folder).toOption

end Step

def performSteps (store : Store) (steps : List Step) : Store :=
  steps.foldl Step.perform store

/-! ## The map -/

abbrev SavedTexts := CachePath → Option String

namespace SavedTexts

/-- A page with a part that is no component has no place, and a file with a name that is too long
is not written. -/
def save (texts : SavedTexts) (folder : String) (page : Page) (text : String) : SavedTexts :=
  match page.placeIn folder with
  | .ok path => if path.fits folder then Function.update texts path (some text) else texts
  | .error _ => texts

/-- What a step does to the saved texts, whatever the cache holds. -/
def record (texts : SavedTexts) (folder : String) (step : Step) : SavedTexts :=
  if step.clears then fun _ => none
  else
    match step.saves? with
    | some (page, text) => texts.save folder page text
    | none => texts

/-- The texts that have been saved since the cache has been cleared last. -/
def after (folder : String) (steps : List Step) : SavedTexts :=
  steps.foldl (fun texts step => texts.record folder step) fun _ => none

end SavedTexts

/-! ## What a step does -/

namespace Step

variable {store : Store} {step : Step} {page : Page} {path : CachePath} {text : String}

theorem clears_run_eq_false {around : Surroundings} {texts : List String}
    (h : ∀ o, Options.parse texts = .ok o → o.clearCache = false) :
    (act (.run around texts)).clears = false := by
  simp only [clears]
  split
  · exact h _ ‹_›
  · rfl

/-- What `run_cases` says, with the downloads failing. -/
theorem perform_run {around : Surroundings} (h : around.network.Fails) (store : Store)
    (texts : List String) :
    ((act (.run around texts)).clears = true ∧
      (act (.run around texts)).perform store = { store with cache := store.cache.clear.2 }) ∨
    ((act (.run around texts)).clears = false ∧
      (act (.run around texts)).perform store = store) := by
  simp only [perform, Action.perform]
  rcases run_cases around store texts with
    ⟨hclear, hstore⟩ | ⟨o, hparse, hclear, hrun⟩ | ⟨o, source, hparse, hclear, -, hstore⟩
  · exact .inr ⟨clears_run_eq_false hclear, hstore⟩
  · exact .inl ⟨by simp only [clears, hparse, hclear], by rw [hrun]⟩
  · refine .inr ⟨by simp only [clears, hparse, hclear], ?_⟩
    rw [hstore, Store.fetch_of_fails h]

theorem perform_cache_of_isIndex (h : Cache.isIndex text = true) :
    (act (.cache page text)).perform store = (save page text).perform store := by
  cases hpath : page.placeIn store.cache.folder with
  | ok path => simp only [perform, Action.perform, hpath, Cache.saveIndex_of_isIndex h]
  | error fault => simp only [perform, Action.perform, hpath]

theorem perform_cache_of_not_isIndex (h : Cache.isIndex text = false) :
    (act (.cache page text)).perform store = store := by
  simp only [perform, Action.perform, Cache.saveIndex_of_not_isIndex h]
  split <;> rfl

theorem Fails.of_cache (hfails : (act (.cache page text)).Fails store)
    (h : Cache.isIndex text = true) : (save page text).Fails store := by
  intro path hpath hsave
  refine hfails path hpath ?_
  rw [Cache.saveIndex_of_isIndex h, hsave]
  rfl

theorem not_fails_of_clears (h : step.clears = true) : ¬ step.Fails store := by
  match step with
  | act .clear => exact id
  | act (.run around texts) =>
    rintro ⟨failure, hfailure⟩
    rcases run_cases around store texts with
      ⟨hclear, -⟩ | ⟨o, -, -, hrun⟩ | ⟨o, source, hparse, hclear, -, -⟩
    · rw [clears_run_eq_false hclear] at h
      exact absurd h Bool.false_ne_true
    · simp [hrun] at hfailure
    · simp [clears, hparse, hclear] at h

/-- Without downloads, a step clears the cache, does nothing, or saves a text for a page. -/
theorem perform_cases (store : Store) (h : step.DownloadsFail) :
    (step.clears = true ∧ step.perform store = { store with cache := store.cache.clear.2 }) ∨
    (step.clears = false ∧ step.saves? = none ∧ step.perform store = store) ∨
    (step.clears = false ∧ ∃ page text, step.saves? = some (page, text) ∧
      step.perform store = (save page text).perform store ∧
      (step.Fails store → (save page text).Fails store)) := by
  match step with
  | act (.run around texts) =>
    rcases perform_run h store texts with hclear | ⟨hclears, hstore⟩
    · exact .inl hclear
    · exact .inr (.inl ⟨hclears, rfl, hstore⟩)
  | act (.fetch network useCache source) =>
    exact .inr (.inl ⟨rfl, rfl, Store.fetch_of_fails h store useCache source⟩)
  | act (.cache page text) =>
    cases hindex : Cache.isIndex text with
    | true => exact .inr (.inr ⟨rfl, page, text, if_pos hindex, perform_cache_of_isIndex hindex,
        fun hfails => hfails.of_cache hindex⟩)
    | false => exact .inr (.inl ⟨rfl, if_neg (by simp [hindex]),
        perform_cache_of_not_isIndex hindex⟩)
  | act .clear => exact .inl ⟨rfl, rfl⟩
  | save page text => exact .inr (.inr ⟨rfl, page, text, rfl, rfl, id⟩)

theorem folder_perform_save (store : Store) (page : Page) (text : String) :
    ((save page text).perform store).cache.folder = store.cache.folder := by
  simp only [perform]
  split
  · exact Cache.folder_put ..
  · rfl

theorem entries_perform_save (h : (save page text).Fails store) :
    ((save page text).perform store).cache.entries = store.cache.entries := by
  simp only [perform]
  split
  · rename_i path hpath
    rcases store.cache.put_cases path (.ofText text) with ⟨hput, -⟩ | ⟨-, hentries⟩
    · exact absurd hput (h path hpath)
    · exact hentries
  · rfl

theorem folder_perform (store : Store) (h : step.DownloadsFail) :
    (step.perform store).cache.folder = store.cache.folder := by
  rcases perform_cases store h with
    ⟨-, hstore⟩ | ⟨-, -, hstore⟩ | ⟨-, page, text, -, hstore, -⟩
  · rw [hstore, Cache.folder_clear]
  · rw [hstore]
  · rw [hstore, folder_perform_save]

theorem entries_perform_of_fails (h : step.DownloadsFail) (hfails : step.Fails store) :
    (step.perform store).cache.entries = store.cache.entries := by
  rcases perform_cases store h with
    ⟨hclears, -⟩ | ⟨-, -, hstore⟩ | ⟨-, page, text, -, hstore, hsave⟩
  · exact absurd hfails (not_fails_of_clears hclears)
  · rw [hstore]
  · rw [hstore, entries_perform_save (hsave hfails)]

theorem ne_of_placeIn {folder : String} {other : CachePath}
    (h : (page.placeIn folder).toOption ≠ some path) (hother : page.placeIn folder = .ok other) :
    path ≠ other := by
  rintro rfl
  rw [hother] at h
  exact h rfl

/-- A step leaves alone what is cached at other places, downloads or not. -/
theorem file?_perform_of_ne (hclears : step.clears = false)
    (hplace : step.place? store.cache.folder ≠ some path) :
    (step.perform store).cache.file? path = store.cache.file? path := by
  match step with
  | act (.run around texts) =>
    simp only [perform, Action.perform]
    rcases run_cases around store texts with
      ⟨-, hstore⟩ | ⟨o, hparse, hclear, -⟩ | ⟨o, source, hparse, -, hsource, hstore⟩
    · rw [hstore]
    · simp [clears, hparse, hclear] at hclears
    · simp only [place?, hparse, hsource] at hplace
      rw [hstore]
      exact Store.file?_fetch_of_ne hplace _
  | act (.fetch network useCache source) => exact Store.file?_fetch_of_ne hplace useCache
  | act (.cache page text) =>
    simp only [perform, Action.perform]
    split
    · exact Cache.file?_saveIndex_of_ne (ne_of_placeIn hplace ‹_›)
    · rfl
  | save page text =>
    simp only [perform]
    split
    · exact Cache.file?_put_of_ne (ne_of_placeIn hplace ‹_›)
    · rfl

end Step

/-! ## What a session does -/

namespace SavedTexts

/-- A cache has the files of the saved texts and no other ones. -/
def HeldBy (texts : SavedTexts) (cache : Cache) : Prop :=
  ∀ path, cache.file? path = (texts path).map CacheFile.ofText

variable {texts : SavedTexts} {store : Store} {cache : Cache}

theorem heldBy_of_entries_eq_nil (h : cache.entries = []) : HeldBy (fun _ => none) cache := by
  intro path
  simp [Cache.file?, h]

theorem HeldBy.save (h : texts.HeldBy store.cache) (page : Page) (text : String) :
    (texts.save store.cache.folder page text).HeldBy ((Step.save page text).perform store).cache := by
  intro path
  simp only [SavedTexts.save, Step.perform, Cache.save]
  cases hplace : page.placeIn store.cache.folder with
  | error fault => exact h path
  | ok place =>
    cases hfits : place.fits store.cache.folder with
    | false =>
      have hentries : (store.cache.put place (.ofText text)).2.entries = store.cache.entries :=
        Cache.entries_put_of_not_fits hfits
      simp only [if_neg (Bool.eq_false_iff.mp hfits)]
      rw [Cache.file?_eq_of_entries_eq hentries]
      exact h path
    | true =>
      simp only [if_pos hfits, Cache.file?_put_of_fits hfits]
      by_cases hpath : path = place
      · subst hpath
        simp
      · rw [Function.update_of_ne hpath, Function.update_of_ne hpath]
        exact h path

theorem HeldBy.perform (h : texts.HeldBy store.cache) {step : Step} (hstep : step.DownloadsFail) :
    (texts.record store.cache.folder step).HeldBy (step.perform store).cache := by
  unfold record
  rcases Step.perform_cases store hstep with
    ⟨hclears, hstore⟩ | ⟨hclears, hsaves, hstore⟩ | ⟨hclears, page, text, hsaves, hstore, -⟩
  · rw [hstore, hclears, if_pos rfl]
    exact heldBy_of_entries_eq_nil store.cache.entries_clear
  · rwa [hstore, hclears, if_neg Bool.false_ne_true, hsaves]
  · rw [hstore, hclears, if_neg Bool.false_ne_true, hsaves]
    exact h.save page text

theorem HeldBy.load (h : texts.HeldBy cache) (path : CachePath) :
    cache.load path =
      match texts path with
      | some text => .ok text
      | none => .error .miss := by
  rw [Cache.load, h path]
  cases texts path with
  | none => rfl
  | some text => exact CacheFile.text_ofText text

end SavedTexts

theorem folder_performSteps (store : Store) {steps : List Step}
    (h : ∀ step ∈ steps, step.DownloadsFail) :
    (performSteps store steps).cache.folder = store.cache.folder := by
  induction steps generalizing store with
  | nil => rfl
  | cons step steps ih =>
    rw [List.forall_mem_cons] at h
    rw [performSteps, List.foldl_cons, ← performSteps, ih _ h.2, Step.folder_perform store h.1]

/-- Along a session, what is recorded is what the cache holds. -/
theorem SavedTexts.HeldBy.performSteps {texts : SavedTexts} {store : Store} {steps : List Step}
    (h : texts.HeldBy store.cache) (hsteps : ∀ step ∈ steps, step.DownloadsFail) :
    HeldBy (steps.foldl (fun texts step => texts.record store.cache.folder step) texts)
      (CommandLine.performSteps store steps).cache := by
  induction steps generalizing store texts with
  | nil => exact h
  | cons step steps ih =>
    rw [List.forall_mem_cons] at hsteps
    -- The folder stays the same, and with it the place of every page.
    have hafter := ih (h.perform hsteps.1) hsteps.2
    rwa [Step.folder_perform store hsteps.1] at hafter

/-- After any steps on an empty cache, the texts that can be loaded are the ones saved since the
cache has been cleared last, and they are given for their pages. A step changes no place but its
own, and no place leads through another one. A step that fails changes nothing. -/
theorem session_keeps_saved_texts (store : Store) (steps : List Step)
    (h : store.cache.entries = []) (hsteps : ∀ step ∈ steps, step.DownloadsFail) :
    (∀ path, (performSteps store steps).cache.load path =
      match SavedTexts.after store.cache.folder steps path with
      | some text => .ok text
      | none => .error .miss) ∧
    (∀ network page path text, page.placeIn store.cache.folder = .ok path →
      SavedTexts.after store.cache.folder steps path = some text →
      (performSteps store steps).fetch network true (.page page) =
        (.ok text, performSteps store steps)) ∧
    (∀ (before : Store) (step : Step) path, step.clears = false →
      step.place? before.cache.folder ≠ some path →
      (step.perform before).cache.file? path = before.cache.file? path) ∧
    (∀ folder (page other : Page) path place, page.placeIn folder = .ok path →
      other.placeIn folder = .ok place → path ≠ place →
      leadsThrough (path.pathIn folder) (place.pathIn folder) = false) ∧
    ∀ (before : Store) (step : Step), step.DownloadsFail → step.Fails before →
      (step.perform before).cache.entries = before.cache.entries := by
  have hload := ((SavedTexts.heldBy_of_entries_eq_nil h).performSteps hsteps).load
  refine ⟨hload, ?_, ?_, ?_, ?_⟩
  · intro network page path text hpath htext
    rw [← folder_performSteps store hsteps] at hpath
    refine Store.fetch_of_load hpath ?_
    rw [hload path, ← SavedTexts.after, htext]
  · intro before step path hclears hplace
    exact step.file?_perform_of_ne hclears hplace
  · intro folder page other path place hpath hplace hne
    obtain ⟨haccepted, rfl⟩ := Page.placeIn_eq_ok_iff.mp hpath
    obtain ⟨haccepted', rfl⟩ := Page.placeIn_eq_ok_iff.mp hplace
    rw [Bool.eq_false_iff]
    intro hleads
    exact hne ((Page.isInside_place haccepted folder).eq_of_leadsThrough
      (Page.isInside_place haccepted' folder) hleads)
  · intro before step hdownloads hfails
    exact Step.entries_perform_of_fails hdownloads hfails

/-- A text that was saved before the cache was cleared is gone, and one that is refused does not
replace the index that is there. -/
theorem session_keeps_saved_texts_after_clear :
    let steps : List Step := [.save ⟨"log", "0.4", []⟩ "window = {}", .act .clear,
      .act (.cache ⟨"log", "0.4", ["kv"]⟩ levelIndex),
      .act (.cache ⟨"log", "0.4", ["kv"]⟩ "window = {}"),
      .act (.fetch .offline true (.page ⟨"log", "0.4", []⟩)),
      .act (.run {} ["log@0.4::kv", "max_level"])]
    let store := performSteps ⟨⟨[], []⟩, ⟨"cache", none⟩⟩ steps
    store.cache.load ⟨"log", "0.4", "kv.js.zst"⟩ = .ok levelIndex ∧
    store.cache.load ⟨"log", "0.4", "_root.js.zst"⟩ = .error .miss ∧
    CacheFault.message .miss = "Cache miss" ∧
    (run {} store ["log@0.4::kv"]).1 = .ok "Functions\n  max_level  The level.\n" := by
  intro steps store
  have hoffline : Network.offline.Fails := fun url text => by simp [Network.offline]
  have hsteps : ∀ step ∈ steps, step.DownloadsFail := by simp [steps, Step.DownloadsFail, hoffline]
  have hload := (session_keeps_saved_texts ⟨⟨[], []⟩, ⟨"cache", none⟩⟩ steps rfl hsteps).1
  have hkv : store.cache.load ⟨"log", "0.4", "kv.js.zst"⟩ = .ok levelIndex := by
    rw [hload]
    rfl
  refine ⟨hkv, ?_, rfl, ?_⟩
  · rw [hload]
    rfl
  · have hserved : ServedFromCache {} store { spec := some ⟨"log", some "0.4", ["kv"]⟩ }
        levelIndex :=
      ⟨rfl, rfl, ⟨"log", "0.4", ["kv"]⟩, ⟨"log", "0.4", "kv.js.zst"⟩, rfl,
        Page.placeIn_of_isAccepted (Page.pathFault?_eq_none_iff.mp rfl) _, hkv⟩
    rw [run_of_servedFromCache rfl hserved]
    decide +kernel

end ModuleIndex.CommandLine

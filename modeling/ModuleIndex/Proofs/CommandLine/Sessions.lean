import ModuleIndex.Proofs.CommandLine.Run
import Mathlib.Control.Monad.Basic

/-!
# Sessions

Whatever is run, fetched, cached and cleared, and in which order, the cache holds nothing but
indexes. What it serves is therefore never refused as malformed.
-/

namespace ModuleIndex.CommandLine

/-! ## Actions -/

/-- What can be done with a store. -/
inductive Action where
  | run (around : Surroundings) (texts : List String)
  | fetch (network : Network) (useCache : Bool) (source : Source)
  | cache (page : Page) (text : String)
  | clear

def Action.perform (store : Store) : Action → Store
  | .run around texts => (CommandLine.run around store texts).2
  | .fetch network useCache source => (store.fetch network useCache source).2
  | .cache page text =>
    match page.placeIn store.cache.folder with
    | .ok path => { store with cache := (store.cache.saveIndex path text).2 }
    | .error _ => store
  | .clear => { store with cache := store.cache.clear.2 }

def performAll (store : Store) (actions : List Action) : Store :=
  actions.foldl Action.perform store

/-! ## The invariant -/

def HoldsIndexes (cache : Cache) : Prop :=
  ∀ entry ∈ cache.entries, ∃ text index,
    entry.2.text = .ok text ∧ Index.parse text = .ok index

namespace HoldsIndexes

variable {cache : Cache} {store : Store}

theorem of_entries_eq_nil (h : cache.entries = []) : HoldsIndexes cache := by
  simp [HoldsIndexes, h]

theorem saveIndex (h : HoldsIndexes cache) (path : CachePath) (text : String) :
    HoldsIndexes (cache.saveIndex path text).2 := by
  cases hindex : Cache.isIndex text with
  | false =>
    rw [Cache.saveIndex_of_not_isIndex hindex]
    exact h
  | true =>
    rw [Cache.saveIndex_of_isIndex hindex]
    rcases cache.put_cases path (.ofText text) with ⟨-, hentries⟩ | ⟨-, hentries⟩
    · intro entry hentry
      rw [Cache.save, hentries, List.mem_cons] at hentry
      rcases hentry with rfl | hentry
      · obtain ⟨index, hparse⟩ := Cache.isIndex_iff.mp hindex
        exact ⟨text, index, CacheFile.text_ofText text, hparse⟩
      · exact h entry (List.mem_filter.mp hentry).1
    · rw [HoldsIndexes, Cache.save, hentries]
      exact h

theorem clear (cache : Cache) : HoldsIndexes cache.clear.2 :=
  of_entries_eq_nil cache.entries_clear

theorem fetch (h : HoldsIndexes store.cache) (network : Network) (useCache : Bool)
    (source : Source) : HoldsIndexes (store.fetch network useCache source).2.cache := by
  rcases store.fetch_store_cases network useCache source with hstore | ⟨path, text, -, hstore⟩
  · rwa [hstore]
  · rw [hstore]
    exact h.saveIndex path text

/-- Every action keeps the invariant: what it writes has been read as an index before. -/
theorem perform (h : HoldsIndexes store.cache) (action : Action) :
    HoldsIndexes (action.perform store).cache := by
  cases action with
  | run around texts =>
    rcases run_cases around store texts with
      ⟨-, hstore⟩ | ⟨o, -, -, hrun⟩ | ⟨o, source, -, -, -, hstore⟩
    · rwa [Action.perform, hstore]
    · rw [Action.perform, hrun]
      exact clear store.cache
    · rw [Action.perform, hstore]
      exact h.fetch around.network (!o.noCache) source
  | fetch network useCache source => exact h.fetch network useCache source
  | cache page text =>
    cases hpath : page.placeIn store.cache.folder with
    | ok path =>
      simp only [Action.perform, hpath]
      exact h.saveIndex path text
    | error fault =>
      simp only [Action.perform, hpath]
      exact h
  | clear => exact clear store.cache

theorem performAll (h : HoldsIndexes store.cache) (actions : List Action) :
    HoldsIndexes (performAll store actions).cache := by
  induction actions generalizing store with
  | nil => exact h
  | cons action actions ih => exact ih (h.perform action)

theorem exists_parse (h : HoldsIndexes cache) {path : CachePath} {text : String}
    (hload : cache.load path = .ok text) : ∃ index, Index.parse text = .ok index := by
  unfold Cache.load at hload
  cases hfile : cache.file? path with
  | none => simp [hfile] at hload
  | some file =>
    obtain ⟨entry, hentry, rfl⟩ := Option.map_eq_some_iff.mp hfile
    obtain ⟨text', index, htext, hparse⟩ := h entry (List.mem_of_find?_eq_some hentry)
    rw [hfile] at hload
    obtain rfl := Except.ok.inj (htext.symm.trans hload)
    exact ⟨index, hparse⟩

end HoldsIndexes

/-! ## What is served -/

theorem viewOf_ne_malformed {around : Surroundings} {o : Options} {text : String} {index : Index}
    (hparse : Index.parse text = .ok index) (fault : IndexFault) :
    o.viewOf around text ≠ .error (.malformed fault) := by
  simp only [Options.viewOf, hparse]
  split <;> simp

/-- After any actions on an empty cache, every file in it is the compressed text of an index, and
no run that is served from the cache finds a malformed one. -/
theorem session_serves_indexes (store : Store) (actions : List Action)
    (h : store.cache.entries = []) :
    (∀ entry ∈ (performAll store actions).cache.entries, ∃ text index,
      entry.2.text = .ok text ∧ Index.parse text = .ok index) ∧
    ∀ around texts o text, Options.parse texts = .ok o →
      ServedFromCache around (performAll store actions) o text →
      ∀ fault, (run around (performAll store actions) texts).1 ≠ .error (.malformed fault) := by
  have hafter := (HoldsIndexes.of_entries_eq_nil h).performAll actions
  refine ⟨hafter, ?_⟩
  intro around texts o text hparse hserved fault
  obtain ⟨page, path, -, -, hload⟩ := hserved.cached
  obtain ⟨index, hindex⟩ := hafter.exists_parse hload
  rw [run_of_servedFromCache hparse hserved]
  exact viewOf_ne_malformed hindex fault

/-- A page that has been downloaded is served, and a text that is no index has not been cached.
Without the cache, such a text is refused. -/
theorem session_serves_downloaded_page :
    let store := performAll ⟨⟨[], []⟩, ⟨"cache", none⟩⟩
      [.fetch (fun _ => .text levelIndex) true (.page ⟨"log", "0.4", ["kv"]⟩),
        .cache ⟨"log", "0.4", []⟩ "window = {}", .run {} ["log@0.4::kv", "--no-cache"]]
    store.cache.entries.map (·.1) = [⟨"log", "0.4", "kv.js.zst"⟩] ∧
    (run {} store ["log@0.4::kv"]).1 = .ok "Functions\n  max_level  The level.\n" ∧
    (∀ fault, (run {} store ["log@0.4::kv"]).1 ≠ .error (.malformed fault)) ∧
    ∃ fault : IndexFault,
      (run { network := fun _ => .text "window = {}" } store ["log@0.4::kv", "--no-cache"]).1 =
        .error (.malformed fault) ∧
      (Failure.malformed fault).message =
        "Malformed sidebar items: expected initSidebarItems(\x7b...\x7d) or a JSON object" := by
  intro store
  have hstore : store =
      ⟨⟨[], []⟩, "cache", some [(⟨"log", "0.4", "kv.js.zst"⟩, .ofText levelIndex)]⟩ := rfl
  have hserved : ServedFromCache {} store { spec := some ⟨"log", some "0.4", ["kv"]⟩ }
      levelIndex := by
    rw [hstore]
    exact ⟨rfl, rfl, ⟨"log", "0.4", ["kv"]⟩, ⟨"log", "0.4", "kv.js.zst"⟩, rfl, rfl,
      CacheFile.text_ofText levelIndex⟩
  refine ⟨by rw [hstore]; rfl, ?_, ?_, .unknownWrapper, by rw [hstore]; rfl, by decide⟩
  · rw [run_of_servedFromCache rfl hserved]
    decide +kernel
  · exact (session_serves_indexes ⟨⟨[], []⟩, ⟨"cache", none⟩⟩ _ rfl).2 {} _ _ _ rfl hserved

end ModuleIndex.CommandLine

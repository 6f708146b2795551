import ModuleIndex.CommandLine.Run
import ModuleIndex.Proofs.Store.Cache

/-!
# Runs that show an index

A run that reads its options shows what it fetches. It changes the store no more than fetching
does, unless it clears the cache.
-/

namespace ModuleIndex.CommandLine

variable {around : Surroundings} {store : Store} {texts : List String} {o : Options}

theorem run_of_parse (hparse : Options.parse texts = .ok o) (hclear : o.clearCache = false) :
    run around store texts = o.view around store := by
  simp only [run, hparse, hclear]
  rfl

theorem view_of_source {source : Source} (hsource : o.source? around = some source) :
    o.view around store =
      (match (store.fetch around.network (!o.noCache) source).1 with
        | .ok script => o.viewOf around script
        | .error fault => .error (.load fault),
      (store.fetch around.network (!o.noCache) source).2) := by
  simp only [Options.view, hsource]
  split <;> rename_i hfetch <;> rw [hfetch]

/-- The cache has a text for the page that a command line asks for. -/
structure ServedFromCache (around : Surroundings) (store : Store) (o : Options) (text : String) :
    Prop where
  clearCache : o.clearCache = false
  noCache : o.noCache = false
  cached : ∃ page path, o.source? around = some (.page page) ∧
    page.placeIn store.cache.folder = .ok path ∧ store.cache.load path = .ok text

theorem run_of_servedFromCache {text : String} (hparse : Options.parse texts = .ok o)
    (h : ServedFromCache around store o text) :
    run around store texts = (o.viewOf around text, store) := by
  obtain ⟨page, path, hsource, hpath, hload⟩ := h.cached
  rw [run_of_parse hparse h.clearCache, view_of_source hsource, h.noCache]
  simp only [Bool.not_false, Store.fetch_of_load hpath hload]

/-- An index with one function. -/
def levelIndex : String := "\x7b\"fn\":[[\"max_level\",\"The level.\"]]\x7d"

/-- A run changes nothing, clears the cache and tells so, or changes the store as fetching what it
shows does. -/
theorem run_cases (around : Surroundings) (store : Store) (texts : List String) :
    ((∀ o, Options.parse texts = .ok o → o.clearCache = false) ∧
      (run around store texts).2 = store) ∨
    (∃ o, Options.parse texts = .ok o ∧ o.clearCache = true ∧ run around store texts =
      (.ok store.cache.clear.1, { store with cache := store.cache.clear.2 })) ∨
    ∃ o source, Options.parse texts = .ok o ∧ o.clearCache = false ∧
      o.source? around = some source ∧ (run around store texts).2 =
        (store.fetch around.network (!o.noCache) source).2 := by
  cases hparse : Options.parse texts with
  | error stop =>
    refine .inl ⟨by simp, ?_⟩
    cases stop <;> simp only [run, hparse]
  | ok o =>
    cases hclear : o.clearCache with
    | true =>
      refine .inr (.inl ⟨o, rfl, hclear, ?_⟩)
      simp only [run, hparse, hclear, if_true]
    | false =>
      rw [run_of_parse hparse hclear]
      cases hsource : o.source? around with
      | none =>
        refine .inl ⟨?_, by simp only [Options.view, hsource]⟩
        rintro _ ⟨rfl⟩
        exact hclear
      | some source =>
        exact .inr (.inr ⟨o, source, rfl, hclear, hsource, by rw [view_of_source hsource]⟩)

end ModuleIndex.CommandLine

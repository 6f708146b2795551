import ModuleIndex.Proofs.Page.SharedPlaces

/-!
# Modules with plain names

The names of modules are identifiers. Those that start with a letter all have their place in the
cache, so that a page that is not cached is downloaded as it is without the cache. An identifier
that starts with an underscore is no component, and its page is refused.
-/

namespace ModuleIndex

/-! ## Identifiers and versions -/

/-- A letter or an underscore, and behind it letters, digits and underscores. -/
structure IsIdentifier (text : List Char) : Prop where
  starts : ∃ c, text.head? = some c ∧ (c.isAlpha = true ∨ c = '_')
  allowed : ∀ c ∈ text, c.isAlphanum = true ∨ c = '_'

def IsNumber (text : List Char) : Prop :=
  text ≠ [] ∧ ∀ c ∈ text, c.isDigit = true

/-- Numbers with dots between them, or the word for the latest version. -/
def IsPlainVersion (version : String) : Prop :=
  version = "latest" ∨
    ∃ numbers, numbers ≠ [] ∧ (∀ n ∈ numbers, IsNumber n) ∧
      version.toList = Text.join ['.'] numbers

/-- Two dots in a row need a dot. -/
theorem not_isInfix_dots {text : List Char} (h : '.' ∉ text) : ¬ ['.', '.'] <:+: text :=
  fun hdots => h (hdots.subset (by simp))

namespace IsIdentifier

variable {text : List Char}

theorem notMem (h : IsIdentifier text) {c : Char} (hc : c.isAlphanum = false) (hne : c ≠ '_') :
    c ∉ text := by
  intro hmem
  rcases h.allowed c hmem with hallowed | rfl
  · simp [hallowed] at hc
  · exact hne rfl

theorem isComponent (h : IsIdentifier text) (hstart : text.head? ≠ some '_') :
    IsComponent text := by
  obtain ⟨c, hhead, hc⟩ := h.starts
  obtain ⟨rest, rfl⟩ := List.head?_eq_some_iff.mp hhead
  have hc : c.isAlpha = true := hc.resolve_right fun heq => hstart (by simp [heq])
  refine ⟨⟨c, rest, rfl, ?_⟩, ?_, not_isInfix_dots (h.notMem (by decide) (by decide))⟩
  · simp [Char.isAlphanum, hc]
  · intro d hd
    exact (h.allowed d hd).imp_right fun heq => by simp [heq]

/-- An underscore is a component character, but no component starts with it. -/
theorem componentFault?_eq (h : IsIdentifier text) (hstart : text.head? = some '_') :
    componentFault? text = some .characters := by
  obtain ⟨rest, rfl⟩ := List.head?_eq_some_iff.mp hstart
  have hseparator : ¬ HasSeparator ('_' :: rest) := by
    rintro (hslash | hslash)
    · exact h.notMem (by decide) (by decide) hslash
    · exact h.notMem (by decide) (by decide) hslash
  have hdots : ¬ HasDots ('_' :: rest) := by
    rintro (hdot | hdots)
    · exact absurd (List.cons.inj hdot).1 (by decide)
    · exact not_isInfix_dots (h.notMem (by decide) (by decide)) hdots
  have halnum : ('_').isAlphanum = false := by decide
  simp only [componentFault?]
  rw [if_neg (mt hasSeparator_iff.mp hseparator), if_neg (mt hasDots_iff.mp hdots), halnum]
  rfl

end IsIdentifier

theorem isComponent_of_isNumber {text : List Char} (h : IsNumber text) : IsComponent text := by
  obtain ⟨hne, hdigits⟩ := h
  obtain ⟨c, rest, rfl⟩ := List.exists_cons_of_ne_nil hne
  have halnum (d : Char) (hd : d ∈ c :: rest) : d.isAlphanum = true := by
    simp [Char.isAlphanum, hdigits d hd]
  refine ⟨⟨c, rest, rfl, halnum c (by simp)⟩, fun d hd => .inl (halnum d hd), ?_⟩
  refine not_isInfix_dots fun hdot => ?_
  exact absurd (hdigits '.' hdot) (by decide)

theorem isComponent_join {numbers : List (List Char)} (hne : numbers ≠ [])
    (h : ∀ n ∈ numbers, IsNumber n) : IsComponent (Text.join ['.'] numbers) := by
  induction numbers with
  | nil => exact absurd rfl hne
  | cons n numbers ih =>
    rw [List.forall_mem_cons] at h
    have hn := isComponent_of_isNumber h.1
    cases numbers with
    | nil => exact hn
    | cons next numbers =>
      rw [join_cons_of_ne_nil n (by simp)]
      refine hn.join_dot (ih (by simp) h.2) fun hlast => ?_
      exact absurd (h.1.2 '.' (List.mem_of_getLast? hlast)) (by decide)

theorem IsPlainVersion.isComponent {version : String} (h : IsPlainVersion version) :
    IsComponent version.toList := by
  obtain rfl | ⟨numbers, hne, hnumbers, hversion⟩ := h
  · exact (componentFault?_eq_none_iff _).mp (by decide)
  · rw [hversion]
    exact isComponent_join hne hnumbers

/-! ## Pages -/

/-- A page of a module whose names are identifiers, in a version of plain numbers. -/
structure Page.IsPlain (page : Page) : Prop where
  crate : IsIdentifier page.crate.toList
  crate_start : page.crate.toList.head? ≠ some '_'
  version : IsPlainVersion page.version
  segments : ∀ s ∈ page.modulePath, IsIdentifier s.toList

namespace Page

variable {page : Page} {folder : String}

def HasUnderscore (page : Page) : Prop :=
  ∃ s ∈ page.modulePath, s.toList.head? = some '_'

instance : Decidable page.HasUnderscore :=
  inferInstanceAs (Decidable (∃ s ∈ page.modulePath, s.toList.head? = some '_'))

theorem IsPlain.isAccepted (h : page.IsPlain) (hnone : ¬ page.HasUnderscore) :
    page.IsAccepted := by
  refine isAccepted_iff.mpr ⟨h.crate.isComponent h.crate_start, h.version.isComponent, ?_⟩
  intro s hs
  exact (h.segments s hs).isComponent fun hstart => hnone ⟨s, hs, hstart⟩

/-- The first part that is no component is a segment that starts with an underscore. -/
theorem IsPlain.pathFault?_eq (h : page.IsPlain) (hsome : page.HasUnderscore) :
    page.pathFault? = some ⟨.segment, .characters⟩ := by
  cases hfault : page.pathFault? with
  | none =>
    obtain ⟨s, hs, hstart⟩ := hsome
    have hcomponent := (isAccepted_iff.mp (pathFault?_eq_none_iff.mp hfault)).2.2 s hs
    rw [← componentFault?_eq_none_iff, (h.segments s hs).componentFault?_eq hstart] at hcomponent
    simp at hcomponent
  | some fault =>
    obtain ⟨part, reason⟩ := fault
    obtain ⟨value, hfirst, hreason⟩ := isFirstRefused_of_pathFault? hfault
    generalize htext : PagePart.text _ = text at hfirst
    cases hfirst with
    | crate hvalue => exact absurd (h.crate.isComponent h.crate_start) hvalue
    | version _ hvalue => exact absurd h.version.isComponent hvalue
    | segment _ _ hpath _ hvalue =>
      have hidentifier := h.segments value (by simp [hpath])
      have hstart : value.toList.head? = some '_' := by
        by_contra hstart
        exact hvalue (hidentifier.isComponent hstart)
      obtain rfl : reason = .characters := by
        rw [hidentifier.componentFault?_eq hstart, Option.some.injEq] at hreason
        exact hreason.symm
      cases part with
      | segment => rfl
      | crate | version => exact absurd htext (by decide)

end Page

/-! ## Fetching -/

namespace Store

variable {store : Store} {page : Page}

/-- The cache has no file for the page. -/
def Misses (store : Store) (page : Page) : Prop :=
  ∀ path, page.placeIn store.cache.folder = .ok path → store.cache.file? path = none

theorem fetch_of_misses (h : store.Misses page) {path : CachePath}
    (hpath : page.placeIn store.cache.folder = .ok path) (network : Network) :
    (store.fetch network true (.page page)).1 = network.download page.url := by
  have hload : store.cache.load path = .error .miss := by rw [Cache.load, h path hpath]
  simp only [fetch, if_true, hpath, hload]
  cases network.download page.url <;> rfl

theorem fetch_of_pathFault? {fault : PathFault} (h : page.pathFault? = some fault)
    (network : Network) : (store.fetch network true (.page page)).1 = .error (.place (.part fault)) := by
  simp only [fetch, if_true, Page.placeIn_of_pathFault? h]

/-- A page with plain names that is not cached is downloaded, with the cache as without it. But
if a segment starts with an underscore, the cache refuses it before anything is downloaded, and
the message lists underscores among the characters that are allowed. -/
theorem fetch_plain_page (network : Network) (hpage : page.IsPlain) (hmiss : store.Misses page) :
    (store.fetch network false (.page page)).1 = network.download page.url ∧
    (store.fetch network true (.page page)).1 =
      (if page.HasUnderscore then .error (.place (.part ⟨.segment, .characters⟩))
        else network.download page.url) ∧
    store.load false (.page page) = .error (.download page.url) ∧
    (store.load true (.page page) = .error (.download page.url) ↔ ¬ page.HasUnderscore) ∧
    (LoadFault.download page.url).message = "Failed to download " ++ page.url ∧
    (LoadFault.place (.part ⟨.segment, .characters⟩)).message =
      "module path segment contains invalid characters " ++
        "(allowed: alphanumeric, hyphen, underscore, dot, plus)" := by
  have hcached (network : Network) : (store.fetch network true (.page page)).1 =
      if page.HasUnderscore then .error (.place (.part ⟨.segment, .characters⟩))
        else network.download page.url := by
    split_ifs with hunderscore
    · exact fetch_of_pathFault? (hpage.pathFault?_eq hunderscore) network
    · exact fetch_of_misses hmiss
        (Page.placeIn_of_isAccepted (hpage.isAccepted hunderscore) store.cache.folder) network
  refine ⟨rfl, hcached network, rfl, ?_, rfl, by decide⟩
  rw [load, hcached]
  split_ifs with hunderscore
  · simp [hunderscore]
  · simp [hunderscore, Network.download, Network.offline]

/-- A module in another one, in a cache that has the root of the crate only. -/
theorem fetch_plain_page_mpsc :
    let page : Page := ⟨"tokio", "1.0.0", ["sync", "mpsc"]⟩
    let store : Store :=
      ⟨⟨[], []⟩, ⟨"cache", some [(⟨"tokio", "1.0.0", "_root.js.zst"⟩, .other)]⟩⟩
    page.IsPlain ∧ store.Misses page ∧ ¬ page.HasUnderscore ∧
      ∀ network : Network, (store.fetch network true (.page page)).1 =
        network.download "https://docs.rs/tokio/1.0.0/tokio/sync/mpsc/sidebar-items.js" := by
  intro page store
  have hpage : page.IsPlain := by
    refine ⟨⟨⟨'t', by decide, by decide⟩, by simp [page]⟩, by decide, .inr ?_, ?_⟩
    · refine ⟨[['1'], ['0'], ['0']], by decide, ?_, by decide⟩
      simp [IsNumber]
    · rw [List.forall_mem_cons, List.forall_mem_singleton]
      exact ⟨⟨⟨'s', by decide, by decide⟩, by simp⟩,
        ⟨'m', by decide, by decide⟩, by simp⟩
  have hmiss : store.Misses page := by
    intro path hpath
    obtain ⟨-, rfl⟩ := Page.placeIn_eq_ok_iff.mp hpath
    rfl
  have hnone : ¬ page.HasUnderscore := by decide
  refine ⟨hpage, hmiss, hnone, fun network => ?_⟩
  rw [(fetch_plain_page network hpage hmiss).2.1, if_neg hnone]
  rfl

/-- A module whose name starts with an underscore is downloaded without the cache only. -/
theorem load_refused_derive :
    let page : Page := ⟨"clap", "latest", ["_derive"]⟩
    let store : Store := ⟨⟨[], []⟩, ⟨"cache", none⟩⟩
    page.IsPlain ∧ store.Misses page ∧
      store.load false (.page page) =
        .error (.download "https://docs.rs/clap/latest/clap/_derive/sidebar-items.js") ∧
      store.load true (.page page) = .error (.place (.part ⟨.segment, .characters⟩)) := by
  intro page store
  refine ⟨⟨⟨⟨'c', by decide, by decide⟩, by simp [page]⟩, by decide, .inl rfl, ?_⟩, ?_, rfl, ?_⟩
  · rw [List.forall_mem_singleton]
    exact ⟨⟨'_', by decide, by decide⟩, by simp⟩
  · intro path _
    rfl
  · exact fetch_of_pathFault? (by decide) .offline

end Store

end ModuleIndex

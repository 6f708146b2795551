import ModuleIndex.Proofs.Page.Containment
import ModuleIndex.Proofs.Store.Cache

/-!
# Pages with one place

The place of a page shows its module path with dots between the segments. A segment can have dots
itself, so that two module paths can look the same: two pages then have one place, though their
URLs differ.
-/

namespace ModuleIndex

/-! ## Joining and cutting components -/

namespace IsComponent

variable {s t : List Char}

theorem head_ne_dot (h : IsComponent s) : s.head? ≠ some '.' := by
  obtain ⟨c, rest, rfl, hstart⟩ := h.starts
  rw [List.head?_cons, Ne, Option.some.injEq]
  rintro rfl
  exact absurd hstart (by decide)

/-- Two components with a dot between them are one, unless another dot stands in front of it. -/
theorem join_dot (hs : IsComponent s) (ht : IsComponent t) (hlast : s.getLast? ≠ some '.') :
    IsComponent (s ++ '.' :: t) := by
  refine ⟨?_, ?_, ?_⟩
  · obtain ⟨c, rest, rfl, hstart⟩ := hs.starts
    exact ⟨c, rest ++ '.' :: t, rfl, hstart⟩
  · intro x hx
    rw [List.mem_append, List.mem_cons] at hx
    rcases hx with hx | rfl | hx
    · exact hs.allowed x hx
    · exact .inr (by simp)
    · exact ht.allowed x hx
  · have hfirst : ¬ ['.', '.'] <+: '.' :: t := by
      rintro ⟨rest, heq⟩
      exact ht.head_ne_dot (by simp [← (List.cons.inj heq).2])
    rw [List.infix_append_iff]
    rintro (h | h | ⟨first, second, heq, hfinal, hstart⟩)
    · exact hs.single_dots h
    · rcases List.infix_cons_iff.mp h with h | h
      · exact hfirst h
      · exact ht.single_dots h
    · -- Two dots in a row across the seam: the first one would be the end of `s`.
      rcases List.eq_nil_or_concat' first with rfl | ⟨front, c, rfl⟩
      · exact hfirst (heq ▸ hstart)
      · have hc : c = '.' := by
          have hmem : c ∈ ['.', '.'] := by simp [heq]
          simpa using hmem
        obtain ⟨before, rfl⟩ := hfinal
        exact hlast (by simp [hc])

theorem left_of_dot (h : IsComponent (s ++ '.' :: t)) (hs : s ≠ []) : IsComponent s := by
  obtain ⟨c, rest, hstarts, hstart⟩ := h.starts
  obtain ⟨d, s, rfl⟩ := List.exists_cons_of_ne_nil hs
  obtain ⟨rfl, -⟩ := List.cons.inj hstarts
  exact ⟨⟨d, s, rfl, hstart⟩, fun x hx => h.allowed x (List.mem_append_left _ hx),
    fun hdots => h.single_dots (hdots.trans (List.prefix_append _ _).isInfix)⟩

theorem right_of_dot {d : Char} (h : IsComponent (s ++ '.' :: d :: t)) (hd : d.isAlphanum = true) :
    IsComponent (d :: t) := by
  have hsuffix : d :: t <:+ s ++ '.' :: d :: t := ⟨s ++ ['.'], by simp⟩
  exact ⟨⟨d, t, rfl, hd⟩, fun x hx => h.allowed x (hsuffix.subset hx),
    fun hdots => h.single_dots (hdots.trans hsuffix.isInfix)⟩

end IsComponent

/-! ## Texts that can be cut in one way only -/

/-- Every dot in front of a letter or a digit follows another dot. -/
def FixedDots (text : List Char) : Prop :=
  ∀ left c d right, text = left ++ c :: '.' :: d :: right → d.isAlphanum = true → c = '.'

theorem fixedDots_of_notMem {text : List Char} (h : '.' ∉ text) : FixedDots text := by
  rintro left c d right rfl
  simp at h

theorem FixedDots.of_append {front text : List Char} (h : FixedDots (front ++ text)) :
    FixedDots text := by
  rintro left c d right rfl
  exact h (front ++ left) c d right (by simp)

/-- What follows the first part: each further part behind a dot. -/
def dottedTail (parts : List (List Char)) : List Char :=
  parts.flatMap fun part => '.' :: part

theorem dottedTail_cons (part : List Char) (parts : List (List Char)) :
    dottedTail (part :: parts) = '.' :: (part ++ dottedTail parts) := rfl

theorem join_cons_eq_dottedTail (part : List Char) (parts : List (List Char)) :
    Text.join ['.'] (part :: parts) = part ++ dottedTail parts := by
  induction parts generalizing part with
  | nil => simp [Text.join, dottedTail]
  | cons next parts ih =>
    rw [Text.join_cons part (by simp), ih, dottedTail_cons]
    simp

variable {parts parts' : List (List Char)}

/-- A component that begins like a fixed text has not been cut short in it. -/
theorem eq_nil_of_prefix_dottedTail {s u : List Char} (hs : IsComponent s)
    (hlong : IsComponent (s ++ u)) (hparts : ∀ p ∈ parts, IsComponent p)
    (hfixed : FixedDots (s ++ dottedTail parts)) (hu : u <+: dottedTail parts) : u = [] := by
  cases u with
  | nil => rfl
  | cons x u =>
    obtain ⟨rest, hrest⟩ := hu
    cases parts with
    | nil => simp [dottedTail] at hrest
    | cons part parts =>
      obtain ⟨d, text, rfl, hd⟩ := (hparts part (by simp)).starts
      rw [dottedTail_cons] at hrest hfixed
      obtain ⟨rfl, -⟩ := List.cons.inj hrest
      obtain ⟨front, c, rfl⟩ := (List.eq_nil_or_concat' s).resolve_left hs.ne_nil
      have hc : c = '.' := hfixed front c d (text ++ dottedTail parts) (by simp) hd
      refine absurd ⟨front, u, ?_⟩ hlong.single_dots
      simp [hc]

/-- Two lists of components that make one text are the same if the dots in it are fixed. -/
theorem eq_of_join_eq (h : ∀ p ∈ parts, IsComponent p) (h' : ∀ p ∈ parts', IsComponent p)
    (hfixed : FixedDots (Text.join ['.'] parts))
    (heq : Text.join ['.'] parts = Text.join ['.'] parts') : parts = parts' := by
  induction parts generalizing parts' with
  | nil =>
    cases parts' with
    | nil => rfl
    | cons t ts =>
      rw [join_cons_eq_dottedTail] at heq
      exact absurd (List.append_eq_nil_iff.mp heq.symm).1 (h' t (by simp)).ne_nil
  | cons s ss ih =>
    rw [List.forall_mem_cons] at h
    cases parts' with
    | nil =>
      rw [join_cons_eq_dottedTail] at heq
      exact absurd (List.append_eq_nil_iff.mp heq).1 h.1.ne_nil
    | cons t ts =>
      rw [List.forall_mem_cons] at h'
      rw [join_cons_eq_dottedTail] at hfixed heq
      rw [join_cons_eq_dottedTail] at heq
      obtain ⟨rfl, htails⟩ : s = t ∧ dottedTail ss = dottedTail ts := by
        rcases List.append_eq_append_iff.mp heq with ⟨u, rfl, hu⟩ | ⟨u, rfl, hu⟩
        · obtain rfl := eq_nil_of_prefix_dottedTail h.1 h'.1 h.2 hfixed ⟨_, hu.symm⟩
          exact ⟨by simp, by simpa using hu⟩
        · rw [heq] at hfixed
          obtain rfl := eq_nil_of_prefix_dottedTail h'.1 h.1 h'.2 hfixed ⟨_, hu.symm⟩
          exact ⟨by simp, by simpa using hu.symm⟩
      cases ss with
      | nil =>
        cases ts with
        | nil => rfl
        | cons next ts => simp [dottedTail] at htails
      | cons next ss =>
        cases ts with
        | nil => simp [dottedTail] at htails
        | cons next' ts =>
          rw [dottedTail_cons, dottedTail_cons, ← join_cons_eq_dottedTail,
            ← join_cons_eq_dottedTail] at htails
          rw [dottedTail_cons, ← join_cons_eq_dottedTail, List.append_cons] at hfixed
          rw [ih h.2 h'.2 hfixed.of_append (List.cons.inj htails).2]

/-! ## Other cuts of a text -/

theorem join_dot_cons (s t : List Char) (parts : List (List Char)) :
    Text.join ['.'] ((s ++ '.' :: t) :: parts) = Text.join ['.'] (s :: t :: parts) := by
  simp [join_cons_eq_dottedTail, dottedTail_cons]

theorem join_cons_of_ne_nil (s : List Char) (h : parts ≠ []) :
    Text.join ['.'] (s :: parts) = s ++ '.' :: Text.join ['.'] parts := by
  rw [Text.join_cons s h, List.append_assoc]
  rfl

/-- Whether a text is also that of other components. -/
def HasOtherComponents (parts : List (List Char)) : Prop :=
  ∃ parts', (∀ p ∈ parts', IsComponent p) ∧
    Text.join ['.'] parts' = Text.join ['.'] parts ∧ parts' ≠ parts

theorem HasOtherComponents.cons {s : List Char} (h : HasOtherComponents parts)
    (hs : IsComponent s) (hparts : Text.join ['.'] parts ≠ []) :
    HasOtherComponents (s :: parts) := by
  obtain ⟨parts', hparts', heq, hne⟩ := h
  have hne' : parts' ≠ [] := by
    rintro rfl
    exact hparts heq.symm
  have hnil : parts ≠ [] := by
    rintro rfl
    exact hparts rfl
  refine ⟨s :: parts', List.forall_mem_cons.mpr ⟨hs, hparts'⟩, ?_, by simpa using hne⟩
  rw [join_cons_of_ne_nil s hne', join_cons_of_ne_nil s hnil, heq]

theorem hasOtherComponents_of_lone_seam {s t : List Char} (hs : IsComponent s)
    (ht : IsComponent t) (hparts : ∀ p ∈ parts, IsComponent p) (hlast : s.getLast? ≠ some '.') :
    HasOtherComponents (s :: t :: parts) := by
  refine ⟨(s ++ '.' :: t) :: parts, ?_, join_dot_cons s t parts, ?_⟩
  · exact List.forall_mem_cons.mpr ⟨hs.join_dot ht hlast, hparts⟩
  · exact fun heq => by simpa using congrArg List.length heq

theorem hasOtherComponents_of_inner_dot {s t : List Char} {d : Char}
    (h : IsComponent (s ++ '.' :: d :: t)) (hs : s ≠ []) (hd : d.isAlphanum = true)
    (hparts : ∀ p ∈ parts, IsComponent p) : HasOtherComponents ((s ++ '.' :: d :: t) :: parts) := by
  refine ⟨s :: (d :: t) :: parts, ?_, (join_dot_cons s (d :: t) parts).symm, ?_⟩
  · exact List.forall_mem_cons.mpr
      ⟨h.left_of_dot hs, List.forall_mem_cons.mpr ⟨h.right_of_dot hd, hparts⟩⟩
  · exact fun heq => by simpa using congrArg List.length heq

theorem cases_of_append_eq_append_cons {α : Type} {xs ys zs ws : List α} {a : α}
    (h : xs ++ ys = zs ++ a :: ws) :
    (∃ us, zs = xs ++ us ∧ ys = us ++ a :: ws) ∨ ∃ us, xs = zs ++ a :: us ∧ ws = us ++ ys := by
  rcases List.append_eq_append_iff.mp h with hleft | ⟨us, rfl, hus⟩
  · exact .inl hleft
  · rcases List.cons_eq_append_iff.mp hus with ⟨rfl, hys⟩ | ⟨us, rfl, hws⟩
    · exact .inl ⟨[], by simp, hys⟩
    · exact .inr ⟨us, rfl, hws⟩

/-- Where a letter or a digit follows a lone dot, two components can be joined, or one can be
cut. -/
theorem hasOtherComponents_of_lone_dot {left right : List Char} {c d : Char}
    (h : ∀ p ∈ parts, IsComponent p)
    (heq : Text.join ['.'] parts = left ++ [c] ++ '.' :: d :: right) (hc : c ≠ '.')
    (hd : d.isAlphanum = true) : HasOtherComponents parts := by
  have hdot : d ≠ '.' := by
    rintro rfl
    exact absurd hd (by decide)
  induction parts generalizing left with
  | nil => simp [Text.join] at heq
  | cons s ss ih =>
    rw [List.forall_mem_cons] at h
    rw [join_cons_eq_dottedTail] at heq
    rcases cases_of_append_eq_append_cons heq with ⟨u, hu, htail⟩ | ⟨u, hu, htail⟩
    · cases ss with
      | nil => simp [dottedTail] at htail
      | cons t ts =>
        rcases List.eq_nil_or_concat' u with rfl | ⟨u, c', rfl⟩
        · -- The dot stands behind the first component.
          have hlast : s.getLast? ≠ some '.' := by
            rw [List.append_nil] at hu
            simpa [← hu] using hc
          rw [List.forall_mem_cons] at h
          exact hasOtherComponents_of_lone_seam h.1 h.2.1 h.2.2 hlast
        · -- It stands further behind: that of the first component is another one.
          obtain rfl : c = c' := by simpa using congrArg List.getLast? hu
          rw [dottedTail_cons, ← join_cons_eq_dottedTail] at htail
          cases u with
          | nil => exact absurd (List.cons.inj htail).1.symm hc
          | cons x u =>
            have hparts : Text.join ['.'] (t :: ts) = u ++ [c] ++ '.' :: d :: right :=
              (List.cons.inj htail).2
            exact (ih h.2 hparts).cons h.1 (by simp [hparts])
    · -- The dot stands in the first component.
      cases u with
      | nil =>
        cases ss with
        | nil => simp [dottedTail] at htail
        | cons t ts => exact absurd (List.cons.inj htail).1 hdot
      | cons x u =>
        obtain ⟨rfl, -⟩ := List.cons.inj htail
        rw [hu] at h ⊢
        exact hasOtherComponents_of_inner_dot h.1 (by simp) hd h.2

theorem fixedDots_iff (h : ∀ p ∈ parts, IsComponent p) :
    FixedDots (Text.join ['.'] parts) ↔ ¬ HasOtherComponents parts := by
  constructor
  · rintro hfixed ⟨parts', h', heq, hne⟩
    exact hne (eq_of_join_eq h h' hfixed heq.symm).symm
  · intro hnone left c d right heq hd
    by_contra hc
    exact hnone (hasOtherComponents_of_lone_dot h (by simpa using heq) hc hd)

/-! ## Places and URLs -/

namespace Page

variable {page other : Page} {folder : String}

/-- The module path with dots, as the place of the page shows it. -/
def dotted (page : Page) : List Char :=
  Text.join ['.'] (page.modulePath.map String.toList)

theorem isComponent_of_mem_map (h : page.IsAccepted) :
    ∀ p ∈ page.modulePath.map String.toList, IsComponent p :=
  List.forall_mem_map.mpr (isAccepted_iff.mp h).2.2

theorem stem_of_ne_nil (h : page.modulePath ≠ []) : page.stem.toList = page.dotted := by
  unfold stem dotted
  cases hpath : page.modulePath with
  | nil => exact absurd hpath h
  | cons s segments => exact String.toList_ofList

theorem dotted_eq_nil_iff (h : page.IsAccepted) : page.dotted = [] ↔ page.modulePath = [] := by
  constructor
  · intro hdotted
    by_contra hpath
    obtain ⟨c, rest, hstem, -⟩ := exists_stem_cons h
    rw [stem_of_ne_nil hpath, hdotted] at hstem
    simp at hstem
  · intro hpath
    rw [dotted, hpath]
    rfl

theorem stem_eq_iff (h : page.IsAccepted) (hother : other.IsAccepted) :
    page.stem = other.stem ↔ page.dotted = other.dotted := by
  have hroot : ∀ p : Page, p.modulePath = [] → p.stem = "_root" ∧ p.dotted = [] := by
    intro p hpath
    simp [stem, dotted, hpath, Text.join]
  have hmodule : ∀ p : Page, p.IsAccepted → p.modulePath ≠ [] →
      p.stem ≠ "_root" ∧ p.dotted ≠ [] := by
    intro p hp hpath
    refine ⟨fun hstem => ?_, fun hdotted => hpath ((dotted_eq_nil_iff hp).mp hdotted)⟩
    obtain ⟨c, rest, htext, hstart⟩ := exists_stem_cons hp
    rw [hstem] at htext
    obtain rfl := (List.cons.inj htext).1
    rcases hstart with ⟨hnil, -⟩ | ⟨-, hc⟩
    · exact hpath hnil
    · exact absurd hc (by decide)
  by_cases hp : page.modulePath = [] <;> by_cases ho : other.modulePath = []
  · simp [hroot page hp, hroot other ho]
  · simp [hroot page hp, (hmodule other hother ho).1.symm, (hmodule other hother ho).2.symm]
  · simp [hroot other ho, hmodule page h hp]
  · rw [← String.toList_inj, stem_of_ne_nil hp, stem_of_ne_nil ho]

theorem place_eq_iff (h : page.IsAccepted) (hother : other.IsAccepted) :
    page.place = other.place ↔
      page.crate = other.crate ∧ page.version = other.version ∧ page.dotted = other.dotted := by
  have hfile : page.fileName = other.fileName ↔ page.stem = other.stem := by
    simp [fileName]
  rw [← stem_eq_iff h hother, ← hfile]
  simp [place]

theorem pathNames_url (h : page.IsAccepted) :
    pathNames page.url = ["https:", "", "docs.rs", page.crate, page.version, page.crate] ++
      (page.modulePath ++ ["sidebar-items.js"]) := by
  obtain ⟨hcrate, hversion, hsegments⟩ := isAccepted_iff.mp h
  have hpart : ∀ {text : String}, IsComponent text.toList → pathNames text = [text] :=
    fun ht => pathNames_of_notMem (ht.notMem (by decide))
  have hscheme : pathNames "https:" = ["https:"] := pathNames_of_notMem (by decide)
  have hempty : pathNames "" = [""] := pathNames_of_notMem (by decide)
  have hhost : pathNames "docs.rs" = ["docs.rs"] := pathNames_of_notMem (by decide)
  have hfile : pathNames "sidebar-items.js" = ["sidebar-items.js"] :=
    pathNames_of_notMem (by decide)
  have hurl : page.url = "https:" ++ "/" ++ ("" ++ "/" ++ ("docs.rs" ++ "/" ++ (page.crate ++ "/" ++
      (page.version ++ "/" ++ (page.crate ++ "/" ++
        (String.join (page.modulePath.map fun s => s ++ "/") ++ "sidebar-items.js")))))) := by
    have hstart : "https://docs.rs/" = "https:" ++ "/" ++ ("" ++ "/" ++ ("docs.rs" ++ "/")) := by
      decide
    unfold url
    simp only [toString, hstart, String.append_assoc]
  rw [hurl]
  simp only [pathNames_append_slash, hscheme, hempty, hhost, hpart hcrate, hpart hversion]
  rw [pathNames_join_append (fun s hs => (hsegments s hs).notMem (by decide)), hfile]
  rfl

theorem url_eq_iff (h : page.IsAccepted) (hother : other.IsAccepted) :
    page.url = other.url ↔ page = other := by
  refine ⟨fun hurl => ?_, fun heq => heq ▸ rfl⟩
  have hnames := congrArg pathNames hurl
  rw [pathNames_url h, pathNames_url hother] at hnames
  simp only [List.cons_append, List.nil_append, List.cons.injEq, true_and,
    List.append_cancel_right_eq] at hnames
  obtain ⟨hcrate, hversion, -, hpath⟩ := hnames
  cases page
  cases other
  simp_all

/-! ## Pages with a place of their own -/

theorem eq_of_pathSteps_eq {path path' : CachePath} (h : page.placeIn folder = .ok path)
    (hother : other.placeIn folder = .ok path')
    (hsteps : pathSteps (path'.pathIn folder) = pathSteps (path.pathIn folder)) : path' = path := by
  obtain ⟨hpage, rfl⟩ := placeIn_eq_ok_iff.mp h
  obtain ⟨hpage', rfl⟩ := placeIn_eq_ok_iff.mp hother
  refine (isInside_place hpage' folder).eq_of_leadsThrough (isInside_place hpage folder) ?_
  rw [leadsThrough, hsteps]
  exact List.isPrefixOf_iff_prefix.mpr List.prefix_rfl

theorem modulePath_eq_of_fixedDots (h : page.IsAccepted) (hother : other.IsAccepted)
    (hfixed : FixedDots page.dotted) (hdotted : page.dotted = other.dotted) :
    page.modulePath = other.modulePath := by
  have hparts := eq_of_join_eq (isComponent_of_mem_map h) (isComponent_of_mem_map hother)
    hfixed hdotted
  exact List.map_injective_iff.mpr (fun _ _ => String.toList_injective) hparts

/-- A page is the only one with its place exactly if the dots in its module path are fixed. What
is cached for another page is then never loaded for it. -/
theorem own_place_iff (folder : String) {page : Page} {path : CachePath}
    (hpath : page.placeIn folder = .ok path) :
    ((∀ (other : Page) path', other.placeIn folder = .ok path' →
      pathSteps (path'.pathIn folder) = pathSteps (path.pathIn folder) → other.url = page.url) ↔
      FixedDots page.dotted) ∧
    (FixedDots page.dotted → ∀ (other : Page) path', other.placeIn folder = .ok path' →
      other.url ≠ page.url → ∀ (cache : Cache) text,
        (cache.save path' text).2.load path = cache.load path) := by
  obtain ⟨h, rfl⟩ := placeIn_eq_ok_iff.mp hpath
  have hown : FixedDots page.dotted → ∀ (other : Page) path', other.placeIn folder = .ok path' →
      path' = page.place → other.url = page.url := by
    rintro hfixed other path' hpath' rfl
    obtain ⟨hother, hplace⟩ := placeIn_eq_ok_iff.mp hpath'
    obtain ⟨hcrate, hversion, hdotted⟩ := (place_eq_iff h hother).mp hplace
    have hmodule := modulePath_eq_of_fixedDots h hother hfixed hdotted
    rw [url_eq_iff hother h]
    cases page
    cases other
    simp_all
  refine ⟨⟨?_, ?_⟩, ?_⟩
  · intro hurl
    rw [dotted, fixedDots_iff (isComponent_of_mem_map h)]
    rintro ⟨parts', hparts', heq, hne⟩
    -- The other components are those of a page with the same place.
    let other : Page := { page with modulePath := parts'.map String.ofList }
    have hmap : other.modulePath.map String.toList = parts' := by
      simp [other, Function.comp_def]
    have hother : other.IsAccepted := by
      obtain ⟨hcrate, hversion, -⟩ := isAccepted_iff.mp h
      exact isAccepted_iff.mpr ⟨hcrate, hversion, by rwa [← List.forall_mem_map, hmap]⟩
    have hplace : other.place = page.place :=
      (place_eq_iff hother h).mpr ⟨rfl, rfl, by rw [dotted, hmap, heq, dotted]⟩
    have hsame := hurl other _ (placeIn_of_isAccepted hother folder) (by rw [hplace])
    rw [url_eq_iff hother h] at hsame
    exact hne (by rw [← hmap, hsame])
  · intro hfixed other path' hpath' hsteps
    exact hown hfixed other path' hpath' (eq_of_pathSteps_eq hpath hpath' hsteps)
  · intro hfixed other path' hpath' hurl cache text
    refine Cache.load_save_of_ne fun heq => ?_
    exact hurl (hown hfixed other path' hpath' heq.symm)

theorem own_place_sync :
    (⟨"tokio", "1.0.0", ["sync"]⟩ : Page).placeIn "cache" =
      .ok ⟨"tokio", "1.0.0", "sync.js.zst"⟩ ∧
    ∀ (other : Page) path', other.placeIn "cache" = .ok path' →
      pathSteps (path'.pathIn "cache") = pathSteps "cache/tokio/1.0.0/sync.js.zst" →
      other.url = "https://docs.rs/tokio/1.0.0/tokio/sync/sidebar-items.js" := by
  have hpath : (⟨"tokio", "1.0.0", ["sync"]⟩ : Page).placeIn "cache" =
      .ok ⟨"tokio", "1.0.0", "sync.js.zst"⟩ := rfl
  exact ⟨hpath, (own_place_iff "cache" hpath).1.mpr (fixedDots_of_notMem (by decide))⟩

/-- A module in another one, and a module with a dot in its name, can have one place. What is
cached for the first one is then given for the second one. -/
theorem shared_place_sync_mpsc :
    (⟨"tokio", "1.0.0", ["sync", "mpsc"]⟩ : Page).placeIn "cache" =
      .ok ⟨"tokio", "1.0.0", "sync.mpsc.js.zst"⟩ ∧
    (⟨"tokio", "1.0.0", ["sync.mpsc"]⟩ : Page).placeIn "cache" =
      .ok ⟨"tokio", "1.0.0", "sync.mpsc.js.zst"⟩ ∧
    (⟨"tokio", "1.0.0", ["sync", "mpsc"]⟩ : Page).url ≠
      (⟨"tokio", "1.0.0", ["sync.mpsc"]⟩ : Page).url ∧
    (Store.fetch
      ⟨⟨[], []⟩, (Cache.save ⟨"cache", none⟩ ⟨"tokio", "1.0.0", "sync.mpsc.js.zst"⟩ "mpsc").2⟩
      .offline true (.page ⟨"tokio", "1.0.0", ["sync.mpsc"]⟩)).1 = .ok "mpsc" := by
  have hplace : (⟨"tokio", "1.0.0", ["sync.mpsc"]⟩ : Page).placeIn "cache" =
      .ok ⟨"tokio", "1.0.0", "sync.mpsc.js.zst"⟩ := rfl
  refine ⟨rfl, hplace, by decide, ?_⟩
  exact congrArg Prod.fst (Store.fetch_save hplace rfl)

end Page

end ModuleIndex

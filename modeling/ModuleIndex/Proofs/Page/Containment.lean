import ModuleIndex.Page.CachePath
import ModuleIndex.Proofs.Path
import ModuleIndex.Proofs.Text.Pieces

/-!
# Pages stay in the cache

A page has a place in the cache exactly if all its parts are components. Its file is then three
steps below the folder of the cache. Else the message names the first part that is no component,
and says the first thing that is wrong with it.
-/

namespace ModuleIndex

/-! ## Components -/

structure IsComponent (value : List Char) : Prop where
  starts : ∃ c rest, value = c :: rest ∧ c.isAlphanum = true
  allowed : ∀ c ∈ value, c.isAlphanum = true ∨ c ∈ ['-', '_', '.', '+']
  single_dots : ¬ ['.', '.'] <:+: value

theorem isComponentChar_iff {c : Char} :
    isComponentChar c = true ↔ c.isAlphanum = true ∨ c ∈ ['-', '_', '.', '+'] := by
  simp [isComponentChar, or_assoc]

def HasSeparator (value : List Char) : Prop := '/' ∈ value ∨ '\\' ∈ value

/-- A lone dot, or two dots in a row. -/
def HasDots (value : List Char) : Prop := value = ['.'] ∨ ['.', '.'] <:+: value

theorem hasSeparator_iff {value : List Char} :
    (value.any fun c => c = '/' || c = '\\') = true ↔ HasSeparator value := by
  simp [HasSeparator, and_or_left, exists_or]

theorem hasDots_iff {value : List Char} :
    (value = ['.'] || Text.contains ['.', '.'] value) = true ↔ HasDots value := by
  rw [Bool.or_eq_true, decide_eq_true_eq, Text.contains_iff_isInfix, HasDots]

/-- The last two checks say what a component is. The first one refuses nothing that they let
through, and neither does the test for a lone dot. -/
theorem componentFault?_eq_none_iff (value : List Char) :
    componentFault? value = none ↔ IsComponent value := by
  cases value with
  | nil =>
    refine ⟨fun h => by simp [componentFault?] at h, fun h => ?_⟩
    obtain ⟨c, rest, hvalue, -⟩ := h.starts
    simp at hvalue
  | cons c rest =>
    simp only [componentFault?]
    constructor
    · intro h
      split_ifs at h with hseparator hdots hchars
      rw [hasDots_iff] at hdots
      rw [Bool.and_eq_true, List.all_eq_true] at hchars
      exact ⟨⟨c, rest, rfl, hchars.1⟩, fun x hx => isComponentChar_iff.mp (hchars.2 x hx),
        fun h => hdots (.inr h)⟩
    · intro h
      have hchars : ∀ x ∈ c :: rest, isComponentChar x = true :=
        fun x hx => isComponentChar_iff.mpr (h.allowed x hx)
      have hstart : c.isAlphanum = true := by
        obtain ⟨d, rest', hvalue, hstart⟩ := h.starts
        rwa [(List.cons.inj hvalue).1]
      have hseparator : ¬ HasSeparator (c :: rest) := by
        rintro (hslash | hslash)
        · exact absurd (hchars _ hslash) (by decide)
        · exact absurd (hchars _ hslash) (by decide)
      have hdots : ¬ HasDots (c :: rest) := by
        rintro (hdot | hdots)
        · rw [(List.cons.inj hdot).1] at hstart
          exact absurd hstart (by decide)
        · exact h.single_dots hdots
      have hchars : (c.isAlphanum && (c :: rest).all isComponentChar) = true := by
        rw [Bool.and_eq_true, List.all_eq_true]
        exact ⟨hstart, hchars⟩
      rw [if_neg (mt hasSeparator_iff.mp hseparator), if_neg (mt hasDots_iff.mp hdots),
        if_pos hchars]

/-- What is said of a value that is no component: the first of these complaints that applies. -/
inductive Complaint (name : String) (value : List Char) : (message : String) → Prop
  | empty (h : value = []) : Complaint name value (name ++ " cannot be empty")
  | separator (h : HasSeparator value) :
      Complaint name value (name ++ " contains invalid path separator")
  | dots (hseparator : ¬ HasSeparator value) (h : HasDots value) :
      Complaint name value (name ++ " contains invalid path component")
  | characters (hne : value ≠ []) (hseparator : ¬ HasSeparator value) (hdots : ¬ HasDots value)
      (h : value.head?.all (·.isAlphanum) = false ∨
        ∃ c ∈ value, c.isAlphanum = false ∧ c ∉ ['-', '_', '.', '+']) :
      Complaint name value (name ++
        " contains invalid characters (allowed: alphanumeric, hyphen, underscore, dot, plus)")

theorem complaint_of_componentFault? {value : List Char} {fault : ComponentFault}
    (h : componentFault? value = some fault) (name : String) :
    Complaint name value (fault.message name) := by
  cases value with
  | nil =>
    obtain rfl : fault = .empty := by simpa [componentFault?, eq_comm] using h
    exact .empty rfl
  | cons c rest =>
    simp only [componentFault?] at h
    split_ifs at h with hseparator hdots hchars
    · obtain rfl := Option.some.inj h
      exact .separator (hasSeparator_iff.mp hseparator)
    · obtain rfl := Option.some.inj h
      exact .dots (mt hasSeparator_iff.mpr hseparator) (hasDots_iff.mp hdots)
    · obtain rfl := Option.some.inj h
      refine .characters (List.cons_ne_nil _ _) (mt hasSeparator_iff.mpr hseparator)
        (mt hasDots_iff.mpr hdots) ?_
      rw [Bool.not_eq_true, Bool.and_eq_false_iff, List.all_eq_false] at hchars
      refine hchars.imp id ?_
      rintro ⟨x, hx, hchar⟩
      rw [isComponentChar_iff, not_or, Bool.not_eq_true] at hchar
      exact ⟨x, hx, hchar⟩

namespace IsComponent

variable {value : List Char}

theorem ne_nil (h : IsComponent value) : value ≠ [] := by
  obtain ⟨c, rest, rfl, -⟩ := h.starts
  simp

theorem notMem (h : IsComponent value) {c : Char} (hc : isComponentChar c = false) :
    c ∉ value := by
  intro hmem
  rw [isComponentChar_iff.mpr (h.allowed c hmem)] at hc
  exact absurd hc (by decide)

theorem isName {text : String} (h : IsComponent text.toList) : IsName text := by
  obtain ⟨c, rest, htext, hstart⟩ := h.starts
  refine .of_toList_cons htext ?_ (h.notMem (by decide))
  rintro rfl
  exact absurd hstart (by decide)

end IsComponent

/-! ## Places -/

namespace Page

def IsAccepted (page : Page) : Prop :=
  ∀ part ∈ page.parts, IsComponent part.2.toList

/-- The first part of a page that is no component, and what it is called. -/
inductive IsFirstRefused (page : Page) : (name value : String) → Prop
  | crate (h : ¬ IsComponent page.crate.toList) : IsFirstRefused page "crate name" page.crate
  | version (hcrate : IsComponent page.crate.toList) (h : ¬ IsComponent page.version.toList) :
      IsFirstRefused page "version" page.version
  | segment {before s after} (hcrate : IsComponent page.crate.toList)
      (hversion : IsComponent page.version.toList)
      (hpath : page.modulePath = before ++ s :: after)
      (hbefore : ∀ t ∈ before, IsComponent t.toList) (h : ¬ IsComponent s.toList) :
      IsFirstRefused page "module path segment" s

variable {page : Page}

theorem isAccepted_iff :
    page.IsAccepted ↔ IsComponent page.crate.toList ∧ IsComponent page.version.toList ∧
      ∀ s ∈ page.modulePath, IsComponent s.toList := by
  simp [IsAccepted, parts]

theorem pathFault?_eq_none_iff : page.pathFault? = none ↔ page.IsAccepted := by
  simp only [pathFault?, List.findSome?_eq_none_iff, Option.map_eq_none_iff,
    componentFault?_eq_none_iff]
  rfl

theorem isFirstRefused_of_pathFault? {fault : PathFault} (h : page.pathFault? = some fault) :
    ∃ value, page.IsFirstRefused fault.part.text value ∧
      componentFault? value.toList = some fault.fault := by
  obtain ⟨before, ⟨part, value⟩, after, hparts, hfault, hbefore⟩ :=
    List.findSome?_eq_some_iff.mp h
  obtain ⟨f, hf, rfl⟩ := Option.map_eq_some_iff.mp hfault
  have hvalue : ¬ IsComponent value.toList := by
    rw [← componentFault?_eq_none_iff, hf]
    simp
  have hbefore : ∀ x ∈ before, IsComponent x.2.toList := fun x hx =>
    (componentFault?_eq_none_iff _).mp (Option.map_eq_none_iff.mp (hbefore x hx))
  refine ⟨value, ?_, hf⟩
  -- The first two parts are the crate and the version, and all others are segments.
  rcases before with _ | ⟨crate, _ | ⟨version, before⟩⟩
  · simp only [parts, List.nil_append, List.cons.injEq, Prod.mk.injEq] at hparts
    obtain ⟨⟨rfl, rfl⟩, -⟩ := hparts
    exact .crate hvalue
  · simp only [parts, List.cons_append, List.nil_append, List.cons.injEq, Prod.mk.injEq] at hparts
    obtain ⟨rfl, ⟨rfl, rfl⟩, -⟩ := hparts
    rw [List.forall_mem_singleton] at hbefore
    exact .version hbefore hvalue
  · simp only [parts, List.cons_append, List.cons.injEq] at hparts
    obtain ⟨rfl, rfl, hsegments⟩ := hparts
    obtain ⟨front, rest, hpath, rfl, hrest⟩ := List.map_eq_append_iff.mp hsegments
    obtain ⟨s, segments, rfl, hs, -⟩ := List.map_eq_cons_iff.mp hrest
    obtain ⟨rfl, rfl⟩ := Prod.mk.inj hs
    rw [List.forall_mem_cons, List.forall_mem_cons, List.forall_mem_map] at hbefore
    obtain ⟨hcrate, hversion, hfront⟩ := hbefore
    exact .segment hcrate hversion hpath hfront hvalue

/-! ## Files -/

/-- The name of a module starts like its first segment, and that of the root with a character that
no segment starts with. -/
theorem exists_stem_cons (h : page.IsAccepted) :
    ∃ c rest, page.stem.toList = c :: rest ∧
      (page.modulePath = [] ∧ c = '_' ∨ page.modulePath ≠ [] ∧ c.isAlphanum = true) := by
  have hsegments := (isAccepted_iff.mp h).2.2
  unfold stem
  cases hpath : page.modulePath with
  | nil => exact ⟨'_', ['r', 'o', 'o', 't'], by rfl, .inl ⟨rfl, rfl⟩⟩
  | cons s segments =>
    obtain ⟨c, rest, hs, hstart⟩ := (hsegments s (by simp [hpath])).starts
    obtain ⟨text, htext⟩ := Text.exists_join_cons ['.'] c rest (segments.map String.toList)
    exact ⟨c, text, by simp [hs, htext], .inr ⟨by simp, hstart⟩⟩

theorem isComponentChar_of_mem_stem (h : page.IsAccepted) {c : Char} (hc : c ∈ page.stem.toList) :
    isComponentChar c = true := by
  have hsegments := (isAccepted_iff.mp h).2.2
  unfold stem at hc
  cases hpath : page.modulePath with
  | nil =>
    have hroot : "_root".toList.all isComponentChar = true := by decide
    rw [hpath] at hc
    exact List.all_eq_true.mp hroot c hc
  | cons s segments =>
    rw [hpath, String.toList_ofList] at hc
    obtain hc | ⟨part, hpart, hc⟩ := Text.mem_join hc
    · rw [List.mem_singleton.mp hc]
      decide
    · obtain ⟨t, ht, rfl⟩ := List.mem_map.mp hpart
      exact isComponentChar_iff.mpr ((hsegments t (hpath ▸ ht)).allowed c hc)

theorem isComponentChar_of_mem_fileName (h : page.IsAccepted) {c : Char}
    (hc : c ∈ page.fileName.toList) : isComponentChar c = true := by
  rw [fileName, String.toList_append, List.mem_append] at hc
  have hending : ".js.zst".toList.all isComponentChar = true := by decide
  rcases hc with hc | hc
  · exact isComponentChar_of_mem_stem h hc
  · exact List.all_eq_true.mp hending c hc

theorem isName_fileName (h : page.IsAccepted) : IsName page.fileName := by
  obtain ⟨c, rest, hstem, hstart⟩ := exists_stem_cons h
  have htext : page.fileName.toList = c :: (rest ++ ".js.zst".toList) := by
    rw [fileName, String.toList_append, hstem, List.cons_append]
  refine .of_toList_cons htext ?_ ?_
  · rintro rfl
    rcases hstart with ⟨-, hc⟩ | ⟨-, hc⟩ <;> exact absurd hc (by decide)
  · intro hslash
    exact absurd (isComponentChar_of_mem_fileName h hslash) (by decide)

end Page

/-! ## Places below the folder -/

/-- The file is three steps below the folder, and none of them leads anywhere else. -/
structure CachePath.IsInside (folder : String) (path : CachePath) : Prop where
  names : ∀ name ∈ [path.crate, path.version, path.file],
    IsName name ∧ '\\' ∉ name.toList
  steps : pathSteps (path.pathIn folder) =
    pathSteps folder ++ [path.crate, path.version, path.file]
  place : ∀ disk : Disk, disk.placeOf (path.pathIn folder) =
    disk.placeOf folder ++ [path.crate, path.version, path.file]

namespace CachePath

variable {folder : String} {path other : CachePath}

theorem isInside_of_names
    (h : ∀ name ∈ [path.crate, path.version, path.file], IsName name ∧ '\\' ∉ name.toList) :
    path.IsInside folder := by
  have hcrate := (h path.crate (by simp)).1
  have hversion := (h path.version (by simp)).1
  have hfile := (h path.file (by simp)).1
  refine ⟨h, ?_, fun disk => ?_⟩
  · rw [pathIn, folderIn, pathSteps_joinPath _ hfile, pathSteps_joinPath _ hversion,
      pathSteps_joinPath _ hcrate]
    simp
  · rw [pathIn, folderIn, disk.placeOf_joinPath _ hfile, disk.placeOf_joinPath _ hversion,
      disk.placeOf_joinPath _ hcrate]
    simp

theorem IsInside.leadsThrough_folder (h : path.IsInside folder) :
    leadsThrough folder (path.pathIn folder) = true := by
  rw [leadsThrough, h.steps, List.isPrefixOf_iff_prefix]
  exact List.prefix_append _ _

/-- All files are equally far below the folder, so that none is on the way to another one. -/
theorem IsInside.eq_of_leadsThrough (h : path.IsInside folder) (hother : other.IsInside folder)
    (hleads : leadsThrough (path.pathIn folder) (other.pathIn folder) = true) : path = other := by
  rw [leadsThrough, h.steps, hother.steps, List.isPrefixOf_iff_prefix,
    List.prefix_append_right_inj] at hleads
  have hnames := hleads.eq_of_length rfl
  simp only [List.cons.injEq, and_true] at hnames
  obtain ⟨hcrate, hversion, hfile⟩ := hnames
  cases path
  cases other
  simp_all

end CachePath

namespace Page

variable {page : Page} {folder : String}

def place (page : Page) : CachePath :=
  ⟨page.crate, page.version, page.fileName⟩

theorem isInside_place (h : page.IsAccepted) (folder : String) : page.place.IsInside folder := by
  obtain ⟨hcrate, hversion, -⟩ := isAccepted_iff.mp h
  refine CachePath.isInside_of_names ?_
  rintro name hname
  simp only [List.mem_cons, List.not_mem_nil, or_false] at hname
  rcases hname with rfl | rfl | rfl
  · exact ⟨hcrate.isName, hcrate.notMem (by decide)⟩
  · exact ⟨hversion.isName, hversion.notMem (by decide)⟩
  · refine ⟨isName_fileName h, fun hmem => ?_⟩
    exact absurd (isComponentChar_of_mem_fileName h hmem) (by decide)

theorem placeIn_of_isAccepted (h : page.IsAccepted) (folder : String) :
    page.placeIn folder = .ok page.place := by
  have hpath : page.cachePath = .ok page.place := by
    rw [cachePath, pathFault?_eq_none_iff.mpr h]
    rfl
  simp only [placeIn, hpath]
  rw [if_pos (isInside_place h folder).leadsThrough_folder]

theorem placeIn_of_pathFault? {fault : PathFault} (h : page.pathFault? = some fault) :
    page.placeIn folder = .error (.part fault) := by
  simp [placeIn, cachePath, h]

theorem placeIn_eq_ok_iff {path : CachePath} :
    page.placeIn folder = .ok path ↔ page.IsAccepted ∧ path = page.place := by
  cases h : page.pathFault? with
  | none =>
    have haccepted := pathFault?_eq_none_iff.mp h
    simp [placeIn_of_isAccepted haccepted, haccepted, eq_comm]
  | some fault =>
    have hrefused : ¬ page.IsAccepted := by
      rw [← pathFault?_eq_none_iff, h]
      simp
    simp [placeIn_of_pathFault? h, hrefused]

/-- A page has a place exactly if its crate, its version and all segments are components. The file
is then three steps below the folder, and no folder of another file. Else the message names the
first of them that is no component; the path of a page is never outside. -/
theorem placeIn_inside (folder : String) (page : Page) :
    ((∃ path, page.placeIn folder = .ok path) ↔
      IsComponent page.crate.toList ∧ IsComponent page.version.toList ∧
        ∀ s ∈ page.modulePath, IsComponent s.toList) ∧
    (∀ path, page.placeIn folder = .ok path →
      path = ⟨page.crate, page.version, page.fileName⟩ ∧ path.IsInside folder ∧
      ∀ (other : Page) path', other.placeIn folder = .ok path' →
        leadsThrough (path.pathIn folder) (path'.pathIn folder) = true → path = path') ∧
    page.placeIn folder ≠ .error .outside ∧
    ∀ fault, page.placeIn folder = .error fault →
      ∃ name value, page.IsFirstRefused name value ∧
        Complaint name value.toList fault.message := by
  have hfault : ∀ fault, page.placeIn folder = .error fault →
      ∃ f, fault = .part f ∧ page.pathFault? = some f := by
    intro fault hfault
    cases h : page.pathFault? with
    | none =>
      rw [placeIn_of_isAccepted (pathFault?_eq_none_iff.mp h)] at hfault
      simp at hfault
    | some f =>
      rw [placeIn_of_pathFault? h, Except.error.injEq] at hfault
      exact ⟨f, hfault.symm, rfl⟩
  refine ⟨?_, ?_, ?_, ?_⟩
  · simp only [placeIn_eq_ok_iff, ← isAccepted_iff]
    exact ⟨fun ⟨_, h, _⟩ => h, fun h => ⟨_, h, rfl⟩⟩
  · intro path hpath
    obtain ⟨h, rfl⟩ := placeIn_eq_ok_iff.mp hpath
    refine ⟨rfl, isInside_place h folder, ?_⟩
    intro other path' hpath' hleads
    obtain ⟨h', rfl⟩ := placeIn_eq_ok_iff.mp hpath'
    exact (isInside_place h folder).eq_of_leadsThrough (isInside_place h' folder) hleads
  · intro houtside
    obtain ⟨f, hf, -⟩ := hfault .outside houtside
    simp at hf
  · intro fault herror
    obtain ⟨f, rfl, hf⟩ := hfault fault herror
    obtain ⟨value, hfirst, hvalue⟩ := isFirstRefused_of_pathFault? hf
    exact ⟨f.part.text, value, hfirst, complaint_of_componentFault? hvalue f.part.text⟩

end Page

end ModuleIndex

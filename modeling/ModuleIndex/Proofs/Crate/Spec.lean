import ModuleIndex.Proofs.Crate.ModulePath
import Mathlib.Data.List.Infix

/-!
# Specifications are read as they are written

A specification that is written in the documented form is read as its parts, and every accepted
text is read as a specification that can be written and read again. Which parts can hold an `@` or
a `::` is told by where these stand in the text.
-/

namespace ModuleIndex.Crate

/-! ## Heads -/

/-- What stands in front of the first `::` of a text, and the path behind it. -/
def headAndPath (text : List Char) : List Char × List Char :=
  (Text.cut? [':', ':'] text).getD (text, [])

theorem headAndPath_of_not_isInfix {text : List Char} (h : ¬ [':', ':'] <:+: text) :
    headAndPath text = (text, []) := by
  rw [headAndPath, (Text.cut?_eq_none_iff (List.cons_ne_nil _ _)).mpr h, Option.getD_none]

theorem headAndPath_append {head : List Char} (h : ¬ [':', ':'] <:+: head ++ [':'])
    (path : List Char) : headAndPath (head ++ [':', ':'] ++ path) = (head, path) := by
  rw [headAndPath, Text.cut?_append (List.cons_ne_nil _ _) h, Option.getD_some]

/-- A version stands between the first `@` and the path. -/
theorem split_eq (text : List Char) : split text =
    match Text.cut? ['@'] text with
    | some (name, rest) => (name, some (headAndPath rest).1, (headAndPath rest).2)
    | none => ((headAndPath text).1, none, (headAndPath text).2) := by
  simp only [split, headAndPath]
  cases Text.cut? ['@'] text with
  | none => cases Text.cut? [':', ':'] text <;> rfl
  | some parts =>
    obtain ⟨name, rest⟩ := parts
    cases hrest : Text.cut? [':', ':'] rest <;> simp [hrest]

/-- Segments as they are written behind a head, with separators at the end. -/
def pathText (segs : List (List Char)) (k : Nat) : List Char :=
  (segs.flatMap fun s => [':', ':'] ++ s) ++ separators k

theorem pathText_of_ne_nil {segs : List (List Char)} (h : segs ≠ []) (k : Nat) :
    pathText segs k = [':', ':'] ++ (Text.join [':', ':'] segs ++ separators k) := by
  match segs with
  | [s] => simp [pathText, Text.join]
  | s :: next :: segs =>
    have ih := pathText_of_ne_nil (List.cons_ne_nil next segs) k
    rw [pathText, List.flatMap_cons, List.append_assoc, ← pathText, ih,
      Text.join_cons s (List.cons_ne_nil next segs)]
    simp

theorem pathText_eq_append (segs : List (List Char)) (k : Nat) :
    pathText segs k = pathText segs 0 ++ separators k := by
  rw [pathText, pathText, separators_zero, List.append_nil]

theorem pathText_nil (k : Nat) : pathText [] k = separators k := rfl

/-- A head, and segments that can be told from it where they are written behind it. -/
structure IsHeaded (head : List Char) (segs : List (List Char)) (k : Nat) : Prop where
  isModulePath : IsModulePath segs
  not_isInfix : ¬ [':', ':'] <:+: head
  seam : pathText segs k ≠ [] → ¬ [':', ':'] <:+: head ++ [':']

theorem IsHeaded.exists_path {head : List Char} {segs : List (List Char)} {k : Nat}
    (h : IsHeaded head segs k) :
    ∃ path, headAndPath (head ++ pathText segs k) = (head, path) ∧ modulePathOf path = segs := by
  have hseam := h.seam
  by_cases hsegs : segs = []
  · subst hsegs
    cases k with
    | zero =>
      refine ⟨[], ?_, rfl⟩
      rw [pathText_nil, separators_zero, List.append_nil, headAndPath_of_not_isInfix h.not_isInfix]
    | succ k =>
      refine ⟨separators k, ?_, modulePathOf_join h.isModulePath k⟩
      rw [pathText_nil, separators_succ] at hseam ⊢
      rw [← List.append_assoc, headAndPath_append (hseam (by simp))]
  · refine ⟨Text.join [':', ':'] segs ++ separators k, ?_, modulePathOf_join h.isModulePath k⟩
    rw [pathText_of_ne_nil hsegs] at hseam ⊢
    rw [← List.append_assoc, headAndPath_append (hseam (by simp))]

/-- Nothing but the number of separators at the end is lost when a text is cut. -/
theorem exists_isHeaded {text head path : List Char} (hparts : headAndPath text = (head, path))
    (h : [] ∉ modulePathOf path) :
    ∃ k, IsHeaded head (modulePathOf path) k ∧ text = head ++ pathText (modulePathOf path) k := by
  have hpath := isModulePath_modulePathOf h
  cases hcut : Text.cut? [':', ':'] text with
  | none =>
    have hfound := (Text.cut?_eq_none_iff (List.cons_ne_nil _ _)).mp hcut
    rw [headAndPath_of_not_isInfix hfound, Prod.mk.injEq] at hparts
    obtain ⟨rfl, rfl⟩ := hparts
    exact ⟨0, ⟨hpath, hfound, fun hne => absurd rfl hne⟩, (List.append_nil text).symm⟩
  | some parts =>
    rw [headAndPath, hcut, Option.getD_some] at hparts
    subst hparts
    obtain ⟨rfl, hseam⟩ := (Text.cut?_eq_some_iff (List.cons_ne_nil _ _)).mp hcut
    have hfound : ¬ [':', ':'] <:+: head := fun hinner =>
      hseam (hinner.trans (List.prefix_append _ _).isInfix)
    obtain ⟨k, hk⟩ := exists_separators_withoutEnd path
    rw [← join_modulePathOf] at hk
    -- Without segments, the separator that the text is cut at is one of those at the end.
    by_cases hsegs : modulePathOf path = []
    · refine ⟨k + 1, ⟨hpath, hfound, fun _ => hseam⟩, ?_⟩
      rw [hsegs] at hk ⊢
      rw [hk, pathText_nil, separators_succ, List.append_assoc]
      rfl
    · refine ⟨k, ⟨hpath, hfound, fun _ => hseam⟩, ?_⟩
      rw [pathText_of_ne_nil hsegs, ← hk, List.append_assoc]

/-! ## Written specifications -/

/-- A specification as it is written, with separators at the end. -/
def spelling (name : List Char) (version : Option (List Char)) (segs : List (List Char))
    (k : Nat) : List Char :=
  match version with
  | some v => name ++ ['@'] ++ (v ++ pathText segs k)
  | none => name ++ pathText segs k

/-- The parts of a specification that is read from its text again. -/
structure IsSpelt (name : List Char) (version : Option (List Char)) (segs : List (List Char))
    (k : Nat) : Prop where
  name_not_blank : isBlankText name = false
  version_not_blank : ∀ v ∈ version, isBlankText v = false
  at_notMem_name : '@' ∉ name
  at_notMem_path : version = none → '@' ∉ pathText segs k
  isHeaded : IsHeaded (version.getD name) segs k

theorem ofParts_eq_ok_iff {name path : List Char} {version : Option (List Char)} {spec : Spec} :
    Spec.ofParts name version path = .ok spec ↔
      isBlankText name = false ∧ (∀ v ∈ version, isBlankText v = false) ∧
        [] ∉ modulePathOf path ∧
        spec = ⟨canonicalName (String.ofList name), version.map String.ofList,
          (modulePathOf path).map String.ofList⟩ := by
  have hany : version.any isBlankText = false ↔ ∀ v ∈ version, isBlankText v = false := by
    cases version <;> simp
  rw [← hany]
  unfold Spec.ofParts
  constructor
  · intro h
    split_ifs at h with hname hversion hpath
    exact ⟨by simpa using hname, by simpa using hversion, hpath, (Except.ok.inj h).symm⟩
  · rintro ⟨hname, hversion, hpath, rfl⟩
    rw [if_neg (by simp [hname]), if_neg (by simp [hversion]), if_neg hpath]

/-! ## The first `@` -/

theorem cut?_at_append {name : List Char} (h : '@' ∉ name) (rest : List Char) :
    Text.cut? ['@'] (name ++ ['@'] ++ rest) = some (name, rest) :=
  Text.cut?_append (List.cons_ne_nil _ _) (by simpa [List.singleton_infix_iff] using h) rest

theorem cut?_at_eq_none_iff {text : List Char} : Text.cut? ['@'] text = none ↔ '@' ∉ text := by
  rw [Text.cut?_eq_none_iff (List.cons_ne_nil _ _), List.singleton_infix_iff]

theorem cut?_at_eq_some_iff {text name rest : List Char} :
    Text.cut? ['@'] text = some (name, rest) ↔ text = name ++ ['@'] ++ rest ∧ '@' ∉ name := by
  rw [Text.cut?_eq_some_iff (List.cons_ne_nil _ _), List.singleton_infix_iff]
  simp

/-! ## Accepted texts -/

/-- The accepted texts are the spellings, with any number of separators at the end. -/
theorem parse_eq_ok_iff {text : String} {spec : Spec} :
    Spec.parse text = .ok spec ↔
      ∃ name version segs k, IsSpelt name version segs k ∧
        text.toList = spelling name version segs k ∧
        spec = ⟨canonicalName (String.ofList name), version.map String.ofList,
          segs.map String.ofList⟩ := by
  unfold Spec.parse
  rw [split_eq]
  constructor
  · intro h
    cases hcut : Text.cut? ['@'] text.toList with
    | none =>
      cases hparts : headAndPath text.toList with | mk name path
      simp only [hcut, hparts] at h
      obtain ⟨hname, -, hpath, rfl⟩ := ofParts_eq_ok_iff.mp h
      obtain ⟨k, hheaded, htext⟩ := exists_isHeaded hparts hpath
      have hat := cut?_at_eq_none_iff.mp hcut
      rw [htext, List.mem_append, not_or] at hat
      exact ⟨name, none, _, k, ⟨hname, by simp, hat.1, fun _ => hat.2, hheaded⟩, htext, rfl⟩
    | some parts =>
      obtain ⟨name, rest⟩ := parts
      cases hparts : headAndPath rest with | mk v path
      simp only [hcut, hparts] at h
      obtain ⟨hname, hversion, hpath, rfl⟩ := ofParts_eq_ok_iff.mp h
      obtain ⟨k, hheaded, rfl⟩ := exists_isHeaded hparts hpath
      obtain ⟨htext, hat⟩ := cut?_at_eq_some_iff.mp hcut
      exact ⟨name, some v, _, k, ⟨hname, hversion, hat, fun hnone => by simp at hnone, hheaded⟩,
        htext, rfl⟩
  · rintro ⟨name, version, segs, k, h, htext, rfl⟩
    obtain ⟨path, hparts, rfl⟩ := h.isHeaded.exists_path
    rw [htext]
    cases version with
    | none =>
      have hcut : Text.cut? ['@'] (spelling name none (modulePathOf path) k) = none := by
        rw [cut?_at_eq_none_iff, spelling, List.mem_append, not_or]
        exact ⟨h.at_notMem_name, h.at_notMem_path rfl⟩
      have hparts : headAndPath (spelling name none (modulePathOf path) k) = (name, path) := hparts
      simp only [hcut, hparts]
      exact ofParts_eq_ok_iff.mpr ⟨h.name_not_blank, by simp,
        h.isHeaded.isModulePath.nil_notMem, rfl⟩
    | some v =>
      have hparts : headAndPath (v ++ pathText (modulePathOf path) k) = (v, path) := hparts
      simp only [spelling, cut?_at_append h.at_notMem_name, hparts]
      exact ofParts_eq_ok_iff.mpr ⟨h.name_not_blank, h.version_not_blank,
        h.isHeaded.isModulePath.nil_notMem, rfl⟩

/-! ## Canonical names -/

def canonicalChar (c : Char) : Char :=
  if c = '-' then '_' else c

theorem canonicalName_ofList (name : List Char) :
    canonicalName (String.ofList name) = String.ofList (name.map canonicalChar) := by
  rw [canonicalName, String.toList_ofList]
  rfl

theorem canonicalChar_eq_iff {c d : Char} (hd : d ≠ '-' ∧ d ≠ '_') :
    canonicalChar c = d ↔ c = d := by
  unfold canonicalChar
  split_ifs with hc
  · subst hc
    exact ⟨fun h => absurd h.symm hd.2, fun h => absurd h.symm hd.1⟩
  · rfl

theorem canonicalChar_canonicalChar (c : Char) :
    canonicalChar (canonicalChar c) = canonicalChar c := by
  by_cases hc : c = '-'
  · subst hc
    rfl
  · rw [canonicalChar, if_neg]
    rw [canonicalChar, if_neg hc]
    exact hc

theorem isBlankText_canonical (name : List Char) :
    isBlankText (name.map canonicalChar) = isBlankText name := by
  have hchar (c : Char) : Text.isBlank (canonicalChar c) = Text.isBlank c := by
    by_cases hc : c = '-'
    · subst hc
      rfl
    · rw [canonicalChar, if_neg hc]
  simp only [isBlankText, List.all_map, Function.comp_def, hchar]

theorem at_mem_canonical {name : List Char} : '@' ∈ name.map canonicalChar ↔ '@' ∈ name := by
  simp [canonicalChar_eq_iff]

theorem isInfix_canonical {text : List Char} :
    [':', ':'] <:+: text.map canonicalChar ↔ [':', ':'] <:+: text := by
  rw [List.infix_map_iff]
  constructor
  · rintro ⟨part, hpart, heq⟩
    obtain ⟨c, rest, rfl, hc, hrest⟩ := List.map_eq_cons_iff.mp heq.symm
    obtain ⟨d, rest, rfl, hd, hnil⟩ := List.map_eq_cons_iff.mp hrest
    obtain rfl := List.map_eq_nil_iff.mp hnil
    rw [canonicalChar_eq_iff (by decide)] at hc hd
    rwa [hc, hd] at hpart
  · exact fun h => ⟨_, h, rfl⟩

theorem IsHeaded.canonical {head : List Char} {segs : List (List Char)} {k : Nat}
    (h : IsHeaded head segs k) : IsHeaded (head.map canonicalChar) segs k := by
  have hmap : head.map canonicalChar ++ [':'] = (head ++ [':']).map canonicalChar := by
    rw [List.map_append]
    rfl
  refine ⟨h.isModulePath, ?_, fun hne => ?_⟩
  · rw [isInfix_canonical]
    exact h.not_isInfix
  · rw [hmap, isInfix_canonical]
    exact h.seam hne

theorem IsHeaded.withoutSeparators {head : List Char} {segs : List (List Char)} {k : Nat}
    (h : IsHeaded head segs k) : IsHeaded head segs 0 := by
  refine ⟨h.isModulePath, h.not_isInfix, fun hne => h.seam ?_⟩
  rw [pathText_eq_append]
  exact List.append_ne_nil_of_left_ne_nil hne _

/-- A specification stays one if its name is made canonical and the separators at its end go. -/
theorem IsSpelt.canonical {name : List Char} {version : Option (List Char)}
    {segs : List (List Char)} {k : Nat} (h : IsSpelt name version segs k) :
    IsSpelt (name.map canonicalChar) version segs 0 := by
  have hheaded := h.isHeaded.withoutSeparators
  refine ⟨?_, h.version_not_blank, ?_, ?_, ?_⟩
  · rw [isBlankText_canonical, h.name_not_blank]
  · rw [at_mem_canonical]
    exact h.at_notMem_name
  · intro hnone hmem
    refine h.at_notMem_path hnone ?_
    rw [pathText_eq_append]
    exact List.mem_append_left _ hmem
  · cases version with
    | none => exact hheaded.canonical
    | some v => exact hheaded

/-! ## Writing a specification -/

/-- The documented form of a specification. -/
def Spec.text (spec : Spec) : String :=
  spec.name ++ spec.version.elim "" ("@" ++ ·) ++ String.join (spec.modulePath.map ("::" ++ ·))

theorem toList_text (spec : Spec) (k : Nat) :
    (spec.text ++ String.join (List.replicate k "::")).toList =
      spelling spec.name.toList (spec.version.map String.toList)
        (spec.modulePath.map String.toList) k := by
  obtain ⟨name, version, segs⟩ := spec
  have hpath : (String.join (segs.map ("::" ++ ·))).toList ++
      (String.join (List.replicate k "::")).toList = pathText (segs.map String.toList) k := by
    rw [String.toList_join, String.toList_join, List.flatMap_map, pathText, List.flatMap_map,
      separators, List.flatMap_replicate]
    simp
  cases version with
  | none => simp [Spec.text, spelling, ← hpath]
  | some v => simp [Spec.text, spelling, ← hpath]

theorem parse_text (spec : Spec) {k : Nat}
    (h : IsSpelt spec.name.toList (spec.version.map String.toList)
      (spec.modulePath.map String.toList) k) :
    Spec.parse (spec.text ++ String.join (List.replicate k "::")) =
      .ok { spec with name := canonicalName spec.name } := by
  refine parse_eq_ok_iff.mpr ⟨_, _, _, k, h, toList_text spec k, ?_⟩
  simp [Option.map_map, Function.comp_def]

theorem isBlankText_eq_false_iff {text : List Char} :
    isBlankText text = false ↔ ∃ c ∈ text, Text.isBlank c = false := by
  simp [isBlankText]

theorem at_mem_pathText {segs : List (List Char)} {k : Nat} :
    '@' ∈ pathText segs k ↔ ∃ s ∈ segs, '@' ∈ s := by
  simp [pathText, separators, List.mem_flatMap]

/-- A specification in the documented form is read as its parts, with separators at the end or
without. And what has been read is read from its documented form again. -/
theorem parse_documented_form :
    (∀ name version segs k, (∃ c ∈ name.toList, Text.isBlank c = false) →
      '@' ∉ name.toList → ':' ∉ name.toList →
      (∀ v ∈ version, (∃ c ∈ v.toList, Text.isBlank c = false) ∧ ':' ∉ v.toList) →
      (∀ s ∈ segs, s ≠ "" ∧ ':' ∉ s.toList) →
      (version = none → ∀ s ∈ segs, '@' ∉ s.toList) →
      Spec.parse (Spec.text ⟨name, version, segs⟩ ++ String.join (List.replicate k "::")) =
        .ok ⟨canonicalName name, version, segs⟩) ∧
    ∀ text spec, Spec.parse text = .ok spec → Spec.parse spec.text = .ok spec := by
  constructor
  · intro name version segs k hname hat hcolon hversion hsegs hpath
    have hsegments : IsModulePath (segs.map String.toList) := by
      apply isModulePath_of_notMem
      rw [List.forall_mem_map]
      exact fun s hs => ⟨by simpa using (hsegs s hs).1, (hsegs s hs).2⟩
    have hhead : ':' ∉ (version.map String.toList).getD name.toList := by
      cases version with
      | none => exact hcolon
      | some v => exact (hversion v rfl).2
    refine parse_text _ ⟨isBlankText_eq_false_iff.mpr hname, ?_, hat, ?_, hsegments,
      not_isInfix_of_notMem hhead, fun _ => not_isInfix_concat hhead⟩
    · intro v hv
      obtain ⟨text, htext, rfl⟩ := Option.map_eq_some_iff.mp hv
      exact isBlankText_eq_false_iff.mpr (hversion text htext).1
    · intro hnone hmem
      obtain ⟨s, hs, hmem⟩ := at_mem_pathText.mp hmem
      obtain ⟨text, htext, rfl⟩ := List.mem_map.mp hs
      exact hpath (Option.map_eq_none_iff.mp hnone) text htext hmem
  · intro text spec h
    obtain ⟨name, version, segs, k, hspelt, -, rfl⟩ := parse_eq_ok_iff.mp h
    rw [canonicalName_ofList]
    have hread := parse_text ⟨String.ofList (name.map canonicalChar), version.map String.ofList,
      segs.map String.ofList⟩ (by simpa [Function.comp_def] using hspelt.canonical)
    simpa [canonicalName_ofList, canonicalChar_canonicalChar, Function.comp_def] using hread

/-- A name with a hyphen and signs that are read as a part of what they stand in. -/
theorem parse_documented_form_signs :
    Spec.parse (Spec.text ⟨"to-kio", some "1@2", ["sync", "m@c"]⟩ ++
      String.join (List.replicate 2 "::")) = .ok ⟨"to_kio", some "1@2", ["sync", "m@c"]⟩ ∧
    Spec.parse "a:::b:::" = .ok ⟨"a", none, [":b:"]⟩ ∧
    Spec.parse (Spec.text ⟨"a", none, [":b:"]⟩) = .ok ⟨"a", none, [":b:"]⟩ :=
  ⟨parse_documented_form.1 "to-kio" (some "1@2") ["sync", "m@c"] 2 ⟨'t', by decide, rfl⟩
      (by decide) (by decide) (by rintro _ ⟨rfl⟩; exact ⟨⟨'1', by decide, rfl⟩, by decide⟩)
      (by decide) (by decide),
    rfl, parse_documented_form.2 "a:::b:::" _ rfl⟩

/-! ## Empty segments -/

theorem withoutEnd_ne_nil {c : Char} (hc : c ≠ ':') (path rest : List Char) :
    withoutEnd (path ++ c :: rest) ≠ [] := by
  rw [withoutEnd_append_cons hc]
  simp

/-- Two separators in a row leave an empty segment if other characters follow. -/
theorem nil_mem_modulePathOf {text head path before after : List Char}
    (hparts : headAndPath text = (head, path))
    (htext : text = before ++ [':', ':', ':', ':'] ++ after) (hafter : ∃ c ∈ after, c ≠ ':') :
    [] ∈ modulePathOf path := by
  obtain ⟨c, hc, hcolon⟩ := hafter
  obtain ⟨middle, rest, rfl⟩ := List.append_of_mem hc
  have hfound : [':', ':'] <:+: text :=
    ⟨before, [':', ':'] ++ (middle ++ c :: rest), by rw [htext]; simp⟩
  cases hcut : Text.cut? [':', ':'] text with
  | none => exact absurd hfound ((Text.cut?_eq_none_iff (List.cons_ne_nil _ _)).mp hcut)
  | some parts =>
    rw [headAndPath, hcut, Option.getD_some] at hparts
    subst hparts
    obtain ⟨hhead, hseam⟩ := (Text.cut?_eq_some_iff (List.cons_ne_nil _ _)).mp hcut
    have hsplit : text = before ++ [':', ':'] ++ ([':', ':'] ++ (middle ++ c :: rest)) := by
      rw [htext]
      simp
    have hlength : head.length ≤ before.length :=
      Text.length_le_of_cut? (List.cons_ne_nil _ _) (hsplit ▸ hcut)
    -- The cut is in front of the two separators, so that all that follows them is in the path.
    have hrest : c :: rest <:+ text :=
      ⟨before ++ [':', ':', ':', ':'] ++ middle, by rw [htext]; simp⟩
    have hpath : path <:+ text := ⟨head ++ [':', ':'], hhead.symm⟩
    have hshort : (c :: rest).length ≤ path.length := by
      have htotal := congrArg List.length (hsplit.symm.trans hhead)
      simp only [List.length_append, List.length_cons, List.length_nil] at htotal ⊢
      omega
    obtain ⟨front, rfl⟩ := List.suffix_of_suffix_length_le hrest hpath hshort
    have hend : withoutEnd text = head ++ [':', ':'] ++ withoutEnd (front ++ c :: rest) := by
      rw [hhead, withoutEnd_append_cons hcolon front, ← List.append_assoc _ front,
        withoutEnd_append_cons hcolon, List.append_assoc _ front]
    have hend' : withoutEnd text =
        before ++ [':', ':', ':', ':'] ++ (middle ++ c :: withoutEnd rest) := by
      rw [htext, ← List.append_assoc, withoutEnd_append_cons hcolon, List.append_assoc _ middle]
    have hnil := nil_mem_tail_segments before (middle ++ c :: withoutEnd rest)
    rw [← hend', hend, segments_append hseam, List.tail_cons] at hnil
    rw [modulePathOf_eq, if_neg (withoutEnd_ne_nil hcolon front rest)]
    exact hnil

/-! ## Signs in the parts -/

/-- If a text has only one `@`, then it is the one behind the name. -/
theorem IsSpelt.at_notMem {name : List Char} {version : Option (List Char)}
    {segs : List (List Char)} {k : Nat} (h : IsSpelt name version segs k)
    (hcount : (spelling name version segs k).count '@' ≤ 1) :
    (∀ v ∈ version, '@' ∉ v) ∧ ∀ s ∈ segs, '@' ∉ s := by
  cases version with
  | none =>
    have hpath := h.at_notMem_path rfl
    exact ⟨by simp, fun s hs hmem => hpath (at_mem_pathText.mpr ⟨s, hs, hmem⟩)⟩
  | some v =>
    have hrest : '@' ∉ v ++ pathText segs k := by
      rw [spelling, List.count_append, List.count_append, List.count_singleton_self] at hcount
      rw [← List.count_eq_zero]
      omega
    rw [List.mem_append, not_or] at hrest
    refine ⟨?_, fun s hs hmem => hrest.2 (at_mem_pathText.mpr ⟨s, hs, hmem⟩)⟩
    rintro _ ⟨rfl⟩
    exact hrest.1

/-- The path of a text has the empty segment that stands in the text, unless the first `@` is
behind it. -/
theorem split_empty_segment {text before after : List Char}
    (htext : text = before ++ [':', ':', ':', ':'] ++ after) (hafter : ∃ c ∈ after, c ≠ ':')
    (hat : '@' ∈ before ∨ '@' ∉ after) :
    ∃ path, (∃ name version, split text = (name, version, path)) ∧ [] ∈ modulePathOf path := by
  by_cases hbefore : '@' ∈ before
  · obtain ⟨name, front, rfl, hname⟩ := List.eq_append_cons_of_mem hbefore
    have hcut : Text.cut? ['@'] text =
        some (name, front ++ [':', ':', ':', ':'] ++ after) := by
      rw [htext, ← cut?_at_append hname]
      simp
    cases hparts : headAndPath (front ++ [':', ':', ':', ':'] ++ after) with
    | mk v path =>
      refine ⟨path, ⟨name, some v, ?_⟩, nil_mem_modulePathOf hparts rfl hafter⟩
      simp only [split_eq, hcut, hparts]
  · have hcut : Text.cut? ['@'] text = none := by
      rw [cut?_at_eq_none_iff, htext]
      simpa [hbefore] using hat
    cases hparts : headAndPath text with
    | mk name path =>
      refine ⟨path, ⟨name, none, ?_⟩, nil_mem_modulePathOf hparts htext hafter⟩
      simp only [split_eq, hcut, hparts]

/-- Where a sign can stand in what is accepted: the name ends at the first `@`, the version at the
first `::` behind it, and no segment is empty or holds a `::`. -/
theorem signs_in_parts :
    (∀ text spec, Spec.parse text = .ok spec →
      '@' ∉ spec.name.toList ∧
      ((∀ before after, text.toList = before ++ '@' :: after → '@' ∉ before →
          ¬ [':', ':'] <:+: before) → ¬ [':', ':'] <:+: spec.name.toList) ∧
      (∀ v ∈ spec.version, ¬ [':', ':'] <:+: v.toList) ∧
      (∀ s ∈ spec.modulePath, s ≠ "" ∧ ¬ [':', ':'] <:+: s.toList) ∧
      (text.toList.count '@' ≤ 1 →
        (∀ v ∈ spec.version, '@' ∉ v.toList) ∧ ∀ s ∈ spec.modulePath, '@' ∉ s.toList)) ∧
    ∀ text : String, ∀ before after,
      text.toList = before ++ [':', ':', ':', ':'] ++ after → (∃ c ∈ after, c ≠ ':') →
      '@' ∈ before ∨ '@' ∉ after → ∃ fault, Spec.parse text = .error fault := by
  constructor
  · intro text spec h
    obtain ⟨name, version, segs, k, hspelt, htext, rfl⟩ := parse_eq_ok_iff.mp h
    have hpath := hspelt.isHeaded.isModulePath
    simp only [canonicalName_ofList, String.toList_ofList]
    refine ⟨at_mem_canonical.not.mpr hspelt.at_notMem_name, fun hfront => ?_, ?_, ?_, ?_⟩
    · rw [isInfix_canonical]
      cases version with
      | none => exact hspelt.isHeaded.not_isInfix
      | some v => exact hfront name _ (by simpa [spelling] using htext) hspelt.at_notMem_name
    · intro v hv
      obtain ⟨v, rfl, rfl⟩ := Option.map_eq_some_iff.mp hv
      rw [String.toList_ofList]
      exact hspelt.isHeaded.not_isInfix
    · rw [List.forall_mem_map]
      intro s hs
      rw [String.toList_ofList]
      refine ⟨fun hempty => hpath.nil_notMem ?_, ?_⟩
      · rwa [String.ofList_eq_empty_iff.mp hempty] at hs
      · exact (hpath.isCut (List.ne_nil_of_mem hs)).not_isInfix s hs
    · intro hcount
      obtain ⟨hversion, hsegs⟩ := hspelt.at_notMem (htext ▸ hcount)
      refine ⟨?_, ?_⟩
      · intro v hv
        obtain ⟨v, hmem, rfl⟩ := Option.map_eq_some_iff.mp hv
        simpa using hversion v hmem
      · rw [List.forall_mem_map]
        exact fun s hs => by simpa using hsegs s hs
  · intro text before after htext hafter hat
    obtain ⟨path, ⟨name, version, hsplit⟩, hpath⟩ := split_empty_segment htext hafter hat
    cases hparse : Spec.parse text with
    | error fault => exact ⟨fault, rfl⟩
    | ok spec =>
      rw [Spec.parse, hsplit] at hparse
      exact absurd hpath (ofParts_eq_ok_iff.mp hparse).2.2.1

/-- A path in front of the first `@` is a part of the name, and a second `@` a part of the version
or of a segment. -/
theorem signs_left_in_parts :
    Spec.parse "a::m@1" = .ok ⟨"a::m", some "1", []⟩ ∧ [':', ':'] <:+: "a::m".toList ∧
    Spec.parse "a@1@2::m" = .ok ⟨"a", some "1@2", ["m"]⟩ ∧ '@' ∈ "1@2".toList ∧
    Spec.parse "a@1::m@2" = .ok ⟨"a", some "1", ["m@2"]⟩ ∧ '@' ∈ "m@2".toList :=
  ⟨rfl, ⟨['a'], ['m'], rfl⟩, rfl, by decide, rfl, by decide⟩

/-- One `@` in all, and an empty segment behind it. -/
theorem signs_in_parts_one_at :
    (∀ v ∈ some "1", '@' ∉ v.toList) ∧ (∃ fault, Spec.parse "a@1::::b" = .error fault) :=
  ⟨((signs_in_parts.1 "a@1::b::" ⟨"a", some "1", ["b"]⟩ rfl).2.2.2.2 (by decide)).1,
    signs_in_parts.2 "a@1::::b" ['a', '@', '1'] ['b'] rfl
      ⟨'b', by decide, by decide⟩ (.inl (by decide))⟩

end ModuleIndex.Crate

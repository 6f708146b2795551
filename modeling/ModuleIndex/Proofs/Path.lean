import ModuleIndex.Store.Disk
import Mathlib.Data.List.Basic
import Mathlib.Tactic.SplitIfs

/-!
# Paths below a folder

A name that is joined to the path of a folder leads one step down from it, whatever the path of
the folder looks like.
-/

namespace ModuleIndex

/-! ## Names of paths -/

/-- A name that leads down from a folder. -/
structure IsName (name : String) : Prop where
  ne_empty : name ≠ ""
  ne_dot : name ≠ "."
  ne_dots : name ≠ ".."
  slash_notMem : '/' ∉ name.toList

theorem IsName.staysInPlace {name : String} (h : IsName name) : staysInPlace name = false := by
  simp [ModuleIndex.staysInPlace, h.ne_empty, h.ne_dot]

theorem IsName.of_toList_cons {name : String} {c : Char} {rest : List Char}
    (htext : name.toList = c :: rest) (hc : c ≠ '.') (hslash : '/' ∉ name.toList) :
    IsName name := by
  refine ⟨?_, ?_, ?_, hslash⟩
  · rintro rfl
    simp at htext
  · rintro rfl
    exact hc (List.cons.inj htext).1.symm
  · rintro rfl
    exact hc (List.cons.inj htext).1.symm

theorem pathNames_append_slash (folder path : String) :
    pathNames (folder ++ "/" ++ path) = pathNames folder ++ pathNames path := by
  have htext : (folder ++ "/" ++ path).toList = folder.toList ++ '/' :: path.toList := by simp
  rw [pathNames, htext, List.splitOn_eq_splitOnP,
    List.splitOnP_append_cons _ _ (by simp), List.map_append]
  rfl

theorem pathNames_of_notMem {path : String} (h : '/' ∉ path.toList) : pathNames path = [path] := by
  rw [pathNames, List.splitOn_eq_singleton h, List.map_singleton, String.ofList_toList]

theorem pathNames_join_append {names : List String} (h : ∀ name ∈ names, '/' ∉ name.toList)
    (path : String) :
    pathNames (String.join (names.map fun name => name ++ "/") ++ path) =
      names ++ pathNames path := by
  induction names with
  | nil => simp
  | cons name names ih =>
    rw [List.forall_mem_cons] at h
    rw [List.map_cons, String.join_cons, String.append_assoc, pathNames_append_slash,
      pathNames_of_notMem h.1, ih h.2]
    rfl

theorem isRooted_of_notMem {path : String} (h : '/' ∉ path.toList) : isRooted path = false := by
  rw [isRooted, decide_eq_false_iff_not]
  exact fun hhead => h (List.mem_of_head? hhead)

theorem isRooted_append {folder : String} (h : folder ≠ "") (path : String) :
    isRooted (folder ++ path) = isRooted folder := by
  rw [isRooted, isRooted, String.toList_append, List.head?_append_of_ne_nil]
  exact fun hempty => h (String.toList_eq_nil_iff.mp hempty)

/-! ## One step down -/

/-- The name comes behind the names of the folder, but for an empty one at the end of these. -/
theorem exists_pathNames_joinPath (folder : String) {name : String} (h : IsName name) :
    ∃ names final, (final = [] ∨ final = [""]) ∧ pathNames folder = names ++ final ∧
      pathNames (joinPath folder name) = names ++ [name] ∧
      isRooted (joinPath folder name) = isRooted folder := by
  have hname := pathNames_of_notMem h.slash_notMem
  have hroot := isRooted_of_notMem h.slash_notMem
  unfold joinPath
  rw [hroot, if_neg Bool.false_ne_true]
  by_cases hempty : folder = ""
  · subst hempty
    refine ⟨[], [""], .inr rfl, rfl, ?_, ?_⟩
    · simpa using hname
    · exact hroot
  by_cases hslash : folder.toList.getLast? = some '/'
  · -- Behind the slash at its end, the folder has an empty name, which the new one replaces.
    obtain ⟨text, htext⟩ := List.getLast?_eq_some_iff.mp hslash
    have hfolder : folder = String.ofList text ++ "/" ++ "" := by
      apply String.toList_injective
      simp [htext]
    rw [if_pos (by simp [hslash])]
    refine ⟨pathNames (String.ofList text), [""], .inr rfl, ?_, ?_, isRooted_append hempty name⟩
    · rw [hfolder, pathNames_append_slash]
      rfl
    · rw [hfolder, String.append_empty, pathNames_append_slash, hname]
  · rw [if_neg (by simp [hempty, hslash])]
    refine ⟨pathNames folder, [], .inl rfl, by simp, ?_, ?_⟩
    · rw [pathNames_append_slash, hname]
    · rw [String.append_assoc, isRooted_append hempty]

theorem pathSteps_joinPath (folder : String) {name : String} (h : IsName name) :
    pathSteps (joinPath folder name) = pathSteps folder ++ [name] := by
  obtain ⟨names, final, hfinal, hfolder, hpath, hroot⟩ := exists_pathNames_joinPath folder h
  have hhead : (pathNames (joinPath folder name)).head? = some "." ↔
      (pathNames folder).head? = some "." := by
    rw [hfolder, hpath]
    cases names with
    | nil => rcases hfinal with rfl | rfl <;> simp [h.ne_dot]
    | cons first names => simp
  have hblank : final.filter (fun n => !staysInPlace n) = [] := by
    rcases hfinal with rfl | rfl <;> rfl
  simp only [pathSteps, hroot, hhead]
  rw [hfolder, hpath, List.filter_append, List.filter_append, hblank]
  split_ifs <;> simp [h.staysInPlace]

theorem Disk.placeOf_joinPath (disk : Disk) (folder : String) {name : String} (h : IsName name) :
    disk.placeOf (joinPath folder name) = disk.placeOf folder ++ [name] := by
  obtain ⟨names, final, hfinal, hfolder, hpath, hroot⟩ := exists_pathNames_joinPath folder h
  have hstep : ∀ place : DiskPlace, place.next name = place ++ [name] := by
    intro place
    simp [DiskPlace.next, h.staysInPlace, h.ne_dots]
  have hblank : ∀ place : DiskPlace, final.foldl DiskPlace.next place = place := by
    rcases hfinal with rfl | rfl <;> intro place <;> rfl
  simp only [placeOf, start, hroot, hfolder, hpath, List.foldl_append, hblank]
  exact hstep _

end ModuleIndex

import ModuleIndex.Proofs.Json.Locality
import ModuleIndex.Proofs.Json.Names
import Mathlib.Data.List.Induction
import Mathlib.Data.List.TakeWhile

/-!
# Objects and what was written into them

A text is read as an object exactly if fields are written in it. The object keeps one field for
each name: the last one that was written.
-/

namespace ModuleIndex.Json

variable {text : List Char} {written fs : List (String × Value)} {key name : String} {v w : Value}

/-! ## Texts of objects -/

/-- The fields are written in the text, in their order and with gaps around the braces. -/
def WritesObject (text : List Char) (written : List (String × Value)) : Prop :=
  ∃ before front after, IsGap before ∧ IsGap after ∧
    text = before ++ '{' :: (front ++ after) ∧
    PartsText (FieldText (value (maxLevels - 1))) '}' front written

theorem skipSpace_eq_nil_iff : skipSpace text = [] ↔ IsGap text := by
  rw [skipSpace, List.dropWhile_eq_nil_iff]
  rfl

theorem parseEnd_eq_ok_iff {rest : List Char} : parseEnd text rest = .ok () ↔ IsGap rest := by
  rw [← skipSpace_eq_nil_iff, parseEnd]
  split
  · next hnil => simp [hnil]
  · next hne => simpa using hne

theorem parse_eq_ok_iff :
    parse text = .ok v ↔ ∃ rest, value maxLevels text = .ok (v, rest) ∧ IsGap rest := by
  unfold parse parseStart
  cases value maxLevels text with
  | error fault => simp [Except.mapError, bind, Except.bind]
  | ok read =>
    obtain ⟨w, rest⟩ := read
    cases hend : parseEnd text rest with
    | error fault =>
      have hrest : ¬ IsGap rest := by
        intro hrest
        have hok : parseEnd text rest = .ok () := parseEnd_eq_ok_iff.mpr hrest
        simp [hend] at hok
      simp [Except.mapError, hend, hrest, bind, Except.bind]
    | ok _ =>
      have hrest : IsGap rest := parseEnd_eq_ok_iff.mp hend
      simp [Except.mapError, hend, hrest, bind, Except.bind]

theorem exists_fields_of_value {levels : Nat} {rest : List Char}
    (h : value (levels + 1) text = .ok (.object fs, rest)) :
    ∃ gap tail, IsGap gap ∧ text = gap ++ '{' :: tail ∧
      fields (value levels) tail = .ok (fs, rest) := by
  obtain ⟨gap, hgap, htext⟩ := exists_skipSpace text
  unfold value at h
  split at h
  case h_1 => simp at h
  case h_2 | h_3 | h_4 | h_5 | h_6 =>
    obtain ⟨_, -, h⟩ := exists_of_map_eq_ok h
    simp at h
  case h_7 tail hskip =>
    obtain ⟨⟨gs, _⟩, hfields, h⟩ := exists_of_map_eq_ok h
    obtain ⟨rfl, rfl⟩ := by simpa using h
    exact ⟨gap, tail, hgap, hskip ▸ htext, hfields⟩
  case h_8 =>
    split at h
    · obtain ⟨_, -, h⟩ := exists_of_map_eq_ok h
      simp at h
    · simp at h

theorem parse_of_writesObject (h : WritesObject text written) :
    parse text = .ok (.object (mergedInto [] written)) := by
  obtain ⟨before, front, after, hbefore, hafter, rfl, hfront⟩ := h
  refine parse_eq_ok_iff.mpr ⟨after, ?_, hafter⟩
  rw [show maxLevels = maxLevels - 1 + 1 from rfl, ← List.cons_append, ← List.append_assoc]
  exact value_gap hbefore (value_object (reads_fields hfront)) after

theorem exists_writesObject (h : parse text = .ok (.object fs)) :
    ∃ written, WritesObject text written ∧ fs = mergedInto [] written := by
  obtain ⟨rest, hvalue, hrest⟩ := parse_eq_ok_iff.mp h
  obtain ⟨gap, tail, hgap, rfl, hfields⟩ := exists_fields_of_value hvalue
  obtain ⟨front, written, rfl, hfront, rfl⟩ :=
    exists_partsText_of_fields (isLocal_value _) hfields
  exact ⟨written, ⟨gap, front, rest, hgap, hrest, rfl, hfront⟩, rfl⟩

/-- Every layout writes the fields of an object, also those under a name that comes again. -/
theorem IsLayout.writesObject {write : Nat → Value → List Char} {gap last : Nat → List Char}
    {space : List Char} (h : IsLayout write gap last space) (level : Nat)
    (hfits : ∀ f ∈ written, f.2.Fits (maxLevels - 1)) :
    WritesObject (write level (.object written)) written := by
  obtain ⟨text, htext, hparts⟩ := h.exists_fields level
    fun f hf => h.reads (level + 1) (maxLevels - 1) f.2 (hfits f hf)
  exact ⟨[], text, [], isGap_nil, isGap_nil, by simp [htext], hparts⟩

/-! ## Names that are written again -/

/-- The value is the last one that is written under the name. -/
def IsLast (name : String) (v : Value) (written : List (String × Value)) : Prop :=
  ∃ before after, written = before ++ (name, v) :: after ∧ name ∉ after.map (·.1)

/-- A field that is set takes the place of the one that has its name. -/
theorem mem_setField (h : (fs.map (·.1)).Nodup) :
    (key, v) ∈ setField name w fs ↔ (key = name ∧ v = w) ∨ (key ≠ name ∧ (key, v) ∈ fs) := by
  induction fs with
  | nil => simp [setField]
  | cons f fs ih =>
    obtain ⟨n, u⟩ := f
    obtain ⟨hn, hfs⟩ := List.nodup_cons.mp h
    have hnot : (n, v) ∉ fs := fun hv => hn (List.mem_map_of_mem (f := (·.1)) hv)
    by_cases hname : n = name
    · subst hname
      rw [setField, if_pos rfl]
      by_cases hkey : key = n
      · simp [hkey, hnot]
      · simp [hkey]
    · rw [setField, if_neg hname]
      by_cases hkey : key = n
      · subst hkey
        simp [hname, ih hfs]
      · simp [hkey, ih hfs]

theorem nodup_mergedInto (written : List (String × Value)) :
    ((mergedInto [] written).map (·.1)).Nodup := by
  induction written using List.reverseRecOn with
  | nil => exact List.nodup_nil
  | append_singleton written f ih =>
    rw [mergedInto, List.foldl_append]
    exact nodup_setField ih f.1 f.2

theorem isLast_concat :
    IsLast key v (written ++ [(name, w)]) ↔
      (key = name ∧ v = w) ∨ (key ≠ name ∧ IsLast key v written) := by
  constructor
  · rintro ⟨before, after, hwritten, hkey⟩
    induction after using List.reverseRecOn with
    | nil =>
      obtain ⟨-, hfield⟩ := List.append_inj' hwritten rfl
      simp only [List.cons.injEq, Prod.mk.injEq, and_true] at hfield
      exact .inl ⟨hfield.1.symm, hfield.2.symm⟩
    | append_singleton after f _ =>
      rw [← List.cons_append, ← List.append_assoc] at hwritten
      obtain ⟨rfl, hfield⟩ := List.append_inj' hwritten rfl
      obtain rfl : (name, w) = f := by simpa using hfield
      rw [List.map_append, List.mem_append, not_or] at hkey
      exact .inr ⟨by simpa using hkey.2, before, after, rfl, hkey.1⟩
  · rintro (⟨rfl, rfl⟩ | ⟨hkey, before, after, rfl, hafter⟩)
    · exact ⟨written, [], rfl, by simp⟩
    · exact ⟨before, after ++ [(name, w)], by simp, by simpa using ⟨by simpa using hafter, hkey⟩⟩

theorem exists_isLast (h : (key, v) ∈ written) : ∃ last, IsLast key last written := by
  induction written using List.reverseRecOn with
  | nil => simp at h
  | append_singleton written f ih =>
    obtain ⟨name, w⟩ := f
    by_cases hkey : key = name
    · exact ⟨w, isLast_concat.mpr (.inl ⟨hkey, rfl⟩)⟩
    · obtain ⟨last, hlast⟩ := ih (by simpa [hkey] using h)
      exact ⟨last, isLast_concat.mpr (.inr ⟨hkey, hlast⟩)⟩

/-- An object has the last value that is written under each name. -/
theorem mem_mergedInto_iff :
    (key, v) ∈ mergedInto [] written ↔ IsLast key v written := by
  induction written using List.reverseRecOn with
  | nil => simp [mergedInto, IsLast]
  | append_singleton written f ih =>
    obtain ⟨name, w⟩ := f
    have hmerged : mergedInto [] (written ++ [(name, w)]) =
        setField name w (mergedInto [] written) := by
      rw [mergedInto, List.foldl_append]
      rfl
    rw [hmerged, mem_setField (nodup_mergedInto written), ih, isLast_concat]

end ModuleIndex.Json

import ModuleIndex.Proofs.Json.RoundTrip
import Mathlib.Data.List.Nodup

/-!
# Names of fields

Each name stands once in an object, whatever text the object is read from.
-/

namespace ModuleIndex.Json

/-- The names of the fields of an object. -/
def Value.names : Value → List String
  | .object fields => fields.map (·.1)
  | _ => []

theorem names_setField_of_mem {name : String} {fs : List (String × Value)}
    (h : name ∈ fs.map (·.1)) (v : Value) : (setField name v fs).map (·.1) = fs.map (·.1) := by
  induction fs with
  | nil => simp at h
  | cons f fs ih =>
    obtain ⟨n, w⟩ := f
    by_cases hn : n = name
    · simp [setField, hn]
    · have h : name ∈ fs.map (·.1) := by simpa [Ne.symm hn] using h
      simp [setField, hn, ih h]

theorem nodup_setField {fs : List (String × Value)} (h : (fs.map (·.1)).Nodup) (name : String)
    (v : Value) : ((setField name v fs).map (·.1)).Nodup := by
  by_cases hname : name ∈ fs.map (·.1)
  · rwa [names_setField_of_mem hname]
  · have hnames := h.concat hname
    rw [List.concat_eq_append] at hnames
    rw [setField_of_notMem hname, List.map_append]
    exact hnames

variable {item : Reader Value} {text rest : List Char} {fs : List (String × Value)}

/-- Every further field keeps the names distinct. -/
theorem nodup_moreFields {bound : Nat} {before : List (String × Value)}
    (hbefore : (before.map (·.1)).Nodup)
    (h : moreFields item bound before text = .ok (fs, rest)) : (fs.map (·.1)).Nodup := by
  induction bound generalizing before text with
  | zero => simp [moreFields] at h
  | succ bound ih =>
    rw [moreFields] at h
    split at h
    · simp at h
    · obtain ⟨rfl, -⟩ := by simpa using h
      exact hbefore
    · split at h
      · simp at h
      · simp only [bind, Except.bind] at h
        split at h
        · simp at h
        · split at h
          · simp at h
          · exact ih (nodup_setField hbefore _ _) h
      · simp at h
      · simp at h
    · simp at h

theorem nodup_fields (h : fields item text = .ok (fs, rest)) : (fs.map (·.1)).Nodup := by
  unfold fields at h
  split at h
  · simp at h
  · obtain ⟨rfl, -⟩ := by simpa using h
    simp
  · simp only [bind, Except.bind] at h
    split at h
    · simp at h
    · split at h
      · simp at h
      · exact nodup_moreFields (by simp) h
  · simp at h

theorem exists_of_map_eq_ok {α β ε : Type} {f : α → β} {e : Except ε α} {b : β}
    (h : e.map f = .ok b) : ∃ a, e = .ok a ∧ f a = b := by
  cases e with
  | error fault => simp [Except.map] at h
  | ok a => exact ⟨a, rfl, by simpa [Except.map] using h⟩

theorem nodup_names_of_value {levels : Nat} {v : Value} (h : value levels text = .ok (v, rest)) :
    v.names.Nodup := by
  unfold value at h
  split at h
  case h_1 => simp at h
  -- Words, strings, arrays and numbers have no fields.
  case h_2 | h_3 | h_4 | h_5 =>
    obtain ⟨_, -, h⟩ := exists_of_map_eq_ok h
    cases h
    exact List.nodup_nil
  case h_6 =>
    cases levels with
    | zero => simp at h
    | succ levels =>
      obtain ⟨_, -, h⟩ := exists_of_map_eq_ok h
      cases h
      exact List.nodup_nil
  case h_7 =>
    cases levels with
    | zero => simp at h
    | succ levels =>
      obtain ⟨⟨fs, rest⟩, hfields, h⟩ := exists_of_map_eq_ok h
      cases h
      exact nodup_fields hfields
  case h_8 =>
    split at h
    · obtain ⟨_, -, h⟩ := exists_of_map_eq_ok h
      cases h
      exact List.nodup_nil
    · simp at h

theorem nodup_names_of_parse {v : Value} (h : parse text = .ok v) : v.names.Nodup := by
  unfold parse parseStart at h
  cases hvalue : value maxLevels text with
  | error fault => simp [hvalue, Except.mapError, bind, Except.bind] at h
  | ok read =>
    obtain ⟨w, rest⟩ := read
    simp only [hvalue, Except.mapError, bind, Except.bind] at h
    split at h
    · simp at h
    · obtain rfl := by simpa using h
      exact nodup_names_of_value hvalue

end ModuleIndex.Json

import ModuleIndex.Proofs.Index.Wrapper
import ModuleIndex.Proofs.Json.Objects

/-!
# Scripts and bare JSON texts

An index is read from a script exactly if it is read from the JSON text that the script holds. A
bare JSON text that is read is a script as well, and a call is never a bare JSON text.
-/

namespace ModuleIndex.Index

open Text (IsBlanks)
open Json (WritesObject)

variable {index : Index} {text : List Char} {written : List (String × Json.Value)}

/-! ## What both readers accept -/

theorem parse_eq_ok_iff {script : String} :
    parse script = .ok index ↔
      ∃ text v, payload? script.toList = some text ∧ Json.parse text = .ok v ∧
        ofJson v = .ok index := by
  unfold parse
  cases payload? script.toList with
  | none => simp
  | some text =>
    simp only [Option.some.injEq, exists_and_left, exists_eq_left']
    cases Json.parse text <;> simp

/-- The end of the text is judged after the value, but both must be right. -/
theorem parseJson_eq_ok_iff {text : String} :
    parseJson text = .ok index ↔ ∃ v, Json.parse text.toList = .ok v ∧ ofJson v = .ok index := by
  unfold parseJson Json.parse
  cases Json.parseStart text.toList with
  | error fault => simp [bind, Except.bind]
  | ok read =>
    obtain ⟨v, rest⟩ := read
    simp only [bind, Except.bind]
    cases hread : ofJson v with
    | error fault =>
      cases Json.parseEnd text.toList rest <;> simp [hread]
    | ok other =>
      cases Json.parseEnd text.toList rest <;> simp [hread]

theorem exists_object_of_ofJson {v : Json.Value} (h : ofJson v = .ok index) :
    ∃ fields, v = .object fields := by
  cases v with
  | object fields => exact ⟨fields, rfl⟩
  | _ => simp [ofJson] at h

/-! ## Blanks around an object -/

theorem isBlanks_of_isGap {gap : List Char} (h : Json.IsGap gap) : IsBlanks gap := by
  intro c hc
  have hspace : c = ' ' ∨ c = '\t' ∨ c = '\n' ∨ c = '\r' := by
    simpa [Json.isSpace, or_assoc] using h c hc
  obtain rfl | rfl | rfl | rfl := hspace
  all_goals decide

/-- Trimming takes the gaps around an object, and leaves the object. -/
theorem trim_of_writesObject (h : WritesObject text written) :
    (∃ rest, Text.trim text = '{' :: rest) ∧ WritesObject (Text.trim text) written := by
  obtain ⟨before, front, after, hbefore, hafter, rfl, hfront⟩ := h
  obtain ⟨inner, rfl⟩ := hfront.exists_concat
  have htrim : Text.trim (before ++ ('{' :: inner ++ ['}']) ++ after) = '{' :: inner ++ ['}'] :=
    Text.trim_between (isBlanks_of_isGap hbefore) (isBlanks_of_isGap hafter) (by decide)
      (by decide) inner
  have htext : before ++ '{' :: (inner ++ ['}'] ++ after) =
      before ++ ('{' :: inner ++ ['}']) ++ after := by simp
  rw [htext, htrim]
  exact ⟨⟨_, rfl⟩, [], inner ++ ['}'], [], Json.isGap_nil, Json.isGap_nil, by simp, hfront⟩

theorem parse_of_parseJson {text : String} (h : parseJson text = .ok index) :
    parse text = .ok index := by
  obtain ⟨v, hparse, hread⟩ := parseJson_eq_ok_iff.mp h
  obtain ⟨fields, rfl⟩ := exists_object_of_ofJson hread
  obtain ⟨written, hwritten, rfl⟩ := Json.exists_writesObject hparse
  obtain ⟨⟨rest, hrest⟩, htrim⟩ := trim_of_writesObject hwritten
  exact parse_eq_ok_iff.mpr
    ⟨_, _, payload?_of_object hrest, Json.parse_of_writesObject htrim, hread⟩

theorem parseJson_ne_ok_of_isCallOf {argument : List Char} {script : String}
    (h : IsCallOf argument script.toList) : parseJson script ≠ .ok index := by
  intro hscript
  obtain ⟨v, hparse, hread⟩ := parseJson_eq_ok_iff.mp hscript
  obtain ⟨fields, rfl⟩ := exists_object_of_ofJson hread
  obtain ⟨written, hwritten, rfl⟩ := Json.exists_writesObject hparse
  obtain ⟨⟨rest, hobject⟩, -⟩ := trim_of_writesObject hwritten
  obtain ⟨gap, close, stop, -, -, -, hcall⟩ := trim_of_isCallOf h
  -- The object starts with its brace, and the call with the name of the function.
  rw [hobject, scriptCall, List.cons_append, List.cons_eq_cons] at hcall
  exact absurd hcall.1 (by decide)

/-- A script is read exactly as the JSON text in it, a JSON text that is read is read the same as
a script, and no call is read as JSON. -/
theorem script_and_json_agree (script : String) (index : Index) :
    (parse script = .ok index ↔
      ∃ text, payload? script.toList = some text ∧ parseJson (String.ofList text) = .ok index) ∧
      (parseJson script = .ok index → parse script = .ok index) ∧
      ∀ argument, IsCallOf argument script.toList → parseJson script ≠ .ok index := by
  refine ⟨?_, parse_of_parseJson, fun _ => parseJson_ne_ok_of_isCallOf⟩
  rw [parse_eq_ok_iff]
  refine exists_congr fun text => ?_
  rw [parseJson_eq_ok_iff, String.toList_ofList, exists_and_left]

end ModuleIndex.Index

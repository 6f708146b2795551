import ModuleIndex.Proofs.Index.Encoding
import ModuleIndex.Proofs.Index.Wrapper

/-!
# Scripts are faithful

A script is the JSON form of an index in a call. What stands between the parentheses is found
again, whatever names and descriptions are in it, and every built index is read from its script.
-/

namespace ModuleIndex.Index

/-! ## The call -/

/-- What stands in a call is found, even if it looks like the end of a call itself. -/
theorem payload?_call (text : List Char) :
    payload? (scriptCall ++ '(' :: text ++ [')', ';']) = some (Text.trim text) := by
  apply payload?_of_isCallOf
  refine ⟨[], [], [], [';'], [], Text.isBlanks_nil, Text.isBlanks_nil, Text.isBlanks_nil,
    Text.isBlanks_nil, .inr rfl, ?_⟩
  simp

theorem trim_compactText (index : Index) : Text.trim index.compactText = index.compactText := by
  obtain ⟨text, htext⟩ := Json.isLayout_compact.exists_object 0 (index.sections.map fieldOf)
  rw [compactText, toJson_eq, htext]
  exact Text.trim_enclosed (by decide) (by decide) text

/-! ## The whole script -/

/-- Every built index is read from its script again. -/
theorem parse_toScript (index : Index) (h : index.Built) : parse index.toScript = .ok index := by
  have hindex := h.wellFormed
  have hpayload : payload? index.toScript.toList = some index.compactText := by
    rw [toScript, String.toList_ofList, payload?_call, trim_compactText]
  have hjson : Json.parse index.compactText = .ok index.toJson :=
    Json.parse_compact (fits_toJson hindex 124)
  simp only [parse, hpayload, hjson]
  exact ofJson_toJson hindex

/-- A name that looks like the end of a call, under a key that does so too. -/
theorem parse_toScript_closing_name :
    ∃ index, ofSections [sectionOf "fn" [⟨"\x7d);", "\"\\\n\x01"⟩], sectionOf ");" [⟨"", " "⟩]] =
      .ok index ∧ parse index.toScript = .ok index :=
  ⟨_, rfl, parse_toScript _
    (.ofSections [("fn", [⟨"\x7d);", "\"\\\n\x01"⟩]), (");", [⟨"", " "⟩])] rfl)⟩

end ModuleIndex.Index

import ModuleIndex.Proofs.CommandLine.LocalFiles
import ModuleIndex.Proofs.Index.Script

/-!
# Text for programs

What is shown as JSON or as a script is read as the index that it was made of, so that it can take
the place of the published text. What a filter finds is shown as JSON with all its parts.
-/

namespace ModuleIndex

open Style (Theme)

/-! ## Whole indexes -/

namespace Index

variable {index : Index}

theorem parse_prettyText (h : index.WellFormed) :
    Json.parse index.prettyText = .ok index.toJson := by
  rw [← List.append_nil index.prettyText]
  exact Json.isLayout_pretty.parse (fits_toJson h 124) Json.isGap_nil

/-- An index is read from a text whose payload is one of its JSON texts. -/
theorem parse_of_payload? (h : index.WellFormed) {script text : List Char}
    (hpayload : payload? script = some text) (hjson : Json.parse text = .ok index.toJson) :
    parse (String.ofList script) = .ok index := by
  simp only [parse, String.toList_ofList, hpayload, hjson]
  exact ofJson_toJson h

theorem payload?_prettyText_line (index : Index) :
    payload? (index.prettyText ++ ['\n']) = some index.prettyText := by
  obtain ⟨text, htext⟩ := Json.isLayout_pretty.exists_object 0 (index.sections.map fieldOf)
  have hpretty : index.prettyText = '{' :: (text ++ ['}']) := by
    rw [prettyText, toJson_eq, htext, List.cons_append]
  have htrim : Text.trim (index.prettyText ++ ['\n']) = index.prettyText := by
    rw [hpretty]
    exact Text.trim_between Text.isBlanks_nil (Text.isBlanks_singleton.mpr (by decide))
      (by decide) (by decide) text
  rw [payload?_of_object (htrim.trans hpretty), htrim]

theorem payload?_script_line (index : Index) :
    payload? (index.toScript.toList ++ ['\n']) = some index.compactText := by
  have hcall : IsCallOf index.compactText (index.toScript.toList ++ ['\n']) := by
    refine ⟨[], [], [], [';'], ['\n'], Text.isBlanks_nil, Text.isBlanks_nil, Text.isBlanks_nil,
      Text.isBlanks_singleton.mpr (by decide), .inr rfl, ?_⟩
    simp [toScript]
  rw [payload?_of_isCallOf hcall, trim_compactText]

/-- The two formats for programs are read as the index that they show. -/
theorem parse_indexText (h : index.WellFormed) {format : Listing.Format}
    (hformat : format = .json ∨ format = .script) (theme? : Option Theme)
    (modulePath : List String) :
    parse (String.ofList (Listing.indexText theme? format modulePath index)) = .ok index := by
  rcases hformat with rfl | rfl
  · exact parse_of_payload? h (payload?_prettyText_line index) (parse_prettyText h)
  · exact parse_of_payload? h (payload?_script_line index)
      (Json.parse_compact (fits_toJson h 124))

end Index

/-! ## What a filter finds -/

namespace Listing

theorem fits_matchesJson (found : List (Category × Entry)) (levels : Nat) :
    (matchesJson found).Fits (levels + 2) := by
  show ∀ v ∈ found.map matchJson, v.Fits (levels + 1)
  rw [List.forall_mem_map]
  intro item _
  simp [matchJson, Json.Value.Fits]

theorem matchesText_json {index : Index} {filter : String} (h : index.search filter ≠ [])
    (theme? : Option Theme) (modulePath : List String) :
    matchesText theme? .json modulePath index filter =
      .ok ((matchesJson (index.search filter)).pretty 0 ++ ['\n']) := by
  unfold matchesText
  split
  · contradiction
  · rfl

theorem parse_matchesJson (found : List (Category × Entry)) :
    Json.parse ((matchesJson found).pretty 0 ++ ['\n']) = .ok (matchesJson found) :=
  Json.isLayout_pretty.parse (fits_matchesJson found 125) (by simp [Json.IsGap, Json.isSpace])

end Listing

/-! ## Local files -/

namespace CommandLine

variable {around : Surroundings} {disk disk' : Disk} {o : Options} {texts texts' : List String}
  {file file' script script' : String} {index : Index}

theorem viewOf_congr (h : Index.parse script = .ok index) (h' : Index.parse script' = .ok index)
    (o : Options) (around : Surroundings) : o.viewOf around script = o.viewOf around script' := by
  simp only [Options.viewOf, h, h']

/-- Local files that are read as one index are shown in the same way. -/
theorem run_eq_of_parse (hparse : Options.parse texts = .ok o) (hfile : o.file = some file)
    (hparse' : Options.parse texts' = .ok (o.withFile file'))
    (htext : disk.text file = .ok script) (htext' : disk'.text file' = .ok script')
    (hindex : Index.parse script = .ok index) (hindex' : Index.parse script' = .ok index)
    (around : Surroundings) (cache : Cache) :
    (run around ⟨disk, cache⟩ texts).1 = (run around ⟨disk', cache⟩ texts').1 := by
  cases hclear : o.clearCache with
  | true =>
    have hclear' : (o.withFile file').clearCache = true := hclear
    simp only [run, hparse, hparse', hclear, hclear', if_true]
  | false =>
    have hclear' : (o.withFile file').clearCache = false := hclear
    have hrun : run around ⟨disk, cache⟩ texts = (o.viewOf around script, ⟨disk, cache⟩) :=
      run_of_text hparse hclear hfile htext
    have hrun' : run around ⟨disk', cache⟩ texts' =
        ((o.withFile file').viewOf around script', ⟨disk', cache⟩) :=
      run_of_text hparse' hclear' rfl htext'
    have hview : (o.withFile file').viewOf around script' = o.viewOf around script' := rfl
    rw [hrun, hrun', hview]
    exact viewOf_congr hindex hindex' o around

/-! ## Reading what was shown -/

/-- A built index that is shown for programs is read again, and in a local file it is as good as any
text that is read as the index. What a filter finds is shown with its key, name and description. -/
theorem shown_index_is_read (index : Index) (h : index.Built) :
    (∀ theme? format modulePath, format = .json ∨ format = .script →
      ∃ shown, Listing.text theme? format modulePath index none = .ok shown ∧
        Index.parse (String.ofList shown) = .ok index ∧
        ∀ around cache (disk disk' : Disk) texts texts' o file file' script,
          Options.parse texts = .ok o → o.file = some file →
          Options.parse texts' = .ok (o.withFile file') →
          disk.text file = .ok (String.ofList shown) →
          disk'.text file' = .ok script → Index.parse script = .ok index →
          (run around ⟨disk, cache⟩ texts).1 = (run around ⟨disk', cache⟩ texts').1) ∧
    ∀ theme? modulePath filter, index.search filter ≠ [] →
      ∃ shown, Listing.text theme? .json modulePath index (some filter) = .ok shown ∧
        Json.parse shown = .ok (.array ((index.search filter).map fun found => .object [
          ("category", .string found.1.key),
          ("name", .string found.2.name),
          ("description", .string found.2.description)])) := by
  constructor
  · intro theme? format modulePath hformat
    have hparse := Index.parse_indexText h.wellFormed hformat theme? modulePath
    refine ⟨_, rfl, hparse, ?_⟩
    intro around cache disk disk' texts texts' o file file' script ho hfile ho' htext htext' hindex
    exact run_eq_of_parse ho hfile ho' htext htext' hparse hindex around cache
  · intro theme? modulePath filter hfound
    exact ⟨_, Listing.matchesText_json hfound theme? modulePath, Listing.parse_matchesJson _⟩

/-- A disk with one local file. -/
def diskOf (file : String) (shown : List Char) : Disk :=
  Disk.put ⟨[], []⟩ file (.file (String.ofList shown).toUTF8)

/-- Names and keys that look like the end of a script. -/
theorem shown_index_is_read_closing_name :
    ∃ index shown script found,
      Index.ofSections [Index.sectionOf "fn" [⟨"\x7d);", "\"\\\n"⟩], Index.sectionOf ");" []] =
        .ok index ∧
      Listing.text (some .dark) .json ["log"] index none = .ok shown ∧
      Listing.text none .script [] index none = .ok script ∧
      (run {} ⟨diskOf "shown" shown, ⟨"cache", none⟩⟩ ["--file", "shown", "log"]).1 =
        (run {} ⟨diskOf "script" script, ⟨"cache", none⟩⟩ ["--file=script", "log"]).1 ∧
      index.search ";" ≠ [] ∧ Listing.text (some .dark) .json [] index (some ";") = .ok found ∧
      Json.parse found = .ok (.array [.object [("category", .string "fn"),
        ("name", .string "\x7d);"), ("description", .string "\"\\\n")]]) := by
  have hbuilt : Index.Built ⟨[⟨.function, [⟨"\x7d);", "\"\\\n"⟩]⟩, ⟨.other ");", []⟩]⟩ :=
    .ofSections [("fn", [⟨"\x7d);", "\"\\\n"⟩]), (");", [])] rfl
  obtain ⟨hshown, hfound⟩ := shown_index_is_read _ hbuilt
  obtain ⟨shown, htext, -, hrun⟩ := hshown (some .dark) .json ["log"] (.inl rfl)
  obtain ⟨script, hscript, hparse, -⟩ := hshown none .script [] (.inr rfl)
  obtain ⟨found, hmatches, hjson⟩ := hfound (some .dark) [] ";" (by decide)
  refine ⟨_, shown, script, found, rfl, htext, hscript, ?_, by decide, hmatches, hjson⟩
  exact hrun {} _ _ _ ["--file", "shown", "log"] ["--file=script", "log"]
    { spec := some ⟨"log", none, []⟩, file := some "shown" } "shown" "script" _ rfl rfl rfl
    (Disk.text_of_bytes (by decide) rfl) (Disk.text_of_bytes (by decide) rfl) hparse

end CommandLine

end ModuleIndex

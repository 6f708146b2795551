import ModuleIndex.Proofs.Index.Payloads
import ModuleIndex.Proofs.Index.Values
import ModuleIndex.Proofs.Index.Lookup

/-!
# Categories under one key

A text can write several categories under one key. The JSON object that is read from it has only
the last of them, so the others are lost before the index looks for repeated keys.
-/

namespace ModuleIndex.Index

open Json (IsLast WritesObject mergedInto)

variable {index : Index} {written : List (String × Json.Value)} {key : String} {v : Json.Value}

/-! ## What is written -/

/-- The script holds the text of an object into which the categories are written. -/
def ScriptWrites (script : String) (written : List (String × Json.Value)) : Prop :=
  ∃ text, payload? script.toList = some text ∧ WritesObject text written

/-- The entry is written in the list of a category. -/
def Writes (v : Json.Value) (e : Entry) : Prop := ∃ items, v = .array items ∧ e.toJson ∈ items

/-- Every entry that is written is filed under the key of its category. -/
def KeepsAll (index : Index) (written : List (String × Json.Value)) : Prop :=
  ∀ key v e, (key, v) ∈ written → Writes v e → e ∈ index.entriesOf key

theorem writes_iff_of_lists {entries : List Entry} (h : Lists v entries) (e : Entry) :
    Writes v e ↔ e ∈ entries := by
  have hinjective : Function.Injective Entry.toJson := by
    rintro ⟨name, description⟩ ⟨name', description'⟩ heq
    simpa [Entry.toJson] using heq
  have hv : v = .array (entries.map Entry.toJson) := h.value_eq
  simp [Writes, hv, hinjective.eq_iff]

/-! ## The last category under a key -/

theorem parse_eq_ok_iff_of_writes {script : String} (h : ScriptWrites script written) :
    parse script = .ok index ↔ ofJson (.object (mergedInto [] written)) = .ok index := by
  obtain ⟨text, hpayload, hwritten⟩ := h
  have hparse := Json.parse_of_writesObject hwritten
  simp [parse_eq_ok_iff, hpayload, hparse]

theorem exists_scriptWrites {script : String} (h : parse script = .ok index) :
    ∃ written, ScriptWrites script written := by
  obtain ⟨text, v, hpayload, hparse, hread⟩ := parse_eq_ok_iff.mp h
  obtain ⟨fields, rfl⟩ := exists_object_of_ofJson hread
  obtain ⟨written, hwritten, -⟩ := Json.exists_writesObject hparse
  exact ⟨written, text, hpayload, hwritten⟩

/-- The fields of an object that is read list the entries of its categories. -/
theorem lists_entriesOf_of_ofJson {fields : List (String × Json.Value)}
    (h : ofJson (.object fields) = .ok index) (hv : (key, v) ∈ fields) :
    Lists v (index.entriesOf key) := by
  have hwell := wellFormed_of_ofJson h
  have hfields := fields_eq_of_addFields h
  rw [List.map_nil, List.nil_append] at hfields
  rw [← hfields] at hv
  obtain ⟨s, hs, hfield⟩ := List.mem_map.mp hv
  rw [fieldOf, Prod.mk.injEq] at hfield
  obtain ⟨rfl, rfl⟩ := hfield
  rw [entriesOf_of_mem hwell hs]
  exact ⟨rfl, hwell.nodup_names s hs⟩

theorem lists_of_isLast {script : String} (h : ScriptWrites script written)
    (hindex : parse script = .ok index) (hlast : IsLast key v written) :
    Lists v (index.entriesOf key) :=
  lists_entriesOf_of_ofJson ((parse_eq_ok_iff_of_writes h).mp hindex)
    (Json.mem_mergedInto_iff.mpr hlast)

theorem exists_parse_iff {script : String} (h : ScriptWrites script written) :
    (∃ index, parse script = .ok index) ↔
      ∀ key last, IsLast key last written → IsCategory last := by
  constructor
  · rintro ⟨index, hindex⟩ key last hlast
    exact ⟨_, lists_of_isLast h hindex hlast⟩
  · intro hlasts
    have hshape : HasShape (.object (mergedInto [] written)) := by
      refine ⟨_, rfl, fun f hf => ?_⟩
      exact hlasts f.1 f.2 (Json.mem_mergedInto_iff.mp hf)
    have hnames : (Json.Value.object (mergedInto [] written)).names.Nodup :=
      Json.nodup_mergedInto written
    obtain ⟨index, hindex⟩ := ofJson_of_hasShape hnames hshape
    exact ⟨index, (parse_eq_ok_iff_of_writes h).mpr hindex⟩

/-- No entry is lost exactly if the last category under its key lists it as well. -/
theorem keepsAll_iff {script : String} (h : ScriptWrites script written)
    (hindex : parse script = .ok index) :
    index.KeepsAll written ↔
      ∀ key v last e, (key, v) ∈ written → Writes v e → IsLast key last written →
        Writes last e := by
  constructor
  · intro hkeeps key v last e hv he hlast
    rw [writes_iff_of_lists (lists_of_isLast h hindex hlast)]
    exact hkeeps key v e hv he
  · intro hlasts key v e hv he
    obtain ⟨last, hlast⟩ := Json.exists_isLast hv
    rw [← writes_iff_of_lists (lists_of_isLast h hindex hlast)]
    exact hlasts key v last e hv he hlast

theorem keepsAll_of_nodup {script : String} (h : ScriptWrites script written)
    (hindex : parse script = .ok index) (hkeys : (written.map (·.1)).Nodup) :
    index.KeepsAll written := by
  rw [keepsAll_iff h hindex]
  intro key v last e hv he hlast
  have hmem : (key, last) ∈ written := by
    obtain ⟨before, after, rfl, -⟩ := hlast
    simp
  obtain ⟨-, rfl⟩ := Prod.mk.inj (List.inj_on_of_nodup_map hkeys hv hmem rfl)
  exact he

/-- Of the categories under one key the last one is read, and no repeated key is reported. So a
script is read if the last categories have the shape of one, and all entries that it writes are in
the index exactly if the last ones list them all, as they do if no key comes again. -/
theorem last_category_read (script : String) :
    (∀ key, parse script ≠ .error (.duplicateCategory key)) ∧
      ((∃ index, parse script = .ok index) ↔
        ∃ written, ScriptWrites script written ∧
          ∀ key last, IsLast key last written → IsCategory last) ∧
      ∀ index written, parse script = .ok index → ScriptWrites script written →
        (∀ key last, IsLast key last written → Lists last (index.entriesOf key)) ∧
        (index.KeepsAll written ↔
          ∀ key v last e, (key, v) ∈ written → Writes v e → IsLast key last written →
            Writes last e) ∧
        ((written.map (·.1)).Nodup → index.KeepsAll written) := by
  refine ⟨parse_ne_duplicateCategory script, ⟨?_, ?_⟩, ?_⟩
  · rintro ⟨index, hindex⟩
    obtain ⟨written, hwritten⟩ := exists_scriptWrites hindex
    exact ⟨written, hwritten, (exists_parse_iff hwritten).mp ⟨index, hindex⟩⟩
  · rintro ⟨written, hwritten, hlasts⟩
    exact (exists_parse_iff hwritten).mpr hlasts
  · intro index written hindex hwritten
    exact ⟨fun _ _ => lists_of_isLast hwritten hindex, keepsAll_iff hwritten hindex,
      keepsAll_of_nodup hwritten hindex⟩

/-- Two functions, written one after the other under the same key. -/
def twoFunctions : List (String × Json.Value) :=
  [("fn", .array [Entry.toJson ⟨"lock", ""⟩]), ("fn", .array [Entry.toJson ⟨"park", ""⟩])]

/-- The first function is not in the index, and nothing is reported. -/
theorem parse_drops_function :
    let script := "\x7b\"fn\":[[\"lock\",\"\"]],\"fn\":[[\"park\",\"\"]]\x7d"
    ScriptWrites script twoFunctions ∧ (∀ f ∈ twoFunctions, IsCategory f.2) ∧
      ¬ (twoFunctions.map (·.1)).Nodup ∧
      ∃ index, parse script = .ok index ∧ index.entriesOf "fn" = [⟨"park", ""⟩] ∧
        ¬ index.KeepsAll twoFunctions := by
  intro script
  have hcompact : (Json.Value.object twoFunctions).compact = script.toList := by decide +kernel
  have hwrites : WritesObject script.toList twoFunctions := by
    rw [← hcompact]
    refine Json.isLayout_compact.writesObject 0 ?_
    simp [twoFunctions, Entry.toJson, Json.maxLevels, Json.Value.Fits]
  have hcategories : ∀ f ∈ twoFunctions, IsCategory f.2 := by
    intro f hf
    simp only [twoFunctions, List.mem_cons, List.not_mem_nil, or_false] at hf
    obtain rfl | rfl := hf
    · exact ⟨[⟨"lock", ""⟩], rfl, by simp⟩
    · exact ⟨[⟨"park", ""⟩], rfl, by simp⟩
  have hscript : ScriptWrites script twoFunctions :=
    ⟨script.toList, by decide +kernel, hwrites⟩
  have hread : ofJson (.object (mergedInto [] twoFunctions)) =
      .ok ⟨[⟨.ofKey "fn", [⟨"park", ""⟩]⟩]⟩ := rfl
  refine ⟨hscript, hcategories, by decide, _, (parse_eq_ok_iff_of_writes hscript).mpr hread,
    by decide, fun hkeeps => ?_⟩
  have hlock := hkeeps "fn" _ ⟨"lock", ""⟩ List.mem_cons_self ⟨_, rfl, List.mem_cons_self⟩
  revert hlock
  decide

end ModuleIndex.Index

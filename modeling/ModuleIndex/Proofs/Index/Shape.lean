import ModuleIndex.Proofs.Index.Encoding
import ModuleIndex.Proofs.Json.Names
import Mathlib.Data.List.Induction

/-!
# The shape of an index

A JSON value is read as an index exactly if it has the shape of one. If it has not, the fault is
that of the first category that breaks the shape, and in it that of the first entry that is no
pair of strings, or else of the first name that comes twice.
-/

namespace ModuleIndex.Index

/-! ## The shape -/

/-- The entries of a category, each an array of exactly two strings, under distinct names. -/
structure Lists (v : Json.Value) (entries : List Entry) : Prop where
  value_eq : v = .array (entries.map fun e => .array [.string e.name, .string e.description])
  nodup_names : (entries.map (·.name)).Nodup

def IsCategory (v : Json.Value) : Prop := ∃ entries, Lists v entries

def HasShape (v : Json.Value) : Prop :=
  ∃ fields, v = .object fields ∧ ∀ f ∈ fields, IsCategory f.2

/-! ## What breaks the shape -/

/-- What is wrong with an entry. Its length is judged before its parts, and its name before its
description. -/
inductive EntryFault (category : String) (entry : Nat) : Json.Value → IndexFault → Prop
  | notArray {v} (h : ∀ items, v ≠ .array items) :
      EntryFault category entry v (.entryNotPair category entry)
  | tooLong {items} (h : 2 < items.length) :
      EntryFault category entry (.array items) (.entryNotPair category entry)
  | noName : EntryFault category entry (.array []) (.missingField category entry .name)
  | nameNotString {v rest} (hv : ∀ text, v ≠ .string text) (h : rest.length ≤ 1) :
      EntryFault category entry (.array (v :: rest)) (.fieldNotString category entry .name)
  | noDescription {name} :
      EntryFault category entry (.array [.string name]) (.missingField category entry .description)
  | descriptionNotString {name v} (hv : ∀ text, v ≠ .string text) :
      EntryFault category entry (.array [.string name, v])
        (.fieldNotString category entry .description)

/-- What is wrong with the value of a category. A name that comes twice counts only if all
entries are pairs. -/
inductive CategoryFault (key : String) : Json.Value → IndexFault → Prop
  | notSequence {v} (h : ∀ items, v ≠ .array items) :
      CategoryFault key v (.categoryNotSequence key)
  | entry (before : List Entry) {v after fault} (h : EntryFault key before.length v fault) :
      CategoryFault key (.array (before.map Entry.toJson ++ v :: after)) fault
  | repeatedName {before e after} (hbefore : (before.map (·.name)).Nodup)
      (he : e.name ∈ before.map (·.name)) :
      CategoryFault key (.array ((before ++ e :: after).map Entry.toJson))
        (.duplicateName key e.name)

/-- What is wrong with a value: the fault of the first category that has one. -/
inductive ShapeFault : Json.Value → IndexFault → Prop
  | notAnObject {v} (h : ∀ fields, v ≠ .object fields) : ShapeFault v .notAnObject
  | category (before) {key v after fault} (hbefore : ∀ f ∈ before, IsCategory f.2)
      (h : CategoryFault key v fault) :
      ShapeFault (.object (before ++ (key, v) :: after)) fault

/-! ## Entries -/

section Entries

variable {category : String} {entry : Nat} {fault : IndexFault}

theorem fieldOfJson_not_string {v : Json.Value} (hv : ∀ text, v ≠ .string text) (field : Field) :
    fieldOfJson category entry field (some v) = .error (.fieldNotString category entry field) := by
  cases v with
  | string text => exact absurd rfl (hv text)
  | _ => rfl

theorem entryOfJson_of_fault {v : Json.Value} (h : EntryFault category entry v fault) :
    entryOfJson category entry v = .error fault := by
  cases h with
  | notArray h =>
    cases v with
    | array items => exact absurd rfl (h items)
    | _ => rfl
  | tooLong h => rw [entryOfJson, if_pos h]
  | noName => rfl
  | @nameNotString v rest hv h =>
    have hlength : ¬ 2 < (v :: rest).length := by
      rw [List.length_cons]
      omega
    rw [entryOfJson, if_neg hlength, List.getElem?_cons_zero, fieldOfJson_not_string hv]
    rfl
  | noDescription => rfl
  | descriptionNotString hv =>
    rw [entryOfJson, if_neg (by simp), List.getElem?_cons_succ, List.getElem?_cons_zero,
      List.getElem?_cons_zero, fieldOfJson_not_string hv]
    rfl

theorem string_cases (v : Json.Value) : (∃ text, v = .string text) ∨ ∀ text, v ≠ .string text := by
  cases v with
  | string text => exact .inl ⟨text, rfl⟩
  | _ => exact .inr fun _ => by simp

theorem entry_cases (category : String) (entry : Nat) (v : Json.Value) :
    (∃ e : Entry, v = e.toJson) ∨ ∃ fault, EntryFault category entry v fault := by
  cases v with
  | array items =>
    match items with
    | [] => exact .inr ⟨_, .noName⟩
    | [n] =>
      obtain ⟨name, rfl⟩ | hn := string_cases n
      · exact .inr ⟨_, .noDescription⟩
      · exact .inr ⟨_, .nameNotString hn (by simp)⟩
    | [n, d] =>
      obtain ⟨name, rfl⟩ | hn := string_cases n
      · obtain ⟨description, rfl⟩ | hd := string_cases d
        · exact .inl ⟨⟨name, description⟩, rfl⟩
        · exact .inr ⟨_, .descriptionNotString hd⟩
      · exact .inr ⟨_, .nameNotString hn (by simp)⟩
    | _ :: _ :: _ :: _ => exact .inr ⟨_, .tooLong (by simp)⟩
  | _ => exact .inr ⟨_, .notArray fun _ => by simp⟩

end Entries

/-! ## Categories -/

section Categories

variable {category : String} {fault : IndexFault}

theorem entriesOfJson_of_fault (before : List Entry) (entry : Nat) {v : Json.Value}
    (after : List Json.Value) (h : EntryFault category (entry + before.length) v fault) :
    entriesOfJson category entry (before.map Entry.toJson ++ v :: after) = .error fault := by
  induction before generalizing entry with
  | nil =>
    have h : EntryFault category entry v fault := h
    simp [entriesOfJson, entryOfJson_of_fault h, bind, Except.bind]
  | cons e before ih =>
    have h : EntryFault category (entry + 1 + before.length) v fault := by
      rwa [List.length_cons, ← Nat.add_assoc, Nat.add_right_comm] at h
    simp [entriesOfJson, entryOfJson_toJson, ih _ h, bind, Except.bind]

theorem entries_cases (category : String) (entry : Nat) (vs : List Json.Value) :
    (∃ es : List Entry, vs = es.map Entry.toJson) ∨
      ∃ (before : List Entry) (v : Json.Value) (after : List Json.Value) (fault : IndexFault),
        vs = before.map Entry.toJson ++ v :: after ∧
          EntryFault category (entry + before.length) v fault := by
  induction vs generalizing entry with
  | nil => exact .inl ⟨[], rfl⟩
  | cons v vs ih =>
    obtain ⟨e, rfl⟩ | ⟨fault, hfault⟩ := entry_cases category entry v
    · obtain ⟨es, rfl⟩ | ⟨before, v, after, fault, rfl, hfault⟩ := ih (entry + 1)
      · exact .inl ⟨e :: es, rfl⟩
      · refine .inr ⟨e :: before, v, after, fault, rfl, ?_⟩
        rwa [List.length_cons, ← Nat.add_assoc, Nat.add_right_comm]
    · exact .inr ⟨[], v, vs, fault, rfl, hfault⟩

theorem firstRepeat?_of_repeat (seen : List String) (before : List Entry) (e : Entry)
    (after : List Entry) (hbefore : (before.map (·.name)).Nodup)
    (hseen : ∀ name ∈ before.map (·.name), name ∉ seen)
    (he : e.name ∈ before.map (·.name) ∨ e.name ∈ seen) :
    firstRepeat? seen (before ++ e :: after) = some e := by
  -- A name of the front moves to the seen ones, where the repeat is found as well.
  induction before generalizing seen with
  | nil =>
    have he : e.name ∈ seen := by simpa using he
    rw [List.nil_append, firstRepeat?, if_pos he]
  | cons d before ih =>
    rw [List.map_cons, List.nodup_cons] at hbefore
    rw [List.map_cons, List.forall_mem_cons] at hseen
    rw [List.cons_append, firstRepeat?, if_neg hseen.1]
    refine ih _ hbefore.2 ?_ ?_
    · intro name hname hmem
      obtain rfl | hmem := List.mem_cons.mp hmem
      · exact hbefore.1 hname
      · exact hseen.2 name hname hmem
    · rw [List.map_cons, List.mem_cons] at he
      rw [List.mem_cons]
      tauto

/-- Names are distinct, or there is a first one that stands earlier. -/
theorem names_cases (es : List Entry) :
    (es.map (·.name)).Nodup ∨
      ∃ before e after, es = before ++ e :: after ∧ (before.map (·.name)).Nodup ∧
        e.name ∈ before.map (·.name) := by
  -- From the end, so that the first repeat of the front stays the first.
  induction es using List.reverseRecOn with
  | nil => exact .inl (by simp)
  | append_singleton es e ih =>
    obtain hes | ⟨before, d, after, rfl, hbefore, hd⟩ := ih
    · by_cases he : e.name ∈ es.map (·.name)
      · exact .inr ⟨es, e, [], rfl, hes, he⟩
      · have hnames := hes.concat he
        rw [List.concat_eq_append] at hnames
        rw [List.map_append]
        exact .inl hnames
    · exact .inr ⟨before, d, after ++ [e], by simp, hbefore, hd⟩

theorem category_cases (key : String) (v : Json.Value) :
    IsCategory v ∨ ∃ fault, CategoryFault key v fault := by
  cases v with
  | array vs =>
    obtain ⟨es, rfl⟩ | ⟨before, v, after, fault, rfl, hfault⟩ := entries_cases key 0 vs
    · obtain hes | ⟨before, e, after, rfl, hbefore, he⟩ := names_cases es
      · exact .inl ⟨es, rfl, hes⟩
      · exact .inr ⟨_, .repeatedName hbefore he⟩
    · rw [Nat.zero_add] at hfault
      exact .inr ⟨fault, .entry before hfault⟩
  | _ => exact .inr ⟨_, .notSequence fun _ => by simp⟩

end Categories

/-! ## Fields -/

section Fields

variable {index : Index} {key : String} {v : Json.Value} {fault : IndexFault}
  {fields before : List (String × Json.Value)}

theorem addFields_cons_of_lists {entries : List Entry} (hv : Lists v entries)
    (hnew : Category.ofKey key ∉ index.categories) :
    index.addFields ((key, v) :: fields) =
      addFields ⟨index.sections ++ [⟨.ofKey key, entries⟩]⟩ fields := by
  have hread : entriesOfJson key 0 (entries.map Entry.toJson) = .ok entries :=
    entriesOfJson_toJson key 0 entries
  have hadd : index.addSection ⟨.ofKey key, entries⟩ =
      .ok ⟨index.sections ++ [⟨.ofKey key, entries⟩]⟩ :=
    addSection_eq_ok_iff.mpr ⟨hnew, hv.nodup_names, rfl⟩
  obtain rfl : v = .array (entries.map Entry.toJson) := hv.value_eq
  simp only [addFields, hread, hadd, bind, Except.bind]

theorem addSection_of_repeat {c : Category} (hnew : c ∉ index.categories) {before : List Entry}
    {e : Entry} (after : List Entry) (hbefore : (before.map (·.name)).Nodup)
    (he : e.name ∈ before.map (·.name)) :
    index.addSection ⟨c, before ++ e :: after⟩ = .error (.duplicateName c.key e.name) := by
  have hany : ¬ index.sections.any (·.category = c) = true := by
    simpa [categories] using hnew
  rw [addSection, if_neg hany, firstRepeat?_of_repeat [] before e after hbefore (by simp) (.inl he)]

theorem addFields_cons_of_fault (h : CategoryFault key v fault)
    (hnew : Category.ofKey key ∉ index.categories) :
    index.addFields ((key, v) :: fields) = .error fault := by
  cases h with
  | notSequence h =>
    cases v with
    | array vs => exact absurd rfl (h vs)
    | _ => rfl
  | @entry before v after _ h =>
    have hread := entriesOfJson_of_fault before 0 after (by rwa [Nat.zero_add])
    simp only [addFields, hread, bind, Except.bind]
  | @repeatedName before e after hbefore he =>
    have hadd := addSection_of_repeat hnew after hbefore he
    rw [Category.key_ofKey] at hadd
    simp only [addFields, entriesOfJson_toJson, hadd, bind, Except.bind]

/-- The keys that are there and those of the fields are all different. -/
def Fresh (index : Index) (fields : List (String × Json.Value)) : Prop :=
  (index.categories ++ fields.map fun f => Category.ofKey f.1).Nodup

theorem Fresh.notMem (h : index.Fresh ((key, v) :: fields)) :
    Category.ofKey key ∉ index.categories := by
  intro hmem
  exact List.disjoint_of_nodup_append h hmem (by simp)

/-- Fields that have the shape are all added, and the reader goes on behind them. -/
theorem addFields_append (hbefore : ∀ f ∈ before, IsCategory f.2)
    (hfresh : index.Fresh (before ++ fields)) :
    ∃ next : Index, next.Fresh fields ∧ index.addFields (before ++ fields) = next.addFields fields := by
  induction before generalizing index with
  | nil => exact ⟨index, hfresh, rfl⟩
  | cons f before ih =>
    obtain ⟨key, v⟩ := f
    rw [List.forall_mem_cons] at hbefore
    obtain ⟨⟨entries, hv⟩, hbefore⟩ := hbefore
    have hnext : Fresh ⟨index.sections ++ [⟨.ofKey key, entries⟩]⟩ (before ++ fields) := by
      simpa [Fresh, categories] using hfresh
    obtain ⟨next, hnext, heq⟩ := ih hbefore hnext
    refine ⟨next, hnext, ?_⟩
    rw [List.cons_append, addFields_cons_of_lists hv hfresh.notMem, heq]

theorem fields_cases (fields : List (String × Json.Value)) :
    (∀ f ∈ fields, IsCategory f.2) ∨ ∃ fault, ShapeFault (.object fields) fault := by
  induction fields with
  | nil => exact .inl (by simp)
  | cons f fields ih =>
    obtain ⟨key, v⟩ := f
    obtain hv | ⟨fault, hfault⟩ := category_cases key v
    · obtain hfields | ⟨fault, hfault⟩ := ih
      · exact .inl (List.forall_mem_cons.mpr ⟨hv, hfields⟩)
      · cases hfault with
        | notAnObject h => exact absurd rfl (h fields)
        | category before hbefore h =>
          exact .inr ⟨fault, .category ((key, v) :: before)
            (List.forall_mem_cons.mpr ⟨hv, hbefore⟩) h⟩
    · exact .inr ⟨fault, .category [] (by simp) hfault⟩

end Fields

/-! ## Values -/

section Values

variable {v : Json.Value}

theorem fresh_of_names {fields : List (String × Json.Value)}
    (h : (Json.Value.object fields).names.Nodup) : Fresh ⟨[]⟩ fields := by
  have hkeys := List.Nodup.map Category.ofKey_injective h
  simpa [Fresh, categories, Json.Value.names, Function.comp_def] using hkeys

theorem value_cases (v : Json.Value) : HasShape v ∨ ∃ fault, ShapeFault v fault := by
  cases v with
  | object fields => exact (fields_cases fields).imp_left fun h => ⟨fields, rfl, h⟩
  | _ => exact .inr ⟨_, .notAnObject fun _ => by simp⟩

theorem ofJson_of_hasShape (hnames : v.names.Nodup) (h : HasShape v) :
    ∃ index, ofJson v = .ok index := by
  obtain ⟨fields, rfl, hfields⟩ := h
  have hfresh : Fresh ⟨[]⟩ (fields ++ []) := by
    rw [List.append_nil]
    exact fresh_of_names hnames
  obtain ⟨next, -, heq⟩ := addFields_append hfields hfresh
  rw [List.append_nil] at heq
  exact ⟨next, heq⟩

theorem ofJson_of_fault (hnames : v.names.Nodup) {fault : IndexFault} (h : ShapeFault v fault) :
    ofJson v = .error fault := by
  cases h with
  | notAnObject h =>
    cases v with
    | object fields => exact absurd rfl (h fields)
    | _ => rfl
  | category before hbefore h =>
    obtain ⟨next, hfresh, heq⟩ := addFields_append hbefore (fresh_of_names hnames)
    rw [ofJson, heq, addFields_cons_of_fault h hfresh.notMem]

theorem ofJson_eq_error_iff (hnames : v.names.Nodup) {fault : IndexFault} :
    ofJson v = .error fault ↔ ShapeFault v fault := by
  refine ⟨fun h => ?_, ofJson_of_fault hnames⟩
  -- The value has the shape or a fault, and the reader answers each in one way.
  obtain hshape | ⟨first, hfirst⟩ := value_cases v
  · obtain ⟨index, hindex⟩ := ofJson_of_hasShape hnames hshape
    simp [hindex] at h
  · rw [ofJson_of_fault hnames hfirst, Except.error.injEq] at h
    exact h ▸ hfirst

theorem ofJson_ne_duplicateCategory (hnames : v.names.Nodup) (key : String) :
    ofJson v ≠ .error (.duplicateCategory key) := by
  rw [Ne, ofJson_eq_error_iff hnames]
  intro h
  cases h with
  | category before _ h =>
    cases h with
    | entry before h => cases h

/-- The reader of texts leaves no category twice, so none is refused for that. -/
theorem parse_ne_duplicateCategory (script key : String) :
    parse script ≠ .error (.duplicateCategory key) := by
  unfold parse
  split
  · simp
  · split
    · simp
    · next v hv => exact ofJson_ne_duplicateCategory (Json.nodup_names_of_parse hv) key

/-- A value with the shape of an index is read, and any other is refused with its first fault. -/
theorem ofJson_outcome (v : Json.Value) (hnames : v.names.Nodup) :
    ((∃ index, ofJson v = .ok index) ↔ HasShape v) ∧
      (∀ fault, ofJson v = .error fault ↔ ShapeFault v fault) ∧
      ∀ key, ofJson v ≠ .error (.duplicateCategory key) := by
  refine ⟨⟨?_, ofJson_of_hasShape hnames⟩, fun _ => ofJson_eq_error_iff hnames,
    ofJson_ne_duplicateCategory hnames⟩
  rintro ⟨index, hindex⟩
  refine (value_cases v).resolve_right ?_
  rintro ⟨fault, h⟩
  simp [ofJson_of_fault hnames h] at hindex

end Values

/-- Faults in two categories and, in the first of them, a bad entry before a repeated name. -/
def manyFaults : Json.Value :=
  .object [("mod", .array []),
    ("fn", .array [Entry.toJson ⟨"init", ""⟩, .array [.null], Entry.toJson ⟨"init", ""⟩]),
    ("struct", .string "Logger")]

theorem ofJson_outcome_manyFaults :
    manyFaults.names.Nodup ∧ ofJson manyFaults = .error (.fieldNotString "fn" 1 .name) :=
  ⟨by decide, ((ofJson_outcome manyFaults (by decide)).2.1 _).mpr
    (.category [("mod", .array [])] (by simpa using ⟨[], rfl, List.nodup_nil⟩)
      (.entry [⟨"init", ""⟩] (.nameNotString (by simp) (by simp))))⟩

end ModuleIndex.Index

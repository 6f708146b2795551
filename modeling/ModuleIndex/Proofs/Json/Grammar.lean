import ModuleIndex.Json.Parser
import ModuleIndex.Json.Printer

/-!
# The grammar of arrays and objects

Parts with commas between them and gaps around them. The readers of arrays and objects take every
text of this grammar, and a field that is written again takes the place of the one before it.
-/

namespace ModuleIndex.Json

variable {text rest : List Char}

/-! ## Gaps -/

/-- A text of characters that the readers skip. -/
def IsGap (text : List Char) : Prop := ∀ c ∈ text, isSpace c = true

theorem isGap_nil : IsGap [] := by simp [IsGap]

theorem skipSpace_gap {gap : List Char} (h : IsGap gap) (text : List Char) :
    skipSpace (gap ++ text) = skipSpace text := by
  rw [skipSpace, List.dropWhile_append_of_pos h, skipSpace]

theorem skipSpace_cons {c : Char} (h : isSpace c = false) (text : List Char) :
    skipSpace (c :: text) = c :: text := by
  rw [skipSpace, List.dropWhile_cons_of_neg (by simp [h])]

theorem skipSpace_gap_cons {gap : List Char} (hgap : IsGap gap) {c : Char}
    (hc : isSpace c = false) (text : List Char) : skipSpace (gap ++ c :: text) = c :: text := by
  rw [skipSpace_gap hgap, skipSpace_cons hc]

/-! ## What is read -/

/-- A reader reads the text as the value and stops behind it, whatever follows. -/
def Reads {α : Type} (read : Reader α) (text : List Char) (a : α) : Prop :=
  ∀ rest, read (text ++ rest) = .ok (a, rest)

/-- What may stand behind a value: nothing, a gap, a comma, or the end of an array or object. -/
def EndsValue (rest : List Char) : Prop :=
  ∀ c ∈ rest.head?, isSpace c = true ∨ c ∈ [',', ']', '}']

/-- A reader reads the text as the value and stops behind it, if what follows may stand there. -/
def ReadsValue {α : Type} (read : Reader α) (text : List Char) (a : α) : Prop :=
  ∀ rest, EndsValue rest → read (text ++ rest) = .ok (a, rest)

theorem Reads.readsValue {α : Type} {read : Reader α} {a : α} (h : Reads read text a) :
    ReadsValue read text a :=
  fun rest _ => h rest

/-! ## Parts -/

/-- The parts of an array or object from the second one on, each behind a comma, and what closes
it. -/
inductive MoreText {α : Type} (part : List Char → α → Prop) (close : Char) :
    List Char → List α → Prop
  | close {gap} (hgap : IsGap gap) : MoreText part close (gap ++ [close]) []
  | part {gap gap' text rest a as} (hgap : IsGap gap) (hgap' : IsGap gap') (h : part text a)
      (hrest : MoreText part close rest as) :
      MoreText part close (gap ++ ',' :: (gap' ++ (text ++ rest))) (a :: as)

/-- The parts of an array or object, with commas between them, and what closes it. -/
inductive PartsText {α : Type} (part : List Char → α → Prop) (close : Char) :
    List Char → List α → Prop
  | close {gap} (hgap : IsGap gap) : PartsText part close (gap ++ [close]) []
  | parts {gap text rest a as} (hgap : IsGap gap) (h : part text a)
      (hrest : MoreText part close rest as) :
      PartsText part close (gap ++ (text ++ rest)) (a :: as)

/-- A text that starts neither with a space nor with the end of an array. -/
def StartsItem (text : List Char) : Prop :=
  ∃ c rest, text = c :: rest ∧ isSpace c = false ∧ c ≠ ']'

/-- An item of an array. -/
structure ItemText (item : Reader Value) (text : List Char) (v : Value) : Prop where
  starts : StartsItem text
  reads : ReadsValue item text v

/-- A field of an object: a name in quotes, a colon, and the value. -/
inductive FieldText (item : Reader Value) : List Char → String × Value → Prop
  | mk {nameText gap valueText name v} (hname : Reads stringLiteral nameText name)
      (hgap : IsGap gap) (hvalue : ReadsValue item valueText v) :
      FieldText item ('"' :: (nameText ++ (gap ++ ':' :: valueText))) (name, v)

section Parts

variable {α : Type} {part : List Char → α → Prop} {close : Char} {as : List α}

/-- What stands behind a part is a gap, a comma, or what closes it all. -/
theorem MoreText.endsValue (h : MoreText part close text as) (hclose : close ∈ [']', '}'])
    (rest : List Char) : EndsValue (text ++ rest) := by
  have hgap {gap : List Char} (hgap : IsGap gap) {c : Char} (hc : c ∈ [',', ']', '}'])
      (rest : List Char) : EndsValue (gap ++ c :: rest) := by
    intro d hd
    cases gap with
    | nil => exact .inr (by simpa [← Option.some.inj hd] using hc)
    | cons e gap => exact .inl (by simpa [← Option.some.inj hd] using hgap e List.mem_cons_self)
  cases h with
  | close hspace =>
    rw [List.append_assoc]
    exact hgap hspace (List.mem_cons_of_mem _ hclose) rest
  | part hspace _ _ _ =>
    rw [List.append_assoc]
    exact hgap hspace List.mem_cons_self _

/-- The text behind a part is long enough to bound the number of further parts. -/
theorem MoreText.length_lt (h : MoreText part close text as) (rest : List Char) :
    as.length < (text ++ rest).length + 1 := by
  induction h with
  | close => simp
  | part _ _ _ _ ih =>
    simp only [List.length_append, List.length_cons] at ih ⊢
    omega

theorem MoreText.exists_concat (h : MoreText part close text as) :
    ∃ inner, text = inner ++ [close] := by
  induction h with
  | close => exact ⟨_, rfl⟩
  | part _ _ _ _ ih =>
    obtain ⟨inner, rfl⟩ := ih
    exact ⟨_, by rw [← List.append_assoc, ← List.append_assoc, ← List.cons_append,
      ← List.append_assoc]⟩

theorem PartsText.exists_concat (h : PartsText part close text as) :
    ∃ inner, text = inner ++ [close] := by
  cases h with
  | close => exact ⟨_, rfl⟩
  | parts _ _ hrest =>
    obtain ⟨inner, rfl⟩ := hrest.exists_concat
    exact ⟨_, by rw [← List.append_assoc, ← List.append_assoc]⟩

end Parts

/-! ## Arrays -/

section Arrays

variable {item : Reader Value} {vs : List Value}

/-- An item is read behind any gap, and the reader goes on behind it. -/
theorem ItemText.exists_cons {v : Value} (h : ItemText item text v) {gap : List Char}
    (hgap : IsGap gap) (rest : List Char) (hrest : EndsValue rest) :
    ∃ c tail, c ≠ ']' ∧ skipSpace (gap ++ (text ++ rest)) = c :: tail ∧
      item (c :: tail) = .ok (v, rest) := by
  obtain ⟨c, tail, rfl, hspace, hclose⟩ := h.starts
  exact ⟨c, tail ++ rest, hclose, skipSpace_gap_cons hgap hspace _, h.reads rest hrest⟩

theorem moreItems_of_moreText (h : MoreText (ItemText item) ']' text vs) {bound : Nat}
    (hbound : vs.length < bound) (rest : List Char) :
    moreItems item bound (text ++ rest) = .ok (vs, rest) := by
  induction h generalizing bound with
  | close hgap =>
    obtain ⟨n, rfl⟩ := Nat.exists_eq_add_one.mpr (Nat.zero_lt_of_lt hbound)
    simp [moreItems, skipSpace_gap_cons hgap (show isSpace ']' = false by decide)]
  | @part gap gap' text more v vs hgap hgap' hitem hmore ih =>
    obtain ⟨n, rfl⟩ := Nat.exists_eq_add_one.mpr (Nat.zero_lt_of_lt hbound)
    have hlength : vs.length < n := by simpa using hbound
    have ih := ih hlength
    obtain ⟨c, tail, hc, hskip, hread⟩ :=
      hitem.exists_cons hgap' (more ++ rest) (hmore.endsValue (by decide) rest)
    have hcomma (text : List Char) : skipSpace (gap ++ ',' :: text) = ',' :: text :=
      skipSpace_gap_cons hgap (by decide) text
    simp only [List.append_assoc, List.cons_append]
    rw [moreItems]
    simp only [hcomma, hskip]
    simp [hc, hread, ih, bind, Except.bind]

theorem reads_items (h : PartsText (ItemText item) ']' text vs) : Reads (items item) text vs := by
  intro rest
  cases h with
  | close hgap => simp [items, skipSpace_gap_cons hgap (show isSpace ']' = false by decide)]
  | @parts gap text more v vs hgap hitem hmore =>
    obtain ⟨c, tail, hc, hskip, hread⟩ :=
      hitem.exists_cons hgap (more ++ rest) (hmore.endsValue (by decide) rest)
    have hmore := moreItems_of_moreText hmore (hmore.length_lt rest) rest
    rw [List.append_assoc, List.append_assoc]
    generalize more ++ rest = behind at hskip hread hmore ⊢
    simp only [items, hskip]
    simp [hc, hread, hmore, bind, Except.bind]

end Arrays

/-! ## Objects -/

/-- The fields of an object, of those that were written after the ones in `before`. -/
def mergedInto (before written : List (String × Value)) : List (String × Value) :=
  written.foldl (fun fs f => setField f.1 f.2 fs) before

section Objects

variable {item : Reader Value} {written : List (String × Value)}

/-- A field is read behind any gap, its name and then its value, and the reader goes on behind
it. -/
theorem FieldText.exists_cons {f : String × Value} (h : FieldText item text f) {gap : List Char}
    (hgap : IsGap gap) (rest : List Char) (hrest : EndsValue rest) :
    ∃ tail middle, skipSpace (gap ++ (text ++ rest)) = '"' :: tail ∧
      stringLiteral tail = .ok (f.1, middle) ∧ fieldValue item middle = .ok (f.2, rest) := by
  obtain @⟨nameText, gap', valueText, name, v, hname, hgap', hvalue⟩ := h
  refine ⟨nameText ++ (gap' ++ ':' :: (valueText ++ rest)), _, ?_, hname _, ?_⟩
  · simp [skipSpace_gap_cons hgap (show isSpace '"' = false by decide)]
  · simp [fieldValue, skipSpace_gap_cons hgap' (show isSpace ':' = false by decide),
      hvalue rest hrest]

theorem moreFields_of_moreText (h : MoreText (FieldText item) '}' text written) {bound : Nat}
    (hbound : written.length < bound) (before : List (String × Value)) (rest : List Char) :
    moreFields item bound before (text ++ rest) = .ok (mergedInto before written, rest) := by
  induction h generalizing bound before with
  | close hgap =>
    obtain ⟨n, rfl⟩ := Nat.exists_eq_add_one.mpr (Nat.zero_lt_of_lt hbound)
    simp [moreFields, mergedInto, skipSpace_gap_cons hgap (show isSpace '}' = false by decide)]
  | @part gap gap' text more f written hgap hgap' hfield hmore ih =>
    obtain ⟨n, rfl⟩ := Nat.exists_eq_add_one.mpr (Nat.zero_lt_of_lt hbound)
    have hlength : written.length < n := by simpa using hbound
    have ih := ih hlength (setField f.1 f.2 before)
    obtain ⟨tail, middle, hquote, hname, hvalue⟩ :=
      hfield.exists_cons hgap' (more ++ rest) (hmore.endsValue (by decide) rest)
    have hcomma (text : List Char) : skipSpace (gap ++ ',' :: text) = ',' :: text :=
      skipSpace_gap_cons hgap (by decide) text
    simp only [List.append_assoc, List.cons_append]
    rw [moreFields]
    simp only [hcomma, hquote, hname, hvalue, bind, Except.bind]
    exact ih

theorem reads_fields (h : PartsText (FieldText item) '}' text written) :
    Reads (fields item) text (mergedInto [] written) := by
  intro rest
  cases h with
  | close hgap =>
    simp [fields, mergedInto, skipSpace_gap_cons hgap (show isSpace '}' = false by decide)]
  | @parts gap text more f written hgap hfield hmore =>
    obtain ⟨tail, middle, hquote, hname, hvalue⟩ :=
      hfield.exists_cons hgap (more ++ rest) (hmore.endsValue (by decide) rest)
    have hmore := moreFields_of_moreText hmore (hmore.length_lt rest) [f] rest
    rw [List.append_assoc, List.append_assoc]
    simp only [fields, hquote, hname, hvalue, bind, Except.bind]
    exact hmore

end Objects

/-! ## Values -/

section Values

variable {levels : Nat} {v : Value}

theorem value_null (levels : Nat) : Reads (value levels) ['n', 'u', 'l', 'l'] .null := by
  intro rest
  simp [value, skipSpace, isSpace, ident, Except.map]

theorem value_bool (levels : Nat) (b : Bool) :
    Reads (value levels) (Value.bool b).compact (.bool b) := by
  intro rest
  cases b <;> simp [Value.compact, value, skipSpace, isSpace, ident, Except.map]

theorem value_string {s : String} (h : Reads stringLiteral text s) :
    Reads (value levels) ('"' :: text) (.string s) := by
  intro rest
  rw [List.cons_append, value, skipSpace_cons (by decide)]
  simp [h rest, Except.map]

theorem value_gap {gap : List Char} (hgap : IsGap gap) (h : Reads (value levels) text v) :
    Reads (value levels) (gap ++ text) v := by
  intro rest
  rw [← h rest, List.append_assoc, value, value, skipSpace_gap hgap]

theorem value_array {vs : List Value} (h : Reads (items (value levels)) text vs) :
    Reads (value (levels + 1)) ('[' :: text) (.array vs) := by
  intro rest
  rw [List.cons_append, value, skipSpace_cons (by decide)]
  simp [h rest, Except.map]

theorem value_object {fs : List (String × Value)} (h : Reads (fields (value levels)) text fs) :
    Reads (value (levels + 1)) ('{' :: text) (.object fs) := by
  intro rest
  rw [List.cons_append, value, skipSpace_cons (by decide)]
  simp [h rest, Except.map]

end Values

end ModuleIndex.Json

import ModuleIndex.Json.Printer
import ModuleIndex.Proofs.Json.Grammar
import Mathlib.Data.List.Nodup
import Mathlib.Tactic.SplitIfs

/-!
# Written JSON is read back

The readers give back every value that was written in one of the two layouts, and stop right
behind it. This is shown for the values that this library writes: without numbers, with each name
once in an object, and nested no deeper than the readers go.
-/

namespace ModuleIndex.Json

/-! ## Strings -/

theorem hexValue?_hexDigit : ∀ n < 16, hexValue? (hexDigit n) = some n := by decide

theorem unicodeEscape_control (c : Char) (h : c.toNat < 0x20) (rest : List Char) :
    unicodeEscape ('0' :: '0' :: hexDigit (c.toNat / 16) :: hexDigit (c.toNat % 16) :: rest) =
      .ok (c, rest) := by
  have hhigh := hexValue?_hexDigit (c.toNat / 16) (by omega)
  have hlow := hexValue?_hexDigit (c.toNat % 16) (by omega)
  have hzero : hexValue? '0' = some 0 := by decide
  have hsum : c.toNat / 16 * 16 + c.toNat % 16 = c.toNat := by omega
  have htrail : isTrailSurrogate c.toNat = false := by simp [isTrailSurrogate]; omega
  have hlead : isLeadSurrogate c.toNat = false := by simp [isLeadSurrogate]; omega
  simp [unicodeEscape, hexEscape, hzero, hhigh, hlow, hsum, htrail, hlead, bind, Except.bind]

/-- The reader of a string takes one written character at a time. -/
theorem stringBody_escaped {bound : Nat} {c : Char} {text cs rest : List Char}
    (h : stringBody bound text = .ok (cs, rest)) :
    stringBody (bound + 1) (escaped c ++ text) = .ok (c :: cs, rest) := by
  unfold escaped
  split_ifs with hquote hslash hb hf hn hr ht hcontrol
  · subst hquote; simp [stringBody, escape, h, bind, Except.bind]
  · subst hslash; simp [stringBody, escape, h, bind, Except.bind]
  · subst hb; simp [stringBody, escape, h, bind, Except.bind]
  · subst hf; simp [stringBody, escape, h, bind, Except.bind]
  · subst hn; simp [stringBody, escape, h, bind, Except.bind]
  · subst hr; simp [stringBody, escape, h, bind, Except.bind]
  · subst ht; simp [stringBody, escape, h, bind, Except.bind]
  · simp [stringBody, escape, unicodeEscape_control c hcontrol, h, bind, Except.bind]
  · rw [List.singleton_append, stringBody]
    · simp [hcontrol, h, bind, Except.bind]
    · exact hquote
    · exact hslash

theorem stringBody_written (cs rest : List Char) (bound : Nat) (h : cs.length < bound) :
    stringBody bound (cs.flatMap escaped ++ '"' :: rest) = .ok (cs, rest) := by
  induction cs generalizing bound with
  | nil =>
    obtain ⟨n, rfl⟩ := Nat.exists_eq_add_one.mpr (Nat.zero_lt_of_lt h)
    simp [stringBody]
  | cons c cs ih =>
    obtain ⟨n, rfl⟩ := Nat.exists_eq_add_one.mpr (Nat.zero_lt_of_lt h)
    rw [List.flatMap_cons, List.append_assoc]
    exact stringBody_escaped (ih n (by simpa using h))

theorem escaped_ne_nil (c : Char) : escaped c ≠ [] := by
  unfold escaped
  split_ifs <;> simp

theorem length_le_length_written (cs : List Char) :
    cs.length ≤ (cs.flatMap escaped).length := by
  induction cs with
  | nil => simp
  | cons c cs ih =>
    have hc := List.length_pos_of_ne_nil (escaped_ne_nil c)
    rw [List.flatMap_cons, List.length_append, List.length_cons]
    omega

theorem stringLiteral_written (s : String) :
    Reads stringLiteral (s.toList.flatMap escaped ++ ['"']) s := by
  intro rest
  have hbound : s.toList.length < (s.toList.flatMap escaped ++ ['"'] ++ rest).length := by
    have hlength := length_le_length_written s.toList
    rw [List.append_assoc, List.length_append, List.length_append, List.length_singleton]
    omega
  have htext : s.toList.flatMap escaped ++ ['"'] ++ rest =
      s.toList.flatMap escaped ++ '"' :: rest := by simp
  rw [stringLiteral, htext, stringBody_written _ _ _ (htext ▸ hbound)]
  simp [bind, Except.bind]

/-! ## Lists of parts -/

/-- The parts of an array or object from the second one on, each after a comma and a gap, and
what closes it after a last gap. -/
def tailText (gap last : List Char) (close : Char) : (parts : List (List Char)) → List Char
  | [] => last ++ [close]
  | part :: parts => ',' :: gap ++ part ++ tailText gap last close parts

theorem tailText_ends (gap last : List Char) (close : Char) (parts : List (List Char)) :
    ∃ text, tailText gap last close parts = text ++ [close] := by
  induction parts with
  | nil => exact ⟨last, rfl⟩
  | cons part parts ih =>
    obtain ⟨text, htext⟩ := ih
    exact ⟨',' :: gap ++ part ++ text, by simp [tailText, htext]⟩

theorem moreText_tailText {α : Type} {part : List Char → α → Prop} {write : α → List Char}
    {gap last : List Char} (hgap : IsGap gap) (hlast : IsGap last) (close : Char) {as : List α}
    (h : ∀ a ∈ as, part (write a) a) :
    MoreText part close (tailText gap last close (as.map write)) as := by
  induction as with
  | nil => exact .close hlast
  | cons a as ih =>
    rw [List.forall_mem_cons] at h
    rw [List.map_cons, tailText, List.append_assoc, List.cons_append]
    exact .part isGap_nil hgap h.1 (ih h.2)

/-- A field as the printer writes it, with the text that stands behind its colon. -/
def fieldText (name : String) (text : List Char) : List Char :=
  quoted name ++ ':' :: text

theorem fieldText_isField {item : Reader Value} {f : String × Value} {text : List Char}
    (h : Reads item text f.2) : FieldText item (fieldText f.1 text) f := by
  have hfield := FieldText.mk (stringLiteral_written f.1) isGap_nil h.readsValue
  simpa [fieldText, quoted] using hfield

/-- A name that is not there goes to the end. -/
theorem setField_of_notMem {name : String} {fs : List (String × Value)}
    (h : name ∉ fs.map (·.1)) (v : Value) : setField name v fs = fs ++ [(name, v)] := by
  induction fs with
  | nil => rfl
  | cons f fs ih =>
    rw [List.map_cons, List.mem_cons, not_or] at h
    obtain ⟨n, w⟩ := f
    rw [setField, if_neg (Ne.symm h.1), ih h.2]
    rfl

/-- Without a name that comes again, an object has the fields that are written. -/
theorem mergedInto_of_nodup {before fs : List (String × Value)}
    (h : ((before ++ fs).map (·.1)).Nodup) : mergedInto before fs = before ++ fs := by
  induction fs generalizing before with
  | nil => simp [mergedInto]
  | cons f fs ih =>
    have hnew : f.1 ∉ before.map (·.1) := by
      rw [List.map_append] at h
      intro hmem
      exact List.disjoint_of_nodup_append h hmem (by simp)
    have hset : mergedInto before (f :: fs) = mergedInto (before ++ [f]) fs := by
      rw [mergedInto, List.foldl_cons, setField_of_notMem hnew]
      rfl
    rw [hset, ih (by simpa using h)]
    simp

/-! ## Values -/

/-- A value that this library may write: without numbers, with no name twice in an object, and
with at most `levels` arrays and objects inside each other. -/
def Value.Fits : (levels : Nat) → Value → Prop
  | _, .null => True
  | _, .bool _ => True
  | _, .number _ => False
  | _, .string _ => True
  | 0, .array _ => False
  | 0, .object _ => False
  | levels + 1, .array vs => ∀ v ∈ vs, v.Fits levels
  | levels + 1, .object fs => (fs.map (·.1)).Nodup ∧ ∀ f ∈ fs, f.2.Fits levels

/-! ## Layouts -/

/-- What all layouts of a value have in common: the parts of arrays and objects are written one
after the other, with gaps before them, before what closes them, and behind colons. -/
structure IsLayout (write : (level : Nat) → Value → List Char) (gap last : Nat → List Char)
    (space : List Char) : Prop where
  isGap_gap : ∀ level, IsGap (gap level)
  isGap_last : ∀ level, IsGap (last level)
  isGap_space : IsGap space
  null : ∀ level, write level .null = ['n', 'u', 'l', 'l']
  bool : ∀ level b, write level (.bool b) = (Value.bool b).compact
  string : ∀ level s, write level (.string s) = quoted s
  array_nil : ∀ level, write level (.array []) = ['[', ']']
  array_cons : ∀ level v vs, write level (.array (v :: vs)) =
    '[' :: (gap level ++ write (level + 1) v ++
      tailText (gap level) (last level) ']' (vs.map (write (level + 1))))
  object_nil : ∀ level, write level (.object []) = ['{', '}']
  object_cons : ∀ level f fs, write level (.object (f :: fs)) =
    '{' :: (gap level ++ fieldText f.1 (space ++ write (level + 1) f.2) ++
      tailText (gap level) (last level) '}'
        (fs.map fun f => fieldText f.1 (space ++ write (level + 1) f.2)))

namespace IsLayout

variable {write : Nat → Value → List Char} {gap last : Nat → List Char} {space : List Char}

theorem exists_object (h : IsLayout write gap last space) (level : Nat)
    (fs : List (String × Value)) : ∃ text, write level (.object fs) = '{' :: text ++ ['}'] := by
  cases fs with
  | nil => exact ⟨[], h.object_nil level⟩
  | cons f fs =>
    obtain ⟨text, htext⟩ := tailText_ends (gap level) (last level) '}'
      (fs.map fun f => fieldText f.1 (space ++ write (level + 1) f.2))
    refine ⟨gap level ++ fieldText f.1 (space ++ write (level + 1) f.2) ++ text, ?_⟩
    rw [h.object_cons, htext]
    simp

theorem startsItem (h : IsLayout write gap last space) (level : Nat) {levels : Nat} {v : Value}
    (hv : v.Fits levels) : StartsItem (write level v) := by
  match v with
  | .null => exact ⟨'n', _, h.null level, by decide, by decide⟩
  | .bool true => exact ⟨'t', _, h.bool level true, by decide, by decide⟩
  | .bool false => exact ⟨'f', _, h.bool level false, by decide, by decide⟩
  | .number literal => simp [Value.Fits] at hv
  | .string s => exact ⟨'"', _, h.string level s, by decide, by decide⟩
  | .array [] => exact ⟨'[', _, h.array_nil level, by decide, by decide⟩
  | .array (v :: vs) => exact ⟨'[', _, h.array_cons level v vs, by decide, by decide⟩
  | .object [] => exact ⟨'{', _, h.object_nil level, by decide, by decide⟩
  | .object (f :: fs) => exact ⟨'{', _, h.object_cons level f fs, by decide, by decide⟩

theorem exists_items (h : IsLayout write gap last space) (level : Nat) {item : Reader Value}
    {vs : List Value} (hvs : ∀ v ∈ vs, ItemText item (write (level + 1) v) v) :
    ∃ text, write level (.array vs) = '[' :: text ∧ PartsText (ItemText item) ']' text vs := by
  cases vs with
  | nil => exact ⟨_, h.array_nil level, .close isGap_nil⟩
  | cons v vs =>
    rw [List.forall_mem_cons] at hvs
    refine ⟨_, h.array_cons level v vs, ?_⟩
    rw [List.append_assoc]
    exact .parts (h.isGap_gap level) hvs.1
      (moreText_tailText (h.isGap_gap level) (h.isGap_last level) ']' hvs.2)

theorem exists_fields (h : IsLayout write gap last space) (level : Nat) {levels : Nat}
    {fs : List (String × Value)}
    (hfs : ∀ f ∈ fs, Reads (value levels) (write (level + 1) f.2) f.2) :
    ∃ text, write level (.object fs) = '{' :: text ∧
      PartsText (FieldText (value levels)) '}' text fs := by
  have hfields : ∀ f ∈ fs, FieldText (value levels)
      (fieldText f.1 (space ++ write (level + 1) f.2)) f :=
    fun f hf => fieldText_isField (value_gap h.isGap_space (hfs f hf))
  cases fs with
  | nil => exact ⟨_, h.object_nil level, .close isGap_nil⟩
  | cons f fs =>
    rw [List.forall_mem_cons] at hfields
    refine ⟨_, h.object_cons level f fs, ?_⟩
    rw [List.append_assoc]
    exact .parts (h.isGap_gap level) hfields.1
      (moreText_tailText (h.isGap_gap level) (h.isGap_last level) '}' hfields.2)

/-- A value is read from any layout of it, however deep it stands. -/
theorem reads (h : IsLayout write gap last space) (level levels : Nat) (v : Value)
    (hv : v.Fits levels) : Reads (value levels) (write level v) v := by
  match levels, v with
  | levels, .null =>
    rw [h.null]
    exact value_null levels
  | levels, .bool b =>
    rw [h.bool]
    exact value_bool levels b
  | levels, .number literal => simp [Value.Fits] at hv
  | levels, .string s =>
    rw [h.string]
    exact value_string (stringLiteral_written s)
  | 0, .array vs => simp [Value.Fits] at hv
  | 0, .object fs => simp [Value.Fits] at hv
  | levels + 1, .array vs =>
    have hitems : ∀ v ∈ vs, ItemText (value levels) (write (level + 1) v) v := by
      intro v hmem
      exact ⟨h.startsItem (level + 1) (hv v hmem),
        (h.reads (level + 1) levels v (hv v hmem)).readsValue⟩
    obtain ⟨text, htext, hparts⟩ := h.exists_items level hitems
    rw [htext]
    exact value_array (reads_items hparts)
  | levels + 1, .object fs =>
    obtain ⟨hnames, hfits⟩ := hv
    obtain ⟨text, htext, hparts⟩ := h.exists_fields level
      fun f hf => h.reads (level + 1) levels f.2 (hfits f hf)
    have hmerged : mergedInto [] fs = fs := mergedInto_of_nodup hnames
    have hobject := value_object (reads_fields hparts)
    rwa [hmerged, ← htext] at hobject

/-- A whole text is read as the value that was written into it. -/
theorem parse (h : IsLayout write gap last space) {v : Value} (hv : v.Fits maxLevels)
    {after : List Char} (hafter : IsGap after) : parse (write 0 v ++ after) = .ok v := by
  have hskip : skipSpace after = [] := by
    rw [← List.append_nil after, skipSpace_gap hafter]
    rfl
  simp [Json.parse, parseStart, parseEnd, h.reads 0 maxLevels v hv after, hskip,
    Except.mapError, bind, Except.bind]

end IsLayout

/-! ## The compact layout -/

theorem compactItems_eq (vs : List Value) :
    compactItems vs = tailText [] [] ']' (vs.map Value.compact) := by
  induction vs with
  | nil => rfl
  | cons v vs ih => simp [compactItems, tailText, ih]

theorem compactFields_eq (fs : List (String × Value)) :
    compactFields fs = tailText [] [] '}' (fs.map fun f => fieldText f.1 f.2.compact) := by
  induction fs with
  | nil => rfl
  | cons f fs ih => simp [compactFields, tailText, fieldText, ih]

theorem isLayout_compact :
    IsLayout (fun _ => Value.compact) (fun _ => []) (fun _ => []) [] where
  isGap_gap _ := isGap_nil
  isGap_last _ := isGap_nil
  isGap_space := isGap_nil
  null _ := rfl
  bool _ _ := rfl
  string _ _ := rfl
  array_nil _ := rfl
  array_cons _ v vs := by simp [Value.compact, compactItems_eq]
  object_nil _ := rfl
  object_cons _ f fs := by simp [Value.compact, compactFields_eq, fieldText]

theorem parse_compact {v : Value} (h : v.Fits maxLevels) : parse v.compact = .ok v := by
  rw [← List.append_nil v.compact]
  exact isLayout_compact.parse h isGap_nil

/-! ## The indented layout -/

theorem isGap_newLine (level : Nat) : IsGap (newLine level) := by
  intro c hc
  rcases List.mem_cons.mp hc with rfl | hc
  · rfl
  · rw [List.eq_of_mem_replicate hc]
    rfl

theorem prettyItems_eq (level : Nat) (vs : List Value) :
    prettyItems level vs =
      tailText (newLine (level + 1)) (newLine level) ']' (vs.map (Value.pretty (level + 1))) := by
  induction vs with
  | nil => rfl
  | cons v vs ih => simp [prettyItems, tailText, ih]

theorem prettyFields_eq (level : Nat) (fs : List (String × Value)) :
    prettyFields level fs = tailText (newLine (level + 1)) (newLine level) '}'
      (fs.map fun f => fieldText f.1 ([' '] ++ f.2.pretty (level + 1))) := by
  induction fs with
  | nil => rfl
  | cons f fs ih => simp [prettyFields, tailText, fieldText, ih]

theorem isLayout_pretty :
    IsLayout Value.pretty (fun level => newLine (level + 1)) newLine [' '] where
  isGap_gap level := isGap_newLine (level + 1)
  isGap_last := isGap_newLine
  isGap_space := by simp [IsGap, isSpace]
  null _ := rfl
  bool _ b := by cases b <;> rfl
  string _ _ := rfl
  array_nil _ := rfl
  array_cons level v vs := by simp [Value.pretty, prettyItems_eq]
  object_nil _ := rfl
  object_cons level f fs := by simp [Value.pretty, prettyFields_eq, fieldText]

end ModuleIndex.Json

import ModuleIndex.Proofs.Json.Literals
import ModuleIndex.Proofs.Json.Numbers

/-!
# Values without what follows

What is read as a value is a front of the text, and is read the same whatever follows it. In an
array or object that front is a text of the grammar.
-/

namespace ModuleIndex.Json

variable {text rest : List Char}

/-- What a reader reads does not depend on what follows it. -/
def IsLocal {α : Type} (read : Reader α) : Prop :=
  ∀ text a rest, read text = .ok (a, rest) →
    ∃ front, text = front ++ rest ∧ front ≠ [] ∧ ReadsValue read front a

theorem exists_skipSpace (text : List Char) : ∃ gap, IsGap gap ∧ text = gap ++ skipSpace text :=
  ⟨_, List.all_eq_true.mp List.all_takeWhile, List.takeWhile_append_dropWhile.symm⟩

theorem isSpace_of_skipSpace {c : Char} (h : skipSpace text = c :: rest) : isSpace c = false := by
  have hstop := List.head?_dropWhile_not isSpace text
  rw [← skipSpace, h] at hstop
  simpa using hstop

/-! ## Arrays -/

section Arrays

variable {item : Reader Value} {vs : List Value}

theorem exists_itemText (hlocal : IsLocal item) {v : Value}
    (hclose : ∀ tail, skipSpace text ≠ ']' :: tail)
    (h : item (skipSpace text) = .ok (v, rest)) :
    ∃ gap front, IsGap gap ∧ text = gap ++ (front ++ rest) ∧ ItemText item front v := by
  obtain ⟨gap, hgap, htext⟩ := exists_skipSpace text
  obtain ⟨front, hfront, hne, hread⟩ := hlocal _ _ _ h
  obtain ⟨c, front, rfl⟩ := List.exists_cons_of_ne_nil hne
  refine ⟨gap, c :: front, hgap, by rw [← hfront, ← htext], ?_, hread⟩
  refine ⟨c, front, rfl, isSpace_of_skipSpace hfront, ?_⟩
  rintro rfl
  exact hclose _ hfront

theorem exists_moreText_of_moreItems (hlocal : IsLocal item) {bound : Nat}
    (h : moreItems item bound text = .ok (vs, rest)) :
    ∃ front, text = front ++ rest ∧ MoreText (ItemText item) ']' front vs := by
  induction bound generalizing text vs with
  | zero => simp [moreItems] at h
  | succ bound ih =>
    obtain ⟨gap, hgap, htext⟩ := exists_skipSpace text
    unfold moreItems at h
    split at h
    · simp at h
    · next tail hskip =>
      obtain ⟨rfl, rfl⟩ := by simpa using h
      rw [htext, hskip]
      exact ⟨gap ++ [']'], by simp, .close hgap⟩
    · next tail hcomma =>
      split at h
      · simp at h
      · simp at h
      · next hclose =>
        obtain ⟨⟨v, middle⟩, hitem, hnext⟩ := exists_of_bind_eq_ok h
        obtain ⟨⟨ws, _⟩, hmore, hend⟩ := exists_of_bind_eq_ok hnext
        obtain ⟨rfl, rfl⟩ := by simpa using hend
        obtain ⟨back, rfl, hback⟩ := ih hmore
        obtain ⟨gap', front, hgap', rfl, hfront⟩ := exists_itemText hlocal hclose hitem
        rw [htext, hcomma]
        exact ⟨_, by simp, .part hgap hgap' hfront hback⟩
    · simp at h

theorem exists_partsText_of_items (hlocal : IsLocal item) (h : items item text = .ok (vs, rest)) :
    ∃ front, text = front ++ rest ∧ PartsText (ItemText item) ']' front vs := by
  obtain ⟨gap, hgap, htext⟩ := exists_skipSpace text
  unfold items at h
  split at h
  · simp at h
  · next tail hskip =>
    obtain ⟨rfl, rfl⟩ := by simpa using h
    rw [htext, hskip]
    exact ⟨gap ++ [']'], by simp, .close hgap⟩
  · next hclose =>
    obtain ⟨⟨v, middle⟩, hitem, hnext⟩ := exists_of_bind_eq_ok h
    obtain ⟨⟨ws, _⟩, hmore, hend⟩ := exists_of_bind_eq_ok hnext
    obtain ⟨rfl, rfl⟩ := by simpa using hend
    obtain ⟨back, rfl, hback⟩ := exists_moreText_of_moreItems hlocal hmore
    obtain ⟨gap', front, hgap', rfl, hfront⟩ := exists_itemText hlocal hclose hitem
    exact ⟨_, by simp, .parts hgap' hfront hback⟩

end Arrays

/-! ## Objects -/

section Objects

variable {item : Reader Value} {before fs : List (String × Value)}

theorem exists_fieldText (hlocal : IsLocal item) {tail middle : List Char} {name : String}
    {v : Value} (hquote : skipSpace text = '"' :: tail)
    (hname : stringLiteral tail = .ok (name, middle))
    (hvalue : fieldValue item middle = .ok (v, rest)) :
    ∃ gap front, IsGap gap ∧ text = gap ++ (front ++ rest) ∧ FieldText item front (name, v) := by
  obtain ⟨gap, hgap, htext⟩ := exists_skipSpace text
  obtain ⟨nameText, rfl, hreads⟩ := exists_reads_stringLiteral hname
  obtain ⟨gap', hgap', hmiddle⟩ := exists_skipSpace middle
  unfold fieldValue at hvalue
  split at hvalue
  · next after hcolon =>
    obtain ⟨valueText, rfl, -, hread⟩ := hlocal _ _ _ hvalue
    refine ⟨gap, _, hgap, ?_, .mk hreads hgap' hread⟩
    rw [htext, hquote, hmiddle, hcolon]
    simp
  · simp at hvalue
  · simp at hvalue

theorem exists_moreText_of_moreFields (hlocal : IsLocal item) {bound : Nat}
    (h : moreFields item bound before text = .ok (fs, rest)) :
    ∃ front written, text = front ++ rest ∧ MoreText (FieldText item) '}' front written ∧
      fs = mergedInto before written := by
  induction bound generalizing before text with
  | zero => simp [moreFields] at h
  | succ bound ih =>
    obtain ⟨gap, hgap, htext⟩ := exists_skipSpace text
    unfold moreFields at h
    split at h
    · simp at h
    · next tail hskip =>
      obtain ⟨rfl, rfl⟩ := by simpa using h
      rw [htext, hskip]
      exact ⟨gap ++ ['}'], [], by simp, .close hgap, rfl⟩
    · next tail hcomma =>
      split at h
      · simp at h
      · next tail' hquote =>
        obtain ⟨⟨name, middle⟩, hname, hnext⟩ := exists_of_bind_eq_ok h
        obtain ⟨⟨v, middle'⟩, hvalue, hmore⟩ := exists_of_bind_eq_ok hnext
        obtain ⟨back, written, rfl, hback, rfl⟩ := ih hmore
        obtain ⟨gap', front, hgap', rfl, hfront⟩ := exists_fieldText hlocal hquote hname hvalue
        rw [htext, hcomma]
        exact ⟨_, (name, v) :: written, by simp, .part hgap hgap' hfront hback, rfl⟩
      · simp at h
      · simp at h
    · simp at h

theorem exists_partsText_of_fields (hlocal : IsLocal item)
    (h : fields item text = .ok (fs, rest)) :
    ∃ front written, text = front ++ rest ∧ PartsText (FieldText item) '}' front written ∧
      fs = mergedInto [] written := by
  obtain ⟨gap, hgap, htext⟩ := exists_skipSpace text
  unfold fields at h
  split at h
  · simp at h
  · next tail hskip =>
    obtain ⟨rfl, rfl⟩ := by simpa using h
    rw [htext, hskip]
    exact ⟨gap ++ ['}'], [], by simp, .close hgap, rfl⟩
  · next tail hquote =>
    obtain ⟨⟨name, middle⟩, hname, hnext⟩ := exists_of_bind_eq_ok h
    obtain ⟨⟨v, middle'⟩, hvalue, hmore⟩ := exists_of_bind_eq_ok hnext
    obtain ⟨back, written, rfl, hback, rfl⟩ := exists_moreText_of_moreFields hlocal hmore
    obtain ⟨gap', front, hgap', rfl, hfront⟩ := exists_fieldText hlocal hquote hname hvalue
    exact ⟨_, (name, v) :: written, by simp, .parts hgap' hfront hback, rfl⟩
  · simp at h

end Objects

/-! ## Values -/

section Values

variable {levels : Nat} {v : Value}

theorem EndsValue.endsNumber (h : EndsValue rest) : Number.EndsNumber rest := by
  intro c hc
  have hspace : isSpace c = true → c = ' ' ∨ c = '\t' ∨ c = '\n' ∨ c = '\r' := by
    simp [isSpace, or_assoc]
  have hchar := (h c hc).imp_left hspace
  simp only [List.mem_cons, List.not_mem_nil, or_false] at hchar
  obtain (rfl | rfl | rfl | rfl) | rfl | rfl | rfl := hchar
  all_goals decide

theorem readsValue_gap {gap : List Char} (hgap : IsGap gap) (h : ReadsValue (value levels) text v) :
    ReadsValue (value levels) (gap ++ text) v := by
  intro rest hrest
  rw [← h rest hrest, List.append_assoc, value, value, skipSpace_gap hgap]

/-- A number is the part of the text that its reader leaves in front. -/
theorem take_literal (c : Char) (front rest : List Char) :
    (c :: (front ++ rest)).take ((front ++ rest).length + 1 - rest.length) = c :: front := by
  rw [← List.length_cons, ← List.cons_append, List.length_append, Nat.add_sub_cancel,
    List.take_left]

theorem readsValue_number {c : Char} {front : List Char} (hc : c.isDigit || c = '-')
    (h : Number.Takes Number.after (c :: front)) :
    ReadsValue (value levels) (c :: front) (.number (c :: front)) := by
  intro rest hrest
  have hafter := h rest hrest.endsNumber
  -- No other value and no gap starts with a digit or a minus sign.
  have hother {d : Char} (hd : (d.isDigit || d = '-') = false) : c ≠ d := by
    rintro rfl
    simp [hd] at hc
  have hspace : isSpace c = false := by
    simp [isSpace, hother (d := ' ') (by decide), hother (d := '\t') (by decide),
      hother (d := '\n') (by decide), hother (d := '\r') (by decide)]
  have hn : c ≠ 'n' := hother (by decide)
  have ht : c ≠ 't' := hother (by decide)
  have hf : c ≠ 'f' := hother (by decide)
  have hquote : c ≠ '"' := hother (by decide)
  have hbracket : c ≠ '[' := hother (by decide)
  have hbrace : c ≠ '{' := hother (by decide)
  rw [List.cons_append] at hafter ⊢
  rw [value, skipSpace_cons hspace]
  simp only [hc, hafter, Except.map, if_true, take_literal]

/-- A value is read the same whatever follows it, if the values one level deeper are. -/
theorem exists_readsValue (hlevels : ∀ n, levels = n + 1 → IsLocal (value n))
    (h : value levels text = .ok (v, rest)) :
    ∃ front, skipSpace text = front ++ rest ∧ front ≠ [] ∧ ReadsValue (value levels) front v := by
  -- The first character behind the gap says which reader goes on.
  unfold value at h
  split at h
  case h_1 => simp at h
  case h_2 tail hskip =>
    obtain ⟨rest, hident, h⟩ := exists_of_map_eq_ok h
    obtain ⟨rfl, rfl⟩ := by simpa using h
    rw [hskip, eq_append_of_ident hident]
    exact ⟨['n', 'u', 'l', 'l'], rfl, by simp, (value_null levels).readsValue⟩
  case h_3 tail hskip =>
    obtain ⟨rest, hident, h⟩ := exists_of_map_eq_ok h
    obtain ⟨rfl, rfl⟩ := by simpa using h
    rw [hskip, eq_append_of_ident hident]
    exact ⟨['t', 'r', 'u', 'e'], rfl, by simp, (value_bool levels true).readsValue⟩
  case h_4 tail hskip =>
    obtain ⟨rest, hident, h⟩ := exists_of_map_eq_ok h
    obtain ⟨rfl, rfl⟩ := by simpa using h
    rw [hskip, eq_append_of_ident hident]
    exact ⟨['f', 'a', 'l', 's', 'e'], rfl, by simp, (value_bool levels false).readsValue⟩
  case h_5 tail hskip =>
    obtain ⟨⟨s, rest⟩, hstring, h⟩ := exists_of_map_eq_ok h
    obtain ⟨rfl, rfl⟩ := by simpa using h
    obtain ⟨front, rfl, hfront⟩ := exists_reads_stringLiteral hstring
    exact ⟨'"' :: front, hskip, by simp, (value_string hfront).readsValue⟩
  case h_6 tail hskip =>
    cases levels with
    | zero => simp at h
    | succ levels =>
      obtain ⟨⟨vs, rest⟩, hitems, h⟩ := exists_of_map_eq_ok h
      obtain ⟨rfl, rfl⟩ := by simpa using h
      obtain ⟨front, rfl, hfront⟩ := exists_partsText_of_items (hlevels levels rfl) hitems
      exact ⟨'[' :: front, hskip, by simp, (value_array (reads_items hfront)).readsValue⟩
  case h_7 tail hskip =>
    cases levels with
    | zero => simp at h
    | succ levels =>
      obtain ⟨⟨fs, rest⟩, hfields, h⟩ := exists_of_map_eq_ok h
      obtain ⟨rfl, rfl⟩ := by simpa using h
      obtain ⟨front, written, rfl, hfront, rfl⟩ :=
        exists_partsText_of_fields (hlevels levels rfl) hfields
      exact ⟨'{' :: front, hskip, by simp, (value_object (reads_fields hfront)).readsValue⟩
  case h_8 c tail hn ht hf hquote hbracket hbrace hskip =>
    split at h
    · next hc =>
      obtain ⟨rest, hafter, h⟩ := exists_of_map_eq_ok h
      obtain ⟨front, hfront, hne, htakes⟩ := Number.exists_takes_after hafter
      obtain ⟨d, front, rfl⟩ := List.exists_cons_of_ne_nil hne
      rw [List.cons_append] at hfront
      obtain ⟨rfl, rfl⟩ := List.cons_eq_cons.mp hfront
      rw [take_literal] at h
      obtain ⟨rfl, rfl⟩ := by simpa using h
      exact ⟨c :: front, hskip, by simp, readsValue_number hc htakes⟩
    · simp at h

/-- A value is read the same whatever follows it. -/
theorem isLocal_value (levels : Nat) : IsLocal (value levels) := by
  have hgap {levels : Nat} (h : ∀ n, levels = n + 1 → IsLocal (value n)) :
      IsLocal (value levels) := by
    intro text v rest hvalue
    obtain ⟨front, hskip, hne, hfront⟩ := exists_readsValue h hvalue
    obtain ⟨gap, hgap, htext⟩ := exists_skipSpace text
    exact ⟨gap ++ front, by simpa [hskip] using htext, by simp [hne], readsValue_gap hgap hfront⟩
  induction levels with
  | zero => exact hgap (by simp)
  | succ levels ih => exact hgap (by rintro _ ⟨⟩; exact ih)

end Values

end ModuleIndex.Json

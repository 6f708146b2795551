import ModuleIndex.Proofs.Json.Names

/-!
# Strings and words without what follows

The readers of strings and words take some front of the text, and read the same from that front
whatever follows it.
-/

namespace ModuleIndex.Json

theorem exists_of_bind_eq_ok {α β ε : Type} {e : Except ε α} {f : α → Except ε β} {b : β}
    (h : e >>= f = .ok b) : ∃ a, e = .ok a ∧ f a = .ok b := by
  cases e with
  | error fault => simp [bind, Except.bind] at h
  | ok a => exact ⟨a, rfl, h⟩

variable {text rest : List Char}

/-! ## Strings -/

theorem exists_reads_hexEscape {n : Nat} (h : hexEscape text = .ok (n, rest)) :
    ∃ front, text = front ++ rest ∧ Reads hexEscape front n := by
  unfold hexEscape at h
  split at h
  · next a b c d hdigits =>
    obtain ⟨rfl, rfl⟩ := by simpa using h
    refine ⟨text.take 4, (List.take_append_drop 4 text).symm, fun rest' => ?_⟩
    have hlength : (text.take 4).length = 4 := by simpa using congrArg List.length hdigits
    simp only [hexEscape, List.take_left' hlength, List.drop_left' hlength, hdigits]
  · split at h <;> simp at h

theorem exists_reads_trailSurrogate {n : Nat} (h : trailSurrogate text = .ok (n, rest)) :
    ∃ front, text = front ++ rest ∧ Reads trailSurrogate front n := by
  unfold trailSurrogate at h
  split at h
  case h_3 text =>
    obtain ⟨⟨m, middle⟩, hhex, hend⟩ := exists_of_bind_eq_ok h
    obtain ⟨front, rfl, hfront⟩ := exists_reads_hexEscape hhex
    dsimp only at hend
    split at hend
    · next htrail =>
      obtain ⟨rfl, rfl⟩ := by simpa using hend
      refine ⟨'\\' :: 'u' :: front, rfl, fun rest' => ?_⟩
      simp [trailSurrogate, hfront rest', htrail, bind, Except.bind]
    · simp at hend
  all_goals simp at h

theorem exists_reads_unicodeEscape {c : Char} (h : unicodeEscape text = .ok (c, rest)) :
    ∃ front, text = front ++ rest ∧ Reads unicodeEscape front c := by
  obtain ⟨⟨n, middle⟩, hhex, hend⟩ := exists_of_bind_eq_ok h
  obtain ⟨front, rfl, hfront⟩ := exists_reads_hexEscape hhex
  dsimp only at hend
  split at hend
  · simp at hend
  · next htrail =>
    split at hend
    · next hlead =>
      obtain ⟨⟨low, middle'⟩, hlow, hchar⟩ := exists_of_bind_eq_ok hend
      obtain ⟨front', rfl, hfront'⟩ := exists_reads_trailSurrogate hlow
      obtain ⟨rfl, rfl⟩ := by simpa using hchar
      refine ⟨front ++ front', by simp, fun rest' => ?_⟩
      simp [unicodeEscape, hfront (front' ++ rest'), hfront' rest', htrail, hlead, bind,
        Except.bind]
    · next hlead =>
      obtain ⟨rfl, rfl⟩ := by simpa using hend
      refine ⟨front, rfl, fun rest' => ?_⟩
      simp [unicodeEscape, hfront rest', htrail, hlead, bind, Except.bind]

theorem exists_reads_escape {c : Char} (h : escape text = .ok (c, rest)) :
    ∃ front, text = front ++ rest ∧ Reads escape front c := by
  unfold escape at h
  split at h
  case h_10 text =>
    obtain ⟨front, rfl, hfront⟩ := exists_reads_unicodeEscape h
    exact ⟨'u' :: front, rfl, fun rest' => hfront rest'⟩
  case h_1 | h_11 => simp at h
  -- Each of the other escapes is one character.
  all_goals
    obtain ⟨rfl, rfl⟩ := by simpa using h
    exact ⟨[_], rfl, fun _ => rfl⟩

/-- The characters of a string are fewer than those of its text, which has a quote behind them. -/
theorem exists_stringBody {bound : Nat} {cs : List Char}
    (h : stringBody bound text = .ok (cs, rest)) :
    ∃ front, text = front ++ rest ∧ cs.length < front.length ∧
      ∀ bound' rest', cs.length < bound' →
        stringBody bound' (front ++ rest') = .ok (cs, rest') := by
  fun_induction stringBody bound text generalizing cs with
  | case1 | case2 => simp at h
  | case3 =>
    obtain ⟨rfl, rfl⟩ := by simpa using h
    refine ⟨['"'], rfl, by simp, fun bound' rest' hbound => ?_⟩
    obtain ⟨n, rfl⟩ := Nat.exists_eq_add_one.mpr hbound
    rfl
  | case4 bound text ih =>
    obtain ⟨⟨c, middle⟩, hescape, hmore⟩ := exists_of_bind_eq_ok h
    obtain ⟨⟨ds, middle'⟩, hbody, hend⟩ := exists_of_bind_eq_ok hmore
    obtain ⟨rfl, rfl⟩ := by simpa using hend
    obtain ⟨back, rfl, hlength, hback⟩ := ih _ hbody
    obtain ⟨front, rfl, hfront⟩ := exists_reads_escape hescape
    refine ⟨'\\' :: (front ++ back), by simp, ?_, fun bound' rest' hbound => ?_⟩
    · simp only [List.length_cons, List.length_append]
      omega
    · obtain ⟨n, rfl⟩ := Nat.exists_eq_add_one.mpr (Nat.zero_lt_of_lt hbound)
      have hback := hback n rest' (by simpa using hbound)
      simp [stringBody, hfront (back ++ rest'), hback, bind, Except.bind]
  | case5 => simp at h
  | case6 bound c text hquote hslash hcontrol ih =>
    obtain ⟨⟨ds, middle⟩, hbody, hend⟩ := exists_of_bind_eq_ok h
    obtain ⟨rfl, rfl⟩ := by simpa using hend
    obtain ⟨back, rfl, hlength, hback⟩ := ih hbody
    refine ⟨c :: back, rfl, by simpa using hlength, fun bound' rest' hbound => ?_⟩
    obtain ⟨n, rfl⟩ := Nat.exists_eq_add_one.mpr (Nat.zero_lt_of_lt hbound)
    have hback := hback n rest' (by simpa using hbound)
    rw [List.cons_append, stringBody]
    · simp [hcontrol, hback, bind, Except.bind]
    · exact hquote
    · exact hslash

theorem exists_reads_stringLiteral {s : String} (h : stringLiteral text = .ok (s, rest)) :
    ∃ front, text = front ++ rest ∧ Reads stringLiteral front s := by
  obtain ⟨⟨cs, middle⟩, hbody, hend⟩ := exists_of_bind_eq_ok h
  obtain ⟨rfl, rfl⟩ := by simpa using hend
  obtain ⟨front, rfl, hlength, hfront⟩ := exists_stringBody hbody
  refine ⟨front, rfl, fun rest' => ?_⟩
  have hbound : cs.length < (front ++ rest').length := by
    rw [List.length_append]
    omega
  rw [stringLiteral, hfront _ rest' hbound]
  rfl

/-! ## Words -/

theorem eq_append_of_ident {letters : List Char} (h : ident letters text = .ok rest) :
    text = letters ++ rest := by
  fun_induction ident letters text with
  | case1 => simpa using h
  | case2 => simp at h
  | case3 letters c text ih => simp [ih h]
  | case4 => simp at h

end ModuleIndex.Json

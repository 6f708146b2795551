import ModuleIndex.Json.Number

/-!
# Numbers without what follows

A number ends at the first character that does not go on with it. The reader takes the same front
of a text whatever follows, if that does not go on with the number either.
-/

namespace ModuleIndex.Json.Number

/-- What may follow a number does not go on with it. -/
def EndsNumber (rest : List Char) : Prop :=
  ∀ c ∈ rest.head?, c.isDigit = false ∧ c ≠ '.' ∧ c ≠ 'e' ∧ c ≠ 'E'

/-- A step of the number takes the text, whatever end of a number follows. -/
def Takes (step : List Char → Except Fault (List Char)) (text : List Char) : Prop :=
  ∀ rest, EndsNumber rest → step (text ++ rest) = .ok rest

def NoDigit (text : List Char) : Prop := ∀ c ∈ text.head?, c.isDigit = false

/-- The first character of a text is that of its front, or of what follows if there is none. -/
theorem forall_head?_append {p : Char → Prop} {front rest rest' : List Char}
    (h : ∀ c ∈ (front ++ rest).head?, p c) (h' : ∀ c ∈ rest'.head?, p c) :
    ∀ c ∈ (front ++ rest').head?, p c := by
  cases front with
  | nil => exact h'
  | cons c front => exact h

variable {text rest digits front rest' : List Char}

theorem noDigit_dropWhile (text : List Char) : NoDigit (text.dropWhile Char.isDigit) := by
  intro c hc
  have hstop := List.head?_dropWhile_not Char.isDigit text
  rw [hc] at hstop
  simpa using hstop

theorem EndsNumber.noDigit_append (h : EndsNumber rest') (hfront : NoDigit (front ++ rest)) :
    NoDigit (front ++ rest') :=
  forall_head?_append hfront fun c hc => (h c hc).1

theorem takeWhile_digits (hdigits : ∀ c ∈ digits, c.isDigit = true) (h : NoDigit rest) :
    (digits ++ rest).takeWhile Char.isDigit = digits ∧
      (digits ++ rest).dropWhile Char.isDigit = rest := by
  rw [List.takeWhile_append_of_pos hdigits, List.dropWhile_append_of_pos hdigits]
  cases rest with
  | nil => simp
  | cons c rest =>
    have hc : c.isDigit = false := h c rfl
    simp [hc]

variable {significand : Nat} {exponent : Int}

theorem finish_eq_ok (h : finish significand exponent text = .ok rest) :
    text = rest ∧ ∀ rest', finish significand exponent rest' = .ok rest' := by
  unfold finish at h
  split at h
  · next hfinite =>
    obtain rfl := by simpa using h
    exact ⟨rfl, fun rest' => by rw [finish, if_pos hfinite]⟩
  · simp at h

/-- A sign of an exponent, and whether it is a positive one. -/
inductive IsSign : List Char → Bool → Prop
  | none : IsSign [] true
  | plus : IsSign ['+'] true
  | minus : IsSign ['-'] false

/-- One digit or more. -/
structure IsDigits (digits : List Char) : Prop where
  ne_nil : digits ≠ []
  all : ∀ c ∈ digits, c.isDigit = true

theorem exists_isDigits {c : Char} (h : c.isDigit = true) (text : List Char) :
    IsDigits ((c :: text).takeWhile Char.isDigit) where
  ne_nil := by simp [h]
  all := List.all_eq_true.mp List.all_takeWhile

theorem afterExponent_eq {sign : List Char} {positive : Bool} (hsign : IsSign sign positive)
    (hdigits : IsDigits digits) (hrest : NoDigit rest) :
    afterExponent significand exponent (sign ++ (digits ++ rest)) =
      let read := boundedValue (Nat.pow 2 31 - 1) 0 digits
      if read.1 < Nat.pow 2 31 then
        finish significand (if positive then exponent + read.1 else exponent - read.1) rest
      else if significand ≠ 0 && positive then .error ⟨.numberOutOfRange, read.2 ++ rest, 0⟩
      else .ok rest := by
  obtain ⟨hne, hall⟩ := hdigits
  obtain ⟨htake, hdrop⟩ := takeWhile_digits hall hrest
  obtain ⟨c, digits, rfl⟩ := List.exists_cons_of_ne_nil hne
  have hc : c.isDigit = true := hall c List.mem_cons_self
  have hplus : c ≠ '+' := by rintro rfl; simp at hc
  have hminus : c ≠ '-' := by rintro rfl; simp at hc
  rw [List.cons_append] at htake hdrop
  cases hsign with
  | none => simp [afterExponent, hplus, hminus, hc, htake, hdrop]
  | plus => simp [afterExponent, hc, htake, hdrop]
  | minus => simp [afterExponent, hc, htake, hdrop]

theorem exists_digits_of_afterExponent (h : afterExponent significand exponent text = .ok rest) :
    ∃ sign positive digits back, IsSign sign positive ∧ IsDigits digits ∧ NoDigit back ∧
      text = sign ++ (digits ++ back) := by
  unfold afterExponent at h
  split at h
  next positive unsigned hsign =>
  split at h
  · simp at h
  · next c text' =>
    have hc : c.isDigit = true := by
      rw [← Bool.not_eq_false]
      intro hc
      simp [hc] at h
    have htext : c :: text' = (c :: text').takeWhile Char.isDigit ++
        (c :: text').dropWhile Char.isDigit := List.takeWhile_append_dropWhile.symm
    have hpieces {sign : List Char} (hsign : IsSign sign positive) :
        ∃ sign' positive digits back, IsSign sign' positive ∧ IsDigits digits ∧ NoDigit back ∧
          sign ++ c :: text' = sign' ++ (digits ++ back) :=
      ⟨sign, positive, _, _, hsign, exists_isDigits hc text', noDigit_dropWhile _, by rw [← htext]⟩
    split at hsign
    · cases hsign
      exact hpieces .plus
    · cases hsign
      exact hpieces .minus
    · cases hsign
      exact hpieces .none

theorem exists_takes_afterExponent (h : afterExponent significand exponent text = .ok rest) :
    ∃ front, text = front ++ rest ∧ Takes (afterExponent significand exponent) front := by
  obtain ⟨sign, positive, digits, back, hsign, hdigits, hback, rfl⟩ :=
    exists_digits_of_afterExponent h
  rw [afterExponent_eq hsign hdigits hback] at h
  have htakes (rest' : List Char) (hrest' : EndsNumber rest') :
      afterExponent significand exponent (sign ++ (digits ++ rest')) = _ :=
    afterExponent_eq hsign hdigits fun c hc => (hrest' c hc).1
  dsimp only at h htakes
  split at h
  · next hvalue =>
    obtain ⟨rfl, hfinish⟩ := finish_eq_ok h
    refine ⟨sign ++ digits, by simp, fun rest' hrest' => ?_⟩
    rw [List.append_assoc, htakes rest' hrest', if_pos hvalue, hfinish]
  · next hvalue =>
    split at h
    · simp at h
    · next hzero =>
      obtain rfl := by simpa using h
      refine ⟨sign ++ digits, by simp, fun rest' hrest' => ?_⟩
      rw [List.append_assoc, htakes rest' hrest', if_neg hvalue, if_neg hzero]

theorem afterDigits_of_ends (h : EndsNumber rest) :
    afterDigits significand exponent rest = finish significand exponent rest := by
  unfold afterDigits
  split
  · simp [EndsNumber] at h
  · simp [EndsNumber] at h
  · rfl

theorem exists_takes_afterDigits (h : afterDigits significand exponent text = .ok rest) :
    ∃ front, text = front ++ rest ∧ Takes (afterDigits significand exponent) front := by
  unfold afterDigits at h
  split at h
  · obtain ⟨front, rfl, hfront⟩ := exists_takes_afterExponent h
    exact ⟨'e' :: front, rfl, hfront⟩
  · obtain ⟨front, rfl, hfront⟩ := exists_takes_afterExponent h
    exact ⟨'E' :: front, rfl, hfront⟩
  · obtain ⟨rfl, hfinish⟩ := finish_eq_ok h
    refine ⟨[], rfl, fun rest' hrest' => ?_⟩
    rw [List.nil_append, afterDigits_of_ends hrest', hfinish]

theorem afterPoint_eq (hdigits : IsDigits digits) (hrest : NoDigit rest) :
    afterPoint significand exponent (digits ++ rest) =
      let added := addDigits significand 0 digits
      afterDigits added.1 (exponent - added.2.1) rest := by
  obtain ⟨hne, hall⟩ := hdigits
  obtain ⟨htake, hdrop⟩ := takeWhile_digits hall hrest
  obtain ⟨c, digits, rfl⟩ := List.exists_cons_of_ne_nil hne
  rw [afterPoint, htake, hdrop]

theorem exists_takes_afterPoint (h : afterPoint significand exponent text = .ok rest) :
    ∃ front, text = front ++ rest ∧ Takes (afterPoint significand exponent) front := by
  have hdigits : IsDigits (text.takeWhile Char.isDigit) := by
    refine ⟨fun hnil => ?_, List.all_eq_true.mp List.all_takeWhile⟩
    rw [afterPoint, hnil] at h
    split at h
    · simp at h
    · simp at h
    · next hne _ => exact hne rfl
  have htext := List.takeWhile_append_dropWhile (p := Char.isDigit) (l := text)
  generalize text.takeWhile Char.isDigit = digits at hdigits htext
  have hback := noDigit_dropWhile text
  generalize text.dropWhile Char.isDigit = back at htext hback
  subst htext
  rw [afterPoint_eq hdigits hback] at h
  obtain ⟨front, rfl, hfront⟩ := exists_takes_afterDigits h
  refine ⟨digits ++ front, by simp, fun rest' hrest' => ?_⟩
  rw [List.append_assoc, afterPoint_eq hdigits (hrest'.noDigit_append hback)]
  exact hfront rest' hrest'

theorem afterInteger_of_noPoint (h : ∀ c ∈ text.head?, c ≠ '.') :
    afterInteger significand exponent text = afterDigits significand exponent text := by
  unfold afterInteger
  split
  · simp at h
  · rfl

theorem exists_takes_afterInteger (h : afterInteger significand exponent text = .ok rest) :
    ∃ front, text = front ++ rest ∧ Takes (afterInteger significand exponent) front := by
  by_cases hpoint : ∀ c ∈ text.head?, c ≠ '.'
  · rw [afterInteger_of_noPoint hpoint] at h
    obtain ⟨front, rfl, hfront⟩ := exists_takes_afterDigits h
    refine ⟨front, rfl, fun rest' hrest' => ?_⟩
    rw [afterInteger_of_noPoint (forall_head?_append hpoint fun c hc => (hrest' c hc).2.1)]
    exact hfront rest' hrest'
  · obtain ⟨text, rfl⟩ : ∃ text', text = '.' :: text' := by
      cases text with
      | nil => simp at hpoint
      | cons c text => exact ⟨text, by simpa using hpoint⟩
    obtain ⟨front, rfl, hfront⟩ := exists_takes_afterPoint h
    exact ⟨'.' :: front, rfl, hfront⟩

theorem afterUnsigned_zero (h : NoDigit text) :
    afterUnsigned ('0' :: text) = afterInteger 0 0 text := by
  cases text with
  | nil => rfl
  | cons c text =>
    have hc : c.isDigit = false := h c rfl
    simp [afterUnsigned, hc]

theorem afterUnsigned_digits (hdigits : IsDigits digits) (hzero : ∀ c ∈ digits.head?, c ≠ '0')
    (hrest : NoDigit rest) :
    afterUnsigned (digits ++ rest) =
      let added := addDigits 0 0 digits
      afterInteger added.1 added.2.2.length rest := by
  obtain ⟨hne, hall⟩ := hdigits
  obtain ⟨htake, hdrop⟩ := takeWhile_digits hall hrest
  obtain ⟨c, digits, rfl⟩ := List.exists_cons_of_ne_nil hne
  have hc : c.isDigit = true := hall c List.mem_cons_self
  have hzero : c ≠ '0' := hzero c rfl
  rw [List.cons_append] at htake hdrop
  simp [afterUnsigned, hc, htake, hdrop]

theorem isDigit_of_afterUnsigned {c : Char} (h : afterUnsigned (c :: text) = .ok rest) :
    c.isDigit = true := by
  rw [← Bool.not_eq_false]
  intro hc
  have hzero : c ≠ '0' := by
    rintro rfl
    simp at hc
  simp [afterUnsigned, hc] at h

theorem noDigit_of_afterUnsigned (h : afterUnsigned ('0' :: text) = .ok rest) : NoDigit text := by
  intro c hc
  obtain ⟨text, rfl⟩ : ∃ text', text = c :: text' := List.head?_eq_some_iff.mp hc
  rw [← Bool.not_eq_true]
  intro hc
  simp [afterUnsigned, hc] at h

theorem exists_takes_afterUnsigned (h : afterUnsigned text = .ok rest) :
    ∃ front, text = front ++ rest ∧ front ≠ [] ∧ Takes afterUnsigned front := by
  obtain _ | ⟨c, text⟩ := text
  · simp [afterUnsigned] at h
  by_cases hzero : c = '0'
  · subst hzero
    have htext := noDigit_of_afterUnsigned h
    rw [afterUnsigned_zero htext] at h
    obtain ⟨front, rfl, hfront⟩ := exists_takes_afterInteger h
    refine ⟨'0' :: front, rfl, by simp, fun rest' hrest' => ?_⟩
    rw [List.cons_append, afterUnsigned_zero (hrest'.noDigit_append htext)]
    exact hfront rest' hrest'
  · have hc := isDigit_of_afterUnsigned h
    have hdigits := exists_isDigits hc text
    have hhead : ∀ d ∈ ((c :: text).takeWhile Char.isDigit).head?, d ≠ '0' := by
      simpa [hc] using hzero
    have htext := List.takeWhile_append_dropWhile (p := Char.isDigit) (l := c :: text)
    have hback := noDigit_dropWhile (c :: text)
    generalize (c :: text).takeWhile Char.isDigit = digits at hdigits hhead htext
    generalize (c :: text).dropWhile Char.isDigit = back at htext hback
    rw [← htext] at h ⊢
    rw [afterUnsigned_digits hdigits hhead hback] at h
    obtain ⟨front, rfl, hfront⟩ := exists_takes_afterInteger h
    refine ⟨digits ++ front, by simp, by simp [hdigits.ne_nil], fun rest' hrest' => ?_⟩
    rw [List.append_assoc, afterUnsigned_digits hdigits hhead (hrest'.noDigit_append hback)]
    exact hfront rest' hrest'

theorem after_of_noMinus (h : ∀ c ∈ text.head?, c ≠ '-') : after text = afterUnsigned text := by
  unfold after
  split
  · simp at h
  · rfl

theorem exists_takes_after (h : after text = .ok rest) :
    ∃ front, text = front ++ rest ∧ front ≠ [] ∧ Takes after front := by
  by_cases hminus : ∀ c ∈ text.head?, c ≠ '-'
  · rw [after_of_noMinus hminus] at h
    obtain ⟨front, rfl, hne, hfront⟩ := exists_takes_afterUnsigned h
    refine ⟨front, rfl, hne, fun rest' hrest' => ?_⟩
    obtain ⟨c, front, rfl⟩ := List.exists_cons_of_ne_nil hne
    have hhead : ∀ d ∈ (c :: front ++ rest').head?, d ≠ '-' := hminus
    rw [after_of_noMinus hhead]
    exact hfront rest' hrest'
  · obtain ⟨text, rfl⟩ : ∃ text', text = '-' :: text' := by
      cases text with
      | nil => simp at hminus
      | cons c text => exact ⟨text, by simpa using hminus⟩
    obtain ⟨front, rfl, -, hfront⟩ := exists_takes_afterUnsigned h
    exact ⟨'-' :: front, rfl, by simp, hfront⟩

end ModuleIndex.Json.Number

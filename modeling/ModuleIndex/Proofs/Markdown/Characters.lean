import ModuleIndex.Markdown.Html
import ModuleIndex.Markdown.Link
import Mathlib.Data.List.Basic

/-!
# Characters of parts

What is found in a text is made of the characters of that text.
-/

namespace ModuleIndex.Markdown

/-- All characters of the text satisfy `p`. -/
def Over (p : Char → Prop) (text : List Char) : Prop := ∀ c ∈ text, p c

/-- A text without line ends. -/
def IsFlat (text : List Char) : Prop := Over (fun c => isLineEnd c = false) text

variable {p : Char → Prop} {text rest : List Char}

namespace Over

theorem nil : Over p [] := by simp [Over]

theorem cons_iff {c : Char} : Over p (c :: text) ↔ p c ∧ Over p text := List.forall_mem_cons

theorem append_iff : Over p (text ++ rest) ↔ Over p text ∧ Over p rest := List.forall_mem_append

theorem sublist (h : Over p text) (hsub : List.Sublist rest text) : Over p rest :=
  fun c hc => h c (hsub.subset hc)

theorem flatten {texts : List (List Char)} (h : ∀ t ∈ texts, Over p t) : Over p texts.flatten := by
  intro c hc
  obtain ⟨t, ht, hc⟩ := List.mem_flatten.mp hc
  exact h t ht c hc

theorem replicate {c : Char} (h : p c) (n : Nat) : Over p (List.replicate n c) := by
  intro d hd
  rwa [List.eq_of_mem_replicate hd]

end Over

/-- A class of characters without the two line ends. -/
theorem isLineEnd_eq_false {q : Char → Bool} (hfeed : q '\n' = false) (hreturn : q '\r' = false)
    {c : Char} (h : q c = true) : isLineEnd c = false := by
  rw [Bool.eq_false_iff]
  intro hend
  simp only [isLineEnd, Bool.or_eq_true, beq_iff_eq] at hend
  rcases hend with rfl | rfl
  · simp [hfeed] at h
  · simp [hreturn] at h

theorem isFlat_of_all {q : Char → Bool} (hfeed : q '\n' = false) (hreturn : q '\r' = false)
    (h : ∀ c ∈ text, q c = true) : IsFlat text :=
  fun c hc => isLineEnd_eq_false hfeed hreturn (h c hc)

theorem isFlat_takeWhile {q : Char → Bool} (hfeed : q '\n' = false) (hreturn : q '\r' = false)
    (text : List Char) : IsFlat (text.takeWhile q) :=
  isFlat_of_all hfeed hreturn (List.all_eq_true.mp List.all_takeWhile)

theorem take_length_takeWhile (q : Char → Bool) (text : List Char) :
    text.take (text.takeWhile q).length = text.takeWhile q :=
  (List.prefix_iff_eq_take.mp (List.takeWhile_prefix q)).symm

theorem dropEnd_sublist (q : Char → Bool) (text : List Char) :
    List.Sublist (dropEnd q text) text := by
  have h := (List.dropWhile_sublist q (l := text.reverse)).reverse
  rwa [List.reverse_reverse] at h

theorem dropEnd_append {q : Char → Bool} {ending : List Char} (h : ∀ c ∈ ending, q c = true)
    (text : List Char) : dropEnd q (text ++ ending) = dropEnd q text := by
  have hreverse : ∀ c ∈ ending.reverse, q c = true := fun c hc => h c (List.mem_reverse.mp hc)
  rw [dropEnd, List.reverse_append, List.dropWhile_append_of_pos hreverse, dropEnd]

theorem dropEnd_eq_self {q : Char → Bool} {text : List Char}
    (h : ∀ c ∈ text.getLast?, q c = false) : dropEnd q text = text := by
  obtain rfl | ⟨front, c, rfl⟩ := List.eq_nil_or_concat' text
  · rfl
  · have hc : q c = false := h c (by simp)
    rw [dropEnd, List.reverse_concat, List.dropWhile_cons_of_neg (by simp [hc]),
      ← List.reverse_concat, List.reverse_reverse]

/-! ## HTML -/

namespace Html

variable {margins : List Margin} {shown : List Char}

theorem over_withMarks (hmargins : ∀ m ∈ margins, Over p m.marks) (h : Over p text) :
    Over p (withMarks margins text) := by
  fun_induction withMarks margins text with
  | case1 => exact .nil
  | case2 => exact h
  | case3 m margins c text _ ih =>
    rw [List.forall_mem_cons] at hmargins
    rw [Over.cons_iff] at h
    rw [List.cons_append, Over.cons_iff, Over.append_iff]
    exact ⟨h.1, hmargins.1, ih hmargins.2 h.2⟩
  | case4 m margins c text _ ih =>
    rw [Over.cons_iff] at h ⊢
    exact ⟨h.1, ih hmargins h.2⟩

theorem over_declaration? (hmargins : ∀ m ∈ margins, Over p m.marks) (h : Over p text)
    (hread : declaration? margins text = some (shown, rest)) : Over p shown := by
  induction text generalizing margins shown with
  | nil => simp [declaration?] at hread
  | cons c text ih =>
    rw [Over.cons_iff] at h
    have hmarks : Over p ((margins.head?.map (·.marks)).getD []) := by
      cases margins with
      | nil => exact .nil
      | cons m margins => exact hmargins m List.mem_cons_self
    have htail : ∀ m ∈ margins.tail, Over p m.marks :=
      fun m hm => hmargins m (List.mem_of_mem_tail hm)
    unfold declaration? at hread
    dsimp only at hread
    split at hread
    · obtain ⟨rfl, rfl⟩ := by simpa using hread
      exact Over.cons_iff.mpr ⟨h.1, .nil⟩
    · split at hread
      · split at hread
        · next hclosing =>
          -- The mark that ends the declaration is one of the container marks.
          obtain ⟨rfl, rfl⟩ := by simpa using hread
          rw [Over.cons_iff, Over.append_iff, Over.cons_iff]
          refine ⟨h.1, hmarks.sublist (List.takeWhile_sublist _), hmarks _ ?_, .nil⟩
          exact List.elem_iff.mp hclosing
        · obtain ⟨⟨inner, rest⟩, hinner, heq⟩ := Option.map_eq_some_iff.mp hread
          obtain ⟨rfl, rfl⟩ := Prod.mk.inj heq
          rw [List.cons_append, Over.cons_iff, Over.append_iff]
          exact ⟨h.1, hmarks, ih htail h.2 hinner⟩
      · obtain ⟨⟨inner, rest⟩, hinner, heq⟩ := Option.map_eq_some_iff.mp hread
        obtain ⟨rfl, rfl⟩ := Prod.mk.inj heq
        exact Over.cons_iff.mpr ⟨h.1, ih hmargins h.2 hinner⟩

theorem over_before (h : Over p text) : Over p (before text rest) :=
  h.sublist (List.take_sublist _ _)

/-- The piece is made of the text with its bracket, and of container marks. -/
theorem over_inline? (hbracket : p '<') (hmargins : ∀ m ∈ margins, Over p m.marks)
    (h : Over p text) (hread : inline? margins text = some (shown, rest)) : Over p shown := by
  have hkept (rest : List Char) : Over p ('<' :: withMarks margins (before text rest)) :=
    Over.cons_iff.mpr ⟨hbracket, over_withMarks hmargins (over_before h)⟩
  have htag (rest : List Char) : Over p ('<' :: before text rest) :=
    Over.cons_iff.mpr ⟨hbracket, over_before h⟩
  unfold inline? at hread
  split at hread
  · split at hread
    · obtain ⟨⟨inner, rest'⟩, hinner, heq⟩ := Option.map_eq_some_iff.mp hread
      obtain ⟨rfl, -⟩ := Prod.mk.inj heq
      exact Over.cons_iff.mpr ⟨hbracket, over_declaration? hmargins h hinner⟩
    · obtain ⟨_, -, heq⟩ := Option.map_eq_some_iff.mp hread
      obtain ⟨rfl, -⟩ := Prod.mk.inj heq
      exact hkept _
  · obtain ⟨_, -, heq⟩ := Option.map_eq_some_iff.mp hread
    obtain ⟨rfl, -⟩ := Prod.mk.inj heq
    exact hkept _
  · obtain ⟨_, -, heq⟩ := Option.map_eq_some_iff.mp hread
    obtain ⟨rfl, -⟩ := Prod.mk.inj heq
    exact htag _

end Html

/-! ## Addresses -/

namespace Link

/-- The rest stands behind a closing bracket in the same line. -/
def ClosesBefore (text rest : List Char) : Prop :=
  ∃ address, IsFlat address ∧ text = address ++ '>' :: rest

theorem ClosesBefore.append (h : ClosesBefore text rest) {front : List Char}
    (hfront : IsFlat front) : ClosesBefore (front ++ text) rest := by
  obtain ⟨address, hflat, rfl⟩ := h
  exact ⟨front ++ address, Over.append_iff.mpr ⟨hfront, hflat⟩, by simp⟩

theorem ClosesBefore.of_drop {q : Char → Bool} (hfeed : q '\n' = false)
    (hreturn : q '\r' = false) (h : ClosesBefore (text.drop (text.takeWhile q).length) rest) :
    ClosesBefore text rest := by
  have happend := h.append (isFlat_takeWhile hfeed hreturn text)
  rwa [List.prefix_iff_eq_append.mp (List.takeWhile_prefix q)] at happend

theorem ClosesBefore.cons (h : ClosesBefore text rest) {c : Char} (hc : isLineEnd c = false) :
    ClosesBefore (c :: text) rest :=
  h.append (Over.cons_iff.mpr ⟨hc, .nil⟩)

theorem closesBefore_of_afterAddress? (h : afterAddress? text = some rest) :
    ClosesBefore text rest := by
  induction text with
  | nil => simp [afterAddress?] at h
  | cons c text ih =>
    unfold afterAddress? at h
    split at h
    · next hc =>
      rw [Option.some.injEq] at h
      exact ⟨[], .nil, by simp [hc, h]⟩
    · split at h
      · simp at h
      · next hc =>
        apply (ih h).cons
        apply isLineEnd_eq_false (q := fun c => !(c.toNat ≤ 0x20 || c = '<')) (by decide) (by decide)
        simpa using hc

theorem closesBefore_of_afterUri? (h : afterUri? text = some rest) : ClosesBefore text rest := by
  unfold afterUri? at h
  dsimp only at h
  split at h
  · obtain ⟨path, hcolon, hpath⟩ := Option.bind_eq_some_iff.mp h
    have hclose := (closesBefore_of_afterAddress? hpath).cons (c := ':') (by decide)
    rw [← List.singleton_append, ← Text.eq_append_of_after? hcolon] at hclose
    exact hclose.of_drop (by decide) (by decide)
  · simp at h

theorem closesBefore_of_afterHost? {bound : Nat} (h : afterHost? bound text = some rest) :
    ClosesBefore text rest := by
  induction bound generalizing text with
  | zero => simp [afterHost?] at h
  | succ bound ih =>
    unfold afterHost? at h
    dsimp only at h
    split at h
    · simp at h
    · split at h
      · next more hmore =>
        have hclose := (ih h).cons (c := '.') (by decide)
        rw [← hmore] at hclose
        exact hclose.of_drop (by decide) (by decide)
      · next more hmore =>
        obtain rfl := Option.some.inj h
        have hclose : ClosesBefore ('>' :: more) more := ⟨[], .nil, rfl⟩
        rw [← hmore] at hclose
        exact hclose.of_drop (by decide) (by decide)
      · simp at h

theorem closesBefore_of_afterMail? (h : afterMail? text = some rest) : ClosesBefore text rest := by
  unfold afterMail? at h
  dsimp only at h
  split at h
  · next at_ more _ hmore =>
    have hclose := (closesBefore_of_afterHost? h).cons (c := '@') (by decide)
    rw [← hmore] at hclose
    exact hclose.of_drop (by decide) (by decide)
  · simp at h

theorem closesBefore_of_afterAutolink? (h : afterAutolink? text = some rest) :
    ClosesBefore text rest := by
  unfold afterAutolink? at h
  rcases Option.or_eq_some_iff.mp h with h | ⟨-, h⟩
  · exact closesBefore_of_afterUri? h
  · exact closesBefore_of_afterMail? h

end Link

end ModuleIndex.Markdown

import ModuleIndex.Proofs.Text.Blank
import ModuleIndex.Style.Ansi
import ModuleIndex.Style.Strip

/-!
# What a terminal shows

A terminal reads a text character by character. Escape sequences are not shown, but change how
the characters behind them look. Painted text is shown as it would be without the paint, with the
style below every look of its own, and leaves the terminal as it was.
-/

namespace ModuleIndex.Style

/-! ## Looks -/

/-- How a character looks. -/
structure Look where
  bold : Bool
  italic : Bool
  background : Option Rgb
  foreground : Option Rgb
  deriving DecidableEq, Repr

namespace Look

def plain : Look := ⟨false, false, none, none⟩

/-- The look behind a sequence with these numbers. Zero takes back everything. -/
def apply : Look → List Nat → Look
  | l, [] => l
  | _, 0 :: codes => plain.apply codes
  | l, 1 :: codes => { l with bold := true }.apply codes
  | l, 3 :: codes => { l with italic := true }.apply codes
  | l, 48 :: 2 :: red :: green :: blue :: codes =>
    { l with background := some ⟨red, green, blue⟩ }.apply codes
  | l, 38 :: 2 :: red :: green :: blue :: codes =>
    { l with foreground := some ⟨red, green, blue⟩ }.apply codes
  | l, _ :: codes => l.apply codes

def set (l : Look) : Attribute → Look
  | .bold => { l with bold := true }
  | .italic => { l with italic := true }
  | .background c => { l with background := some c }
  | .foreground c => { l with foreground := some c }

def setAll (l : Look) (style : List Attribute) : Look :=
  style.foldl set l

theorem apply_codes (l : Look) (a : Attribute) (codes : List Nat) :
    l.apply (a.codes ++ codes) = (l.set a).apply codes := by
  cases a <;> rfl

theorem apply_style (l : Look) (style : List Attribute) :
    l.apply (style.flatMap Attribute.codes) = l.setAll style := by
  induction style generalizing l with
  | nil => rfl
  | cons a style ih => rw [List.flatMap_cons, apply_codes, ih, setAll, setAll, List.foldl_cons]

/-- A look with another one below it, which shows where the upper one sets nothing. -/
def above (upper lower : Look) : Look :=
  ⟨upper.bold || lower.bold, upper.italic || lower.italic, upper.background <|> lower.background,
    upper.foreground <|> lower.foreground⟩

@[simp] theorem plain_above (l : Look) : plain.above l = l := by
  simp [above, plain]

@[simp] theorem above_plain (l : Look) : l.above plain = l := by
  simp [above, plain]

theorem above_assoc (l m n : Look) : (l.above m).above n = l.above (m.above n) := by
  simp [above, Bool.or_assoc, Option.or_assoc]

theorem above_setAll (upper lower : Look) (style : List Attribute) :
    (upper.setAll style).above lower = (upper.above lower).setAll style := by
  induction style generalizing upper with
  | nil => rfl
  | cons a style ih =>
    have hset : (upper.above lower).set a = (upper.set a).above lower := by
      cases a <;> simp [set, above]
    simp only [setAll, List.foldl_cons] at ih ⊢
    rw [ih, hset]

end Look

/-! ## Reading -/

structure Cell where
  char : Char
  look : Look
  deriving DecidableEq, Repr

def Cell.above (c : Cell) (lower : Look) : Cell := ⟨c.char, c.look.above lower⟩

/-- The characters of a text, all of them in one look. -/
def cellsOf (l : Look) (text : List Char) : List Cell :=
  text.map fun c => ⟨c, l⟩

theorem map_above_cellsOf (l lower : Look) (text : List Char) :
    (cellsOf l text).map (·.above lower) = cellsOf (l.above lower) text := by
  simp [cellsOf, Cell.above]

theorem map_above_plain (cells : List Cell) : cells.map (·.above .plain) = cells := by
  simp [Cell.above]

theorem map_above_map_above (cells : List Cell) (middle lower : Look) :
    (cells.map (·.above middle)).map (·.above lower) =
      cells.map (·.above (middle.above lower)) := by
  simp [Cell.above, Look.above_assoc]

/-- How much of a sequence has been read. -/
inductive Pending where
  | nothing
  | escape
  | numbers (before : List Nat) (digits : List Char)
  deriving DecidableEq, Repr

structure Terminal where
  cells : List Cell
  look : Look
  pending : Pending
  deriving DecidableEq, Repr

namespace Terminal

/-- One character. A missing number counts as zero, and sequences that are not for looks change
nothing. -/
def read (t : Terminal) (c : Char) : Terminal :=
  match t.pending with
  | .nothing =>
    if c = '\x1b' then { t with pending := .escape }
    else { t with cells := t.cells ++ [⟨c, t.look⟩] }
  | .escape => { t with pending := if c = '[' then .numbers [] [] else .nothing }
  | .numbers before digits =>
    let number := Nat.ofDigitChars 10 digits 0
    if c.isDigit then { t with pending := .numbers before (digits ++ [c]) }
    else if c = ';' then { t with pending := .numbers (before ++ [number]) [] }
    else if c = 'm' then { t with look := t.look.apply (before ++ [number]), pending := .nothing }
    else if isFinal c then { t with pending := .nothing }
    else t

def readAll (t : Terminal) (text : List Char) : Terminal :=
  text.foldl read t

/-- What stands on an empty terminal behind a text. -/
def showing (text : List Char) : Terminal :=
  readAll ⟨[], .plain, .nothing⟩ text

variable {cells : List Cell} {look : Look}

@[simp] theorem readAll_cons (t : Terminal) (c : Char) (text : List Char) :
    t.readAll (c :: text) = (t.read c).readAll text := rfl

theorem readAll_append (t : Terminal) (text rest : List Char) :
    t.readAll (text ++ rest) = (t.readAll text).readAll rest := by
  simp [readAll]

theorem readAll_digits (before : List Nat) (digits more : List Char)
    (h : ∀ c ∈ more, c.isDigit = true) :
    readAll ⟨cells, look, .numbers before digits⟩ more =
      ⟨cells, look, .numbers before (digits ++ more)⟩ := by
  induction more generalizing digits with
  | nil => simp [readAll]
  | cons c more ih =>
    rw [List.forall_mem_cons] at h
    have hread : read ⟨cells, look, .numbers before digits⟩ c =
        ⟨cells, look, .numbers before (digits ++ [c])⟩ := by
      simp [read, h.1]
    rw [readAll_cons, hread, ih _ h.2, List.append_assoc, List.singleton_append]

theorem readAll_number (before : List Nat) (n : Nat) :
    readAll ⟨cells, look, .numbers before []⟩ (Nat.toDigits 10 n) =
      ⟨cells, look, .numbers before (Nat.toDigits 10 n)⟩ := by
  have hdigits : ∀ c ∈ Nat.toDigits 10 n, c.isDigit = true :=
    fun _ hc => Nat.isDigit_of_mem_toDigits (by decide) (by decide) hc
  rw [readAll_digits _ _ _ hdigits, List.nil_append]

theorem readAll_codeText (before codes : List Nat) (h : codes ≠ []) :
    readAll ⟨cells, look, .numbers before []⟩ (codeText codes ++ ['m']) =
      ⟨cells, look.apply (before ++ codes), .nothing⟩ := by
  induction codes using codeText.induct generalizing before with
  | case1 => exact absurd rfl h
  | case2 n =>
    rw [codeText, readAll_append, readAll_number]
    simp [readAll, read, Nat.ofDigitChars_ten_toDigits]
  | case3 n m codes ih =>
    have ih := ih (before ++ [n]) (by simp)
    rw [List.append_assoc, List.singleton_append] at ih
    have hnext : read ⟨cells, look, .numbers before (Nat.toDigits 10 n)⟩ ';' =
        ⟨cells, look, .numbers (before ++ [n]) []⟩ := by
      simp [read, Nat.ofDigitChars_ten_toDigits]
    rw [codeText, List.append_assoc, readAll_append, readAll_number, List.cons_append,
      readAll_cons, hnext, ih]

theorem readAll_sequence {style : List Attribute} (h : style ≠ []) :
    readAll ⟨cells, look, .nothing⟩ (sequence style) =
      ⟨cells, look.setAll style, .nothing⟩ := by
  have hcodes : style.flatMap Attribute.codes ≠ [] := by
    obtain ⟨a, style, rfl⟩ := List.exists_cons_of_ne_nil h
    cases a <;> simp [Attribute.codes]
  have hread : readAll ⟨cells, look, .numbers [] []⟩
      (codeText (style.flatMap Attribute.codes) ++ ['m']) =
        ⟨cells, look.apply (style.flatMap Attribute.codes), .nothing⟩ :=
    readAll_codeText [] _ hcodes
  rw [Look.apply_style] at hread
  exact hread

theorem readAll_reset :
    readAll ⟨cells, look, .nothing⟩ reset = ⟨cells, .plain, .nothing⟩ := rfl

end Terminal

/-! ## Styled texts -/

/-- From the look `l` on, the text shows the cells and leaves the look `l'`. It is made of
characters, sequences of styles and resets, none of them in pieces. -/
inductive Shows : (l : Look) → (text : List Char) → (cells : List Cell) → (l' : Look) → Prop
  | nil {l} : Shows l [] [] l
  | char {l c text cells l'} (hc : c ≠ '\x1b') (h : Shows l text cells l') :
      Shows l (c :: text) (⟨c, l⟩ :: cells) l'
  | style {l style text cells l'} (hstyle : style ≠ []) (h : Shows (l.setAll style) text cells l') :
      Shows l (sequence style ++ text) cells l'
  | reset {l text cells l'} (h : Shows .plain text cells l') :
      Shows l (reset ++ text) cells l'

namespace Shows

variable {l m n : Look} {text rest : List Char} {cells more : List Cell}

theorem append (h : Shows l text cells m) (hrest : Shows m rest more n) :
    Shows l (text ++ rest) (cells ++ more) n := by
  induction h with
  | nil => exact hrest
  | char hc _ ih => exact .char hc (ih hrest)
  | style hstyle _ ih =>
    rw [List.append_assoc]
    exact .style hstyle (ih hrest)
  | reset _ ih =>
    rw [List.append_assoc]
    exact .reset (ih hrest)

theorem unstyled (h : '\x1b' ∉ text) (l : Look) : Shows l text (cellsOf l text) l := by
  induction text with
  | nil => exact .nil
  | cons c text ih =>
    rw [List.mem_cons, not_or] at h
    exact .char (Ne.symm h.1) (ih h.2)

theorem readAll (h : Shows l text cells m) (before : List Cell) :
    Terminal.readAll ⟨before, l, .nothing⟩ text = ⟨before ++ cells, m, .nothing⟩ := by
  induction h generalizing before with
  | nil => simp [Terminal.readAll]
  | @char l c text cells m hc _ ih =>
    have hread : Terminal.read ⟨before, l, .nothing⟩ c = ⟨before ++ [⟨c, l⟩], l, .nothing⟩ := by
      simp [Terminal.read, hc]
    rw [Terminal.readAll_cons, hread, ih, List.append_assoc, List.singleton_append]
  | style hstyle _ ih => rw [Terminal.readAll_append, Terminal.readAll_sequence hstyle, ih]
  | reset _ ih => rw [Terminal.readAll_append, Terminal.readAll_reset, ih]

end Shows

/-! ## Paint -/

section Paint

variable {again : List Char}

theorem resume_cons {c : Char} (hc : c ≠ '\x1b') (text : List Char) :
    resume again (c :: text) = c :: resume again text := by
  rw [resume]
  rintro _ rfl
  exact absurd rfl hc

theorem resume_append {plain : List Char} (h : '\x1b' ∉ plain) (text : List Char) :
    resume again (plain ++ text) = plain ++ resume again text := by
  induction plain with
  | nil => rfl
  | cons c plain ih =>
    rw [List.mem_cons, not_or] at h
    rw [List.cons_append, resume_cons (Ne.symm h.1), ih h.2, List.cons_append]

theorem resume_escape {c : Char} (hc : c ≠ '0') (text : List Char) :
    resume again ('\x1b' :: '[' :: c :: text) = '\x1b' :: '[' :: resume again (c :: text) := by
  have hbracket : resume again ('[' :: c :: text) = '[' :: resume again (c :: text) :=
    resume_cons (by decide) _
  rw [resume, hbracket]
  intro _ _ heq
  simp only [List.cons.injEq] at heq
  exact hc heq.2.1

theorem isDigit_or_of_mem_codeText {codes : List Nat} {c : Char} (h : c ∈ codeText codes) :
    c.isDigit = true ∨ c = ';' := by
  induction codes using codeText.induct with
  | case1 => simp [codeText] at h
  | case2 n => exact .inl (Nat.isDigit_of_mem_toDigits (by decide) (by decide) h)
  | case3 n m codes ih =>
    rw [codeText, List.mem_append, List.mem_cons] at h
    obtain h | rfl | h := h
    · exact .inl (Nat.isDigit_of_mem_toDigits (by decide) (by decide) h)
    · exact .inr rfl
    · exact ih h

theorem exists_codeText (n : Nat) (codes : List Nat) :
    ∃ text, codeText (n :: codes) = Nat.toDigits 10 n ++ text := by
  cases codes with
  | nil => exact ⟨[], (List.append_nil _).symm⟩
  | cons m codes => exact ⟨_, rfl⟩

/-- No number of a style starts with a zero, so its sequence is not taken for a reset. -/
theorem exists_codeText_style {style : List Attribute} (h : style ≠ []) :
    ∃ c text, codeText (style.flatMap Attribute.codes) = c :: text ∧ c ≠ '0' := by
  obtain ⟨a, style, rfl⟩ := List.exists_cons_of_ne_nil h
  cases a with
  | bold =>
    obtain ⟨text, htext⟩ := exists_codeText 1 (style.flatMap Attribute.codes)
    exact ⟨'1', text, htext, by decide⟩
  | italic =>
    obtain ⟨text, htext⟩ := exists_codeText 3 (style.flatMap Attribute.codes)
    exact ⟨'3', text, htext, by decide⟩
  | background c =>
    obtain ⟨text, htext⟩ := exists_codeText 48
      ([2, c.red, c.green, c.blue] ++ style.flatMap Attribute.codes)
    exact ⟨'4', '8' :: text, htext, by decide⟩
  | foreground c =>
    obtain ⟨text, htext⟩ := exists_codeText 38
      ([2, c.red, c.green, c.blue] ++ style.flatMap Attribute.codes)
    exact ⟨'3', '8' :: text, htext, by decide⟩

theorem resume_sequence {style : List Attribute} (h : style ≠ []) (text : List Char) :
    resume again (sequence style ++ text) = sequence style ++ resume again text := by
  obtain ⟨c, codes, hcodes, hc⟩ := exists_codeText_style h
  have hplain : '\x1b' ∉ c :: codes ++ ['m'] := by
    rw [← hcodes, List.mem_append, not_or]
    refine ⟨fun hmem => ?_, by decide⟩
    exact absurd (isDigit_or_of_mem_codeText hmem) (by decide)
  calc resume again (sequence style ++ text)
      = resume again ('\x1b' :: '[' :: c :: (codes ++ ['m'] ++ text)) := by
        rw [sequence, hcodes]
        simp
    _ = '\x1b' :: '[' :: resume again (c :: codes ++ ['m'] ++ text) := resume_escape hc _
    _ = sequence style ++ resume again text := by
        rw [resume_append hplain, sequence, hcodes]
        simp

variable {l m : Look} {text : List Char} {cells : List Cell} {style : List Attribute}

/-- With the style again behind each reset, a text is shown as before, with the style below. -/
theorem Shows.resume (hstyle : style ≠ []) (h : Shows l text cells m) :
    Shows (l.above (Look.plain.setAll style)) (resume (sequence style) text)
      (cells.map (·.above (Look.plain.setAll style))) (m.above (Look.plain.setAll style)) := by
  induction h with
  | nil => exact .nil
  | char hc _ ih =>
    rw [resume_cons hc]
    exact .char hc ih
  | style hinner _ ih =>
    rw [resume_sequence hinner]
    rw [Look.above_setAll] at ih
    exact .style hinner ih
  | reset _ ih =>
    -- Behind the reset the look is plain, and the style that follows is below it again.
    rw [Look.plain_above] at ih
    exact .reset (.style hstyle ih)

theorem Shows.paint (hstyle : style ≠ []) (h : Shows .plain text cells m) :
    Shows .plain (paint style text) (cells.map (·.above (Look.plain.setAll style))) .plain := by
  have hinner := h.resume hstyle
  rw [Look.plain_above] at hinner
  have hpaint := Shows.style hstyle (hinner.append (.reset .nil))
  rw [List.append_nil] at hpaint
  simpa [Style.paint] using hpaint

theorem trimEnd_sequence (style : List Attribute) (text : List Char) :
    Text.trimEnd (sequence style ++ text) = sequence style ++ Text.trimEnd text :=
  Text.trimEnd_append _ (by decide) text

theorem trimEnd_reset (text : List Char) :
    Text.trimEnd (reset ++ text) = reset ++ Text.trimEnd text :=
  Text.trimEnd_append ['\x1b', '[', '0'] (by decide) text

theorem Shows.trimEnd (h : Shows l text cells m) :
    ∃ kept trimmed, cells = kept ++ trimmed ∧ Shows l (Text.trimEnd text) kept m ∧
      ∀ c ∈ trimmed, Text.isBlank c.char = true := by
  induction h with
  | nil => exact ⟨[], [], rfl, .nil, by simp⟩
  | @char l c text cells m hc _ ih =>
    obtain ⟨kept, trimmed, rfl, hkept, htrimmed⟩ := ih
    rw [Text.trimEnd_cons]
    split
    · next hblank =>
      -- Nothing is left of the rest, so it has no sequence and shows nothing.
      rw [hblank.2] at hkept
      cases hkept
      exact ⟨[], ⟨c, l⟩ :: trimmed, rfl, .nil, List.forall_mem_cons.mpr ⟨hblank.1, htrimmed⟩⟩
    · exact ⟨⟨c, l⟩ :: kept, trimmed, rfl, .char hc hkept, htrimmed⟩
  | style hstyle _ ih =>
    obtain ⟨kept, trimmed, rfl, hkept, htrimmed⟩ := ih
    refine ⟨kept, trimmed, rfl, ?_, htrimmed⟩
    rw [trimEnd_sequence]
    exact .style hstyle hkept
  | reset _ ih =>
    obtain ⟨kept, trimmed, rfl, hkept, htrimmed⟩ := ih
    refine ⟨kept, trimmed, rfl, ?_, htrimmed⟩
    rw [trimEnd_reset]
    exact .reset hkept

end Paint

end ModuleIndex.Style

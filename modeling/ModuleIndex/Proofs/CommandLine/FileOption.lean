import Mathlib.Tactic.SplitIfs
import ModuleIndex.CommandLine.Parser

/-!
# A local file in front

A local file can be given in front of a command line that gives none. Everything else is then read
as it was.
-/

namespace ModuleIndex.CommandLine

/-! ## States with a file -/

def Options.withFile (file : String) (o : Options) : Options :=
  { o with file := some file }

theorem Options.assign_withFile {o o' : Options} {a : Argument} {value : String} (file : String)
    (h : o.assign a value = .ok o') (hnone : o'.file = none) :
    a ≠ .file ∧ o.file = none ∧ (o.withFile file).assign a value = .ok (o'.withFile file) := by
  cases a with
  | file =>
    simp only [assign] at h
    split_ifs at h
    obtain rfl := Except.ok.inj h
    simp at hnone
  | spec =>
    cases hspec : Crate.Spec.parse value with
    | error fault => simp [assign, hspec] at h
    | ok spec =>
      simp only [assign, hspec, Except.ok.injEq] at h ⊢
      subst h
      exact ⟨by decide, hnone, rfl⟩
  | format =>
    cases hword : Listing.Format.ofWord? value with
    | none => simp [assign, hword] at h
    | some format =>
      simp only [assign, hword, Except.ok.injEq] at h ⊢
      subst h
      exact ⟨by decide, hnone, rfl⟩
  | color =>
    cases hword : Style.ColorChoice.ofWord? value with
    | none => simp [assign, hword] at h
    | some color =>
      simp only [assign, hword, Except.ok.injEq] at h ⊢
      subst h
      exact ⟨by decide, hnone, rfl⟩
  | filter | noCache | clearCache | verbose | help =>
    obtain rfl := Except.ok.inj h
    exact ⟨by decide, hnone, rfl⟩

/-! ## What a step does -/

/-- A text that is read as an option. -/
def IsOptionLike (text : String) : Prop :=
  ∃ c rest, text.toList = '-' :: c :: rest

namespace Reading

/-- Which of the ways to read an option is taken does not depend on the state. -/
theorem long_cases (text : List Char) :
    (∃ stop, ∀ r : Reading, r.long text = .error stop) ∨
    (∃ a value, ∀ r : Reading, r.long text = r.finish >>= (·.set a value)) ∨
    (∀ r : Reading, r.long text = r.help true) ∨
    (∃ a, ∀ r : Reading, r.long text = r.start a none) ∨
    ∃ a, ∀ r : Reading, r.long text = r.flag a := by
  unfold long
  split
  rename_i name value hname
  split
  · exact .inl ⟨_, fun _ => rfl⟩
  · split
    · exact .inr (.inl ⟨_, _, fun _ => rfl⟩)
    · exact .inl ⟨_, fun _ => rfl⟩
  · exact .inr (.inr (.inl fun _ => rfl))
  · split
    · exact .inr (.inr (.inr (.inl ⟨_, fun _ => rfl⟩)))
    · exact .inr (.inr (.inr (.inr ⟨_, fun _ => rfl⟩)))

theorem short_cases (c : Char) (letters : List Char) :
    (∀ r : Reading, r.short (c :: letters) = r.flag .verbose >>= (·.short letters)) ∨
    (∀ r : Reading, r.short (c :: letters) = r.help false) ∨
    ∃ stop, ∀ r : Reading, r.short (c :: letters) = .error stop := by
  by_cases hv : c = 'v'
  · subst hv
    exact .inl fun _ => rfl
  · by_cases hh : c = 'h'
    · subst hh
      exact .inr (.inl fun _ => rfl)
    · exact .inr (.inr ⟨.fault (.unknown s!"-{c}"), fun r => by simp [short]⟩)

theorem step_of_not_isOptionLike {text : String} (h : ¬ IsOptionLike text) (r : Reading) :
    r.step text = r.plain text := by
  unfold step
  split
  · rename_i rest htext
    exact absurd ⟨'-', rest, htext⟩ h
  · rename_i c letters _ htext
    exact absurd ⟨c, letters, htext⟩ h
  · rfl

theorem step_cases (text : String) :
    (∃ rest, ∀ r : Reading, r.step text = r.long rest) ∨
    (∃ c letters, ∀ r : Reading, r.step text = r.short (c :: letters)) ∨
    ∀ r : Reading, r.step text = r.plain text := by
  by_cases h : IsOptionLike text
  · obtain ⟨c, rest, htext⟩ := h
    by_cases hc : c = '-'
    · subst hc
      exact .inl ⟨rest, fun r => by simp only [step, htext]⟩
    · exact .inr (.inl ⟨c, rest, fun r => by simp [step, htext]⟩)
  · exact .inr (.inr (step_of_not_isOptionLike h))

theorem all_cons {text : String} (h : text ≠ "--") (r : Reading) (texts : List String) :
    r.all (text :: texts) = r.step text >>= (·.all texts) := by
  rw [all]
  exact h

/-! ## States with a file -/

/-- A state as it would be if a local file had been given before all else. -/
def withFile (file : String) (r : Reading) : Reading :=
  { r with options := r.options.withFile file, given := r.given ++ [.file] }

/-- A step that a local file makes no difference to, unless the step gives one itself. -/
def IgnoresFile (file : String) (step : Reading → Except Stop Reading) : Prop :=
  ∀ r s, step r = .ok s → s.options.file = none →
    r.options.file = none ∧ step (r.withFile file) = .ok (s.withFile file)

namespace IgnoresFile

variable {file : String} {f g : Reading → Except Stop Reading}

/-! ## Steps -/

theorem error (stop : Stop) : IgnoresFile file fun _ => .error stop := by
  intro r s h
  simp at h

theorem bind (hf : IgnoresFile file f) (hg : IgnoresFile file g) :
    IgnoresFile file fun r => f r >>= g := by
  intro r t h hnone
  cases hs : f r with
  | error stop => simp [hs, Bind.bind, Except.bind] at h
  | ok s =>
    simp only [hs] at h
    obtain ⟨hnone, hg⟩ := hg s t h hnone
    obtain ⟨hnone, hf⟩ := hf r s hs hnone
    refine ⟨hnone, ?_⟩
    simp only [hf]
    exact hg

theorem update {change : Reading → Reading} (hoptions : ∀ r, (change r).options = r.options)
    (hchange : ∀ r, change (r.withFile file) = (change r).withFile file) :
    IgnoresFile file fun r => .ok (change r) := by
  intro r s h hnone
  obtain rfl := Except.ok.inj h
  exact ⟨hoptions r ▸ hnone, congrArg Except.ok (hchange r)⟩

theorem set (a : Argument) (value : String) : IgnoresFile file (·.set a value) := by
  intro r s h hnone
  simp only [Reading.set] at h
  split_ifs at h with hgiven
  cases hassign : r.options.assign a value with
  | error fault => simp [hassign] at h
  | ok o =>
    simp only [hassign, Except.ok.injEq] at h
    subst h
    obtain ⟨hne, hnone, hassign⟩ := Options.assign_withFile file hassign hnone
    -- The argument is not the file, so that its value is still the first one that it gets.
    have hfirst : a ∉ (r.withFile file).given := by simp [withFile, hgiven, hne]
    refine ⟨hnone, ?_⟩
    simp only [Reading.set, if_neg hfirst]
    simp only [withFile, hassign, List.cons_append]

theorem finish : IgnoresFile file Reading.finish := by
  intro r s h hnone
  have hsame : (r.withFile file).current = r.current := rfl
  rcases hcurrent : r.current with - | ⟨a, - | value⟩
  · simp only [Reading.finish, hcurrent, Except.ok.injEq] at h
    subst h
    exact ⟨hnone, by simp only [Reading.finish, hsame, hcurrent]⟩
  · simp [Reading.finish, hcurrent] at h
  · have hclose : IgnoresFile file fun r => .ok { r with current := none } :=
      update (fun _ => rfl) fun _ => rfl
    simp only [Reading.finish, hsame, hcurrent] at h ⊢
    exact hclose.bind (set a value) r s h hnone

theorem start (a : Argument) (value : Option String) : IgnoresFile file (·.start a value) :=
  finish.bind (update (fun _ => rfl) fun _ => rfl)

theorem flag (a : Argument) : IgnoresFile file (·.flag a) :=
  finish.bind (set a "")

theorem help (long : Bool) : IgnoresFile file (·.help long) :=
  finish.bind (error _)

theorem positional (text : String) : IgnoresFile file (·.positional text) := by
  intro r s h hnone
  have hsame : (r.withFile file).positionals = r.positionals := rfl
  cases hpositionals : r.positionals with
  | nil => simp [Reading.positional, hpositionals] at h
  | cons a positionals =>
    have hstep : IgnoresFile file fun r =>
        r.start a (some text) >>= fun r => .ok { r with positionals } :=
      (start a (some text)).bind (update (fun _ => rfl) fun _ => rfl)
    simp only [Reading.positional, hsame, hpositionals] at h ⊢
    exact hstep r s h hnone

theorem long (text : List Char) : IgnoresFile file (·.long text) := by
  rcases long_cases text with ⟨stop, h⟩ | ⟨a, value, h⟩ | h | ⟨a, h⟩ | ⟨a, h⟩
  · simp only [h]
    exact error stop
  · simp only [h]
    exact finish.bind (set a value)
  · simp only [h]
    exact help true
  · simp only [h]
    exact start a none
  · simp only [h]
    exact flag a

theorem short (letters : List Char) : IgnoresFile file (·.short letters) := by
  induction letters with
  | nil => exact update (fun _ => rfl) fun _ => rfl
  | cons c letters ih =>
    rcases short_cases c letters with h | h | ⟨stop, h⟩
    · simp only [h]
      exact (flag .verbose).bind ih
    · simp only [h]
      exact help false
    · simp only [h]
      exact error stop

theorem plain (text : String) : IgnoresFile file (·.plain text) := by
  intro r s h hnone
  have hsame : (r.withFile file).current = r.current := rfl
  rcases hcurrent : r.current with - | ⟨a, - | value⟩
  · simp only [Reading.plain, hsame, hcurrent] at h ⊢
    exact positional text r s h hnone
  · simp only [Reading.plain, hsame, hcurrent] at h ⊢
    obtain rfl := Except.ok.inj h
    exact ⟨hnone, rfl⟩
  · simp only [Reading.plain, hsame, hcurrent] at h ⊢
    exact positional text r s h hnone

theorem step (text : String) : IgnoresFile file (·.step text) := by
  rcases step_cases text with ⟨rest, h⟩ | ⟨c, letters, h⟩ | h
  · simp only [h]
    exact long rest
  · simp only [h]
    exact short (c :: letters)
  · simp only [h]
    exact plain text

/-! ## Whole command lines -/

theorem plains (texts : List String) : IgnoresFile file (·.plains texts) := by
  induction texts with
  | nil => exact update (fun _ => rfl) fun _ => rfl
  | cons text texts ih => exact (positional text).bind ih

theorem all (texts : List String) : IgnoresFile file (·.all texts) := by
  induction texts with
  | nil => exact update (fun _ => rfl) fun _ => rfl
  | cons text texts ih =>
    by_cases hend : text = "--"
    · subst hend
      exact plains texts
    · simp only [all_cons hend]
      exact (step text).bind ih

end IgnoresFile

/-! ## Open arguments -/

namespace AgreeClosed

variable {r s : Reading}

end AgreeClosed

end Reading

/-! ## The file in front -/

namespace Options

variable {texts : List String} {o : Options} {file : String}

theorem parse_eq_ok_iff :
    parse texts = .ok o ↔
      ∃ r : Reading, ({} : Reading).all texts >>= Reading.finish = .ok r ∧ r.options = o := by
  unfold parse
  cases ({} : Reading).all texts with
  | error stop => simp [Bind.bind, Except.bind]
  | ok r => cases hfinish : r.finish <;> simp [hfinish, Bind.bind, Except.bind]

end Options

end ModuleIndex.CommandLine

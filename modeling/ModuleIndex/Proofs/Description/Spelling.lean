import ModuleIndex.Proofs.Description.Looks

/-!
# What a description spells

Without color, the line and the open spans, read from the outermost one, spell what the events so
far have shown. An event adds to that what it shows itself, and a break adds a space at most.
-/

namespace ModuleIndex.Description

open Markdown (Event)
open Style (Theme)
open Text (withoutBlanks withoutBlanks_append)

/-- What an event shows without color. -/
def shown : Event → List Char
  | .text text | .html text => text
  | .code text => '`' :: text ++ ['`']
  | _ => []

/-- Whether an event separates words. -/
def isBreak : Event → Bool
  | .softBreak | .hardBreak => true
  | .endBlock kind => Line.separates kind
  | _ => false

theorem shown_of_isBreak {e : Event} (h : isBreak e = true) : shown e = [] := by
  cases e <;> simp_all [isBreak, shown]

@[simp] theorem Mark.apply_none (mark : Mark) (text : List Char) :
    mark.apply none text = text := by
  cases mark <;> rfl

namespace Line

variable {l : Line}

/-! ## Spaces -/

theorem current_push (l : Line) (text : List Char) : (l.push text).current = l.current ++ text := by
  obtain ⟨spans, outside⟩ := l
  cases spans <;> rfl

/-- A space is due at a break: there is text, and no space at the end of it. -/
def due (l : Line) : Bool := !(l.current.isEmpty || l.current.getLast? = some ' ')

theorem due_eq (l : Line) : l.due = l.current.getLast?.any (· != ' ') := by
  unfold due
  obtain hnil | ⟨front, c, hconcat⟩ := List.eq_nil_or_concat' l.current
  · simp [hnil]
  · have hne : (front ++ [c]).isEmpty = false := by simp
    simp [hconcat, hne, bne, beq_eq_decide]

theorem space_of_due (h : l.due = true) : l.space = l.push [' '] := by
  simp_all [due, space]

theorem space_of_not_due (h : l.due = false) : l.space = l := by
  rw [due, Bool.not_eq_false'] at h
  rw [space, if_pos h]

theorem step_of_isBreak {e : Event} (h : isBreak e = true) (theme? : Option Theme) (l : Line) :
    l.step theme? e = l.space := by
  cases e <;> simp_all [isBreak, step]

/-! ## Spelling -/

/-- The text on the line and in the open spans, outermost first. -/
def spelled (l : Line) : List Char := closeAll none [] l.spans l.outside

theorem closeAll_append (inner text : List Char) (spans : List (Mark × List Char))
    (outside : List Char) :
    closeAll none (inner ++ text) spans outside = closeAll none inner spans outside ++ text := by
  induction spans generalizing inner with
  | nil => simp [closeAll]
  | cons span spans ih => simp [closeAll, ← ih]

@[simp] theorem spelled_empty : empty.spelled = [] := rfl

@[simp] theorem spelled_push (l : Line) (text : List Char) :
    (l.push text).spelled = l.spelled ++ text := by
  obtain ⟨spans, outside⟩ := l
  cases spans with
  | nil => simp [spelled, push, closeAll]
  | cons span spans => simp [spelled, push, closeAll, ← closeAll_append]

@[simp] theorem spelled_openSpan (l : Line) (mark : Mark) :
    (l.openSpan mark).spelled = l.spelled := by
  simp [spelled, openSpan, closeAll]

@[simp] theorem spelled_closeSpan (l : Line) : (l.closeSpan none).spelled = l.spelled := by
  obtain ⟨spans, outside⟩ := l
  cases spans with
  | nil => rfl
  | cons span spans =>
    obtain ⟨mark, text⟩ := span
    calc (closeSpan none ⟨(mark, text) :: spans, outside⟩).spelled
        = (push ⟨spans, outside⟩ (mark.apply none text)).spelled := rfl
      _ = closeAll none [] spans outside ++ text := by
          rw [spelled_push, Mark.apply_none, spelled]
      _ = spelled ⟨(mark, text) :: spans, outside⟩ := by simp [spelled, closeAll, ← closeAll_append]

/-- What an event adds to the line. -/
def added (l : Line) (e : Event) : List Char :=
  if isBreak e then if l.due then [' '] else [] else shown e

theorem spelled_step (l : Line) (e : Event) :
    (l.step none e).spelled = l.spelled ++ l.added e := by
  cases hbreak : isBreak e with
  | true =>
    cases hdue : l.due with
    | true => simp [step_of_isBreak hbreak, space_of_due hdue, added, hbreak, hdue]
    | false => simp [step_of_isBreak hbreak, space_of_not_due hdue, added, hbreak, hdue]
  | false =>
    cases e with
    | startSpan kind => cases kind <;> simp [step, markOf?, added, isBreak, shown]
    | endSpan kind => cases kind <;> simp [step, markOf?, added, isBreak, shown]
    | softBreak | hardBreak => simp [isBreak] at hbreak
    | _ => simp_all [step, added, isBreak, shown, Style.inlineCode]

/-- What events add to the line, one after the other. -/
def addedAll : Line → List Event → List Char
  | _, [] => []
  | l, e :: events => l.added e ++ addedAll (l.step none e) events

theorem spelled_foldl (l : Line) (events : List Event) :
    (events.foldl (step none) l).spelled = l.spelled ++ l.addedAll events := by
  induction events generalizing l with
  | nil => simp [addedAll]
  | cons e events ih => rw [List.foldl_cons, ih, spelled_step, addedAll, List.append_assoc]

theorem addedAll_append (l : Line) (events rest : List Event) :
    l.addedAll (events ++ rest) =
      l.addedAll events ++ (events.foldl (step none) l).addedAll rest := by
  induction events generalizing l with
  | nil => rfl
  | cons e events ih => simp [addedAll, ih]

end Line

theorem ofEvents_eq (events : List Event) :
    ofEvents none events = Text.trimEnd (Line.empty.addedAll events) := by
  have hspelled := Line.spelled_foldl .empty events
  rw [Line.spelled_empty, List.nil_append] at hspelled
  rw [ofEvents, Line.finish, ← hspelled, Line.spelled]

/-! ## Without blanks -/

theorem withoutBlanks_added (l : Line) (e : Event) :
    withoutBlanks (l.added e) = withoutBlanks (shown e) := by
  unfold Line.added
  split
  · next hbreak =>
    rw [shown_of_isBreak hbreak]
    split <;> rfl
  · rfl

theorem withoutBlanks_addedAll (l : Line) (events : List Event) :
    withoutBlanks (l.addedAll events) = withoutBlanks (events.flatMap shown) := by
  induction events generalizing l with
  | nil => rfl
  | cons e events ih => simp [Line.addedAll, withoutBlanks_added, ih]

/-- Whatever the events, and whether or not their spans end: but for blanks, all that they show
is there, once and in order. No blank is left at the end. -/
theorem ofEvents_keeps_shown (events : List Event) :
    withoutBlanks (ofEvents none events) = withoutBlanks (events.flatMap shown) ∧
      ∀ c ∈ (ofEvents none events).getLast?, Text.isBlank c = false := by
  rw [ofEvents_eq, Text.withoutBlanks_trimEnd, withoutBlanks_addedAll]
  exact ⟨rfl, fun c hc => Text.isBlank_of_mem_getLast?_trimEnd hc⟩

end ModuleIndex.Description

import ModuleIndex.Proofs.Description.Spelling
import Mathlib.Data.List.Infix

/-!
# Words on both sides of a break

The space of a break goes into the innermost open span, and none is put where nothing stands yet.
So two words come together if each break between them stands in a span that begins behind the
first one. The end of a block never does.
-/

namespace ModuleIndex.Description

open Markdown (Event BlockKind)

/-! ## Between two words -/

def isShown : Event → Bool
  | .text _ | .code _ | .html _ => true
  | _ => false

theorem shown_of_not_isShown {e : Event} (h : isShown e = false) : shown e = [] := by
  cases e <;> simp_all [isShown, shown]

/-- How many of the spans that begin behind a word are open behind an event, given how many are
open in front of it. -/
def spansBehind (n : Nat) : Event → Nat
  | .startSpan kind => if (markOf? kind).isSome then n + 1 else n
  | .endSpan kind => if (markOf? kind).isSome then n - 1 else n
  | _ => n

/-- Some break stands outside of the spans that begin behind the word. In front of the events `n`
of these are open. -/
def parts : (n : Nat) → List Event → Bool
  | _, [] => false
  | n, e :: events => (n == 0 && isBreak e) || parts (spansBehind n e) events

theorem spansBehind_of_isBreak {e : Event} (h : isBreak e = true) (n : Nat) :
    spansBehind n e = n := by
  cases e <;> simp_all [isBreak, spansBehind]

/-- A text that is not empty and has no blank at an end. -/
structure IsSolid (text : List Char) : Prop where
  ne_nil : text ≠ []
  trim_eq : Text.trim text = text

theorem IsSolid.exists_last {text : List Char} (h : IsSolid text) :
    ∃ front c, text = front ++ [c] ∧ Text.isBlank c = false := by
  obtain ⟨front, c, rfl⟩ := (List.eq_nil_or_concat' text).resolve_left h.ne_nil
  have hlast : c ∈ (Text.trim (front ++ [c])).getLast? := by
    rw [h.trim_eq]
    simp
  exact ⟨front, c, rfl, Text.isBlank_of_mem_getLast?_trimEnd hlast⟩

namespace Line

variable {l : Line} {c : Char}

theorem due_of_getLast? (h : l.current.getLast? = some c) : l.due = (c != ' ') := by
  simp [due_eq, h]

/-- The line with empty spans opened, the last one first. -/
def openAll (l : Line) (marks : List Mark) : Line :=
  { l with spans := marks.map (·, []) ++ l.spans }

theorem closeSpan_openAll (l : Line) (mark : Mark) (marks : List Mark) :
    (l.openAll (mark :: marks)).closeSpan none = l.openAll marks := by
  calc (l.openAll (mark :: marks)).closeSpan none
      = (l.openAll marks).push (mark.apply none []) := rfl
    _ = l.openAll marks := by rw [Mark.apply_none, push_nil]

theorem getLast?_closeSpan (h : l.current.getLast? = some c) :
    (l.closeSpan none).current.getLast? = some c := by
  obtain ⟨spans, outside⟩ := l
  cases spans with
  | nil => exact h
  | cons span spans =>
    simp only [current] at h
    simp [closeSpan, current_push, h]

/-- An event that shows nothing and is no break. The word stays at the end of the line below the
spans that begin behind it. -/
theorem exists_step_openAll {e : Event} (he : isShown e = false) (hbreak : isBreak e = false)
    (h : l.current.getLast? = some c) (marks : List Mark) :
    ∃ l' marks', (l.openAll marks).step none e = openAll l' marks' ∧
      l'.current.getLast? = some c ∧ marks'.length = spansBehind marks.length e := by
  have hsame : ∃ l' marks', l.openAll marks = openAll l' marks' ∧
      l'.current.getLast? = some c ∧ marks'.length = marks.length := ⟨l, marks, rfl, h, rfl⟩
  cases e with
  | startSpan kind =>
    cases hmark : markOf? kind with
    | none => simpa [step, spansBehind, hmark] using hsame
    | some mark =>
      simp only [step, spansBehind, hmark]
      exact ⟨l, mark :: marks, rfl, h, rfl⟩
  | endSpan kind =>
    cases hmark : markOf? kind with
    | none => simpa [step, spansBehind, hmark] using hsame
    | some mark =>
      simp only [step, spansBehind, hmark, Option.isSome_some, if_true]
      cases marks with
      | nil => exact ⟨l.closeSpan none, [], rfl, getLast?_closeSpan h, rfl⟩
      | cons mark marks => exact ⟨l, marks, closeSpan_openAll l mark marks, h, rfl⟩
  | endBlock kind =>
    rw [isBreak] at hbreak
    simpa [step, hbreak, spansBehind] using hsame
  | startBlock kind | rule => exact hsame
  | softBreak | hardBreak => simp [isBreak] at hbreak
  | text | code | html => simp [isShown] at he

/-- What stands between the word that ends with `c` and the next one is a space at most. -/
theorem addedAll_between {between : List Event} (hbetween : ∀ e ∈ between, isShown e = false)
    (h : l.current.getLast? = some c) (marks : List Mark) :
    (l.openAll marks).addedAll between =
      if c ≠ ' ' ∧ parts marks.length between = true then [' '] else [] := by
  induction between generalizing l c marks with
  | nil => simp [addedAll, parts]
  | cons e between ih =>
    rw [List.forall_mem_cons] at hbetween
    cases hbreak : isBreak e with
    | false =>
      obtain ⟨l', marks', hstep, hlast, hlength⟩ := exists_step_openAll hbetween.1 hbreak h marks
      rw [addedAll, hstep, ih hbetween.2 hlast, hlength]
      simp [added, hbreak, shown_of_not_isShown hbetween.1, parts]
    | true =>
      have hspans := spansBehind_of_isBreak hbreak marks.length
      rw [addedAll, step_of_isBreak hbreak, added, if_pos hbreak, parts, hspans]
      cases marks with
      | nil =>
        have hdue : (l.openAll []).due = (c != ' ') := due_of_getLast? h
        by_cases hc : c = ' '
        · -- There is a space already.
          rw [hc] at hdue
          rw [space_of_not_due hdue, hdue, ih hbetween.2 h]
          simp [hc]
        · have hspace : (l.push [' ']).current.getLast? = some ' ' := by simp [current_push]
          rw [space_of_due (hdue.trans (by simpa using hc)), hdue]
          have hrest := ih hbetween.2 hspace []
          simp only [openAll, List.map_nil, List.nil_append] at hrest ⊢
          rw [hrest]
          simp [hc, hbreak]
      | cons mark marks =>
        -- The break goes into a span in which nothing stands.
        have hdue : (l.openAll (mark :: marks)).due = false := rfl
        rw [space_of_not_due hdue, hdue, ih hbetween.2 h]
        simp

end Line

theorem exists_ofEvents_eq {before between after : List Event} {s t : List Char}
    (hs : IsSolid s) (ht : IsSolid t) (hbetween : ∀ e ∈ between, isShown e = false) :
    ∃ rest, ofEvents none (before ++ .text s :: between ++ .text t :: after) =
      Line.empty.addedAll before ++ s ++ (if parts 0 between = true then [' '] else []) ++ t ++
        rest := by
  obtain ⟨front, c, hsc, hc⟩ := hs.exists_last
  obtain ⟨tfront, d, htd, hd⟩ := ht.exists_last
  have hspace : c ≠ ' ' := by
    rintro rfl
    simp [Text.isBlank] at hc
  generalize hl : before.foldl (Line.step none) .empty = l
  have hlast : (l.push s).current.getLast? = some c := by simp [Line.current_push, hsc]
  have hgap := Line.addedAll_between hbetween hlast []
  simp only [hspace, ne_eq, not_false_eq_true, true_and, List.length_nil] at hgap
  generalize hrest : ((between.foldl (Line.step none) (l.push s)).push t).addedAll after = rest
  have hadded : Line.empty.addedAll (before ++ .text s :: between ++ .text t :: after) =
      Line.empty.addedAll before ++ s ++ (if parts 0 between = true then [' '] else []) ++ t ++
        rest := by
    rw [List.append_assoc, Line.addedAll_append, hl, List.cons_append, Line.addedAll]
    have hstep : l.step none (.text s) = l.push s := rfl
    rw [hstep, Line.addedAll_append]
    rw [show (l.push s).addedAll between = _ from hgap, Line.addedAll]
    simp [Line.added, isBreak, shown, Line.step, hrest]
  refine ⟨Text.trimEnd rest, ?_⟩
  rw [ofEvents_eq, hadded, htd]
  simpa using Text.trimEnd_append (Line.empty.addedAll before ++ s ++
    (if parts 0 between = true then [' '] else []) ++ tfront) hd rest

/-! ## Ends of blocks -/

theorem spansBehind_mono {m n : Nat} (h : m ≤ n) (e : Event) :
    spansBehind m e ≤ spansBehind n e := by
  unfold spansBehind
  split
  · split <;> omega
  · split <;> omega
  · exact h

theorem foldl_spansBehind_mono {m n : Nat} (h : m ≤ n) (events : List Event) :
    events.foldl spansBehind m ≤ events.foldl spansBehind n := by
  induction events generalizing m n with
  | nil => exact h
  | cons e events ih => exact ih (spansBehind_mono h e)

theorem Nested.foldl_spansBehind {events : List Event} (h : Nested events) (n : Nat) :
    events.foldl spansBehind n = n := by
  induction h generalizing n with
  | nil => rfl
  | @leaf e events he _ ih =>
    have hsame : spansBehind n e = n := by cases e <;> simp_all [isSpanEdge, spansBehind]
    rw [List.foldl_cons, hsame, ih]
  | span kind _ _ ihinner ih =>
    simp only [List.cons_append, List.foldl_cons, List.foldl_append, ihinner, ih]
    cases kind <;> simp [spansBehind, markOf?]

theorem parts_append {before : List Event} {n : Nat} (h : before.foldl spansBehind n = 0)
    {e : Event} (he : isBreak e = true) (after : List Event) :
    parts n (before ++ e :: after) = true := by
  induction before generalizing n with
  | nil =>
    obtain rfl : n = 0 := h
    simp [parts, he]
  | cons f before ih => simp [parts, ih h]

/-- All spans in front of the end of a block have ended. -/
def EndsBlocksOutside (events : List Event) : Prop :=
  ∀ before kind, before ++ [.endBlock kind] <+: events → Nested before

namespace EndsBlocksOutside

variable {events rest : List Event}

theorem append (hnested : Nested events) (h : EndsBlocksOutside events)
    (hrest : EndsBlocksOutside rest) : EndsBlocksOutside (events ++ rest) := by
  intro before kind hbefore
  rcases List.prefix_or_prefix_of_prefix hbefore (List.prefix_append events rest) with hin | hover
  · exact h before kind hin
  · rcases List.prefix_concat_iff.mp hover with heq | ⟨front, rfl⟩
    · exact h before kind (heq ▸ List.prefix_refl _)
    · rw [List.append_assoc, List.prefix_append_right_inj] at hbefore
      exact hnested.append (hrest front kind hbefore)

theorem of_not_mem (h : ∀ kind, .endBlock kind ∉ events) : EndsBlocksOutside events := by
  intro before kind hbefore
  exact absurd (hbefore.subset (by simp)) (h kind)

theorem leaf (e : Event) : EndsBlocksOutside [e] := by
  intro before kind hbefore
  obtain rfl : before = [] := by
    have hlength := hbefore.length_le
    rw [List.length_append] at hlength
    exact List.eq_nil_of_length_eq_zero (by simpa using hlength)
  exact .nil

theorem blockEvents (hnested : Nested events) (h : EndsBlocksOutside events) (kind : BlockKind) :
    EndsBlocksOutside (Markdown.blockEvents kind events) :=
  append (.leaf rfl hnested) (append (.leaf rfl .nil) (leaf _) h) (leaf _)

end EndsBlocksOutside

mutual

theorem endBlock_not_mem_inline (kind : BlockKind) :
    (i : Markdown.Inline) → .endBlock kind ∉ i.events
  | .text _ | .code _ | .html _ | .softBreak | .hardBreak => by simp [Markdown.Inline.events]
  | .span _ content => by
    simpa [Markdown.Inline.events] using endBlock_not_mem_inlineEvents kind content

theorem endBlock_not_mem_inlineEvents (kind : BlockKind) :
    (is : List Markdown.Inline) → .endBlock kind ∉ Markdown.inlineEvents is
  | [] => by simp [Markdown.inlineEvents]
  | i :: is => by
    rw [Markdown.inlineEvents, List.mem_append, not_or]
    exact ⟨endBlock_not_mem_inline kind i, endBlock_not_mem_inlineEvents kind is⟩

end

mutual

theorem endsBlocksOutside_block (labels : List (List Char)) (tight : Bool) :
    (b : Markdown.Block) → EndsBlocksOutside (b.events labels tight)
  | .paragraph passage => by
    have hcontent : EndsBlocksOutside
        (Markdown.inlineEvents (Markdown.Inline.ofPassage labels passage)) :=
      .of_not_mem (endBlock_not_mem_inlineEvents · _)
    rw [Markdown.Block.events]
    split
    · exact hcontent
    · exact hcontent.blockEvents (nested_inlineEvents _) .paragraph
  | .heading _ =>
    EndsBlocksOutside.blockEvents (nested_inlineEvents _)
      (.of_not_mem (endBlock_not_mem_inlineEvents · _)) .heading
  | .code _ => .blockEvents (.leaf rfl .nil) (.leaf _) .code
  | .html _ => .blockEvents (.leaf rfl .nil) (.leaf _) .html
  | .rule => .leaf _
  | .quote blocks =>
    .blockEvents (nested_eventsOf labels false blocks)
      (endsBlocksOutside_eventsOf labels false blocks) .quote
  | .list tight items =>
    .blockEvents (nested_eventsOf labels tight items)
      (endsBlocksOutside_eventsOf labels tight items) .list
  | .item blocks =>
    .blockEvents (nested_eventsOf labels tight blocks)
      (endsBlocksOutside_eventsOf labels tight blocks) .item

theorem endsBlocksOutside_eventsOf (labels : List (List Char)) (tight : Bool) :
    (bs : List Markdown.Block) → EndsBlocksOutside (Markdown.eventsOf labels tight bs)
  | [] => .of_not_mem (by simp [Markdown.eventsOf])
  | b :: bs =>
    .append (nested_block labels tight b) (endsBlocksOutside_block labels tight b)
      (endsBlocksOutside_eventsOf labels tight bs)

end

theorem endsBlocksOutside_events (text : List Char) : EndsBlocksOutside (Markdown.events text) :=
  endsBlocksOutside_eventsOf _ false _

/-- Behind a text no more spans have begun than have ended, where a block ends. -/
theorem parts_of_endBlock {before between after : List Event} {e : Event} {kind : BlockKind}
    (h : EndsBlocksOutside (before ++ e :: between ++ after)) (he : isSpanEdge e = false)
    (hmem : .endBlock kind ∈ between) (hkind : Line.separates kind = true) :
    parts 0 between = true := by
  obtain ⟨front, rest, rfl⟩ := List.append_of_mem hmem
  have hnested : Nested (before ++ e :: front) :=
    h _ kind ⟨rest ++ after, by simp⟩
  have hbalanced := hnested.foldl_spansBehind 0
  have hbreak : isBreak (.endBlock kind) = true := hkind
  refine parts_append ?_ hbreak rest
  have hle := foldl_spansBehind_mono (Nat.zero_le (before.foldl spansBehind 0)) front
  have hsame (n : Nat) : spansBehind n e = n := by cases e <;> simp_all [isSpanEdge, spansBehind]
  rw [List.foldl_append, List.foldl_cons, hsame] at hbalanced
  omega

/-! ## Two words of a description -/

/-- Between two words there is a space if some break stands outside of the spans that begin behind
the first of them, and else nothing. The end of a paragraph, a heading or an item is such a
break. -/
theorem format_between_words (description : String) {before between after : List Event}
    {s t : List Char}
    (hevents : Markdown.events description.toList =
      before ++ .text s :: between ++ .text t :: after)
    (hs : IsSolid s) (ht : IsSolid t) (hbetween : ∀ e ∈ between, isShown e = false) :
    (∃ rest, format none description = Line.empty.addedAll before ++ s ++
      (if parts 0 between = true then [' '] else []) ++ t ++ rest) ∧
    ∀ kind, .endBlock kind ∈ between → Line.separates kind = true → parts 0 between = true := by
  constructor
  · rw [format, hevents]
    exact exists_ofEvents_eq hs ht hbetween
  · intro kind hmem hkind
    have houtside := endsBlocksOutside_events description.toList
    rw [hevents] at houtside
    exact parts_of_endBlock houtside rfl hmem hkind

theorem format_between_items :
    let between : List Event := [.endSpan .emphasis, .endBlock .item, .startBlock .item,
      .startSpan .link]
    (∃ rest, format none "- *one*\n- [two](x)" = "one".toList ++ [' '] ++ "two".toList ++ rest) ∧
      parts 0 between = true := by
  intro between
  have hevents : Markdown.events "- *one*\n- [two](x)".toList =
      [.startBlock .list, .startBlock .item, .startSpan .emphasis] ++
        .text "one".toList :: between ++
        .text "two".toList :: [.endSpan .link, .endBlock .item, .endBlock .list] := by
    decide +kernel
  obtain ⟨⟨rest, hrest⟩, hparts⟩ := format_between_words "- *one*\n- [two](x)" hevents
    ⟨by decide, by decide⟩ ⟨by decide, by decide⟩ (by decide)
  have hitem : parts 0 between = true := hparts .item (by decide) rfl
  refine ⟨⟨rest, ?_⟩, hitem⟩
  rw [hrest, if_pos hitem]
  rfl

/-- A break at the start of a link leaves no space, and the link has its text right behind the
word in front of it. -/
theorem format_break_opens_link :
    Markdown.events "see[\nthis](x)".toList =
      [.startBlock .paragraph] ++
        .text "see".toList :: [.startSpan .link, .softBreak] ++
        .text "this".toList :: [.endSpan .link, .endBlock .paragraph] ∧
    IsSolid "see".toList ∧ IsSolid "this".toList ∧
    format none "see[\nthis](x)" = "seethis".toList := by
  refine ⟨by decide +kernel, ⟨by decide, by decide⟩, ⟨by decide, by decide⟩, by decide +kernel⟩

/-- The start of an item is no break, also where a paragraph goes over into a list. -/
example : format none "- a\n  - b" = "ab".toList := by decide +kernel

end ModuleIndex.Description

import ModuleIndex.Index.Script
import ModuleIndex.Proofs.Text.Blank
import ModuleIndex.Proofs.Text.Pieces

/-!
# What a script holds

A script is a call with the JSON text between its parentheses, or the bare text of an object.
Which text a script holds is said without the steps that look for it, and a call is read as what
stands in it.
-/

namespace ModuleIndex.Index

open Text (IsBlanks)

/-! ## Calls -/

/-- The script calls with the argument between the parentheses, with blanks around the call and
in it, and with a semicolon or without. -/
def IsCallOf (argument script : List Char) : Prop :=
  ∃ before gap close stop after : List Char,
    IsBlanks before ∧ IsBlanks gap ∧ IsBlanks close ∧ IsBlanks after ∧
      (stop = [] ∨ stop = [';']) ∧
      script = before ++ scriptCall ++ gap ++ '(' :: argument ++ ')' :: close ++ stop ++ after

/-- A script holds the text of a bare object, or else what is between the parentheses of a call. -/
inductive Holds (script : List Char) : List Char → Prop
  | object {rest} (h : Text.trim script = '{' :: rest) : Holds script (Text.trim script)
  | call {argument} (h : IsCallOf argument script) : Holds script (Text.trim argument)

/-- A closing parenthesis with blanks behind it does not end with a semicolon. -/
theorem before?_semicolon_eq_none {close : List Char} (h : IsBlanks close) (argument : List Char) :
    Text.before? [';'] (argument ++ ')' :: close) = none := by
  rw [Option.eq_none_iff_forall_not_mem]
  intro rest hrest
  -- The semicolon would be the last character, which is a blank or the parenthesis.
  have hlast := congrArg List.getLast? (Text.before?_eq_some_iff.mp hrest)
  rw [List.getLast?_concat, List.getLast?_append_of_ne_nil _ (List.cons_ne_nil _ _)] at hlast
  obtain hmem | hmem := List.mem_cons.mp (List.mem_of_getLast? hlast)
  · exact absurd hmem (by decide)
  · exact absurd (h _ hmem) (by decide)

theorem callArgument?_eq_some_iff {call text : List Char} :
    callArgument? call = some text ↔
      ∃ argument close stop, IsBlanks close ∧ (stop = [] ∨ stop = [';']) ∧
        call = argument ++ ')' :: close ++ stop ∧ text = Text.trim argument := by
  constructor
  · intro h
    obtain ⟨argument, hargument, rfl⟩ := Option.map_eq_some_iff.mp h
    have hclose := Text.before?_eq_some_iff.mp hargument
    obtain ⟨close, hblanks, hcall⟩ := Text.exists_trimEnd ((Text.before? [';'] call).getD call)
    rw [hclose, List.append_assoc, List.singleton_append] at hcall
    cases hstop : Text.before? [';'] call with
    | none =>
      rw [hstop, Option.getD_none] at hcall
      exact ⟨argument, close, [], hblanks, .inl rfl, by rw [List.append_nil, ← hcall], rfl⟩
    | some called =>
      rw [hstop, Option.getD_some] at hcall
      refine ⟨argument, close, [';'], hblanks, .inr rfl, ?_, rfl⟩
      rw [← hcall, Text.before?_eq_some_iff.mp hstop]
  · rintro ⟨argument, close, stop, hclose, hstop, rfl, rfl⟩
    have hcall : (Text.before? [';'] (argument ++ ')' :: close ++ stop)).getD
        (argument ++ ')' :: close ++ stop) = argument ++ ')' :: close := by
      obtain rfl | rfl := hstop
      · rw [List.append_nil, before?_semicolon_eq_none hclose, Option.getD_none]
      · rw [Text.before?_append, Option.getD_some]
    have htrim : Text.trimEnd (argument ++ ')' :: close) = argument ++ [')'] := by
      rw [List.append_cons, Text.trimEnd_blanks hclose, Text.trimEnd_concat (by decide)]
    simp only [callArgument?, hcall, htrim, Text.before?_append, Option.map_some]

/-- The text of a call without the blanks around it. -/
theorem trim_of_isCallOf {argument script : List Char} (h : IsCallOf argument script) :
    ∃ gap close stop, IsBlanks gap ∧ IsBlanks close ∧ (stop = [] ∨ stop = [';']) ∧
      Text.trim script = scriptCall ++ (gap ++ '(' :: (argument ++ ')' :: close ++ stop)) := by
  obtain ⟨before, gap, close, stop, after, hbefore, hgap, hclose, hafter, hstop, rfl⟩ := h
  obtain rfl | rfl := hstop
  · -- Without a semicolon the blanks behind the parenthesis are at the end, and go too.
    refine ⟨gap, [], [], hgap, Text.isBlanks_nil, .inl rfl, ?_⟩
    have hblanks : IsBlanks (close ++ after) := by
      intro c hc
      exact (List.mem_append.mp hc).elim (hclose c) (hafter c)
    have htrim : Text.trim (before ++ ('i' :: (scriptCall.tail ++ gap ++ '(' :: argument) ++ [')'])
        ++ (close ++ after)) = 'i' :: (scriptCall.tail ++ gap ++ '(' :: argument) ++ [')'] :=
      Text.trim_between hbefore hblanks (by decide) (by decide) _
    simpa [scriptCall] using htrim
  · refine ⟨gap, close, [';'], hgap, hclose, .inr rfl, ?_⟩
    have htrim : Text.trim (before ++ ('i' :: (scriptCall.tail ++ gap ++ '(' :: argument ++
        ')' :: close) ++ [';']) ++ after) =
          'i' :: (scriptCall.tail ++ gap ++ '(' :: argument ++ ')' :: close) ++ [';'] :=
      Text.trim_between hbefore hafter (by decide) (by decide) _
    simpa [scriptCall] using htrim

theorem payload?_of_isCallOf {argument script : List Char} (h : IsCallOf argument script) :
    payload? script = some (Text.trim argument) := by
  obtain ⟨gap, close, stop, hgap, hclose, hstop, htrim⟩ := trim_of_isCallOf h
  have hbrace : ['{'].isPrefixOf
      (scriptCall ++ (gap ++ '(' :: (argument ++ ')' :: close ++ stop))) = false := rfl
  have hgap : Text.trimStart (gap ++ '(' :: (argument ++ ')' :: close ++ stop)) =
      ['('] ++ (argument ++ ')' :: close ++ stop) := by
    rw [Text.trimStart_blanks hgap, Text.trimStart_cons (by decide), List.singleton_append]
  have hargument := callArgument?_eq_some_iff.mpr ⟨argument, close, stop, hclose, hstop, rfl, rfl⟩
  rw [payload?, htrim]
  simp only [hbrace, Text.after?_append, hgap, bind, Option.bind]
  exact hargument

theorem payload?_of_object {script rest : List Char} (h : Text.trim script = '{' :: rest) :
    payload? script = some (Text.trim script) := by
  simp [payload?, h]

theorem payload?_eq_some_iff {script text : List Char} :
    payload? script = some text ↔ Holds script text := by
  constructor
  · intro h
    rw [payload?] at h
    split at h
    · next hbrace =>
      obtain ⟨rest, hrest⟩ := List.isPrefixOf_iff_prefix.mp hbrace
      rw [Option.some.injEq] at h
      exact h ▸ .object hrest.symm
    · obtain ⟨call, hcall, h⟩ := Option.bind_eq_some_iff.mp h
      obtain ⟨inner, hinner, h⟩ := Option.bind_eq_some_iff.mp h
      obtain ⟨argument, close, stop, hclose, hstop, rfl, rfl⟩ := callArgument?_eq_some_iff.mp h
      obtain ⟨before, after, hbefore, hafter, hscript⟩ := Text.exists_trim script
      obtain ⟨gap, hgap, hstart⟩ := Text.exists_trimStart call
      refine .call ⟨before, gap, close, stop, after, hbefore, hgap, hclose, hafter, hstop, ?_⟩
      rw [hscript, Text.eq_append_of_after? hcall, hstart, Text.eq_append_of_after? hinner]
      simp
  · rintro (h | h)
    · exact payload?_of_object h
    · exact payload?_of_isCallOf h

theorem parse_congr {script bare : String}
    (h : payload? script.toList = payload? bare.toList) : parse script = parse bare := by
  rw [parse, parse, h]

/-! ## Scripts -/

/-- Exactly the text that a script holds is found in it, a script that holds none is refused, and
a call is read like the bare object in it. -/
theorem wrapper_grammar (script : String) :
    (∀ text, payload? script.toList = some text ↔ Holds script.toList text) ∧
      ((∀ text, ¬ Holds script.toList text) →
        payload? script.toList = none ∧ parse script = .error .unknownWrapper) ∧
      ∀ bare : String, (∃ rest, Text.trim bare.toList = '{' :: rest) →
        IsCallOf bare.toList script.toList → parse script = parse bare := by
  refine ⟨fun _ => payload?_eq_some_iff, ?_, ?_⟩
  · intro h
    have hnone : payload? script.toList = none := by
      rw [Option.eq_none_iff_forall_not_mem]
      exact fun text htext => h text (payload?_eq_some_iff.mp htext)
    exact ⟨hnone, by rw [parse, hnone]⟩
  · rintro bare ⟨rest, hrest⟩ hcall
    apply parse_congr
    rw [payload?_of_isCallOf hcall, payload?_of_object hrest]

/-- A call with a no-break space in front, and blanks around an object with a parenthesis and a
semicolon at the end of a name. -/
theorem wrapper_grammar_blanks :
    let bare := "\n\x7b\"fn\":[[\"\x7d);\",\"\"]]\x7d "
    let script := "\u00a0initSidebarItems (\n\x7b\"fn\":[[\"\x7d);\",\"\"]]\x7d )\t;\n"
    (∃ rest, Text.trim bare.toList = '{' :: rest) ∧ IsCallOf bare.toList script.toList ∧
      parse script = parse bare := by
  intro bare script
  have hbare : ∃ rest, Text.trim bare.toList = '{' :: rest :=
    ⟨(Text.trim bare.toList).tail, by decide +kernel⟩
  have hcall : IsCallOf bare.toList script.toList :=
    ⟨['\u00a0'], [' '], ['\t'], [';'], ['\n'], Text.isBlanks_singleton.mpr (by decide),
      Text.isBlanks_singleton.mpr (by decide), Text.isBlanks_singleton.mpr (by decide),
      Text.isBlanks_singleton.mpr (by decide), .inr rfl, by decide +kernel⟩
  exact ⟨hbare, hcall, (wrapper_grammar script).2.2 bare hbare hcall⟩

end ModuleIndex.Index

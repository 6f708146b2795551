import ModuleIndex.Proofs.Style.Unstyled
import ModuleIndex.Style.Palette
import Mathlib.Algebra.GroupWithZero.Nat

/-!
# Widths of lines

The width of a line is the number of characters that are seen of it, with color or without. It is
also the sum of the widths of its pieces, however they are grouped.
-/

namespace ModuleIndex.Style

/-! ## Widths of pieces -/

mutual

/-- The columns of a piece. A kind takes the columns it is filled up to, unless it is longer. -/
def Piece.width : Piece → Nat
  | .token t => t.width
  | .kindPadded text columns => max text.length columns
  | .path segments => (segments.map (·.length + 2)).sum
  | .group pieces => widthOf pieces

def widthOf : List Piece → Nat
  | [] => 0
  | p :: pieces => p.width + widthOf pieces

end

@[simp] theorem plainText_nil : plainText [] = [] := rfl

@[simp] theorem plainText_cons (t : Token) (tokens : List Token) :
    plainText (t :: tokens) = t.text.toList ++ plainText tokens := rfl

@[simp] theorem plainText_append (tokens more : List Token) :
    plainText (tokens ++ more) = plainText tokens ++ plainText more :=
  List.flatMap_append

theorem plainText_spaces (n : Nat) :
    plainText (List.replicate n .space) = List.replicate n ' ' := by
  induction n with
  | zero => rfl
  | succ n ih => exact congrArg (' ' :: ·) ih

theorem plainText_path (segments : List String) :
    plainText (segments.flatMap fun s => [.identifier s, .symbol "::"]) =
      segments.flatMap (·.toList ++ [':', ':']) := by
  simp [plainText, Token.text, List.flatMap_assoc]

theorem tokensOf_map_token (tokens : List Token) : tokensOf (tokens.map .token) = tokens := by
  induction tokens with
  | nil => rfl
  | cons t tokens ih => exact congrArg (t :: ·) ih

theorem width_eq_length (tokens : List Token) : width tokens = (plainText tokens).length := by
  induction tokens with
  | nil => rfl
  | cons t tokens ih =>
    simp [width, ih, Token.width, String.length_toList]

theorem width_append (tokens more : List Token) :
    width (tokens ++ more) = width tokens + width more := by
  simp [width_eq_length]

theorem width_spaces (n : Nat) : width (List.replicate n .space) = n := by
  rw [width_eq_length, plainText_spaces, List.length_replicate]

/-- No space is added to a kind that is longer than the width to fill up to. -/
theorem width_kindPadded (text : String) (columns : Nat) :
    width (.kind text :: List.replicate (columns - text.length) .space) =
      max text.length columns := by
  rw [width, width_spaces, Token.width, Token.text]
  omega

theorem width_path (segments : List String) :
    width (segments.flatMap fun s => [.identifier s, .symbol "::"]) =
      (segments.map (·.length + 2)).sum := by
  rw [width_eq_length, plainText_path, List.length_flatMap]
  simp [String.length_toList]

mutual

theorem Piece.width_tokens : (p : Piece) → Style.width p.tokens = p.width
  | .token t => rfl
  | .kindPadded text columns => by
    rw [Piece.tokens, width_kindPadded, Piece.width]
  | .path segments => by
    rw [Piece.tokens, width_path, Piece.width]
  | .group pieces => by
    rw [Piece.tokens, width_tokensOf, Piece.width]

theorem width_tokensOf : (pieces : List Piece) → width (tokensOf pieces) = widthOf pieces
  | [] => rfl
  | p :: pieces => by
    rw [tokensOf, width_append, p.width_tokens, width_tokensOf, widthOf]

end

/-! ## Texts without escape characters -/

mutual

/-- The texts that a piece is made from. -/
def Piece.texts : Piece → List String
  | .token t => [t.text]
  | .kindPadded text _ => [text]
  | .path segments => segments
  | .group pieces => textsOf pieces

def textsOf : List Piece → List String
  | [] => []
  | p :: pieces => p.texts ++ textsOf pieces

end

/-- No text has an escape character in it. -/
def AreClean (texts : List String) : Prop := ∀ text ∈ texts, '\x1b' ∉ text.toList

theorem AreClean.append_iff {texts more : List String} :
    AreClean (texts ++ more) ↔ AreClean texts ∧ AreClean more :=
  List.forall_mem_append

theorem areClean_path {segments : List String} (h : AreClean segments) :
    AreClean ((segments.flatMap fun s => [Token.identifier s, .symbol "::"]).map Token.text) := by
  intro text htext
  simp only [List.map_flatMap, List.mem_flatMap, List.map_cons, List.map_nil, List.mem_cons,
    List.not_mem_nil, or_false] at htext
  obtain ⟨s, hs, heq | heq⟩ := htext
  · rw [heq]
    exact h s hs
  · rw [heq]
    decide

mutual

theorem Piece.areClean_tokens : (p : Piece) → AreClean p.texts → AreClean (p.tokens.map Token.text)
  | .token _, h => h
  | .kindPadded text columns, h => by
    rw [Piece.tokens, List.map_cons, List.map_replicate]
    refine List.forall_mem_cons.mpr ⟨h text (List.mem_singleton_self text), ?_⟩
    intro space hspace
    rw [List.eq_of_mem_replicate hspace]
    decide
  | .path _, h => areClean_path h
  | .group pieces, h => areClean_tokensOf pieces h

theorem areClean_tokensOf :
    (pieces : List Piece) → AreClean (textsOf pieces) → AreClean ((tokensOf pieces).map Token.text)
  | [], _ => by simp [AreClean, tokensOf]
  | p :: pieces, h => by
    obtain ⟨hp, hpieces⟩ := AreClean.append_iff.mp h
    rw [tokensOf, List.map_append, AreClean.append_iff]
    exact ⟨p.areClean_tokens hp, areClean_tokensOf pieces hpieces⟩

end

/-! ## What is seen -/

theorem withoutMarks_of_notMem {text : List Char} (h : '\x1b' ∉ text) :
    withoutMarks text = text := by
  rw [withoutMarks, List.filter_eq_self]
  intro c hc
  simpa using fun heq : c = '\x1b' => h (heq ▸ hc)

theorem exists_twin_paintToken (theme : Theme) {t : Token} (h : '\x1b' ∉ t.text.toList) :
    ∃ marked, Twin (theme.paintToken t) marked ∧ withoutMarks marked = t.text.toList := by
  have hplain := Twin.of_plain h
  unfold Theme.paintToken
  cases theme.color? t with
  | none => exact ⟨t.text.toList, hplain, withoutMarks_of_notMem h⟩
  | some theme? =>
    refine ⟨t.text.toList ++ ['\x1b'], hplain.paint (List.cons_ne_nil _ _), ?_⟩
    calc withoutMarks (t.text.toList ++ ['\x1b'])
        = withoutMarks t.text.toList ++ withoutMarks ['\x1b'] := List.filter_append ..
      _ = t.text.toList := by rw [withoutMarks_of_notMem h]; exact List.append_nil _

theorem exists_twin_tokens (theme : Theme) {tokens : List Token}
    (h : AreClean (tokens.map Token.text)) :
    ∃ marked, Twin (tokens.flatMap theme.paintToken) marked ∧
      withoutMarks marked = plainText tokens := by
  induction tokens with
  | nil => exact ⟨[], .nil, rfl⟩
  | cons t tokens ih =>
    obtain ⟨ht, htokens⟩ := List.forall_mem_cons.mp h
    obtain ⟨first, htwin, hfirst⟩ := exists_twin_paintToken theme ht
    obtain ⟨marked, hmore, hmarked⟩ := ih htokens
    refine ⟨first ++ marked, htwin.append hmore, ?_⟩
    rw [withoutMarks, List.filter_append, ← withoutMarks, ← withoutMarks, hfirst, hmarked]
    rfl

theorem unstyled_tokenText (theme? : Option Theme) {tokens : List Token}
    (h : AreClean (tokens.map Token.text)) :
    unstyled (tokenText theme? tokens) = plainText tokens := by
  cases theme? with
  | some theme =>
    obtain ⟨marked, htwin, hmarked⟩ := exists_twin_tokens theme h
    exact htwin.unstyled_eq.trans hmarked
  | none =>
    have hplain : '\x1b' ∉ plainText tokens := by
      rw [plainText, List.mem_flatMap]
      rintro ⟨t, ht, hescape⟩
      exact h t.text (List.mem_map_of_mem ht) hescape
    exact (Twin.of_plain hplain).unstyled_eq.trans (withoutMarks_of_notMem hplain)

/-- The width of a line that is put together from pieces counts the characters that are left of
its printed text without escape sequences. These are the characters of its tokens, and their
number is the sum of the widths of the pieces. -/
theorem width_is_seen (theme? : Option Theme) (pieces : List Piece) (h : AreClean (textsOf pieces)) :
    width (tokensOf pieces) = (unstyled (tokenText theme? (tokensOf pieces))).length ∧
      unstyled (tokenText theme? (tokensOf pieces)) = plainText (tokensOf pieces) ∧
      width (tokensOf pieces) = widthOf pieces := by
  have hseen := unstyled_tokenText theme? (areClean_tokensOf pieces h)
  refine ⟨?_, hseen, width_tokensOf pieces⟩
  rw [hseen, width_eq_length]

/-- A kind that is longer than its width, and groups in a group. -/
theorem width_is_seen_groups :
    let pieces : List Piece := [.kindPadded "primitive" 6, .token .space,
      .group [.path ["std", "primitive"], .group [.kindPadded "fn" 6, .token (.typeName "ü8")]]]
    AreClean (textsOf pieces) ∧
      width (tokensOf pieces) = (unstyled (tokenText (some .dark) (tokensOf pieces))).length ∧
      unstyled (tokenText (some .dark) (tokensOf pieces)) = plainText (tokensOf pieces) ∧
      width (tokensOf pieces) = widthOf pieces := by
  intro pieces
  have h : AreClean (textsOf pieces) := by
    simp [pieces, textsOf, Piece.texts, AreClean, Token.text]
  exact ⟨h, width_is_seen (some .dark) pieces h⟩

end ModuleIndex.Style

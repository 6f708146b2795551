import ModuleIndex.Dependency.Resolve
import ModuleIndex.Proofs.Dependency.Routes

/-!
# Declared and linked answers

A declared dependency answers before any linked package does. The version it answers with is
chosen by name from all versions in the graph, so it may not be the one the member is linked with.
-/

namespace ModuleIndex.Dependency

open Crate (canonicalName)

/-! ## First elements -/

def IsFirst {α : Type} (P : α → Prop) (xs : List α) (x : α) : Prop :=
  P x ∧ ∃ before after, xs = before ++ x :: after ∧ ∀ y ∈ before, ¬ P y

theorem IsFirst.mem {α : Type} {P : α → Prop} {xs : List α} {x : α} (h : IsFirst P xs x) :
    x ∈ xs := by
  obtain ⟨-, before, after, rfl, -⟩ := h
  simp

theorem find?_eq_some_iff_isFirst {α : Type} {P : α → Bool} {xs : List α} {x : α} :
    xs.find? P = some x ↔ IsFirst (P · = true) xs x := by
  rw [List.find?_eq_some_iff_append]
  simp [IsFirst]

theorem findSome?_flatMap {α β γ : Type} (f : α → List β) (g : β → Option γ) (xs : List α) :
    (xs.flatMap f).findSome? g = xs.findSome? fun x => (f x).findSome? g := by
  induction xs with
  | nil => rfl
  | cons x xs ih =>
    rw [List.flatMap_cons, List.findSome?_append, ih, List.findSome?_cons]
    cases (f x).findSome? g <;> rfl

/-! ## Matches -/

/-- The dependency has the name: as that of its crate, or as the one it is renamed to. -/
def Declaration.IsCalled (d : Declaration) (name : String) : Prop :=
  canonicalName d.name = name ∨ d.rename.map canonicalName = some name

theorem Declaration.match?_eq_some_iff {d : Declaration} {name : String}
    {nickname : Option String} :
    d.match? name = some nickname ↔
      match nickname with
      | none => canonicalName d.name = name
      | some a => a = name ∧ canonicalName d.name ≠ name ∧
          d.rename.map canonicalName = some name := by
  unfold match?
  by_cases hname : canonicalName d.name = name
  · rw [if_pos hname]
    cases nickname <;> simp [hname]
  · rw [if_neg hname]
    by_cases hrename : d.rename.map canonicalName = some name
    · rw [if_pos hrename]
      cases nickname <;> simp [hname, hrename, eq_comm]
    · rw [if_neg hrename]
      cases nickname <;> simp [hname, hrename]

theorem Declaration.match?_eq_none_iff {d : Declaration} {name : String} :
    d.match? name = none ↔ ¬ d.IsCalled name := by
  unfold match? IsCalled
  by_cases hname : canonicalName d.name = name
  · rw [if_pos hname]
    simp [hname]
  · rw [if_neg hname]
    simp [hname]

/-- The package is a version of the crate, and has a node in the graph. -/
def Package.IsLocked (p : Package) (nodes : List Node) (crate : String) : Prop :=
  canonicalName p.name = crate ∧ ∃ n ∈ nodes, n.id = p.id

namespace Workspace

structure Declares (w : Workspace) (m : Package) (d : Declaration) : Prop where
  package : m ∈ w.packages
  member : m.id ∈ w.members
  declared : d ∈ m.dependencies

/-- All dependencies that members declare, in the order of the packages. -/
def declarations (w : Workspace) : List Declaration :=
  w.memberPackages.flatMap (·.dependencies)

/-- A dependency that has the name and of whose crate a version is locked. -/
def CanAnswer (w : Workspace) (nodes : List Node) (name : String) (d : Declaration) : Prop :=
  d.IsCalled name ∧ ∃ p ∈ w.packages, p.IsLocked nodes (canonicalName d.name)

/-- The first dependency that can answer for the name, and the first locked version of its
crate. -/
structure Chosen (w : Workspace) (nodes : List Node) (name : String) (d : Declaration)
    (p : Package) : Prop where
  dependency : IsFirst (w.CanAnswer nodes name) w.declarations d
  package : IsFirst (·.IsLocked nodes (canonicalName d.name)) w.packages p

variable {w : Workspace} {nodes : List Node} {name : String} {d : Declaration} {r : Resolved}

theorem mem_declarations_iff : d ∈ w.declarations ↔ ∃ m, w.Declares m d := by
  simp only [declarations, memberPackages, List.mem_flatMap, List.mem_filter, decide_eq_true_eq]
  constructor
  · rintro ⟨m, ⟨hm, hmember⟩, hd⟩
    exact ⟨m, hm, hmember, hd⟩
  · rintro ⟨m, hm, hmember, hd⟩
    exact ⟨m, ⟨hm, hmember⟩, hd⟩

/-! ## Declared answers -/

theorem locked?_eq_some_iff {crate : String} {p : Package} :
    w.locked? nodes crate = some p ↔ IsFirst (·.IsLocked nodes crate) w.packages p := by
  unfold locked?
  rw [find?_eq_some_iff_isFirst]
  simp [IsFirst, Package.IsLocked]

theorem locked?_eq_none_iff {crate : String} :
    w.locked? nodes crate = none ↔ ¬ ∃ p ∈ w.packages, p.IsLocked nodes crate := by
  simp [locked?, Package.IsLocked]

theorem declared?_eq_some_iff :
    w.declared? nodes name d = some r ↔
      ∃ p nickname, IsFirst (·.IsLocked nodes (canonicalName d.name)) w.packages p ∧
        d.match? name = some nickname ∧ r = ⟨p.name, p.version, .ofDeclared d.kind, nickname, none⟩ := by
  unfold declared?
  simp only [← locked?_eq_some_iff]
  cases d.match? name with
  | none => simp
  | some nickname =>
    cases w.locked? nodes (canonicalName d.name) with
    | none => simp
    | some p => simp [eq_comm]

theorem declared?_eq_none_iff : w.declared? nodes name d = none ↔ ¬ w.CanAnswer nodes name d := by
  unfold declared? CanAnswer
  rw [not_and_or, ← d.match?_eq_none_iff, ← locked?_eq_none_iff]
  cases d.match? name with
  | none => simp
  | some nickname => cases w.locked? nodes (canonicalName d.name) <;> simp

theorem direct?_of_graph (hgraph : w.graph = some nodes) :
    w.direct? name = w.declarations.findSome? (w.declared? nodes name) := by
  rw [direct?, hgraph, declarations, findSome?_flatMap]
  rfl

theorem direct?_of_no_graph (hgraph : w.graph = none) : w.direct? name = none := by
  rw [direct?, hgraph]
  rfl

/-- Members answer with the first locked version of the crate that their first dependency with
the name asks for. -/
theorem direct?_eq_some_iff :
    w.direct? name = some r ↔
      ∃ nodes d p nickname, w.graph = some nodes ∧ w.Chosen nodes name d p ∧
        d.match? name = some nickname ∧ r = ⟨p.name, p.version, .ofDeclared d.kind, nickname, none⟩ := by
  cases hgraph : w.graph with
  | none => simp [direct?_of_no_graph hgraph]
  | some nodes =>
    rw [direct?_of_graph hgraph, List.findSome?_eq_some_iff]
    constructor
    · rintro ⟨before, d, after, hsplit, hd, hbefore⟩
      obtain ⟨p, nickname, hp, hmatch, hr⟩ := declared?_eq_some_iff.mp hd
      have hanswer : w.CanAnswer nodes name d := by
        by_contra hnot
        rw [declared?_eq_none_iff.mpr hnot] at hd
        simp at hd
      refine ⟨nodes, d, p, nickname, rfl, ⟨⟨hanswer, before, after, hsplit, ?_⟩, hp⟩, hmatch, hr⟩
      intro e he
      exact declared?_eq_none_iff.mp (hbefore e he)
    · rintro ⟨nodes', d, p, nickname, hnodes, ⟨⟨-, before, after, hsplit, hbefore⟩, hp⟩, hmatch, hr⟩
      rw [Option.some.injEq] at hnodes
      subst hnodes
      refine ⟨before, d, after, hsplit, declared?_eq_some_iff.mpr ⟨p, nickname, hp, hmatch, hr⟩, ?_⟩
      intro e he
      exact declared?_eq_none_iff.mpr (hbefore e he)

theorem direct?_eq_none_iff :
    w.direct? name = none ↔
      ¬ ∃ nodes m d p, w.graph = some nodes ∧ w.Declares m d ∧ d.IsCalled name ∧
        p ∈ w.packages ∧ p.IsLocked nodes (canonicalName d.name) := by
  cases hgraph : w.graph with
  | none => simp [direct?_of_no_graph hgraph]
  | some nodes =>
    rw [direct?_of_graph hgraph, List.findSome?_eq_none_iff]
    simp only [declared?_eq_none_iff, mem_declarations_iff, CanAnswer]
    constructor
    · rintro h ⟨nodes', m, d, p, hnodes, hdeclares, hcalled, hp, hlocked⟩
      rw [Option.some.injEq] at hnodes
      subst hnodes
      exact h d ⟨m, hdeclares⟩ ⟨hcalled, p, hp, hlocked⟩
    · rintro h d ⟨m, hdeclares⟩ ⟨hcalled, p, hp, hlocked⟩
      exact h ⟨nodes, m, d, p, rfl, hdeclares, hcalled, hp, hlocked⟩

/-! ## Precedence -/

theorem chain_of_transitive? (h : w.transitive? name = some r) : r.chain ≠ none := by
  obtain ⟨nodes, -, m, -, -, -, hm, -⟩ := transitive?_eq_some h
  obtain ⟨q, ps, -, rfl, -⟩ := reached?_eq_some hm
  simp

theorem resolve?_of_direct (h : w.direct? (canonicalName name) = some r) :
    w.resolve? name = some r := by
  show (w.direct? _ <|> w.transitive? _) = _
  rw [h]
  rfl

theorem resolve?_of_no_direct (h : w.direct? (canonicalName name) = none) :
    w.resolve? name = w.transitive? (canonicalName name) := by
  show (w.direct? _ <|> w.transitive? _) = _
  rw [h]
  rfl

/-- The answers without a chain are those of the declared dependencies. -/
theorem resolve?_without_chain_iff :
    w.resolve? name = some r ∧ r.chain = none ↔ w.direct? (canonicalName name) = some r := by
  cases hdirect : w.direct? (canonicalName name) with
  | none =>
    rw [resolve?_of_no_direct hdirect]
    constructor
    · rintro ⟨hr, hchain⟩
      exact absurd hchain (chain_of_transitive? hr)
    · rintro ⟨⟩
  | some r' =>
    obtain ⟨nodes, d, p, nickname, -, -, -, hr'⟩ := direct?_eq_some_iff.mp hdirect
    rw [resolve?_of_direct hdirect]
    constructor
    · rintro ⟨hr, -⟩
      exact hr
    · intro hr
      rw [Option.some.injEq] at hr
      exact ⟨congrArg some hr, by rw [← hr, hr']⟩

/-! ## Soundness -/

/-- A package that an answer is right for. It is a node of the graph or a link of one, and has
the name that was asked for, or a member has renamed it to that. -/
structure IsAnswer (w : Workspace) (nodes : List Node) (name : String) (p : Package)
    (r : Resolved) : Prop where
  package : p ∈ w.packages
  sameName : p.name = r.name
  sameVersion : p.version = r.version
  inGraph : ∃ n ∈ nodes, n.id = p.id ∨ p.id ∈ n.links
  called : match r.nickname with
    | none => canonicalName p.name = name
    | some a => a = name ∧ canonicalName p.name ≠ name ∧
        ∃ m d, w.Declares m d ∧ canonicalName d.name = canonicalName p.name ∧
          d.rename.map canonicalName = some name

theorem exists_isAnswer_of_direct? (h : w.direct? name = some r) :
    ∃ nodes p, w.graph = some nodes ∧ w.IsAnswer nodes name p r := by
  obtain ⟨nodes, d, p, nickname, hgraph, ⟨hd, hp⟩, hmatch, rfl⟩ := direct?_eq_some_iff.mp h
  obtain ⟨hcrate, n, hn, hid⟩ := hp.1
  refine ⟨nodes, p, hgraph, hp.mem, rfl, rfl, ⟨n, hn, .inl hid⟩, ?_⟩
  have hmatch := d.match?_eq_some_iff.mp hmatch
  cases nickname with
  | none => exact hcrate.trans hmatch
  | some a =>
    obtain ⟨ha, hname, hrename⟩ := hmatch
    obtain ⟨m, hm⟩ := mem_declarations_iff.mp hd.mem
    exact ⟨ha, hcrate ▸ hname, m, d, hm, hcrate.symm, hrename⟩

theorem exists_isAnswer_of_transitive? (h : w.transitive? name = some r) :
    ∃ nodes p, w.graph = some nodes ∧ w.IsAnswer nodes name p r := by
  obtain ⟨nodes, -, member, -, hgraph, -, hmember, -⟩ := transitive?_eq_some h
  obtain ⟨q, ps, ⟨p, hp, hroute, hq, hname⟩, rfl, -⟩ := reached?_eq_some hmember
  have hne : q ≠ p := by
    rintro rfl
    exact hq hp.1
  obtain ⟨x, ⟨n, hn, hid⟩, hknown⟩ := hroute.exists_linked hne
  exact ⟨nodes, q, hgraph, hknown.mem, rfl, rfl, ⟨n, hn.mem, .inr hid⟩, hname⟩

/-- Members answer without a chain if they declare a dependency with the name and a version of
its crate is locked, and only then; else the answer is that of the search for linked packages.
Whatever is answered is right for some package. -/
theorem resolve?_precedence (w : Workspace) (name : String) :
    ((∃ r, w.resolve? name = some r ∧ r.chain = none) ↔
      ∃ nodes m d p, w.graph = some nodes ∧ w.Declares m d ∧ d.IsCalled (canonicalName name) ∧
        p ∈ w.packages ∧ p.IsLocked nodes (canonicalName d.name)) ∧
    ((¬ ∃ r, w.resolve? name = some r ∧ r.chain = none) →
      w.resolve? name = w.transitive? (canonicalName name) ∧
      ∀ r, w.transitive? (canonicalName name) = some r → r.chain ≠ none) ∧
    ∀ r, w.resolve? name = some r →
      ∃ nodes p, w.graph = some nodes ∧ w.IsAnswer nodes (canonicalName name) p r := by
  have hdirect : (∃ r, w.resolve? name = some r ∧ r.chain = none) ↔
      w.direct? (canonicalName name) ≠ none := by
    simp only [resolve?_without_chain_iff, Option.ne_none_iff_exists']
  refine ⟨?_, ?_, ?_⟩
  · rw [hdirect, Ne, direct?_eq_none_iff, not_not]
  · intro hnone
    rw [hdirect, not_not] at hnone
    exact ⟨resolve?_of_no_direct hnone, fun r => chain_of_transitive?⟩
  · intro r hr
    cases h : w.direct? (canonicalName name) with
    | none =>
      rw [resolve?_of_no_direct h] at hr
      exact exists_isAnswer_of_transitive? hr
    | some r' =>
      rw [resolve?_of_direct h, Option.some.injEq] at hr
      exact exists_isAnswer_of_direct? (hr ▸ h)

/-! ## Versions that members are linked with -/

/-- Each member is linked with exactly one package of the crate of each dependency it declares. -/
def DeclarationsLinked (w : Workspace) (nodes : List Node) : Prop :=
  ∀ m d, w.Declares m d →
    ∃! q, w.Linked nodes m q ∧ canonicalName q.name = canonicalName d.name

/-- A member that declares a dependency with the name is linked with the version of the crate. -/
def LinkedVersion (w : Workspace) (name crate version : String) : Prop :=
  ∃ nodes m d q, w.graph = some nodes ∧ w.Declares m d ∧ d.IsCalled name ∧
    w.Linked nodes m q ∧ q.name = crate ∧ q.version = version

/-- Where links lead to nodes and one version of each crate is locked, members are linked with
the versions that they answer with. -/
theorem linkedVersion_of_single (hgraph : w.graph = some nodes)
    (hlinked : w.DeclarationsLinked nodes)
    (hnodes : ∀ n ∈ nodes, ∀ link ∈ n.links, ∃ n' ∈ nodes, n'.id = link)
    (hsingle : ∀ crate, ∀ p ∈ w.packages, ∀ q ∈ w.packages, p.IsLocked nodes crate →
      q.IsLocked nodes crate → p.name = q.name ∧ p.version = q.version)
    (hr : w.resolve? name = some r) (hchain : r.chain = none) :
    w.LinkedVersion (canonicalName name) r.name r.version := by
  have hdirect := resolve?_without_chain_iff.mp ⟨hr, hchain⟩
  obtain ⟨nodes', d, p, nickname, hgraph', ⟨hd, hp⟩, -, rfl⟩ := direct?_eq_some_iff.mp hdirect
  obtain rfl : nodes = nodes' := Option.some.inj (hgraph.symm.trans hgraph')
  obtain ⟨m, hm⟩ := mem_declarations_iff.mp hd.mem
  obtain ⟨q, ⟨hlink, hcrate⟩, -⟩ := hlinked m d hm
  obtain ⟨⟨n, hn, hlinks⟩, hknown⟩ := hlink
  have hq : q.IsLocked nodes (canonicalName d.name) := ⟨hcrate, hnodes n hn.mem q.id hlinks⟩
  obtain ⟨hname, hversion⟩ := hsingle _ q hknown.mem p hp.mem hq hp.1
  exact ⟨nodes, m, d, q, hgraph, hm, hd.1.1, ⟨⟨n, hn, hlinks⟩, hknown⟩, hname, hversion⟩

/-- Answers without a chain are versions that members are linked with exactly if the first locked
version of the crate is one, for the first dependency that can answer. -/
theorem resolve?_linked_iff (w : Workspace) (name : String) :
    (∀ r, w.resolve? name = some r → r.chain = none →
      w.LinkedVersion (canonicalName name) r.name r.version) ↔
    ∀ nodes d p, w.graph = some nodes → w.Chosen nodes (canonicalName name) d p →
      w.LinkedVersion (canonicalName name) p.name p.version := by
  constructor
  · intro h nodes d p hgraph hchosen
    have hcalled := hchosen.dependency.1.1
    cases hmatch : d.match? (canonicalName name) with
    | none => exact absurd hcalled (d.match?_eq_none_iff.mp hmatch)
    | some nickname =>
      have hdirect := direct?_eq_some_iff.mpr ⟨nodes, d, p, nickname, hgraph, hchosen, hmatch, rfl⟩
      obtain ⟨hr, hchain⟩ := resolve?_without_chain_iff.mpr hdirect
      exact h _ hr hchain
  · intro h r hr hchain
    have hdirect := resolve?_without_chain_iff.mp ⟨hr, hchain⟩
    obtain ⟨nodes, d, p, nickname, hgraph, hchosen, -, rfl⟩ := direct?_eq_some_iff.mp hdirect
    exact h nodes d p hgraph hchosen

/-! ### A member and another package that are linked with two versions of one crate -/

namespace TwoVersions

def log : Package := ⟨"log 0.4", "log", "0.4.22", []⟩

def old : Package := ⟨"old", "old", "1.0.0", [⟨"log", .normal, none⟩]⟩

def links : List Node :=
  [⟨"app", ["log 0.4", "old"]⟩, ⟨"old", ["log 0.3"]⟩, ⟨"log 0.3", []⟩, ⟨"log 0.4", []⟩]

def workspace : Workspace where
  members := ["app"]
  packages :=
    [⟨"app", "app", "0.1.0", [⟨"log", .normal, none⟩, ⟨"old", .normal, none⟩]⟩,
      ⟨"log 0.3", "log", "0.3.9", []⟩, log, old]
  graph := some links

theorem declares {m : Package} (h : workspace.Declares m d) :
    m.id = "app" ∧ (d = ⟨"log", .normal, none⟩ ∨ d = ⟨"old", .normal, none⟩) := by
  have hall : workspace.declarations = [⟨"log", .normal, none⟩, ⟨"old", .normal, none⟩] := rfl
  have hd : d ∈ workspace.declarations := mem_declarations_iff.mpr ⟨m, h⟩
  rw [hall] at hd
  exact ⟨List.mem_singleton.mp h.member, List.mem_pair.mp hd⟩

theorem linked_iff {m q : Package} (hid : m.id = "app") :
    workspace.Linked links m q ↔ q = log ∨ q = old := by
  rw [linked_iff_package?, hid]
  constructor
  · rintro ⟨hlink, hknown⟩
    rcases List.mem_pair.mp hlink with hlink | hlink
    · rw [hlink] at hknown
      exact .inl (Option.some.inj hknown).symm
    · rw [hlink] at hknown
      exact .inr (Option.some.inj hknown).symm
  · rintro (rfl | rfl)
    · exact ⟨by decide, rfl⟩
    · exact ⟨by decide, rfl⟩

theorem declarationsLinked : workspace.DeclarationsLinked links := by
  intro m d h
  obtain ⟨hid, hd⟩ := declares h
  simp only [linked_iff hid]
  rcases hd with rfl | rfl
  · refine ⟨log, ⟨.inl rfl, rfl⟩, ?_⟩
    rintro q ⟨rfl | rfl, hq⟩
    · rfl
    · exact absurd hq (by decide)
  · refine ⟨old, ⟨.inr rfl, rfl⟩, ?_⟩
    rintro q ⟨rfl | rfl, hq⟩
    · exact absurd hq (by decide)
    · rfl

/-- The member is linked with one version of each of its dependencies, but the answer for one of
them is the version that only another package is linked with. -/
theorem resolve?_not_linked :
    workspace.graph = some links ∧ workspace.DeclarationsLinked links ∧
      workspace.resolve? "log" = some ⟨"log", "0.3.9", .normal, none, none⟩ ∧
      ¬ workspace.LinkedVersion (canonicalName "log") "log" "0.3.9" := by
  refine ⟨rfl, declarationsLinked, rfl, ?_⟩
  rintro ⟨nodes', m, d, q, hnodes, h, -, hlink, hname, hversion⟩
  obtain rfl : links = nodes' := Option.some.inj hnodes
  rcases (linked_iff (declares h).1).mp hlink with rfl | rfl
  · exact absurd hversion (by decide)
  · exact absurd hname (by decide)

end TwoVersions

end Workspace

end ModuleIndex.Dependency

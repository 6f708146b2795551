import ModuleIndex.Proofs.Dependency.Answers
import Mathlib.Data.List.Forall2
import Mathlib.Data.List.Nodup
import Mathlib.Data.List.Perm.Basic
import Mathlib.Data.Option.Basic

/-!
# Answers and the order of a workspace

Where identifiers are unique and only one package can be meant, the order in which a workspace
lists its members, packages, dependencies, nodes and links does not decide what is answered. The
searches follow that order, but what there is to find does not depend on it.
-/

namespace ModuleIndex.Dependency

open Crate (canonicalName)

/-! ## Lists in another order -/

/-- The elements of two lists correspond to each other, in whatever order they stand. -/
def Shuffled {α : Type} (same : α → α → Prop) (xs ys : List α) : Prop :=
  ∃ zs, xs.Perm zs ∧ List.Forall₂ same zs ys

namespace Shuffled

variable {α β : Type} {same : α → α → Prop} {xs ys : List α} {x : α}

theorem symm (h : Shuffled same xs ys) (hsame : ∀ x y, same x y → same y x) :
    Shuffled same ys xs := by
  obtain ⟨zs, hperm, hzs⟩ := h
  obtain ⟨us, hus, hperm'⟩ := List.perm_comp_forall₂ hperm hzs
  exact ⟨us, hperm'.symm, List.Forall₂.flip (hus.imp hsame)⟩

theorem exists_of_mem (h : Shuffled same xs ys) (hx : x ∈ xs) : ∃ y ∈ ys, same x y := by
  obtain ⟨zs, hperm, hzs⟩ := h
  have hx : x ∈ zs := hperm.subset hx
  clear hperm
  induction hzs with
  | nil => simp at hx
  | @cons z y zs ys hzy _ ih =>
    rcases List.mem_cons.mp hx with rfl | hx
    · exact ⟨y, List.mem_cons_self, hzy⟩
    · obtain ⟨y', hy', hsame⟩ := ih hx
      exact ⟨y', List.mem_cons_of_mem y hy', hsame⟩

theorem map_perm (h : Shuffled same xs ys) {f : α → β} (hf : ∀ x y, same x y → f x = f y) :
    (xs.map f).Perm (ys.map f) := by
  obtain ⟨zs, hperm, hzs⟩ := h
  have heq : zs.map f = ys.map f := by
    rw [← List.forall₂_eq_eq_eq, List.forall₂_map_left_iff, List.forall₂_map_right_iff]
    exact hzs.imp hf
  exact heq ▸ hperm.map f

end Shuffled

/-! ## Workspaces in another order -/

/-- The same package, with its dependencies in another order. -/
structure Package.Same (p p' : Package) : Prop where
  id : p.id = p'.id
  name : p.name = p'.name
  version : p.version = p'.version
  dependencies : p.dependencies.Perm p'.dependencies

/-- The same node, with its links in another order. -/
structure Node.Same (n n' : Node) : Prop where
  id : n.id = n'.id
  links : n.links.Perm n'.links

theorem Package.Same.symm {p p' : Package} (h : p.Same p') : p'.Same p :=
  ⟨h.id.symm, h.name.symm, h.version.symm, h.dependencies.symm⟩

theorem Node.Same.symm {n n' : Node} (h : n.Same n') : n'.Same n :=
  ⟨h.id.symm, h.links.symm⟩

/-- What an answer says of the crate: which version of which package, and whether a member
declares it. -/
def Resolved.gist (r : Resolved) : String × String × Bool :=
  (r.name, r.version, r.chain.isNone)

namespace Workspace

/-- The same workspace, with all its lists in another order. -/
structure Reordered (w w' : Workspace) : Prop where
  members : w.members.Perm w'.members
  packages : Shuffled Package.Same w.packages w'.packages
  graph : Option.Rel (Shuffled Node.Same) w.graph w'.graph

structure HasUniqueIds (w : Workspace) : Prop where
  packages : (w.packages.map (·.id)).Nodup
  nodes : ∀ nodes, w.graph = some nodes → (nodes.map (·.id)).Nodup

/-- At most one package has the name, and no dependency is renamed to it. -/
structure IsUnambiguous (w : Workspace) (name : String) : Prop where
  single : ∀ p ∈ w.packages, ∀ q ∈ w.packages,
    canonicalName p.name = name → canonicalName q.name = name → p = q
  notRenamed : ∀ p ∈ w.packages, ∀ d ∈ p.dependencies, d.rename.map canonicalName ≠ some name

variable {w w' : Workspace} {nodes nodes' : List Node} {name member : String} {r r' : Resolved}
  {p p' q : Package} {ps : List Package}

theorem Reordered.symm (h : w.Reordered w') : w'.Reordered w := by
  refine ⟨h.members.symm, h.packages.symm fun _ _ => Package.Same.symm, ?_⟩
  have hgraph := h.graph
  generalize w.graph = graph at hgraph ⊢
  generalize w'.graph = graph' at hgraph ⊢
  cases hgraph with
  | none => exact .none
  | some hnodes => exact .some (hnodes.symm fun _ _ => Node.Same.symm)

theorem Reordered.exists_graph (h : w.Reordered w') (hgraph : w.graph = some nodes) :
    ∃ nodes', w'.graph = some nodes' ∧ Shuffled Node.Same nodes nodes' := by
  have hrel := h.graph
  rw [hgraph] at hrel
  cases hrel' : w'.graph with
  | none => simp [hrel'] at hrel
  | some nodes' =>
    rw [hrel', Option.rel_some_some] at hrel
    exact ⟨nodes', rfl, hrel⟩

theorem HasUniqueIds.reordered (hids : w.HasUniqueIds) (h : w.Reordered w') : w'.HasUniqueIds := by
  refine ⟨?_, ?_⟩
  · exact (h.packages.map_perm fun _ _ => Package.Same.id).nodup_iff.mp hids.packages
  · intro nodes' hgraph'
    obtain ⟨nodes, hgraph, hnodes⟩ := h.symm.exists_graph hgraph'
    exact (hnodes.map_perm fun _ _ => Node.Same.id).nodup_iff.mpr (hids.nodes nodes hgraph)

/-! ## Looking up -/

/-- With unique keys there is only one element to find under a key. -/
theorem findLast?_eq_some_iff_of_nodup {α : Type} {key : α → String} {xs : List α}
    (hkeys : (xs.map key).Nodup) {k : String} {x : α} :
    findLast? (key · = k) xs = some x ↔ x ∈ xs ∧ key x = k := by
  constructor
  · intro h
    exact ⟨by simpa using List.mem_of_find?_eq_some h, by simpa using List.find?_some h⟩
  · rintro ⟨hx, rfl⟩
    cases h : findLast? (key · = key x) xs with
    | none =>
      have hnone := List.find?_eq_none.mp h x (by simpa using hx)
      simp at hnone
    | some y =>
      have hy : y ∈ xs := by simpa using List.mem_of_find?_eq_some h
      have hkey : key y = key x := by simpa using List.find?_some h
      rw [List.inj_on_of_nodup_map hkeys hy hx hkey]

theorem package?_eq_some_iff (hids : w.HasUniqueIds) {id : String} :
    w.package? id = some p ↔ p ∈ w.packages ∧ p.id = id :=
  findLast?_eq_some_iff_of_nodup hids.packages

theorem linksOf_of_mem (hids : (nodes.map (·.id)).Nodup) {n : Node} (hn : n ∈ nodes) :
    linksOf nodes n.id = n.links := by
  rw [linksOf, (findLast?_eq_some_iff_of_nodup hids).mpr ⟨hn, rfl⟩]

theorem mem_linksOf_reordered (hnodes : Shuffled Node.Same nodes nodes')
    (hids' : (nodes'.map (·.id)).Nodup) {id link : String} (h : link ∈ linksOf nodes id) :
    link ∈ linksOf nodes' id := by
  unfold linksOf at h
  cases hnode : findLast? (·.id = id) nodes with
  | none => simp [hnode] at h
  | some n =>
    rw [hnode] at h
    have hn : n ∈ nodes := by simpa using List.mem_of_find?_eq_some hnode
    have hid : n.id = id := by simpa using List.find?_some hnode
    obtain ⟨n', hn', hsame⟩ := hnodes.exists_of_mem hn
    rw [← hid, hsame.id, linksOf_of_mem hids' hn']
    exact hsame.links.subset h

/-! ## What there is to find -/

section Reordered

variable (h : w.Reordered w') (hids' : w'.HasUniqueIds) (hgraph' : w'.graph = some nodes')
  (hnodes : Shuffled Node.Same nodes nodes')

include h hids' hgraph' hnodes

theorem Linked.exists_reordered (hlink : w.Linked nodes p q) (hid : p.id = p'.id) :
    ∃ q', w'.Linked nodes' p' q' ∧ q.Same q' := by
  obtain ⟨hlink, hknown⟩ := linked_iff_package?.mp hlink
  obtain ⟨q', hq', hsame⟩ := h.packages.exists_of_mem (mem_of_package? hknown)
  refine ⟨q', linked_iff_package?.mpr ⟨?_, (package?_eq_some_iff hids').mpr ⟨hq', rfl⟩⟩, hsame⟩
  rw [← hid, ← hsame.id]
  exact mem_linksOf_reordered hnodes (hids'.nodes nodes' hgraph') hlink

/-- A route leads through the same packages, in whatever order they and their links are listed. -/
theorem IsRoute.exists_reordered (hroute : w.IsRoute nodes p q ps) (hp : p.Same p') :
    ∃ q' ps', w'.IsRoute nodes' p' q' ps' ∧ q.Same q' := by
  induction ps using List.reverseRecOn generalizing q with
  | nil => simpa using hroute.first
  | append_singleton ps x ih =>
    obtain rfl : x = q := by simpa using hroute.last
    cases hlast : ps.getLast? with
    | none =>
      obtain rfl := List.getLast?_eq_none_iff.mp hlast
      obtain rfl : x = p := by simpa using hroute.first
      exact ⟨p', [p'], .start w' nodes' p', hp⟩
    | some y =>
      obtain ⟨hchain, -, hlink⟩ := List.isChain_append.mp hroute.linked
      have hfirst : ps.head? = some p := by
        have hne : ps ≠ [] := fun hnil => by simp [hnil] at hlast
        have hfirst := hroute.first
        rwa [List.head?_append_of_ne_nil _ hne] at hfirst
      obtain ⟨y', ps', hroute', hy⟩ := ih ⟨hfirst, hlast, hchain⟩
      obtain ⟨x', hlink', hx⟩ := Linked.exists_reordered h hids' hgraph' hnodes
        (hlink y hlast x rfl) hy.id
      exact ⟨x', ps' ++ [x'], hroute'.extend hlink', hx⟩

theorem LeadsTo.exists_reordered (hleads : w.LeadsTo nodes name member q ps) :
    ∃ q' ps', w'.LeadsTo nodes' name member q' ps' := by
  obtain ⟨p, hp, hroute, hq, hname⟩ := hleads
  obtain ⟨p', hp', hsame⟩ := h.packages.exists_of_mem hp.mem
  obtain ⟨q', ps', hroute', hsameq⟩ := hroute.exists_reordered h hids' hgraph' hnodes hsame
  have hknown : w'.package? member = some p' :=
    (package?_eq_some_iff hids').mpr ⟨hp', hsame.id ▸ hp.1⟩
  refine ⟨q', ps', p', package?_eq_some_iff_isLast.mp hknown, hroute', ?_, ?_⟩
  · rwa [← hsameq.id]
  · rwa [← hsameq.name]

end Reordered

/-- A member leads to a package of the crate. -/
theorem transitive?_ne_none_iff :
    w.transitive? name ≠ none ↔
      ∃ nodes, w.graph = some nodes ∧ ∃ m ∈ w.members, ∃ q ps, w.LeadsTo nodes name m q ps := by
  cases hgraph : w.graph with
  | none => simp [transitive?, hgraph]
  | some nodes =>
    have htransitive : w.transitive? name = w.members.findSome? (w.reached? nodes name) := by
      simp [transitive?, hgraph]
    rw [htransitive, Ne, List.findSome?_eq_none_iff]
    simp [reached?_eq_none_iff]

theorem transitive?_ne_none_reordered (h : w.Reordered w') (hids' : w'.HasUniqueIds)
    (hfound : w.transitive? name ≠ none) : w'.transitive? name ≠ none := by
  obtain ⟨nodes, hgraph, m, hm, q, ps, hleads⟩ := transitive?_ne_none_iff.mp hfound
  obtain ⟨nodes', hgraph', hnodes⟩ := h.exists_graph hgraph
  obtain ⟨q', ps', hleads'⟩ := hleads.exists_reordered h hids' hgraph' hnodes
  exact transitive?_ne_none_iff.mpr
    ⟨nodes', hgraph', m, h.members.subset hm, q', ps', hleads'⟩

theorem direct?_ne_none_reordered (h : w.Reordered w') (hfound : w.direct? name ≠ none) :
    w'.direct? name ≠ none := by
  rw [Ne, direct?_eq_none_iff, not_not] at hfound ⊢
  obtain ⟨nodes, m, d, p, hgraph, hdeclares, hcalled, hp, hcrate, n, hn, hid⟩ := hfound
  obtain ⟨nodes', hgraph', hnodes⟩ := h.exists_graph hgraph
  obtain ⟨m', hm', hsamem⟩ := h.packages.exists_of_mem hdeclares.package
  obtain ⟨p', hp', hsamep⟩ := h.packages.exists_of_mem hp
  obtain ⟨n', hn', hsamen⟩ := hnodes.exists_of_mem hn
  refine ⟨nodes', m', d, p', hgraph', ⟨hm', ?_, ?_⟩, hcalled, hp', ?_, n', hn', ?_⟩
  · rw [← hsamem.id]
    exact h.members.subset hdeclares.member
  · exact hsamem.dependencies.subset hdeclares.declared
  · rw [← hsamep.name, hcrate]
  · rw [← hsamen.id, hid, hsamep.id]

/-! ## What is answered -/

theorem canonicalName_of_isAnswer
    (hrename : ∀ p ∈ w.packages, ∀ d ∈ p.dependencies, d.rename.map canonicalName ≠ some name)
    (hanswer : w.IsAnswer nodes name p r) : canonicalName p.name = name := by
  have hcalled := hanswer.called
  cases hnickname : r.nickname with
  | none => rwa [hnickname] at hcalled
  | some a =>
    rw [hnickname] at hcalled
    obtain ⟨-, -, m, d, hdeclares, -, hd⟩ := hcalled
    exact absurd hd (hrename m hdeclares.package d hdeclares.declared)

theorem exists_isAnswer_of_resolve? (hr : w.resolve? name = some r) :
    ∃ nodes p, w.graph = some nodes ∧ w.IsAnswer nodes (canonicalName name) p r := by
  cases hdirect : w.direct? (canonicalName name) with
  | none =>
    rw [resolve?_of_no_direct hdirect] at hr
    exact exists_isAnswer_of_transitive? hr
  | some r' =>
    rw [resolve?_of_direct hdirect, Option.some.injEq] at hr
    exact exists_isAnswer_of_direct? (hr ▸ hdirect)

/-- Only one package can be meant, so that two answers are about the same one. -/
theorem answers_agree (h : w.Reordered w') (hname : w.IsUnambiguous (canonicalName name))
    (hr : w.resolve? name = some r) (hr' : w'.resolve? name = some r') :
    r.name = r'.name ∧ r.version = r'.version := by
  obtain ⟨nodes, p, -, hanswer⟩ := exists_isAnswer_of_resolve? hr
  obtain ⟨nodes', p', -, hanswer'⟩ := exists_isAnswer_of_resolve? hr'
  have hrename' : ∀ p ∈ w'.packages, ∀ d ∈ p.dependencies,
      d.rename.map canonicalName ≠ some (canonicalName name) := by
    intro m' hm' d hd
    obtain ⟨m, hm, hsame⟩ := h.symm.packages.exists_of_mem hm'
    exact hname.notRenamed m hm d (hsame.dependencies.subset hd)
  obtain ⟨q, hq, hsame⟩ := h.symm.packages.exists_of_mem hanswer'.package
  obtain rfl : p = q := by
    refine hname.single p hanswer.package q hq ?_ ?_
    · exact canonicalName_of_isAnswer hname.notRenamed hanswer
    · rw [← hsame.name]
      exact canonicalName_of_isAnswer hrename' hanswer'
  constructor
  · rw [← hanswer.sameName, ← hanswer'.sameName, hsame.name]
  · rw [← hanswer.sameVersion, ← hanswer'.sameVersion, hsame.version]

/-- Members answer directly if they can, and else by what they lead to. -/
theorem isNone_chain_resolve? (w : Workspace) (name : String) :
    (w.resolve? name).map (·.chain.isNone) =
      if w.direct? (canonicalName name) ≠ none then some true
      else if w.transitive? (canonicalName name) ≠ none then some false
      else none := by
  cases hdirect : w.direct? (canonicalName name) with
  | some r =>
    obtain ⟨hr, hchain⟩ := resolve?_without_chain_iff.mpr hdirect
    simp [hr, hchain]
  | none =>
    rw [resolve?_of_no_direct hdirect]
    cases htransitive : w.transitive? (canonicalName name) with
    | none => simp
    | some r =>
      have hchain := Option.isSome_iff_ne_none.mpr (chain_of_transitive? htransitive)
      simpa using hchain

theorem isNone_chain_reordered (h : w.Reordered w') (hids : w.HasUniqueIds) (name : String) :
    (w.resolve? name).map (·.chain.isNone) = (w'.resolve? name).map (·.chain.isNone) := by
  have hids' := hids.reordered h
  have hdirect : w.direct? (canonicalName name) ≠ none ↔ w'.direct? (canonicalName name) ≠ none :=
    ⟨direct?_ne_none_reordered h, direct?_ne_none_reordered h.symm⟩
  have htransitive :
      w.transitive? (canonicalName name) ≠ none ↔ w'.transitive? (canonicalName name) ≠ none :=
    ⟨transitive?_ne_none_reordered h hids', transitive?_ne_none_reordered h.symm hids⟩
  rw [isNone_chain_resolve?, isNone_chain_resolve?]
  simp only [hdirect, htransitive]

/-- A workspace in another order gives the same answer: whether there is one, for which version of
which package, and whether a member declares it. -/
theorem resolve?_reordered (name : String) (h : w.Reordered w') (hids : w.HasUniqueIds)
    (hname : w.IsUnambiguous (canonicalName name)) :
    (w.resolve? name).map Resolved.gist = (w'.resolve? name).map Resolved.gist := by
  have hchain := isNone_chain_reordered h hids name
  cases hr : w.resolve? name with
  | none =>
    cases hr' : w'.resolve? name with
    | none => rfl
    | some r' => simp [hr, hr'] at hchain
  | some r =>
    cases hr' : w'.resolve? name with
    | none => simp [hr, hr'] at hchain
    | some r' =>
      obtain ⟨hsame, hversion⟩ := answers_agree h hname hr hr'
      have hchain : r.chain.isNone = r'.chain.isNone := by simpa [hr, hr'] using hchain
      simp [Resolved.gist, hsame, hversion, hchain]

/-! ### Two members that need each other, listed in two orders -/

namespace TwoOrders

def log : Package := ⟨"log 0.4", "log", "0.4.22", []⟩

def logger : Package := ⟨"env_logger 0.9", "env_logger", "0.9.0", [⟨"log", .normal, some "facade"⟩]⟩

def cli : Package := ⟨"cli", "cli", "0.2.0", [⟨"app", .build, none⟩]⟩

/-- The first member has the logger, and with it the crate that the logger needs. -/
def workspace : Workspace where
  members := ["app", "cli"]
  packages :=
    [⟨"app", "app", "0.1.0", [⟨"env-logger", .normal, none⟩, ⟨"cli", .development, none⟩]⟩, cli, logger, log]
  graph := some
    [⟨"app", ["env_logger 0.9", "cli"]⟩, ⟨"cli", ["app"]⟩, ⟨"env_logger 0.9", ["log 0.4"]⟩,
      ⟨"log 0.4", []⟩]

def reordered : Workspace where
  members := ["cli", "app"]
  packages :=
    [log, logger, cli, ⟨"app", "app", "0.1.0", [⟨"cli", .development, none⟩, ⟨"env-logger", .normal, none⟩]⟩]
  graph := some
    [⟨"log 0.4", []⟩, ⟨"env_logger 0.9", ["log 0.4"]⟩, ⟨"cli", ["app"]⟩,
      ⟨"app", ["cli", "env_logger 0.9"]⟩]

theorem same (p : Package) : p.Same p := ⟨rfl, rfl, rfl, .refl _⟩

theorem workspace_reordered : workspace.Reordered reordered := by
  refine ⟨by decide, ⟨workspace.packages.reverse, by decide, ?_⟩, .some ?_⟩
  · exact .cons (same _) (.cons (same _) (.cons (same _) (.cons ⟨rfl, rfl, rfl, by decide⟩ .nil)))
  · refine ⟨_, (List.reverse_perm _).symm, ?_⟩
    exact .cons ⟨rfl, .refl _⟩ (.cons ⟨rfl, .refl _⟩ (.cons ⟨rfl, .refl _⟩
      (.cons ⟨rfl, by decide⟩ .nil)))

/-- The same version is found, though along another route. -/
theorem resolve?_reordered_log :
    workspace.Reordered reordered ∧ workspace.HasUniqueIds ∧
      workspace.IsUnambiguous (canonicalName "log") ∧
      workspace.resolve? "log" =
        some ⟨"log", "0.4.22", .normal, none, some ["app", "env_logger", "log"]⟩ ∧
      (reordered.resolve? "log").map Resolved.gist = some ("log", "0.4.22", false) ∧
      (reordered.resolve? "log").bind (·.chain) = some ["cli", "app", "env_logger", "log"] := by
  have hids : workspace.HasUniqueIds := by
    refine ⟨by decide, ?_⟩
    rintro nodes hnodes
    obtain rfl := Option.some.inj hnodes
    decide
  have hname : workspace.IsUnambiguous (canonicalName "log") := ⟨by decide, by decide⟩
  have hlog : workspace.resolve? "log" =
      some ⟨"log", "0.4.22", .normal, none, some ["app", "env_logger", "log"]⟩ := by decide +kernel
  refine ⟨workspace_reordered, hids, hname, hlog, ?_, by decide +kernel⟩
  rw [← resolve?_reordered "log" workspace_reordered hids hname, hlog]
  rfl

end TwoOrders

end Workspace

end ModuleIndex.Dependency

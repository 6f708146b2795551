import ModuleIndex.Dependency.Transitive
import Mathlib.Data.List.Chain
import Mathlib.Tactic.Tauto

/-!
# The search for linked packages

The search from a member finds every package that the links of the graph lead to, by a shortest
route, and finds those with shorter routes first.
-/

namespace ModuleIndex.Dependency

/-! ## Last elements -/

/-- An element with a property that no element behind it has. -/
def IsLast {α : Type} (P : α → Prop) (xs : List α) (x : α) : Prop :=
  P x ∧ ∃ before after, xs = before ++ x :: after ∧ ∀ y ∈ after, ¬ P y

theorem IsLast.mem {α : Type} {P : α → Prop} {xs : List α} {x : α} (h : IsLast P xs x) :
    x ∈ xs := by
  obtain ⟨-, before, after, rfl, -⟩ := h
  simp

theorem exists_isLast {α : Type} {P : α → Prop} {xs : List α} (h : ∃ x ∈ xs, P x) :
    ∃ x, IsLast P xs x := by
  induction xs with
  | nil => simp at h
  | cons x xs ih =>
    by_cases hlater : ∃ y ∈ xs, P y
    · obtain ⟨y, hy, before, after, rfl, hafter⟩ := ih hlater
      exact ⟨y, hy, x :: before, after, rfl, hafter⟩
    · have hx : P x := by simpa [hlater] using h
      exact ⟨x, hx, [], xs, rfl, by simpa using hlater⟩

theorem findLast?_eq_some_iff {α : Type} {P : α → Bool} {xs : List α} {x : α} :
    findLast? P xs = some x ↔ IsLast (P · = true) xs x := by
  rw [findLast?, List.find?_eq_some_iff_append, IsLast]
  refine and_congr_right fun _ => ?_
  constructor
  · rintro ⟨after, before, hxs, hafter⟩
    refine ⟨before.reverse, after.reverse, ?_, by simpa using hafter⟩
    simpa using congrArg List.reverse hxs
  · rintro ⟨before, after, rfl, hafter⟩
    exact ⟨after.reverse, before.reverse, by simp, by simpa using hafter⟩

namespace Workspace

/-! ## Routes -/

/-- One package is linked with another one, which is known under its identifier. The links are
those of the last node with the identifier, and the last package with an identifier is known
under it. -/
def Linked (w : Workspace) (nodes : List Node) (p q : Package) : Prop :=
  (∃ n, IsLast (·.id = p.id) nodes n ∧ q.id ∈ n.links) ∧ IsLast (·.id = q.id) w.packages q

theorem package?_eq_some_iff_isLast {w : Workspace} {id : String} {p : Package} :
    w.package? id = some p ↔ IsLast (·.id = id) w.packages p := by
  simp only [package?, findLast?_eq_some_iff, decide_eq_true_eq]

theorem mem_linksOf_iff {nodes : List Node} {id link : String} :
    link ∈ linksOf nodes id ↔ ∃ n, IsLast (·.id = id) nodes n ∧ link ∈ n.links := by
  have hlast {n : Node} : IsLast (·.id = id) nodes n ↔ findLast? (·.id = id) nodes = some n := by
    simp only [findLast?_eq_some_iff, decide_eq_true_eq]
  simp only [hlast, linksOf]
  cases findLast? (·.id = id) nodes <;> simp

theorem linked_iff_package? {w : Workspace} {nodes : List Node} {p q : Package} :
    w.Linked nodes p q ↔ q.id ∈ linksOf nodes p.id ∧ w.package? q.id = some q := by
  rw [Linked, mem_linksOf_iff, package?_eq_some_iff_isLast]

/-- The packages on the way from one package to another one, each linked with the next. -/
structure IsRoute (w : Workspace) (nodes : List Node) (p q : Package) (ps : List Package) :
    Prop where
  first : ps.head? = some p
  last : ps.getLast? = some q
  linked : ps.IsChain (w.Linked nodes)

theorem IsRoute.start (w : Workspace) (nodes : List Node) (p : Package) :
    w.IsRoute nodes p p [p] :=
  ⟨rfl, rfl, List.isChain_singleton p⟩

theorem IsRoute.extend {w : Workspace} {nodes : List Node} {p q r : Package} {ps : List Package}
    (h : w.IsRoute nodes p q ps) (hlink : w.Linked nodes q r) :
    w.IsRoute nodes p r (ps ++ [r]) := by
  refine ⟨?_, ?_, ?_⟩
  · rw [List.head?_append, h.first]
    rfl
  · rw [List.getLast?_concat]
  · refine h.linked.append (List.isChain_singleton r) ?_
    intro x hx y hy
    rw [h.last, Option.mem_some_iff] at hx
    rw [List.head?_cons, Option.mem_some_iff] at hy
    rwa [← hx, ← hy]

/-- Another package is linked with the end of a route that leads away from its start. -/
theorem IsRoute.exists_linked {w : Workspace} {nodes : List Node} {p q : Package}
    {ps : List Package} (h : w.IsRoute nodes p q ps) (hne : q ≠ p) : ∃ x, w.Linked nodes x q := by
  obtain ⟨front, rfl⟩ := List.getLast?_eq_some_iff.mp h.last
  cases hfront : front.getLast? with
  | none =>
    have hfirst := h.first
    rw [List.getLast?_eq_none_iff.mp hfront, List.nil_append, List.head?_cons,
      Option.some.injEq] at hfirst
    exact absurd hfirst hne
  | some x =>
    have hlink := (List.isChain_append.mp h.linked).2.2
    exact ⟨x, hlink x hfront q rfl⟩

/-- A member has a route to a package of the crate, other than the member itself. -/
def LeadsTo (w : Workspace) (nodes : List Node) (name member : String) (q : Package)
    (ps : List Package) : Prop :=
  ∃ p, IsLast (·.id = member) w.packages p ∧ w.IsRoute nodes p q ps ∧ q.id ≠ member ∧
    Crate.canonicalName q.name = name

end Workspace

/-! ## Trails -/

namespace Trail

def length (t : Trail) : Nat := t.names.length

@[simp] theorem length_start (p : Package) : (start p).length = 1 := rfl

@[simp] theorem length_extend (t : Trail) (p : Package) : (t.extend p).length = t.length + 1 := by
  simp [length, extend]

@[simp] theorem last_extend (t : Trail) (p : Package) : (t.extend p).last = p := rfl

/-- The trail has gone some route from the package. -/
def Traces (t : Trail) (w : Workspace) (nodes : List Node) (p : Package) : Prop :=
  ∃ ps, w.IsRoute nodes p t.last ps ∧ t.names = ps.map (·.name)

theorem traces_start (w : Workspace) (nodes : List Node) (p : Package) :
    (start p).Traces w nodes p :=
  ⟨[p], Workspace.IsRoute.start w nodes p, rfl⟩

theorem Traces.extend {t : Trail} {w : Workspace} {nodes : List Node} {p q : Package}
    (h : t.Traces w nodes p) (hlink : w.Linked nodes t.last q) :
    (t.extend q).Traces w nodes p := by
  obtain ⟨ps, hroute, hnames⟩ := h
  exact ⟨ps ++ [q], hroute.extend hlink, by simp [Trail.extend, hnames]⟩

end Trail

namespace Workspace

/-! ## Following links -/

variable {w : Workspace} {nodes : List Node} {t : Trail} {links seen : List String}

/-- Links are followed to the known packages that have not been seen. -/
theorem mem_follow_iff {f : Trail} :
    f ∈ (w.follow t links seen).1 ↔
      ∃ q, f = t.extend q ∧ q.id ∈ links ∧ q.id ∉ seen ∧ w.package? q.id = some q := by
  fun_induction w.follow t links seen with
  | case1 => simp
  | case2 id links seen hseen ih =>
    rw [ih]
    constructor
    · rintro ⟨q, rfl, hlink, hq⟩
      exact ⟨q, rfl, List.mem_cons_of_mem id hlink, hq⟩
    · rintro ⟨q, rfl, hlink, hnew, hq⟩
      rcases List.mem_cons.mp hlink with heq | hlink
      · exact absurd (heq ▸ hseen) hnew
      · exact ⟨q, rfl, hlink, hnew, hq⟩
  | case3 id links seen hseen hnone ih =>
    rw [ih]
    constructor
    · rintro ⟨q, rfl, hlink, hq⟩
      exact ⟨q, rfl, List.mem_cons_of_mem id hlink, hq⟩
    · rintro ⟨q, rfl, hlink, hnew, hq⟩
      rcases List.mem_cons.mp hlink with heq | hlink
      · rw [heq, hnone] at hq
        simp at hq
      · exact ⟨q, rfl, hlink, hnew, hq⟩
  | case4 id links seen hseen p hp trails seen' heq ih =>
    rw [heq] at ih
    have hid := id_of_package? hp
    constructor
    · intro hf
      rcases List.mem_cons.mp hf with rfl | hf
      · exact ⟨p, rfl, hid ▸ List.mem_cons_self, hid ▸ hseen, hid ▸ hp⟩
      · obtain ⟨q, rfl, hlink, hnew, hq⟩ := ih.mp hf
        exact ⟨q, rfl, List.mem_cons_of_mem id hlink, fun h => hnew (List.mem_cons_of_mem id h), hq⟩
    · rintro ⟨q, rfl, hlink, hnew, hq⟩
      by_cases heq : q.id = id
      · rw [heq, hp, Option.some.injEq] at hq
        exact hq ▸ List.mem_cons_self
      · have hlink := (List.mem_cons.mp hlink).resolve_left heq
        have hnew : q.id ∉ id :: seen := by simp [heq, hnew]
        exact List.mem_cons_of_mem _ (ih.mpr ⟨q, rfl, hlink, hnew, hq⟩)

/-- What has been seen afterwards: what had been seen, and where the new trails end. -/
theorem mem_seen_follow_iff {id : String} :
    id ∈ (w.follow t links seen).2 ↔
      id ∈ seen ∨ ∃ f ∈ (w.follow t links seen).1, f.last.id = id := by
  fun_induction w.follow t links seen with
  | case1 => simp
  | case2 _ _ _ _ ih => exact ih
  | case3 _ _ _ _ _ ih => exact ih
  | case4 link links seen hseen p hp trails seen' heq ih =>
    rw [heq] at ih
    rw [ih]
    simp only [List.mem_cons, exists_eq_or_imp, Trail.last_extend, id_of_package? hp]
    tauto

theorem length_of_mem_follow {f : Trail} (h : f ∈ (w.follow t links seen).1) :
    f.length = t.length + 1 := by
  obtain ⟨q, rfl, -⟩ := mem_follow_iff.mp h
  exact Trail.length_extend t q

theorem package?_last_of_mem_follow {f : Trail} (h : f ∈ (w.follow t links seen).1) :
    w.package? f.last.id = some f.last := by
  obtain ⟨q, rfl, -, -, hq⟩ := mem_follow_iff.mp h
  exact hq

theorem notMem_seen_follow {id : String} (hid : id ∉ seen)
    (hlast : ∀ f ∈ (w.follow t links seen).1, f.last.id ≠ id) :
    id ∉ (w.follow t links seen).2 := by
  intro hmem
  rcases mem_seen_follow_iff.mp hmem with hseen | ⟨f, hf, heq⟩
  · exact hid hseen
  · exact hlast f hf heq

/-! ## Exploring -/

variable {queue : List Trail}

/-- Every trail that is found has gone a route, to a package other than the first one. -/
theorem traces_of_mem_explore {p : Package} (hqueue : ∀ t ∈ queue, t.Traces w nodes p)
    (hseen : p.id ∈ seen) :
    ∀ u ∈ w.explore nodes queue seen, u.Traces w nodes p ∧ u.last.id ≠ p.id := by
  fun_induction w.explore nodes queue seen with
  | case1 => simp
  | case2 t queue seen found ih =>
    rw [List.forall_mem_cons] at hqueue
    have hfound : ∀ f ∈ found.1, f.Traces w nodes p ∧ f.last.id ≠ p.id := by
      intro f hf
      obtain ⟨q, rfl, hlink, hnew, hq⟩ := mem_follow_iff.mp hf
      have hlink := linked_iff_package?.mpr ⟨hlink, hq⟩
      exact ⟨hqueue.1.extend hlink, fun heq => hnew (heq ▸ hseen)⟩
    have hrest := ih
      (List.forall_mem_append.mpr ⟨hqueue.2, fun f hf => (hfound f hf).1⟩)
      (mem_seen_follow_iff.mpr (.inl hseen))
    exact List.forall_mem_append.mpr ⟨hfound, hrest⟩

theorem length_of_mem_explore {n : Nat} (hqueue : ∀ t ∈ queue, n ≤ t.length) :
    ∀ u ∈ w.explore nodes queue seen, n + 1 ≤ u.length := by
  fun_induction w.explore nodes queue seen with
  | case1 => simp
  | case2 t queue seen found ih =>
    rw [List.forall_mem_cons] at hqueue
    have hfound : ∀ f ∈ found.1, n + 1 ≤ f.length := by
      intro f hf
      rw [length_of_mem_follow hf]
      exact Nat.add_le_add_right hqueue.1 1
    have hrest := ih
      (List.forall_mem_append.mpr ⟨hqueue.2, fun f hf => Nat.le_of_succ_le (hfound f hf)⟩)
    exact List.forall_mem_append.mpr ⟨hfound, hrest⟩

/-- The trails of a queue get longer by one at most, and never shorter. -/
def Staged (queue : List Trail) : Prop :=
  queue.Pairwise fun t u => t.length ≤ u.length ∧ u.length ≤ t.length + 1

/-- One step of the search keeps the order of the queue. -/
theorem Staged.follow {found : List Trail} (h : Staged (t :: queue))
    (hfound : ∀ f ∈ found, f.length = t.length + 1) : Staged (queue ++ found) := by
  obtain ⟨hfirst, hqueue⟩ := List.pairwise_cons.mp h
  refine List.pairwise_append.mpr ⟨hqueue, ?_, ?_⟩
  · refine List.pairwise_of_forall_mem_list ?_
    intro f hf g hg
    have hf := hfound f hf
    have hg := hfound g hg
    omega
  · intro u hu f hf
    have hu := hfirst u hu
    have hf := hfound f hf
    omega

theorem pairwise_explore (hqueue : Staged queue) :
    (w.explore nodes queue seen).Pairwise fun t u => t.length ≤ u.length := by
  fun_induction w.explore nodes queue seen with
  | case1 => exact List.Pairwise.nil
  | case2 t queue seen found ih =>
    have hfound : ∀ f ∈ found.1, f.length = t.length + 1 := fun f hf => length_of_mem_follow hf
    have hfirst := (List.pairwise_cons.mp hqueue).1
    have hlonger : ∀ u ∈ queue ++ found.1, t.length ≤ u.length := by
      rw [List.forall_mem_append]
      exact ⟨fun u hu => (hfirst u hu).1, fun f hf => by rw [hfound f hf]; omega⟩
    refine List.pairwise_append.mpr ⟨?_, ih (hqueue.follow hfound), ?_⟩
    · refine List.pairwise_of_forall_mem_list ?_
      intro f hf g hg
      rw [hfound f hf, hfound g hg]
    · intro f hf u hu
      rw [hfound f hf]
      exact length_of_mem_explore hlonger u hu

/-! ## Completeness -/

theorem known_of_mem_route {p : Package} {ps : List Package}
    (h : (p :: ps).IsChain (w.Linked nodes)) : ∀ q ∈ ps, w.package? q.id = some q := by
  induction ps generalizing p with
  | nil => simp
  | cons q ps ih =>
    obtain ⟨hlink, hrest⟩ := List.isChain_cons_cons.mp h
    exact List.forall_mem_cons.mpr ⟨(linked_iff_package?.mp hlink).2, ih hrest⟩

/-- From a trail of the queue, every route through packages that have not been seen is matched
by a trail to its end that is not longer. -/
theorem exists_mem_explore (hqueue : Staged queue) {t : Trail} (ht : t ∈ queue)
    {ps : List Package} (hroute : (t.last :: ps).IsChain (w.Linked nodes)) {q : Package}
    (hlast : ps.getLast? = some q) (hnew : ∀ p ∈ ps, p.id ∉ seen) :
    ∃ u ∈ w.explore nodes queue seen, u.last = q ∧ u.length ≤ t.length + ps.length := by
  fun_induction w.explore nodes queue seen generalizing t ps with
  | case1 => simp at ht
  | case2 h queue seen found ih =>
    have hfound : ∀ f ∈ found.1, f.length = h.length + 1 := fun f hf => length_of_mem_follow hf
    have hstaged := hqueue.follow hfound
    have hshort : h.length ≤ t.length := by
      rcases List.mem_cons.mp ht with rfl | ht
      · exact Nat.le_refl _
      · exact ((List.pairwise_cons.mp hqueue).1 t ht).1
    by_cases hmeet : ∃ p ∈ ps, ∃ f ∈ found.1, f.last.id = p.id
    · -- The route goes on from the last of its packages that this step finds.
      obtain ⟨p, ⟨f, hf, hid⟩, before, after, rfl, hafter⟩ := exists_isLast hmeet
      have hp : w.package? p.id = some p := known_of_mem_route hroute p (by simp)
      have hfp : f.last = p := by
        have hknown := package?_last_of_mem_follow hf
        rw [hid, hp, Option.some.injEq] at hknown
        exact hknown.symm
      have hlen := hfound f hf
      rw [List.length_append, List.length_cons]
      cases after with
      | nil =>
        rw [List.getLast?_concat, Option.some.injEq] at hlast
        exact ⟨f, List.mem_append_left _ hf, hfp.trans hlast, by omega⟩
      | cons r after =>
        have hrest : (f.last :: r :: after).IsChain (w.Linked nodes) := by
          rw [← List.cons_append] at hroute
          rw [hfp]
          exact hroute.right_of_append
        have hend : (r :: after).getLast? = some q := by
          rwa [List.getLast?_append_cons, List.getLast?_cons_cons] at hlast
        have hunseen : ∀ x ∈ r :: after, x.id ∉ found.2 := by
          intro x hx
          refine notMem_seen_follow (hnew x (by simp [List.mem_cons.mp hx])) ?_
          intro f hf hid
          exact hafter x hx ⟨f, hf, hid⟩
        obtain ⟨u, hu, hulast, hulen⟩ :=
          ih hstaged (List.mem_append_right _ hf) hrest hend hunseen
        exact ⟨u, List.mem_append_right _ hu, hulast, by omega⟩
    · have hunseen : ∀ x ∈ ps, x.id ∉ found.2 := by
        intro x hx
        refine notMem_seen_follow (hnew x hx) ?_
        intro f hf hid
        exact hmeet ⟨x, hx, f, hf, hid⟩
      rcases List.mem_cons.mp ht with rfl | ht
      · -- The first package of the route is linked with the end of this trail, so it is found.
        cases ps with
        | nil => simp at hlast
        | cons p ps =>
          obtain ⟨hlink, hknown⟩ := linked_iff_package?.mp (List.isChain_cons_cons.mp hroute).1
          have hfirst : t.extend p ∈ found.1 :=
            mem_follow_iff.mpr ⟨p, rfl, hlink, hnew p List.mem_cons_self, hknown⟩
          exact absurd ⟨p, List.mem_cons_self, t.extend p, hfirst, rfl⟩ hmeet
      · obtain ⟨u, hu, hu'⟩ := ih hstaged (List.mem_append_left _ ht) hroute hlast hunseen
        exact ⟨u, List.mem_append_right _ hu, hu'⟩

/-! ## The search from a member -/

theorem traces_of_mem_trailsFrom {p : Package} :
    ∀ u ∈ w.trailsFrom nodes p, u.Traces w nodes p ∧ u.last.id ≠ p.id := by
  apply traces_of_mem_explore
  · rw [List.forall_mem_singleton]
    exact Trail.traces_start w nodes p
  · exact List.mem_singleton_self p.id

theorem pairwise_trailsFrom (w : Workspace) (nodes : List Node) (p : Package) :
    (w.trailsFrom nodes p).Pairwise fun t u => t.length ≤ u.length :=
  pairwise_explore (List.pairwise_singleton _ _)

theorem exists_mem_trailsFrom {p q : Package} {ps : List Package} (hp : w.package? p.id = some p)
    (hroute : w.IsRoute nodes p q ps) (hq : q.id ≠ p.id) :
    ∃ u ∈ w.trailsFrom nodes p, u.last = q ∧ u.length ≤ ps.length := by
  obtain ⟨hfirst, hlast, hlinked⟩ := hroute
  obtain ⟨rest, rfl⟩ := List.head?_eq_some_iff.mp hfirst
  -- The route may come back to its start. Only what follows the last return counts.
  have hreturn : ∃ x ∈ p :: rest, x.id = p.id := ⟨p, List.mem_cons_self, rfl⟩
  obtain ⟨x, hid, before, after, hsplit, hafter⟩ := exists_isLast hreturn
  have hx : x = p := by
    have hmem : x ∈ p :: rest := by simp [hsplit]
    rcases List.mem_cons.mp hmem with hx | hmem
    · exact hx
    · have hknown := known_of_mem_route hlinked x hmem
      rw [hid, hp, Option.some.injEq] at hknown
      exact hknown.symm
  subst hx
  rw [hsplit] at hlinked hlast ⊢
  cases after with
  | nil =>
    rw [List.getLast?_concat, Option.some.injEq] at hlast
    exact absurd (congrArg Package.id hlast.symm) hq
  | cons y after =>
    rw [List.getLast?_append_cons, List.getLast?_cons_cons] at hlast
    have hunseen : ∀ z ∈ y :: after, z.id ∉ [x.id] := fun z hz => by simpa using hafter z hz
    obtain ⟨u, hu, hulast, hulen⟩ := exists_mem_explore (List.pairwise_singleton _ (Trail.start x))
      List.mem_cons_self hlinked.right_of_append hlast hunseen
    refine ⟨u, hu, hulast, ?_⟩
    rw [Trail.length_start] at hulen
    rw [List.length_append, List.length_cons]
    omega

/-- The first element with a property comes before all others that have it. -/
theorem rel_of_find? {α : Type} {R : α → α → Prop} (hrefl : ∀ x, R x x) {P : α → Bool}
    {xs : List α} (hxs : xs.Pairwise R) {x y : α} (hx : xs.find? P = some x) (hy : y ∈ xs)
    (hpy : P y) : R x y := by
  obtain ⟨-, before, after, rfl, hbefore⟩ := List.find?_eq_some_iff_append.mp hx
  rcases List.mem_append.mp hy with hy | hy
  · simpa [hpy] using hbefore y hy
  · rcases List.mem_cons.mp hy with rfl | hy
    · exact hrefl y
    · exact (List.pairwise_cons.mp (List.pairwise_append.mp hxs).2.1).1 y hy

/-- What a member answers: nothing if it leads to no package of the crate, and else the end of a
shortest route. -/
theorem reached?_spec (w : Workspace) (nodes : List Node) (name member : String) :
    match w.reached? nodes name member with
    | none => ∀ q ps, ¬ w.LeadsTo nodes name member q ps
    | some r => ∃ q ps, w.LeadsTo nodes name member q ps ∧
        r = ⟨q.name, q.version, .normal, none, some (ps.map (·.name))⟩ ∧
        ∀ q' ps', w.LeadsTo nodes name member q' ps' → ps.length ≤ ps'.length := by
  unfold reached?
  cases hp : w.package? member with
  | none =>
    rintro q ps ⟨p, hp', -⟩
    simp [package?_eq_some_iff_isLast.mpr hp'] at hp
  | some p =>
    have hid := id_of_package? hp
    subst hid
    have hfound (q : Package) (ps : List Package) (h : w.LeadsTo nodes name p.id q ps) :
        ∃ u ∈ w.trailsFrom nodes p, Crate.canonicalName u.last.name = name ∧
          u.length ≤ ps.length := by
      obtain ⟨p', hp', hroute, hq, hname⟩ := h
      rw [← package?_eq_some_iff_isLast, hp, Option.some.injEq] at hp'
      subst hp'
      obtain ⟨u, hu, hlast, hlen⟩ := exists_mem_trailsFrom hp hroute hq
      exact ⟨u, hu, by rw [hlast, hname], hlen⟩
    cases ht : (w.trailsFrom nodes p).find? fun t => Crate.canonicalName t.last.name = name with
    | none =>
      simp only [bind, Option.bind, ht]
      intro q ps h
      obtain ⟨u, hu, hname, -⟩ := hfound q ps h
      simpa [hname] using List.find?_eq_none.mp ht u hu
    | some t =>
      simp only [bind, Option.bind, ht]
      have hname : Crate.canonicalName t.last.name = name := by simpa using List.find?_some ht
      obtain ⟨⟨ps, hroute, hnames⟩, hq⟩ := traces_of_mem_trailsFrom t (List.mem_of_find?_eq_some ht)
      have hlast := package?_eq_some_iff_isLast.mp hp
      refine ⟨t.last, ps, ⟨p, hlast, hroute, hq, hname⟩, by rw [hnames], ?_⟩
      intro q' ps' h
      obtain ⟨u, hu, huname, hlen⟩ := hfound q' ps' h
      have hfirst := rel_of_find? (fun t : Trail => Nat.le_refl t.length)
        (pairwise_trailsFrom w nodes p) ht hu (by simpa using huname)
      have hps : t.length = ps.length := by rw [Trail.length, hnames, List.length_map]
      omega

theorem reached?_eq_some {name member : String} {r : Resolved}
    (h : w.reached? nodes name member = some r) :
    ∃ q ps, w.LeadsTo nodes name member q ps ∧
      r = ⟨q.name, q.version, .normal, none, some (ps.map (·.name))⟩ ∧
      ∀ q' ps', w.LeadsTo nodes name member q' ps' → ps.length ≤ ps'.length := by
  have hspec := w.reached?_spec nodes name member
  rwa [h] at hspec

theorem reached?_eq_none_iff {name member : String} :
    w.reached? nodes name member = none ↔ ¬ ∃ q ps, w.LeadsTo nodes name member q ps := by
  constructor
  · rintro hr ⟨q, ps, hleads⟩
    have hspec := w.reached?_spec nodes name member
    rw [hr] at hspec
    exact hspec q ps hleads
  · intro hnone
    by_contra hr
    obtain ⟨r, hr⟩ := Option.ne_none_iff_exists'.mp hr
    obtain ⟨q, ps, hleads, -⟩ := reached?_eq_some hr
    exact hnone ⟨q, ps, hleads⟩

/-! ## The search from all members -/

theorem transitive?_eq_some {name : String} {r : Resolved} (h : w.transitive? name = some r) :
    ∃ nodes before m after, w.graph = some nodes ∧ w.members = before ++ m :: after ∧
      w.reached? nodes name m = some r ∧ ∀ m' ∈ before, w.reached? nodes name m' = none := by
  cases hgraph : w.graph with
  | none => simp [transitive?, hgraph] at h
  | some nodes =>
    rw [transitive?, hgraph] at h
    obtain ⟨before, m, after, hmembers, hm, hbefore⟩ := List.findSome?_eq_some_iff.mp h
    exact ⟨nodes, before, m, after, rfl, hmembers, hm, hbefore⟩

/-- The search for linked packages is sound and complete, and finds a shortest route: it gives no
answer exactly if no member leads to the crate, and else answers for the first member that does. -/
theorem transitive?_shortest (w : Workspace) (name : String) :
    (w.transitive? name = none ↔
      ¬ ∃ nodes, w.graph = some nodes ∧
        ∃ m ∈ w.members, ∃ q ps, w.LeadsTo nodes name m q ps) ∧
    ∀ r, w.transitive? name = some r →
      ∃ nodes before m after q ps, w.graph = some nodes ∧ w.members = before ++ m :: after ∧
        (∀ m' ∈ before, ¬ ∃ q' ps', w.LeadsTo nodes name m' q' ps') ∧
        w.LeadsTo nodes name m q ps ∧
        r = ⟨q.name, q.version, .normal, none, some (ps.map (·.name))⟩ ∧
        ∀ q' ps', w.LeadsTo nodes name m q' ps' → ps.length ≤ ps'.length := by
  refine ⟨?_, ?_⟩
  · cases hgraph : w.graph with
    | none => simp [transitive?, hgraph]
    | some nodes =>
      have htransitive : w.transitive? name = w.members.findSome? (w.reached? nodes name) := by
        simp [transitive?, hgraph]
      rw [htransitive, List.findSome?_eq_none_iff]
      simp [reached?_eq_none_iff]
  · intro r hr
    obtain ⟨nodes, before, m, after, hgraph, hmembers, hm, hbefore⟩ := transitive?_eq_some hr
    obtain ⟨q, ps, hleads, hanswer, hshortest⟩ := reached?_eq_some hm
    exact ⟨nodes, before, m, after, q, ps, hgraph, hmembers,
      fun m' hm' => reached?_eq_none_iff.mp (hbefore m' hm'), hleads, hanswer, hshortest⟩

end Workspace

end ModuleIndex.Dependency

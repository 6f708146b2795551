import ModuleIndex.Dependency.Workspace

/-!
# Linked dependencies

Packages that are reached from a member through the links of the graph, by breadth-first search.
Links to identifiers without a package lead nowhere.
-/

namespace ModuleIndex.Dependency

/-- A way through the graph: the package where it ends, and the names of all packages on it. -/
structure Trail where
  last : Package
  names : List String
  deriving DecidableEq, Repr

namespace Trail

def start (p : Package) : Trail :=
  ⟨p, [p.name]⟩

def extend (t : Trail) (p : Package) : Trail :=
  ⟨p, t.names ++ [p.name]⟩

end Trail

namespace Workspace

/-! ## Links -/

/-- Follows links from the end of a trail. Gives the trails to packages that have not been seen,
and the identifiers that have been seen afterwards. -/
def follow (w : Workspace) (t : Trail) : (links : List String) → (seen : List String) →
    List Trail × List String
  | [], seen => ([], seen)
  | id :: links, seen =>
    if id ∈ seen then w.follow t links seen
    else
      match w.package? id with
      | none => w.follow t links seen
      | some p =>
        let (trails, seen) := w.follow t links (id :: seen)
        (t.extend p :: trails, seen)

def unseen (w : Workspace) (seen : List String) : List Package :=
  w.packages.filter (·.id ∉ seen)

theorem length_unseen_cons_le (w : Workspace) (id : String) (seen : List String) :
    (w.unseen (id :: seen)).length ≤ (w.unseen seen).length := by
  unfold unseen
  induction w.packages with
  | nil => simp
  | cons q packages ih => grind

theorem length_unseen_lt {w : Workspace} {id : String} {p : Package} {seen : List String}
    (hp : w.package? id = some p) (hid : id ∉ seen) :
    (w.unseen (id :: seen)).length < (w.unseen seen).length := by
  obtain ⟨before, after, h⟩ := List.append_of_mem (mem_of_package? hp)
  have hpid := id_of_package? hp
  have hle (qs : List Package) := length_unseen_cons_le ⟨[], qs, none⟩ id seen
  have hbefore := hle before
  have hafter := hle after
  simp only [unseen] at hbefore hafter
  simp only [unseen, h, List.filter_append, List.filter_cons, List.length_append]
  simp [hpid, hid]
  simp at hbefore hafter
  omega

/-- Each trail that is found takes a package away from those that have not been seen. -/
theorem length_follow_le (w : Workspace) (t : Trail) (links seen : List String) :
    (w.follow t links seen).1.length + (w.unseen (w.follow t links seen).2).length ≤
      (w.unseen seen).length := by
  fun_induction w.follow t links seen with
  | case1 => simp
  | case2 _ _ _ _ ih => exact ih
  | case3 _ _ _ _ _ ih => exact ih
  | case4 seen id links hid p hp trails seen' heq ih =>
    have := length_unseen_lt hp hid
    simp only [heq] at ih
    simp only [List.length_cons]
    omega

/-! ## Search -/

/-- The trails that a queue of trails leads to, the shorter ones first. -/
def explore (w : Workspace) (nodes : List Node) : (queue : List Trail) → (seen : List String) →
    List Trail
  | [], _ => []
  | t :: queue, seen =>
    let found := w.follow t (linksOf nodes t.last.id) seen
    found.1 ++ w.explore nodes (queue ++ found.1) found.2
  termination_by queue seen => queue.length + (w.unseen seen).length
  decreasing_by
    have := w.length_follow_le t (linksOf nodes t.last.id) seen
    simp only [List.length_append, List.length_cons]
    omega

def trailsFrom (w : Workspace) (nodes : List Node) (p : Package) : List Trail :=
  w.explore nodes [.start p] [p.id]

/-- The first package of a crate that can be reached from a member. -/
def reached? (w : Workspace) (nodes : List Node) (name member : String) : Option Resolved := do
  let p ← w.package? member
  let t ← (w.trailsFrom nodes p).find? fun t => Crate.canonicalName t.last.name = name
  some ⟨t.last.name, t.last.version, .normal, none, some t.names⟩

/-- The answer of the first member that reaches a package of the crate. -/
def transitive? (w : Workspace) (name : String) : Option Resolved := do
  let nodes ← w.graph
  w.members.findSome? (w.reached? nodes name)

end Workspace

end ModuleIndex.Dependency

import ChangeImpact.Graph.Basic

/-!
# Impact of a change

A change spreads from a class to the classes that depend on it. The spread is
breadth first, from the changed classes in order of their names, so a class is
found along a shortest chain of dependencies, and of those along the least.

## Main definitions

* `Impact`: the affected classes in the order of discovery, each with the class
  it was reached from.
* `Graph.propagate`: the impact of a set of changed classes.
* `Impact.pathTo?`: the chain along which a class was reached.
-/

namespace ChangeImpact

inductive Origin where
  /-- It was changed itself. -/
  | changed
  /-- It depends on an affected class. -/
  | via (parent : String)
deriving DecidableEq, Inhabited

structure Finding where
  name : String
  origin : Origin
deriving DecidableEq, Inhabited

/-- The affected classes in the order of their discovery. -/
structure Impact where
  findings : List Finding := []
deriving DecidableEq, Inhabited

namespace Impact

def order (i : Impact) : List String := i.findings.map Finding.name

def origin? (i : Impact) (name : String) : Option Origin :=
  (i.findings.find? (·.name == name)).map Finding.origin

def contains (i : Impact) (name : String) : Bool := (i.origin? name).isSome

def size (i : Impact) : Nat := i.findings.length

def isEmpty (i : Impact) : Bool := i.findings.isEmpty

/-- Follow the origins from a class back to a changed one, in at most the given number of
steps; `walked` holds what was passed on the way. -/
def trace (i : Impact) : Nat → String → List String → Option (List String)
  | 0, _, _ => none
  | steps + 1, name, walked =>
    match i.origin? name with
    | none => none
    | some .changed => some (name :: walked)
    | some (.via parent) => trace i steps parent (name :: walked)

/-- The chain from a changed class to the given one along which it was found. No chain is
longer than the number of findings. -/
def pathTo? (i : Impact) (name : String) : Option (List String) := i.trace i.findings.length name []

end Impact

/-! ## Propagation -/

namespace Graph

/-- The classes that use a class and are not among the findings yet. -/
def newDependents (g : Graph) (found : List Finding) (name : String) : List Finding :=
  ((g.dependents name).toList.filter fun d => !found.any (·.name == d)).map (⟨·, .via name⟩)

def unseen (g : Graph) (found : List Finding) : Nat :=
  (g.nodes.map ClassNode.name).countP fun n => !found.any (·.name == n)

theorem unseen_append (g : Graph) (found more : List Finding) :
    g.unseen (found ++ more) = (((g.nodes.map ClassNode.name).filter fun n =>
      !found.any (·.name == n)).filter fun n => !more.any (·.name == n)).length := by
  rw [unseen, ← List.countP_eq_length_filter, List.countP_filter]
  simp only [List.any_append, Bool.not_or, Bool.and_comm]

/-- New findings leave fewer classes unseen, so the queue runs dry in the end. -/
theorem unseen_newDependents_lt {g : Graph} {found : List Finding} {name : String}
    (h : g.newDependents found name ≠ []) :
    g.unseen (found ++ g.newDependents found name) < g.unseen found := by
  obtain ⟨f, hf⟩ := List.exists_mem_of_ne_nil _ h
  have fresh := hf
  simp only [newDependents, List.mem_map, List.mem_filter] at hf
  obtain ⟨d, ⟨hd, new⟩, rfl⟩ := hf
  have registered : d ∈ g.nodes.map ClassNode.name :=
    (g.ends_registered _ (mem_dependents.1 hd)).1
  rw [unseen_append, unseen, List.countP_eq_length_filter,
    List.length_filter_lt_length_iff_exists]
  refine ⟨d, List.mem_filter.2 ⟨registered, new⟩, ?_⟩
  simpa using ⟨_, fresh, rfl⟩

/-- Spread an impact: take the classes in the queue one by one, and find the classes that
use them. Every class that is found joins the queue. -/
def spread (g : Graph) (found queue : List Finding) : List Finding :=
  match queue with
  | [] => found
  | f :: queue =>
    let more := g.newDependents found f.name
    g.spread (found ++ more) (queue ++ more)
termination_by (g.unseen found, queue.length)
decreasing_by
  by_cases none : g.newDependents found f.name = []
  · simp only [none, List.append_nil, List.length_cons]
    exact Prod.Lex.right _ (Nat.lt_succ_self _)
  · exact Prod.Lex.left _ _ (unseen_newDependents_lt none)

/-- The impact of a set of changed classes. A changed name that is not registered is
affected too, but nothing depends on it. -/
def propagate (g : Graph) (changed : NameSet) : Impact :=
  let seeds := changed.toList.map (⟨·, Origin.changed⟩)
  ⟨g.spread seeds seeds⟩

end Graph

end ChangeImpact

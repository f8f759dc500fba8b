import ChangeImpact.NameSet
import ChangeImpact.Text.Affix

/-!
# The class graph

A graph holds classes and the dependencies between them. A class is registered
once under its name, and a dependency joins two registered classes: the first
uses the second. Both facts are part of the type, so every graph at hand is one
that registrations and connections can build.

## Main definitions

* `ClassNode`, `ClassRole`: a class and what it is known to be.
* `Graph.register`: add a class, unless its name is taken.
* `Graph.connect`: add a dependency, unless an end is missing or it is there.
* `Graph.names`, `Graph.dependencies`, `Graph.dependents`, `Graph.edges`: the
  read views, all in increasing order of names.
-/

namespace ChangeImpact

/-! ## Classes -/

structure ClassRole where
  /-- It is stored by a persistence layer. -/
  entity : Bool := false
  /-- Its name says that it only carries data between layers. -/
  dto : Bool := false
  /-- It configures the application. -/
  configuration : Bool := false
deriving DecidableEq, Inhabited

namespace ClassRole

/-- Name endings of classes that carry data between layers. -/
def dtoEndings : List String := ["Request", "Response", "Dto"]

/-- The role of a class: two signals read off its source, and its name. -/
def classify (name : String) (entity configuration : Bool) : ClassRole where
  entity := entity
  dto := dtoEndings.any (Text.endsWith name)
  configuration := configuration

/-- Data carriers hold data and no behaviour. -/
def carriesData (r : ClassRole) : Bool := r.entity || r.dto

end ClassRole

structure ClassNode where
  name : String
  /-- Where the class is declared. -/
  locator : String
  packageName : String := ""
  /-- Its source marks it as stored by a persistence layer. -/
  entity : Bool := false
  /-- Its source marks it as configuration. -/
  configuration : Bool := false
deriving DecidableEq, Inhabited

namespace ClassNode

def qualifiedName (n : ClassNode) : String :=
  if n.packageName = "" then n.name else n.packageName ++ "." ++ n.name

def role (n : ClassNode) : ClassRole := .classify n.name n.entity n.configuration

end ClassNode

/-- A second class under a name that is taken. -/
structure DuplicateClass where
  name : String
  /-- Where the class that keeps the name is declared. -/
  existing : String
  /-- Where the class that was turned away is declared. -/
  rejected : String
deriving DecidableEq, Inhabited

def DuplicateClass.message (d : DuplicateClass) : String :=
  "duplicate class `" ++ d.name ++ "`: " ++ d.existing ++ " already registered, rejected "
    ++ d.rejected

inductive Connection where
  | added
  | alreadyPresent
  /-- One of its ends is not registered. -/
  | dropped
deriving DecidableEq, Inhabited

/-! ## The store -/

/-- A name that is new leaves names distinct. -/
theorem nodup_names_concat {α : Type} {name : α → String} {xs : List α} {x : α}
    (distinct : (xs.map name).Nodup) (new : name x ∉ xs.map name) :
    ((xs ++ [x]).map name).Nodup := by
  rw [List.map_append, List.nodup_append]
  refine ⟨distinct, by simp, ?_⟩
  rintro a ha b hb rfl
  rw [List.map_singleton, List.mem_singleton] at hb
  exact new (hb ▸ ha)

/-- Classes in the order of their registration, and the dependencies between them. -/
structure Graph where
  nodes : List ClassNode
  /-- The pairs `(user, used)`, in the order of their insertion. -/
  links : List (String × String)
  /-- No two classes share a name. -/
  names_nodup : (nodes.map ClassNode.name).Nodup
  /-- No dependency is held twice. -/
  links_nodup : links.Nodup
  /-- Dependencies join registered classes. -/
  ends_registered : ∀ e ∈ links,
    e.1 ∈ nodes.map ClassNode.name ∧ e.2 ∈ nodes.map ClassNode.name

namespace Graph

def empty : Graph where
  nodes := []
  links := []
  names_nodup := by simp
  links_nodup := by simp
  ends_registered := by simp

instance : Inhabited Graph := ⟨empty⟩

def find? (g : Graph) (name : String) : Option ClassNode :=
  g.nodes.find? fun n => n.name == name

def contains (g : Graph) (name : String) : Bool := (g.find? name).isSome

theorem contains_iff {g : Graph} {name : String} :
    g.contains name = true ↔ name ∈ g.nodes.map ClassNode.name := by
  simp [contains, find?, List.find?_isSome, List.mem_map]

theorem find?_eq_none_iff {g : Graph} {name : String} :
    g.find? name = none ↔ name ∉ g.nodes.map ClassNode.name := by
  rw [← contains_iff]
  cases h : g.find? name <;> simp [contains, h]

/-- Register a class. The first class under a name keeps it. -/
def register (g : Graph) (node : ClassNode) : Except DuplicateClass Graph :=
  match h : g.find? node.name with
  | some kept => .error ⟨node.name, kept.locator, node.locator⟩
  | none => .ok
    { nodes := g.nodes ++ [node]
      links := g.links
      names_nodup := nodup_names_concat g.names_nodup (find?_eq_none_iff.1 h)
      links_nodup := g.links_nodup
      ends_registered := fun e he => by
        have := g.ends_registered e he
        simp only [List.map_append, List.mem_append]
        exact ⟨.inl this.1, .inl this.2⟩ }

/-- Record that the class `user` depends on the class `used`. -/
def connect (g : Graph) (user used : String) : Graph × Connection :=
  if ends : g.contains user = true ∧ g.contains used = true then
    if present : (user, used) ∈ g.links then (g, .alreadyPresent)
    else
      ({ nodes := g.nodes
         links := g.links ++ [(user, used)]
         names_nodup := g.names_nodup
         links_nodup := by
           rw [List.nodup_append]
           refine ⟨g.links_nodup, by simp, ?_⟩
           rintro a ha b hb rfl
           exact present (List.mem_singleton.1 hb ▸ ha)
         ends_registered := fun e he => by
           rcases List.mem_append.1 he with he | he
           · exact g.ends_registered e he
           · rw [List.mem_singleton.1 he]
             exact ⟨contains_iff.1 ends.1, contains_iff.1 ends.2⟩ }, .added)
  else (g, .dropped)

/-! ## Read views -/

def names (g : Graph) : NameSet := .ofList (g.nodes.map ClassNode.name)

def dependencies (g : Graph) (name : String) : NameSet :=
  .ofList ((g.links.filter (·.1 == name)).map (·.2))

def dependents (g : Graph) (name : String) : NameSet :=
  .ofList ((g.links.filter (·.2 == name)).map (·.1))

/-- All dependencies, by the user's name and then by the used class's name. -/
def edges (g : Graph) : List (String × String) :=
  g.names.toList.flatMap fun user => (g.dependencies user).toList.map (user, ·)

@[simp] theorem mem_names {g : Graph} {n : String} :
    n ∈ g.names ↔ n ∈ g.nodes.map ClassNode.name := by
  simp [names]

@[simp] theorem mem_dependencies {g : Graph} {a b : String} :
    b ∈ g.dependencies a ↔ (a, b) ∈ g.links := by
  simp [dependencies]

@[simp] theorem mem_dependents {g : Graph} {a b : String} :
    a ∈ g.dependents b ↔ (a, b) ∈ g.links := by
  simp [dependents]

theorem mem_edges {g : Graph} {a b : String} : (a, b) ∈ g.edges ↔ (a, b) ∈ g.links := by
  simp only [edges, List.mem_flatMap, List.mem_map, Prod.mk.injEq]
  constructor
  · rintro ⟨u, -, v, hv, rfl, rfl⟩
    exact mem_dependencies.1 hv
  · intro h
    exact ⟨a, mem_names.2 (g.ends_registered _ h).1, b, mem_dependencies.2 h, rfl, rfl⟩

def size (g : Graph) : Nat := g.nodes.length

def edgeCount (g : Graph) : Nat := g.links.length

def isEmpty (g : Graph) : Bool := g.nodes.isEmpty

/-- The data carriers, which cycle detection and reports leave out. -/
def defaultExclusions (g : Graph) : NameSet :=
  .ofList ((g.nodes.filter (·.role.carriesData)).map ClassNode.name)

end Graph

end ChangeImpact

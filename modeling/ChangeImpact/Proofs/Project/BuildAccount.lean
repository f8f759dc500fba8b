import ChangeImpact.Proofs.Project.ChangedFiles
import Mathlib.Data.List.Infix

/-!
# The account of a build

While a graph is built, three passes keep an account: the files are read, their classes are
registered, and references are followed. Nothing is lost between the passes. A file is registered,
turned away, unusable or without a type, and a reference becomes an edge or leads nowhere; no
reference is followed twice, because a unit refers to a name once and the names of the registered
units are distinct.

## Main definitions

* `reportsOn`: what is reported on the elements of a list, seeing those before.
* `duplicate?`: the report on a file whose type was declared before.
* `GraphBuild.Linking.Accounts`: the counters agree with the references followed so far.

## Main statements

* `GraphBuild.accepted_register`, `GraphBuild.duplicates_register`: which units are registered
  and which are turned away.
* `GraphBuild.Linking.Accounts.foldl_follow`: the counters after any number of references.
* `GraphBuild.account_ofFiles_exact`: the whole account.
-/

namespace ChangeImpact

open Java

/-! ## Reports on a list -/

/-- What is reported on the elements of a list, in order. A report sees the elements before. -/
def reportsOn {α γ : Type} (report? : List α → α → Option γ) (xs : List α) : List γ :=
  (xs.inits.zip xs).filterMap fun p => report? p.1 p.2

theorem reportsOn_cons {α γ : Type} (report? : List α → α → Option γ) (x : α) (xs : List α) :
    reportsOn report? (x :: xs)
      = (report? [] x).toList ++ reportsOn (fun earlier => report? (x :: earlier)) xs := by
  have later : (x :: xs).inits.zip (x :: xs)
      = ([], x) :: (xs.inits.zip xs).map (Prod.map (x :: ·) id) := by
    rw [List.inits, List.zip_cons_cons, List.zip_map_left]
  rw [reportsOn, later, List.filterMap_cons, List.filterMap_map]
  cases report? [] x <;> rfl

/-- The form for inductions along a fold, which comes to its last element last. -/
theorem reportsOn_concat {α γ : Type} (report? : List α → α → Option γ) (xs : List α) (x : α) :
    reportsOn report? (xs ++ [x]) = reportsOn report? xs ++ (report? xs x).toList := by
  induction xs generalizing report? with
  | nil =>
    rw [List.nil_append, reportsOn_cons]
    simp [reportsOn]
  | cons y ys ih => rw [List.cons_append, reportsOn_cons, reportsOn_cons, ih, List.append_assoc]

/-- Reports on what is kept of a list are reports on the list. -/
theorem reportsOn_filterMap {α β γ : Type} (f : α → Option β) (report? : List β → β → Option γ)
    (xs : List α) : reportsOn report? (xs.filterMap f)
      = reportsOn (fun earlier x => (f x).bind (report? (earlier.filterMap f))) xs := by
  induction xs using List.reverseRecOn with
  | nil => rfl
  | append_singleton xs x ih =>
    rw [reportsOn_concat, List.filterMap_append, ← ih]
    cases kept : f x with
    | none => simp [kept]
    | some y => simp [kept, reportsOn_concat]

/-! ## Reading the files -/

def failure? (fs : FileSystem) (path : RawText) : Option ExtractionError :=
  match SourceUnit.ofFile fs path with
  | .error e => some e
  | .ok _ => none

def declaresNothing (fs : FileSystem) (path : RawText) : Bool :=
  match SourceUnit.ofFile fs path with
  | .ok none => true
  | _ => false

/-- A file gives a unit, fails, or declares nothing. -/
theorem file_cases (fs : FileSystem) (path : RawText) :
    (∃ u, unit? fs path = some u ∧ failure? fs path = none ∧ declaresNothing fs path = false) ∨
    (unit? fs path = none ∧ (∃ e, failure? fs path = some e) ∧ declaresNothing fs path = false) ∨
    (unit? fs path = none ∧ failure? fs path = none ∧ declaresNothing fs path = true) := by
  rcases outcome : SourceUnit.ofFile fs path with e | _ | u
  all_goals simp [unit?, failure?, declaresNothing, outcome, Except.toOption]

/-- A file gives a unit, an error or nothing, and only one of these. -/
theorem length_units_add (fs : FileSystem) (paths : List RawText) :
    (paths.filterMap (unit? fs)).length + (paths.filterMap (failure? fs)).length
      + paths.countP (declaresNothing fs) = paths.length := by
  induction paths with
  | nil => rfl
  | cons path rest ih =>
    rcases file_cases fs path with ⟨u, unit, failure, silent⟩ | ⟨unit, ⟨e, failure⟩, silent⟩ |
        ⟨unit, failure, silent⟩
    all_goals
      simp only [List.filterMap_cons, unit, failure, List.countP_cons, silent, List.length_cons,
        Bool.false_eq_true, if_true, if_false]
      omega

theorem Extracted.failures_ofFiles (fs : FileSystem) (paths : List RawText) :
    (Extracted.ofFiles fs paths).failures = paths.filterMap (failure? fs) := by
  rw [Extracted.ofFiles]
  induction paths with
  | nil => rfl
  | cons path rest ih =>
    rw [List.map_cons, List.filterMap_cons]
    rcases outcome : SourceUnit.ofFile fs path with _ | _ | u
    all_goals simp [failure?, outcome, Extracted.ofOutcomes, ih]

namespace GraphBuild

/-! ## Registering the classes -/

/-- A unit whose name no earlier unit has. -/
def firstOfName? (earlier : List SourceUnit) (u : SourceUnit) : Option SourceUnit :=
  if earlier.any (·.typeName == u.typeName) then none else some u

/-- The report on a unit whose name an earlier unit has: the first of them keeps the name. -/
def duplicateUnit? (earlier : List SourceUnit) (u : SourceUnit) : Option DuplicateClass :=
  (earlier.find? (·.typeName == u.typeName)).map fun first => ⟨u.typeName, first.path, u.path⟩

theorem any_typeName_eq (units : List SourceUnit) (name : String) :
    units.any (·.typeName == name) = (units.find? (·.typeName == name)).isSome := by
  rw [Bool.eq_iff_iff, List.find?_isSome, List.any_eq_true]

/-- A unit is registered, or turned away with a report. -/
theorem add_register (units : List SourceUnit) (u : SourceUnit) :
    ((register units).add u).accepted
      = (register units).accepted ++ (firstOfName? units u).toList ∧
    ((register units).add u).duplicates
      = (register units).duplicates ++ (duplicateUnit? units u).toList := by
  have of := register_of units
  have found : (register units).graph.find? u.typeName
      = (units.find? (·.typeName == u.typeName)).map nodeOf := by
    rw [Graph.find?, of.nodes, List.find?_map, ← of.first]
    rfl
  rcases (register units).graph.register_cases (nodeOf u) with
    ⟨kept, taken, rejected⟩ | ⟨free, g, ok, -, -⟩
  · obtain ⟨first, known, rfl⟩ := Option.map_eq_some_iff.1 (found.symm.trans taken)
    have named : units.any (·.typeName == u.typeName) = true := by
      rw [any_typeName_eq, known]
      rfl
    unfold Registration.add
    rw [rejected, firstOfName?, if_pos named, duplicateUnit?, known]
    exact ⟨(List.append_nil _).symm, rfl⟩
  · have unknown := Option.map_eq_none_iff.1 (found.symm.trans free)
    have unnamed : ¬ units.any (·.typeName == u.typeName) = true := by
      rw [any_typeName_eq, unknown]
      exact Bool.false_ne_true
    unfold Registration.add
    rw [ok, firstOfName?, if_neg unnamed, duplicateUnit?, unknown]
    exact ⟨rfl, (List.append_nil _).symm⟩

theorem register_concat (units : List SourceUnit) (u : SourceUnit) :
    register (units ++ [u]) = (register units).add u := by
  rw [register, List.foldl_append]
  rfl

/-- The first unit of each name is registered, in order. -/
theorem accepted_register (units : List SourceUnit) :
    (register units).accepted = reportsOn firstOfName? units := by
  induction units using List.reverseRecOn with
  | nil => rfl
  | append_singleton units u ih =>
    rw [register_concat, (add_register units u).1, ih, reportsOn_concat]

/-- The other units are turned away, in order. -/
theorem duplicates_register (units : List SourceUnit) :
    (register units).duplicates = reportsOn duplicateUnit? units := by
  induction units using List.reverseRecOn with
  | nil => rfl
  | append_singleton units u ih =>
    rw [register_concat, (add_register units u).2, ih, reportsOn_concat]

/-- Each unit is registered or turned away. -/
theorem length_accepted_add (units : List SourceUnit) :
    (register units).accepted.length + (register units).duplicates.length = units.length := by
  induction units using List.reverseRecOn with
  | nil => rfl
  | append_singleton units u ih =>
    have one : (firstOfName? units u).toList.length
        + (duplicateUnit? units u).toList.length = 1 := by
      rw [firstOfName?, duplicateUnit?, any_typeName_eq]
      cases units.find? (·.typeName == u.typeName) <;> rfl
    rw [register_concat, (add_register units u).1, (add_register units u).2, List.length_append,
      List.length_append, List.length_append, List.length_singleton]
    omega

/-! ## Following the references -/

/-- The counters agree with the references that were followed. -/
structure Linking.Accounts (l : Linking) (followed : List (String × String)) : Prop where
  links : l.graph.links ⊆ followed
  added : l.added = l.graph.edgeCount
  total : l.added + l.dropped = followed.length

namespace Linking.Accounts

variable {l : Linking} {followed : List (String × String)}

/-- A reference that was not followed before is no edge yet. -/
theorem connect_ne_alreadyPresent (h : l.Accounts followed) {reference : String × String}
    (fresh : reference ∉ followed) :
    (l.graph.connect reference.1 reference.2).2 ≠ .alreadyPresent := by
  have absent : (reference.1, reference.2) ∉ l.graph.links := fun present => fresh (h.links present)
  unfold Graph.connect
  split_ifs <;> simp

/-- A reference that was not followed before is in the graph neither, so it is added or dropped and
never ignored. -/
theorem follow (h : l.Accounts followed) {reference : String × String}
    (fresh : reference ∉ followed) : (l.follow reference).Accounts (followed ++ [reference]) := by
  have absent : (reference.1, reference.2) ∉ l.graph.links := fun present => fresh (h.links present)
  have links : l.graph.links ⊆ followed ++ [reference] :=
    fun e mem => List.mem_append_left _ (h.links mem)
  have total := h.total
  by_cases ends : l.graph.contains reference.1 = true ∧ l.graph.contains reference.2 = true
  · have added : (l.follow reference).graph.links = l.graph.links ++ [reference] ∧
        (l.follow reference).added = l.added + 1 ∧ (l.follow reference).dropped = l.dropped := by
      simp [Linking.follow, Graph.connect, ends, absent]
    refine ⟨?_, ?_, ?_⟩
    · rw [added.1]
      exact List.append_subset.2 ⟨links, List.subset_append_right _ _⟩
    · rw [added.2.1, h.added, Graph.edgeCount, Graph.edgeCount, added.1, List.length_append]
      rfl
    · rw [added.2.1, added.2.2, List.length_append, List.length_singleton]
      omega
  · have dropped : (l.follow reference).graph = l.graph ∧
        (l.follow reference).added = l.added ∧ (l.follow reference).dropped = l.dropped + 1 := by
      simp [Linking.follow, Graph.connect, ends]
    refine ⟨?_, ?_, ?_⟩
    · rw [dropped.1]
      exact links
    · rw [dropped.2.1, dropped.1, h.added]
    · rw [dropped.2.1, dropped.2.2, List.length_append, List.length_singleton]
      omega

/-- References of which none repeats keep the counters right. -/
theorem foldl_follow (h : l.Accounts followed) (references : List (String × String))
    (fresh : (followed ++ references).Nodup) :
    (references.foldl Linking.follow l).Accounts (followed ++ references) := by
  induction references generalizing l followed with
  | nil => rwa [List.append_nil]
  | cons reference rest ih =>
    rw [List.append_cons] at fresh ⊢
    have new : reference ∉ followed := by
      have apart := (List.nodup_append.1 (List.nodup_append.1 fresh).1).2.2
      exact fun mem => apart reference mem reference (List.mem_singleton_self _) rfl
    exact ih (h.follow new) fresh

end Linking.Accounts

/-- No registered unit refers to a name twice. -/
theorem nodup_referencesOf (basePackage : String) {units : List SourceUnit}
    (distinct : (units.map SourceUnit.typeName).Nodup) :
    (referencesOf basePackage units).Nodup := by
  rw [referencesOf, List.nodup_flatMap]
  refine ⟨fun u _ => (u.references basePackage).nodup.map fun a b eq => (Prod.mk.inj eq).2, ?_⟩
  refine (List.pairwise_map.1 distinct).imp fun {u v} different => ?_
  intro reference ofU ofV
  obtain ⟨a, -, rfl⟩ := List.mem_map.1 ofU
  obtain ⟨b, -, eq⟩ := List.mem_map.1 ofV
  exact different (Prod.mk.inj eq).1.symm

theorem length_referencesOf (basePackage : String) (units : List SourceUnit) :
    (referencesOf basePackage units).length
      = (units.map fun u => (u.references basePackage).size).sum := by
  simp [referencesOf, List.length_flatMap, NameSet.size]

/-- The accepted units have different names, and the references of each are a set. -/
theorem nodup_referencesOf_accepted (basePackage : String) (units : List SourceUnit) :
    (referencesOf basePackage (register units).accepted).Nodup :=
  nodup_referencesOf basePackage
    ((register_of units).names ▸ (register units).graph.names_nodup)

/-- Before references are followed there are no edges. -/
theorem accounts_register (units : List SourceUnit) :
    Linking.Accounts { graph := (register units).graph } [] := by
  have noLinks := (register_of units).links
  exact ⟨by simp [noLinks], by simp [Graph.edgeCount, noLinks], rfl⟩

/-- The references of registered units keep the counters right, as far as they are followed. -/
theorem accounts_followed {basePackage : String} {units : List SourceUnit}
    {followed later : List (String × String)}
    (split : referencesOf basePackage (register units).accepted = followed ++ later) :
    (followed.foldl Linking.follow { graph := (register units).graph }).Accounts followed := by
  have fresh := nodup_referencesOf_accepted basePackage units
  rw [split] at fresh
  exact (accounts_register units).foldl_follow followed (List.nodup_append.1 fresh).1

/-! ## The whole account -/

/-- The report on a file whose type was declared before: the first of the files that declare it,
and the file itself. -/
def duplicate? (fs : FileSystem) (earlier : List RawText) (path : RawText) :
    Option DuplicateClass :=
  (unit? fs path).bind fun u =>
    (earlier.find? (declares fs u.typeName)).map fun first =>
      ⟨u.typeName, first.shown, path.shown⟩

/-- A file without a unit reports nothing, and no later report looks back at it. -/
theorem duplicates_units (fs : FileSystem) (paths : List RawText) :
    reportsOn duplicateUnit? (paths.filterMap (unit? fs)) = reportsOn (duplicate? fs) paths := by
  rw [reportsOn_filterMap]
  congr 1
  funext earlier path
  cases unit : unit? fs path with
  | none => simp [duplicate?, unit]
  | some u =>
    have own : u.path = path.shown := path_of_unit? unit
    rw [duplicate?, unit, Option.bind_some, Option.bind_some, duplicateUnit?, List.find?_filterMap,
      own]
    change (Option.bind (earlier.find? (declares fs u.typeName)) (unit? fs)).map _ = _
    cases found : earlier.find? (declares fs u.typeName) with
    | none => rfl
    | some first =>
      have declared : declares fs u.typeName first = true := List.find?_some found
      obtain ⟨v, firstUnit⟩ : ∃ v, unit? fs first = some v := by
        cases other : unit? fs first with
        | none => simp [declares, other] at declared
        | some v => exact ⟨v, rfl⟩
      simp [firstUnit, path_of_unit? firstUnit]

/-- The account of some files is that of their units, but for their number and their failures. -/
theorem account_ofFiles (fs : FileSystem) (basePackage : String) (paths : List RawText) :
    (ofFiles fs basePackage paths).account =
      { (ofUnits basePackage (paths.filterMap (unit? fs))).account with
        files := paths.length
        failures := paths.filterMap (failure? fs) } := by
  rw [← Extracted.units_ofFiles, ← Extracted.failures_ofFiles]
  rfl

theorem registered_ofUnits (basePackage : String) (units : List SourceUnit) :
    (ofUnits basePackage units).account.registered = (register units).accepted.length := by
  rw [← List.length_map nodeOf, ← (register_of units).nodes]
  rfl

/-- Every file is registered, turned away, unusable or without a type. Failures and duplicates are
reported in the order of the files, and a duplicate with the first file of its name. Every
reference of a registered unit becomes an edge of its own or leads to no class. -/
theorem account_ofFiles_exact (fs : FileSystem) (basePackage : String) (paths : List RawText) :
    let build := ofFiles fs basePackage paths
    let account := build.account
    let units := paths.filterMap (unit? fs)
    let registered := reportsOn firstOfName? units
    build.graph.nodes = registered.map nodeOf ∧
    account.files = paths.length ∧
    account.files = account.registered + account.duplicates.length + account.failures.length
      + paths.countP (declaresNothing fs) ∧
    account.failures = paths.filterMap (failure? fs) ∧
    account.duplicates = reportsOn (duplicate? fs) paths ∧
    account.added = build.graph.edgeCount ∧
    account.added + account.dropped
      = (registered.map fun u => (u.references basePackage).size).sum ∧
    ∀ followed reference later,
      referencesOf basePackage registered = followed ++ reference :: later →
      ((followed.foldl Linking.follow { graph := (register units).graph }).graph.connect
        reference.1 reference.2).2 ≠ .alreadyPresent := by
  intro build account units registered
  have graph : build.graph = (ofUnits basePackage units).graph :=
    graph_ofFiles fs basePackage paths
  have given : account = _ := account_ofFiles fs basePackage paths
  have accepted : (register units).accepted = registered := accepted_register units
  have followedAll : (referencesOf basePackage (register units).accepted).foldl Linking.follow
      { graph := (register units).graph } |>.Accounts _ :=
    accounts_followed (List.append_nil _).symm
  refine ⟨?_, ?_, ?_, ?_, ?_, ?_, ?_, fun followed reference later split => ?_⟩
  · rw [graph, nodes_ofUnits, accepted]
  · rw [given]
  · have read : units.length + _ + _ = _ := length_units_add fs paths
    have sorted := length_accepted_add units
    rw [← registered_ofUnits basePackage] at sorted
    rw [given, ← read, ← sorted]
    rfl
  · rw [given]
  · rw [given, ← duplicates_units]
    exact duplicates_register units
  · rw [given, graph]
    exact followedAll.added
  · rw [given, ← accepted, ← length_referencesOf]
    exact followedAll.total
  · rw [← accepted] at split
    have fresh := nodup_referencesOf_accepted basePackage units
    rw [split] at fresh
    exact (accounts_followed split).connect_ne_alreadyPresent
      fun mem => (List.nodup_append.1 fresh).2.2 reference mem reference List.mem_cons_self rfl

theorem account_shopFiles :
    let build := ofFiles shopFiles "" ["Order.java", "Shop.java"]
    let units := (["Order.java", "Shop.java"] : List RawText).filterMap (unit? shopFiles)
    referencesOf "" (reportsOn firstOfName? units) = [("Shop", "Order")] ∧
    build.account.files = 2 ∧ build.account.added = build.graph.edgeCount ∧
    build.account.added + build.account.dropped = 1 ∧
    ((register units).graph.connect "Shop" "Order").2 ≠ .alreadyPresent := by
  intro build units
  have known : units = _ := units_shopFiles
  have references : referencesOf "" (reportsOn firstOfName? units) = [("Shop", "Order")] := by
    rw [known]
    decide +kernel
  have size : ((reportsOn firstOfName? units).map fun u => (u.references "").size).sum = 1 := by
    rw [← length_referencesOf, references]
    rfl
  obtain ⟨-, files, -, -, -, added, total, fresh⟩ :=
    account_ofFiles_exact shopFiles "" ["Order.java", "Shop.java"]
  exact ⟨references, files, added, total.trans size, fresh [] ("Shop", "Order") [] references⟩

end GraphBuild

end ChangeImpact

import ChangeImpact.Graph.Impact

/-!
# Selecting tests

A test map says which test covers a class. The tests to run after a change are
those that cover an affected class, each with the chain that shows why.

## Main definitions

* `TestMap`: the test of a class, if it has one.
* `Impact.selectTests`: the selected tests in the order in which the first class
  that they cover was found.
-/

namespace ChangeImpact

/-- The test that covers a class, for the classes that have one. -/
structure TestMap where
  /-- Pairs of a class and its test. -/
  entries : List (String × String)
  /-- No class has two tests. -/
  distinct : (entries.map Prod.fst).Nodup
deriving DecidableEq

namespace TestMap

def empty : TestMap := ⟨[], .nil⟩

instance : Inhabited TestMap := ⟨empty⟩

def find? (m : TestMap) (name : String) : Option String := m.entries.lookup name

theorem isSome_find?_iff {m : TestMap} {name : String} :
    (m.find? name).isSome = true ↔ name ∈ m.entries.map Prod.fst := by
  rw [find?, List.lookup_isSome_iff, List.mem_map]
  exact exists_congr fun entry => and_congr_right fun _ => beq_iff_eq.trans eq_comm

def addIfAbsent (m : TestMap) (name test : String) : TestMap :=
  if h : (m.find? name).isSome then m
  else
    { entries := m.entries ++ [(name, test)]
      distinct := nodup_names_concat m.distinct (mt isSome_find?_iff.2 h) }

/-- Give a class a test, in place of any that it has. -/
def insert (m : TestMap) (name test : String) : TestMap where
  entries := m.entries.filter (·.1 != name) ++ [(name, test)]
  distinct := nodup_names_concat (m.distinct.sublist (List.filter_sublist.map _)) (by simp)

/-- The map of a list of pairs; a later pair replaces an earlier one of the same class. -/
def ofList (pairs : List (String × String)) : TestMap :=
  pairs.foldl (fun m p => m.insert p.1 p.2) .empty

def sorted (m : TestMap) : List (String × String) :=
  (NameSet.ofList (m.entries.map (·.1))).toList.filterMap fun n => (m.find? n).map (n, ·)

end TestMap

/-- A selected test and the chain from a changed class to the class it covers. -/
structure SelectedTest where
  test : String
  path : List String
deriving DecidableEq, Inhabited

/-- The selected tests in the order of their selection. -/
@[ext] structure Selection where
  tests : List SelectedTest
  /-- No test is selected twice. -/
  distinct : (tests.map SelectedTest.test).Nodup
deriving DecidableEq

namespace Selection

def empty : Selection := ⟨[], .nil⟩

instance : Inhabited Selection := ⟨empty⟩

def size (s : Selection) : Nat := s.tests.length

def isEmpty (s : Selection) : Bool := s.tests.isEmpty

def ids (s : Selection) : List String := s.tests.map SelectedTest.test

def pathFor? (s : Selection) (test : String) : Option (List String) :=
  (s.tests.find? (·.test == test)).map SelectedTest.path

def addIfAbsent (s : Selection) (test : String) (path : List String) : Selection :=
  if h : test ∈ s.ids then s
  else
    { tests := s.tests ++ [⟨test, path⟩]
      distinct := nodup_names_concat s.distinct h }

end Selection

namespace Impact

def selectFor (i : Impact) (tests : TestMap) (s : Selection) (name : String) : Selection :=
  match tests.find? name, i.pathTo? name with
  | some test, some path => s.addIfAbsent test path
  | _, _ => s

/-- The tests of the affected classes. Where several affected classes share a test, the one
found first justifies it. -/
def selectTests (i : Impact) (tests : TestMap) : Selection :=
  i.order.foldl (i.selectFor tests) .empty

end Impact

end ChangeImpact

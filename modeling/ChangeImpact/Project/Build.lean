import ChangeImpact.Graph.Selection
import ChangeImpact.Java.Extraction

/-!
# Building the graph and the test map

The units of a project's sources become the nodes of the graph. All of them are
registered before any reference is followed, so the order of the files decides
nothing but which of two classes of one name is kept.

## Main definitions

* `Extracted`: the units and the errors of some files.
* `GraphBuild.ofUnits`, `GraphBuild.ofFiles`: the graph with an account of its making.
* `TestMap.ofUnits`, `TestDiscovery`: which test covers which class.
-/

namespace ChangeImpact

open Java

/-- The units of some files in order, and the errors of the others. -/
structure Extracted where
  units : List SourceUnit := []
  failures : List ExtractionError := []

namespace Extracted

/-- Sort the outcomes of reading some files. A file that declares no type adds nothing. -/
def ofOutcomes : List (Except ExtractionError (Option SourceUnit)) → Extracted
  | [] => {}
  | .ok (some u) :: rest => let e := ofOutcomes rest; { e with units := u :: e.units }
  | .ok none :: rest => ofOutcomes rest
  | .error err :: rest => let e := ofOutcomes rest; { e with failures := err :: e.failures }

def ofFiles (fs : FileSystem) (paths : List RawText) : Extracted :=
  ofOutcomes (paths.map (SourceUnit.ofFile fs))

end Extracted

/-! ## The graph -/

structure BuildAccount where
  /-- How many files were read. -/
  files : Nat := 0
  /-- How many classes were registered. -/
  registered : Nat := 0
  failures : List ExtractionError := []
  duplicates : List DuplicateClass := []
  /-- How many references became edges. -/
  added : Nat := 0
  /-- How many references lead to no class of the project. -/
  dropped : Nat := 0

structure GraphBuild where
  graph : Graph := .empty
  account : BuildAccount := {}

namespace GraphBuild

def nodeOf (u : SourceUnit) : ClassNode where
  name := u.typeName
  locator := u.path
  packageName := u.packageName?.getD ""
  entity := u.isEntity
  configuration := u.isConfiguration

structure Registration where
  graph : Graph := .empty
  /-- The units that were registered, in order. -/
  accepted : List SourceUnit := []
  duplicates : List DuplicateClass := []

def Registration.add (r : Registration) (u : SourceUnit) : Registration :=
  match r.graph.register (nodeOf u) with
  | .ok graph => { r with graph, accepted := r.accepted ++ [u] }
  | .error duplicate => { r with duplicates := r.duplicates ++ [duplicate] }

/-- Register the classes of some units. The first of several with one name is kept. -/
def register (units : List SourceUnit) : Registration := units.foldl Registration.add {}

structure Linking where
  graph : Graph
  added : Nat := 0
  dropped : Nat := 0

def Linking.follow (l : Linking) (reference : String × String) : Linking :=
  match l.graph.connect reference.1 reference.2 with
  | (graph, .added) => { l with graph, added := l.added + 1 }
  | (graph, .alreadyPresent) => { l with graph }
  | (graph, .dropped) => { l with graph, dropped := l.dropped + 1 }

def referencesOf (basePackage : String) (units : List SourceUnit) : List (String × String) :=
  units.flatMap fun u => (u.references basePackage).toList.map (u.typeName, ·)

def ofUnits (basePackage : String) (units : List SourceUnit) : GraphBuild :=
  let r := register units
  let l := (referencesOf basePackage r.accepted).foldl Linking.follow { graph := r.graph }
  { graph := l.graph
    account :=
      { files := units.length
        registered := r.graph.size
        duplicates := r.duplicates
        added := l.added
        dropped := l.dropped } }

def ofFiles (fs : FileSystem) (basePackage : String) (paths : List RawText) : GraphBuild :=
  let extracted := Extracted.ofFiles fs paths
  let build := ofUnits basePackage extracted.units
  { build with
    account := { build.account with files := paths.length, failures := extracted.failures } }

end GraphBuild

/-! ## The test map -/

/-- Which tests some units are. The first test of a class is kept. -/
def TestMap.ofUnits (units : List SourceUnit) : TestMap :=
  (units.filterMap SourceUnit.testTarget?).foldl
    (fun tests (tested, test) => tests.addIfAbsent tested test) .empty

structure TestDiscovery where
  tests : TestMap := .empty
  failures : List ExtractionError := []

def TestDiscovery.ofFiles (fs : FileSystem) (paths : List RawText) : TestDiscovery :=
  let extracted := Extracted.ofFiles fs paths
  { tests := TestMap.ofUnits extracted.units, failures := extracted.failures }

end ChangeImpact

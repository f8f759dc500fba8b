import ChangeImpact.Project.Changes
import ChangeImpact.Proofs.Graph.Impact
import ChangeImpact.Proofs.Path
import ChangeImpact.Proofs.Project.Files

/-!
# Changed files and the classes they declare

A changed file is known by its stem, and a class in the graph by the name of the first
type that its file declares. The two are the same where a file is named for its first
type. Where it is not, a change of the file spreads from the stem and need not reach
the class.

## Main statements

* `Path.exists_stem?_of_endsWith`: the path of a Java source has a stem.
* `propagate_of_changed_file`: what a listed file does to the class it declares.
* `changed_file_misses_class`: a listed file whose class is not affected.
-/

namespace ChangeImpact

open Java

/-! ## Stems -/

/-- The path of a Java source has a stem. -/
theorem Path.exists_stem?_of_endsWith {path : String} (java : Text.endsWith path ".java" = true) :
    ∃ stem, Path.stem? path = some stem := by
  obtain ⟨front, pieces⟩ := Text.exists_pieces_eq_concat '/' path
  obtain ⟨start, ends⟩ := Text.exists_afterLast_eq_append (c := '/') java (by decide)
  have long : 5 ≤ (Text.afterLast '/' path).toList.length := by simp [ends]
  have leads : ∀ short ∈ ["", ".", ".."], Text.afterLast '/' path ≠ short := by
    rintro short mem same
    have bound : ∀ part ∈ ["", ".", ".."], part.toList.length < 5 := by decide
    exact absurd long (Nat.not_le.2 (same ▸ bound short mem))
  have found : fileName? path = some (Text.afterLast '/' path) := by
    rw [fileName?, parts, pieces, List.filter_append, List.filter_cons_of_pos (by simp [leads])]
    simp [leads]
  exact ⟨_, by rw [stem?, found]; rfl⟩

/-- A listed Java source changes the class of its stem. -/
theorem Changes.stem_mem_ofFileNames {output path stem : String}
    (java : Text.endsWith path ".java" = true) (stem? : Path.stem? path = some stem)
    (listed : path ∈ (Text.pieces '\n' output).map Text.trim) :
    stem ∈ Changes.ofFileNames output := by
  obtain ⟨line, mem, rfl⟩ := List.mem_map.1 listed
  rw [ofFileNames, NameSet.mem_ofList]
  refine List.mem_filterMap.2 ⟨line, mem, ?_⟩
  simp [stemOfLine?, java, stem?]

/-! ## Where a class comes from -/

theorem path_of_unit? {fs : FileSystem} {path : RawText} {u : SourceUnit}
    (h : unit? fs path = some u) : u.path = path.shown := by
  have given := ofFile_of_unit? h
  simp only [SourceUnit.ofFile, SourceUnit.ofBytes, SourceUnit.ofText] at given
  split at given
  · split at given
    · split at given
      · obtain ⟨d, -, rfl⟩ := Option.map_eq_some_iff.1 (Except.ok.inj given)
        rfl
      · cases given
    · cases given
  · cases given

/-- A registered class is the first type of the file that it is said to come from. -/
theorem GraphBuild.unit?_of_find?_ofFiles {fs : FileSystem} {basePackage : String}
    {paths : List RawText} {name : String} {node : ClassNode}
    (registered : (ofFiles fs basePackage paths).graph.find? name = some node) :
    ∃ path ∈ paths, path.shown = node.locator ∧
      ∃ u, unit? fs path = some u ∧ u.typeName = name := by
  rw [graph_ofFiles, find?_ofUnits] at registered
  obtain ⟨u, first, rfl⟩ := Option.map_eq_some_iff.1 registered
  obtain ⟨path, mem, unit⟩ := List.mem_filterMap.1 (List.mem_of_find?_eq_some first)
  exact ⟨path, mem, (path_of_unit? unit).symm, u, unit, by simpa using List.find?_some first⟩

/-! ## The change of a file -/

/-- A listed file changes the class of its stem, so it affects what that class affects. The
class that the file declares is affected if it has the name of the stem, and else exactly if a
change of some listed file spreads to it. -/
theorem propagate_of_changed_file (fs : FileSystem) (basePackage : String)
    (paths : List String) (output path name : String) (node : ClassNode)
    (registered : (GraphBuild.ofFiles fs basePackage (paths.map RawText.ofText)).graph.find? name
      = some node)
    (located : node.locator = path) (java : Text.endsWith path ".java" = true)
    (listed : path ∈ (Text.pieces '\n' output).map Text.trim) :
    let graph := (GraphBuild.ofFiles fs basePackage (paths.map RawText.ofText)).graph
    let impact := graph.propagate (Changes.ofFileNames output)
    ∃ u stem, unit? fs path = some u ∧ u.typeName = name ∧ Path.stem? path = some stem ∧
      (∀ n names, Walk graph.Affects stem n names → impact.contains n = true) ∧
      (stem = name → impact.contains name = true) ∧
      (impact.contains name = true ↔ ∃ x ∈ Changes.ofFileNames output, ∃ names,
        Walk graph.Affects x name names) := by
  intro graph impact
  obtain ⟨_, mem, shown, u, unit, typeName⟩ := GraphBuild.unit?_of_find?_ofFiles registered
  obtain ⟨text, -, rfl⟩ := List.mem_map.1 mem
  obtain rfl : text = path := by rw [← located, ← shown, RawText.shown_ofText]
  obtain ⟨stem, stem?⟩ := Path.exists_stem?_of_endsWith java
  have changed := Changes.stem_mem_ofFileNames java stem? listed
  have spreads : ∀ n names, Walk graph.Affects stem n names → impact.contains n = true :=
    fun n names walk =>
      Impact.contains_iff.2 (Graph.mem_order_propagate.2 ⟨stem, changed, names, walk⟩)
  refine ⟨u, stem, unit, typeName, stem?, spreads, ?_, ?_⟩
  · rintro rfl
    exact spreads stem [stem] (.single stem)
  · rw [Impact.contains_iff, Graph.mem_order_propagate]

/-! ## Files in the working directory -/

theorem FileSystem.read_of_lookup {entries : Entries} {outer : List Entries} {name : RawText}
    {content : ByteArray} (plain : name.IsEntryName)
    (found : entries.lookup name = some (.file content)) :
    FileSystem.read ⟨entries :: outer⟩ name = .ok content := by
  have short : ¬ longestPath < name.bytes.length :=
    Nat.not_lt.2 (Nat.le_trans plain.short (by decide))
  have nonempty : name.bytes ≠ [] := fun empty => plain.ne_empty (by cases name; simp_all; rfl)
  have followed : follow ⟨entries :: outer⟩ name = .ok ⟨.file content, mostLinks⟩ := by
    simp [follow, startOf, RawText.isAbsolute, plain.relative, plain.nul_not_mem, nonempty, short,
      plain.pieces_eq, resolve, plain.ne_empty, plain.ne_dot, plain.ne_dots, found,
      Nat.not_lt.2 plain.short]
  rw [read, followed]
  rfl

/-- The unit of a file in the working directory is that of the text in it. -/
theorem unit?_of_lookup {entries : Entries} {outer : List Entries} {name text : String}
    (plain : RawText.IsEntryName name)
    (found : entries.lookup (RawText.ofText name) = some (.file text.toUTF8)) :
    unit? ⟨entries :: outer⟩ name = (SourceUnit.ofText name text).toOption.join := by
  have decoded : String.fromUTF8? text.toUTF8 = some text := by
    rw [String.fromUTF8?, dif_pos (by simp [text.isValidUTF8])]
    rfl
  rw [unit?, SourceUnit.ofFile, FileSystem.read_of_lookup plain found]
  simp only [SourceUnit.ofBytes, decoded, RawText.shown_ofText]

/-- A class and a file named for it, and another class that is made from it. -/
def shopFiles : FileSystem :=
  ⟨[[("Order.java", .file "class Order { }".toUTF8),
     ("Shop.java", .file "class Shop { Shop(Order first) { } }".toUTF8)], []]⟩

theorem units_shopFiles : (["Order.java", "Shop.java"] : List RawText).filterMap (unit? shopFiles)
    = [{ path := "Order.java", typeName := "Order" },
       { path := "Shop.java", typeName := "Shop", parameterTypes := ["Order"] }] := by
  have order : unit? shopFiles "Order.java"
      = (SourceUnit.ofText "Order.java" "class Order { }").toOption.join :=
    unit?_of_lookup (by decide +kernel) rfl
  have shop : unit? shopFiles "Shop.java"
      = (SourceUnit.ofText "Shop.java" "class Shop { Shop(Order first) { } }").toOption.join :=
    unit?_of_lookup (by decide +kernel) rfl
  rw [List.filterMap_cons, List.filterMap_cons, order, shop]
  decide +kernel

/-- A change of a file named for its class affects the class and what uses it. -/
theorem propagate_of_changed_order :
    let graph := (GraphBuild.ofFiles shopFiles "" ["Order.java", "Shop.java"]).graph
    let impact := graph.propagate (Changes.ofFileNames "README.md\nOrder.java\n")
    graph.find? "Order" = some { name := "Order", locator := "Order.java" } ∧
    impact.contains "Order" = true ∧ impact.contains "Shop" = true := by
  intro graph impact
  have built : graph = _ :=
    units_shopFiles ▸ GraphBuild.graph_ofFiles shopFiles "" ["Order.java", "Shop.java"]
  have registered : graph.find? "Order" = some { name := "Order", locator := "Order.java" } := by
    rw [built]
    decide
  obtain ⟨u, stem, -, -, stem?, spreads, named, -⟩ := propagate_of_changed_file shopFiles ""
    ["Order.java", "Shop.java"] "README.md\nOrder.java\n" "Order.java" "Order" _ registered rfl
    (by decide) (by decide)
  obtain rfl : "Order" = stem := Option.some.inj (Eq.trans (by decide) stem?)
  have uses : graph.Affects "Order" "Shop" := by
    rw [Graph.Affects, built]
    decide
  exact ⟨registered, named rfl, spreads "Shop" _ ((Walk.single "Order").snoc uses)⟩

/-! ## A file named for another class -/

/-- A class that uses nothing is affected by its own change only. -/
theorem Graph.contains_propagate_of_unused {g : Graph} {changed : NameSet} {n : String}
    (alone : g.dependencies n = ∅) :
    (g.propagate changed).contains n = true ↔ n ∈ changed := by
  rw [Impact.contains_iff, mem_order_propagate]
  constructor
  · rintro ⟨x, hx, names, walk⟩
    rcases walk.eq_single_or_snoc with ⟨rfl, -⟩ | ⟨used, -, -, uses, -⟩
    · exact hx
    · rw [Affects, alone] at uses
      exact absurd uses NameSet.not_mem_empty
  · intro hn
    exact ⟨n, hn, [n], .single n⟩

/-- A file that declares a class of another name. -/
def helperInUtil : FileSystem := ⟨[[("Util.java", .file "class Helper { }".toUTF8)], []]⟩

theorem units_helperInUtil : (["Util.java"] : List RawText).filterMap (unit? helperInUtil)
    = [{ path := "Util.java", typeName := "Helper" }] := by
  have helper : unit? helperInUtil "Util.java"
      = (SourceUnit.ofText "Util.java" "class Helper { }").toOption.join :=
    unit?_of_lookup (by decide +kernel) rfl
  rw [List.filterMap_cons, helper]
  decide +kernel

/-- A listed file leaves its class alone if it is named for another one. -/
theorem changed_file_misses_class :
    let graph := (GraphBuild.ofFiles helperInUtil "" ["Util.java"]).graph
    graph.find? "Helper" = some { name := "Helper", locator := "Util.java" } ∧
    Text.endsWith "Util.java" ".java" = true ∧ Text.trim "Util.java" = "Util.java" ∧
    "Util.java" ∈ Text.pieces '\n' "Util.java\n" ∧
    (graph.propagate (Changes.ofFileNames "Util.java\n")).contains "Helper" = false := by
  intro graph
  have built : graph = _ :=
    units_helperInUtil ▸ GraphBuild.graph_ofFiles helperInUtil "" ["Util.java"]
  rw [built]
  refine ⟨by decide, by decide, by decide, by decide, ?_⟩
  rw [Bool.eq_false_iff, Ne, Graph.contains_propagate_of_unused (by decide)]
  decide

end ChangeImpact

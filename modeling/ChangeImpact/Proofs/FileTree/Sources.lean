import Mathlib.Data.List.Nodup
import Mathlib.Data.List.Sort
import ChangeImpact.FileTree.Sources
import ChangeImpact.Proofs.FileTree.Resolution
import ChangeImpact.Proofs.NameOrder

/-!
# Sources below a directory

In a tree without links a scan finds each visible source once and nothing else, in the
order of the parts of the paths. What it finds is known from the files of the tree alone,
so it does not matter in which order directories list their entries.

## Main definitions

* `FileTree.Relisted`: two trees that differ in the order of their listings only.
* `FileTree.HoldsSource`: a tree that stands at a path holds a source under a list of names.

## Main statements

* `FileTree.Plain.mem_sourcesAmong`: which files are found.
* `FileTree.Plain.nodup_sourcesAmong`: none of them is found twice.
* `FileSystem.scan_exact`: the sources below a directory.
-/

namespace ChangeImpact

/-! ## The order of listings -/

namespace FileTree

/-- Two trees that differ in the order of their listings only, at any depth. -/
inductive Relisted : FileTree → FileTree → Prop where
  | refl (tree : FileTree) : Relisted tree tree
  | trans {a b c : FileTree} : Relisted a b → Relisted b c → Relisted a c
  | listing {entries other : Entries} : entries.Perm other →
    Relisted (.directory entries) (.directory other)
  | inside {front back : Entries} {name : RawText} {a b : FileTree} : Relisted a b →
    Relisted (.directory (front ++ (name, a) :: back)) (.directory (front ++ (name, b) :: back))

theorem Relisted.plain {a b : FileTree} (same : Relisted a b) : a.Plain → b.Plain := by
  induction same with
  | refl => exact id
  | trans _ _ ihab ihbc => exact ihbc ∘ ihab
  | listing perm =>
    intro plain
    cases plain with
    | directory distinct proper below =>
      refine .directory ((perm.map _).nodup_iff.1 distinct) ?_ ?_
      · exact fun e he => proper e (perm.mem_iff.2 he)
      · exact fun e he => below e (perm.mem_iff.2 he)
  | inside _ ih =>
    intro plain
    cases plain with
    | directory distinct proper below =>
      simp only [List.forall_mem_append, List.forall_mem_cons] at proper below
      refine .directory (by simpa using distinct) ?_ ?_
      · simpa only [List.forall_mem_append, List.forall_mem_cons] using proper
      · simpa only [List.forall_mem_append, List.forall_mem_cons] using
          ⟨below.1, ih below.2.1, below.2.2⟩

/-- By induction on how the listings were changed; to hold a file does not mention an order. -/
theorem Relisted.holds {a b : FileTree} (same : Relisted a b) :
    ∀ names content, a.Holds names content ↔ b.Holds names content := by
  induction same with
  | refl => simp
  | trans _ _ ihab ihbc =>
    exact fun names content => (ihab names content).trans (ihbc names content)
  | listing perm =>
    intro names content
    cases names with
    | nil => simp [not_holds_nil]
    | cons name rest => simp only [holds_cons_iff, perm.mem_iff]
  | inside _ ih =>
    intro names content
    cases names with
    | nil => simp [not_holds_nil]
    | cons name rest =>
      simp only [holds_cons_iff, List.mem_append, List.mem_cons, Prod.mk.injEq, or_and_right,
        exists_or, and_assoc, exists_and_left, exists_eq_left, ih]

end FileTree

namespace FileSystem

/-! ## One entry of a directory -/

variable {path name : RawText} {budget : Nat} {around : List Entries} {names : List RawText}

/-- The entries of a directory are looked at one by one, so what is found is put together from each.
-/
theorem sourcesAmong_eq_flatMap (path : RawText) (budget : Nat) (around : List Entries)
    (entries : Entries) :
    sourcesAmong path budget around entries =
      entries.flatMap fun e => sourcesAmong path budget around [e] := by
  induction entries with
  | nil => simp [sourcesAmong]
  | cons e rest ih =>
    obtain ⟨name, node⟩ := e
    rw [List.flatMap_cons, ← ih]
    cases node with
    | file => simp only [sourcesAmong, List.append_nil]
    | directory => simp only [sourcesAmong, List.append_nil]
    | link => cases budget <;> simp only [sourcesAmong, List.append_nil]

theorem mem_sourcesAmong_file {content : ByteArray} :
    names ∈ sourcesAmong path budget around [(name, .file content)] ↔
      names = [name] ∧ isVisible name = true ∧
        (path.join name).bytes.length ≤ longestPath ∧ name.isJavaName = true := by
  simp only [sourcesAmong, List.append_nil, Bool.and_eq_true, decide_eq_true_eq]
  split_ifs <;> simp_all

theorem mem_sourcesAmong_directory {inner : Entries} :
    names ∈ sourcesAmong path budget around [(name, .directory inner)] ↔
      ∃ rest ∈ sourcesAmong (path.join name) budget (inner :: around) inner,
        name :: rest = names ∧ isVisible name = true ∧
          (path.join name).bytes.length ≤ longestPath := by
  simp only [sourcesAmong, List.append_nil, Bool.and_eq_true, decide_eq_true_eq]
  split_ifs <;> simp_all

theorem mem_sourcesAmong_iff_exists {entries : Entries} :
    names ∈ sourcesAmong path budget around entries ↔
      ∃ name node, (name, node) ∈ entries ∧
        names ∈ sourcesAmong path budget around [(name, node)] := by
  rw [sourcesAmong_eq_flatMap, List.mem_flatMap, Prod.exists]

end FileSystem

open FileSystem

/-- A tree that stands at a path holds a source under a list of names. -/
structure FileTree.HoldsSource (tree : FileTree) (path : RawText) (names : List RawText) :
    Prop where
  held : ∃ content, tree.Holds names content
  visible : ∀ name ∈ names, isVisible name = true
  java : ∃ last ∈ names.getLast?, last.isJavaName = true
  short : (names.foldl RawText.join path).bytes.length ≤ longestPath

theorem FileTree.Relisted.holdsSource_iff {a b : FileTree} (same : a.Relisted b) {path : RawText}
    {names : List RawText} : a.HoldsSource path names ↔ b.HoldsSource path names := by
  constructor
  · rintro ⟨⟨content, holds⟩, visible, java, short⟩
    exact ⟨⟨content, (same.holds _ _).1 holds⟩, visible, java, short⟩
  · rintro ⟨⟨content, holds⟩, visible, java, short⟩
    exact ⟨⟨content, (same.holds _ _).2 holds⟩, visible, java, short⟩

namespace FileTree.Plain

theorem isEntryName_of_holdsSource {tree : FileTree} (plain : tree.Plain) {path : RawText}
    {names : List RawText} (source : tree.HoldsSource path names) :
    ∀ name ∈ names, RawText.IsEntryName name := by
  obtain ⟨content, holds⟩ := source.held
  exact plain.isEntryName_of_holds holds

variable {entries : Entries} {path : RawText} {budget : Nat} {around : List Entries}
  {names : List RawText}

/-! ## Which files are found -/

/-- What is found in an entry has the name of the entry in front. -/
theorem head?_of_mem_sourcesAmong {node : FileTree} (plain : node.Plain) {name : RawText}
    (found : names ∈ sourcesAmong path budget around [(name, node)]) :
    names.head? = some name := by
  cases plain with
  | file content =>
    obtain ⟨rfl, -⟩ := mem_sourcesAmong_file.1 found
    rfl
  | directory =>
    obtain ⟨rest, -, rfl, -⟩ := mem_sourcesAmong_directory.1 found
    rfl

/-- By induction on the names, from the outermost directory to the file. -/
theorem holdsSource_of_mem_sourcesAmong (plain : (FileTree.directory entries).Plain)
    (found : names ∈ sourcesAmong path budget around entries) :
    (FileTree.directory entries).HoldsSource path names := by
  induction names generalizing entries path around with
  | nil =>
    obtain ⟨name, node, mem, found⟩ := mem_sourcesAmong_iff_exists.1 found
    have first := (plain.of_mem mem).head?_of_mem_sourcesAmong found
    simp at first
  | cons first rest ih =>
    obtain ⟨name, node, mem, found⟩ := mem_sourcesAmong_iff_exists.1 found
    have below := plain.of_mem mem
    cases node with
    | file content =>
      obtain ⟨⟨⟩, visible, short, java⟩ := mem_sourcesAmong_file.1 found
      exact ⟨⟨content, .entry mem (.file content)⟩, by simp [visible], by simp [java], short⟩
    | link target => cases below
    | directory inner =>
      obtain ⟨_, found, ⟨⟩, visible, -⟩ := mem_sourcesAmong_directory.1 found
      obtain ⟨⟨content, holds⟩, all, ⟨last, atEnd, java⟩, short⟩ := ih below found
      refine ⟨⟨content, .entry mem holds⟩, List.forall_mem_cons.2 ⟨visible, all⟩,
        ⟨last, ?_, java⟩, short⟩
      rw [List.getLast?_cons]
      simp_all

theorem mem_sourcesAmong_of_holdsSource (plain : (FileTree.directory entries).Plain)
    (source : (FileTree.directory entries).HoldsSource path names) :
    names ∈ sourcesAmong path budget around entries := by
  induction names generalizing entries path around with
  | nil =>
    obtain ⟨content, holds⟩ := source.held
    exact absurd holds not_holds_nil
  | cons name rest ih =>
    obtain ⟨⟨content, holds⟩, visible, java, short⟩ := source
    have proper := plain.isEntryName_of_holds holds
    obtain ⟨node, mem, holds⟩ := holds_cons_iff.1 holds
    have below := plain.of_mem mem
    refine mem_sourcesAmong_iff_exists.2 ⟨name, node, mem, ?_⟩
    cases node with
    | file stored =>
      obtain ⟨rfl, rfl⟩ := holds_file_iff.1 holds
      exact mem_sourcesAmong_file.2 ⟨rfl, visible name (by simp), short, by simpa using java⟩
    | link target => cases below
    | directory inner =>
      have nonempty : rest ≠ [] := by
        rintro rfl
        exact not_holds_nil holds
      -- A path that can be followed to its end can be followed to each directory on it.
      have fits := RawText.length_le_foldl_join (path.join name)
        fun n hn => proper n (List.mem_cons_of_mem _ hn)
      refine mem_sourcesAmong_directory.2
        ⟨rest, ?_, rfl, visible name (by simp), Nat.le_trans fits short⟩
      refine ih below ⟨⟨content, holds⟩, fun n hn => visible n (by simp [hn]), ?_, short⟩
      rwa [List.getLast?_cons_of_ne_nil nonempty] at java

theorem mem_sourcesAmong (plain : (FileTree.directory entries).Plain) :
    names ∈ sourcesAmong path budget around entries ↔
      (FileTree.directory entries).HoldsSource path names :=
  ⟨plain.holdsSource_of_mem_sourcesAmong, plain.mem_sourcesAmong_of_holdsSource⟩

/-! ## None is found twice -/

/-- Entries have different names, and what is found below each begins with its name. -/
theorem nodup_sourcesAmong {tree : FileTree} (plain : tree.Plain) (path : RawText) (budget : Nat)
    (around : List Entries) : (sourcesAmong path budget around tree.entries).Nodup := by
  induction plain generalizing path around with
  | file => simp [FileTree.entries, sourcesAmong]
  | directory distinct proper below ih =>
    rw [FileTree.entries, sourcesAmong_eq_flatMap, List.nodup_flatMap]
    constructor
    · intro e mem
      obtain ⟨name, node⟩ := e
      cases node with
      | file content =>
        simp only [sourcesAmong]
        split_ifs <;> simp
      | link target => cases below _ mem
      | directory inner =>
        simp only [sourcesAmong]
        split_ifs
        · rw [List.append_nil]
          exact (ih _ mem (path.join name) (inner :: around)).map List.cons_injective
        · simp
    -- What two entries give differs in its first name.
    · refine (List.pairwise_map.1 distinct).imp_of_mem ?_
      intro e e' mem mem' different names found found'
      have first := (below _ mem).head?_of_mem_sourcesAmong found
      have first' := (below _ mem').head?_of_mem_sourcesAmong found'
      exact different (Option.some.inj (first.symm.trans first'))

end FileTree.Plain

/-! ## The order of what is found -/

namespace FileSystem

theorem namesLe_iff {a b : List RawText} : namesLe a b = true ↔ ¬ List.Lex (· < ·) b a := by
  rw [namesLe, decide_eq_true_eq]
  rfl

theorem pairwise_mergeSort_namesLe {found : List (List RawText)} (distinct : found.Nodup) :
    (found.mergeSort namesLe).Pairwise (List.Lex (· < ·)) := by
  have sorted : (found.mergeSort namesLe).Pairwise fun a b => namesLe a b = true := by
    refine List.pairwise_mergeSort ?_ ?_ found
    · intro a b c
      simp only [namesLe_iff]
      exact @List.le_trans RawText _ _ _ _ a b c
    · intro a b
      simp only [Bool.or_eq_true, namesLe_iff]
      exact @List.le_total RawText _ _ a b
  have distinct' : (found.mergeSort namesLe).Nodup :=
    (List.mergeSort_perm found namesLe).nodup_iff.2 distinct
  refine sorted.imp₂ ?_ distinct'
  intro a b le different
  by_contra notBefore
  exact different (List.le_antisymm (namesLe_iff.1 le) notBefore)

/-! ## The sources below a directory -/

variable {fs : FileSystem} {root path : RawText} {tree : FileTree} {names : List RawText}

/-- The names behind the paths that are found. Their order and their members are known without the
paths. -/
theorem exists_scan_eq (located : fs.tree? root = some tree) (plain : tree.Plain) :
    ∃ found : List (List RawText), found.Pairwise (List.Lex (· < ·)) ∧
      (∀ names, names ∈ found ↔ tree.HoldsSource root names) ∧
      fs.scan root = found.map (·.foldl RawText.join root) := by
  obtain ⟨⟨around, budget⟩, directory, rfl⟩ := Option.map_eq_some_iff.1 located
  refine ⟨(sourcesAmong root budget around (around.headD [])).mergeSort namesLe,
    pairwise_mergeSort_namesLe (plain.nodup_sourcesAmong root budget around), ?_, ?_⟩
  · intro names
    rw [List.mem_mergeSort, plain.mem_sourcesAmong]
  · rw [scan, directory]

theorem mem_scan_iff (located : fs.tree? root = some tree) (plain : tree.Plain) :
    path ∈ fs.scan root ↔
      ∃ names, tree.HoldsSource root names ∧ names.foldl RawText.join root = path := by
  obtain ⟨found, -, mem, eq⟩ := exists_scan_eq located plain
  simp only [eq, List.mem_map, mem]

/-- Only a name that is a text can be passed over. -/
theorem isVisible_iff {name : RawText} :
    isVisible name = true ↔ ∀ text : String, name = text →
      Text.startsWith text "." = false ∧ text ∉ ["target", "build", "out", "node_modules"] := by
  rw [isVisible]
  cases decoded : name.text? with
  | none =>
    simp only [true_iff]
    rintro text rfl
    rw [RawText.text?_ofText] at decoded
    cases decoded
  | some text =>
    obtain rfl := RawText.eq_ofText_of_text? decoded
    constructor
    · intro visible other same
      obtain rfl := RawText.ofText_inj.1 same
      simpa [outputNames] using visible
    · intro visible
      simpa [outputNames] using visible text rfl

/-- Two sorted lists with the same members are the same. -/
theorem scan_eq_of_relisted {other : FileSystem} {tree' : FileTree}
    (located : fs.tree? root = some tree) (plain : tree.Plain)
    (located' : other.tree? root = some tree') (same : tree.Relisted tree') :
    other.scan root = fs.scan root := by
  have antisymm : Std.Antisymm (α := List RawText) (List.Lex (· < ·)) :=
    ⟨fun _ _ before after => absurd after (List.lt_asymm before)⟩
  have irrefl : Std.Irrefl (α := List RawText) (List.Lex (· < ·)) := ⟨List.lt_irrefl⟩
  obtain ⟨found, sorted, mem, eq⟩ := exists_scan_eq located plain
  obtain ⟨found', sorted', mem', eq'⟩ := exists_scan_eq located' (same.plain plain)
  have members : ∀ names, names ∈ found' ↔ names ∈ found := by
    intro names
    rw [mem, mem', same.holdsSource_iff]
  rw [eq, eq', sorted'.eq_of_mem_iff sorted members]

theorem pairwise_parts_scan (located : fs.tree? root = some tree) (plain : tree.Plain) :
    (fs.scan root).Pairwise fun p q => List.Lex (· < ·) p.parts q.parts := by
  obtain ⟨found, sorted, mem, eq⟩ := exists_scan_eq located plain
  rw [eq, List.pairwise_map]
  refine sorted.imp_of_mem ?_
  intro names names' h h' before
  rw [RawText.parts_foldl_join root (plain.isEntryName_of_holdsSource ((mem _).1 h)),
    RawText.parts_foldl_join root (plain.isEntryName_of_holdsSource ((mem _).1 h'))]
  exact before.append_left _ _

/-- The scan finds every file of the tree below a directory whose name ends in `.java`, if the way
to it passes no hidden entry and no build output and the path can be followed to its end. It
finds each of them once and nothing else. The paths come in the order of the bytes of their
parts, whatever order directories list their entries in, and nothing is asked of the name of the
directory itself. Only names that are texts count as hidden or as build output. -/
theorem scan_exact (fs : FileSystem) (root : RawText) (tree : FileTree)
    (located : fs.tree? root = some tree) (plain : tree.Plain) :
    (∀ path, path ∈ fs.scan root ↔
      ∃ names content, path = names.foldl RawText.join root ∧ tree.Holds names content ∧
        path.bytes.length ≤ longestPath ∧
        (∀ name ∈ names, ∀ text : String, name = text →
          Text.startsWith text "." = false ∧
            text ∉ ["target", "build", "out", "node_modules"]) ∧
        ∃ last ∈ names.getLast?, ∃ stem, stem ≠ [] ∧
          last.bytes = stem ++ Text.bytes ".java") ∧
    (fs.scan root).Nodup ∧
    (fs.scan root).Pairwise (fun p q => List.Lex (· < ·) p.parts q.parts) ∧
    (∀ (other : FileSystem) (tree' : FileTree), other.tree? root = some tree' →
      tree.Relisted tree' → other.scan root = fs.scan root) ∧
    ∀ names content, (∀ name ∈ names, RawText.IsEntryName name) →
      (fs.read (names.foldl RawText.join root) = .ok content ↔
        tree.Holds names content ∧
          (names.foldl RawText.join root).bytes.length ≤ longestPath) := by
  have ordered := pairwise_parts_scan located plain
  refine ⟨fun path => ?_, ?_, ordered, ?_, ?_⟩
  · simp only [mem_scan_iff located plain, ← isVisible_iff, ← RawText.isJavaName_iff]
    constructor
    · rintro ⟨names, ⟨⟨content, holds⟩, visible, java, short⟩, rfl⟩
      exact ⟨names, content, rfl, holds, short, visible, java⟩
    · rintro ⟨names, content, rfl, holds, short, visible, java⟩
      exact ⟨names, ⟨⟨content, holds⟩, visible, java, short⟩, rfl⟩
  · refine ordered.imp ?_
    rintro p _ before rfl
    exact List.lt_irrefl _ before
  · intro other tree' located' same
    exact scan_eq_of_relisted located plain located' same
  · intro names content proper
    exact read_foldl_join_eq_ok_iff located plain proper

/-! A directory with the name of build output is scanned like any other. In it stand a directory
that is named like a source, hidden entries, build output, and a directory whose name begins with
a dot and is no text. -/

def targetHolding (entries : Entries) : FileSystem :=
  ofTree (.directory [("target", .directory entries)])

/-- A name that begins with a dot, followed by a byte that begins no character. -/
def dottedNoText : RawText := ⟨[RawText.dot, 0xFF]⟩

/-- The directory that is named like a source, with what stands beside it. -/
def mixedEntries (inner : Entries) : Entries :=
  ("Core.java", .directory inner) ::
    [("Zoë.java", .file .empty), ("out", .file .empty),
      (".git", .directory [("Head.java", .file .empty)]),
      (dottedNoText, .directory [("Head.java", .file .empty)]),
      ("build", .directory [("Core.java", .file .empty)])]

/-- What the directory holds that is named like a source. -/
def innerEntries : Entries := [("notes.txt", .file .empty), ("b.java", .file .empty)]

theorem tree?_targetHolding (entries : Entries) :
    (targetHolding entries).tree? "target" = some (.directory entries) := by
  have found : (targetHolding entries).follow "target"
      = .ok ⟨.directory [entries, [("target", .directory entries)], []], mostLinks⟩ := by
    rw [follow, if_neg (by decide +kernel), if_neg (by decide +kernel), if_neg (by decide +kernel),
      show RawText.pieces "target" = [RawText.ofText "target"] by decide +kernel, startOf,
      if_neg (by decide +kernel), resolve, if_neg (by decide +kernel), if_neg (by decide +kernel),
      if_neg (by decide +kernel)]
    simp [targetHolding, ofTree, FileTree.entries, resolve]
  rw [tree?, directory?_eq_some_iff.2 found]
  rfl

theorem plain_mixedEntries : (FileTree.directory (mixedEntries innerEntries)).Plain := by
  refine .directory (by decide +kernel) (by decide +kernel) ?_
  simp only [mixedEntries, List.forall_mem_cons]
  refine ⟨.directory (by decide +kernel) (by decide +kernel) ?_, .file _, .file _,
    .directory (by decide +kernel) (by decide +kernel) ?_,
    .directory (by decide +kernel) (by decide +kernel) ?_,
    .directory (by decide +kernel) (by decide +kernel) ?_, by simp⟩
  · simp [innerEntries, FileTree.Plain.file]
  · simp [FileTree.Plain.file]
  · simp [FileTree.Plain.file]
  · simp [FileTree.Plain.file]

theorem relisted_mixedEntries :
    (FileTree.directory (mixedEntries innerEntries)).Relisted
      (.directory (mixedEntries innerEntries.reverse).reverse) := by
  have inside : (FileTree.directory (mixedEntries innerEntries)).Relisted
      (.directory (mixedEntries innerEntries.reverse)) :=
    @FileTree.Relisted.inside [] _ _ _ _ (.listing (List.reverse_perm _).symm)
  exact .trans inside (.listing (List.reverse_perm _).symm)

theorem scan_mixedEntries :
    (targetHolding (mixedEntries innerEntries)).tree? "target"
      = some (.directory (mixedEntries innerEntries)) ∧
    (FileTree.directory (mixedEntries innerEntries)).Plain ∧
    RawText.ofText "target/Core.java/b.java"
      ∈ (targetHolding (mixedEntries innerEntries)).scan "target" ∧
    ⟨Text.bytes "target/." ++ 0xFF :: Text.bytes "/Head.java"⟩
      ∈ (targetHolding (mixedEntries innerEntries)).scan "target" ∧
    RawText.ofText "target/build/Core.java"
      ∉ (targetHolding (mixedEntries innerEntries)).scan "target" ∧
    (targetHolding (mixedEntries innerEntries.reverse).reverse).scan "target"
      = (targetHolding (mixedEntries innerEntries)).scan "target" ∧
    (targetHolding (mixedEntries innerEntries)).read "target/Core.java/b.java" = .ok .empty := by
  have located := tree?_targetHolding (mixedEntries innerEntries)
  obtain ⟨mem, -, -, relisted, read⟩ := scan_exact _ _ _ located plain_mixedEntries
  have core : (["Core.java", "b.java"] : List RawText).foldl RawText.join "target"
      = "target/Core.java/b.java" := by decide +kernel
  have head : [dottedNoText, "Head.java"].foldl RawText.join "target"
      = ⟨Text.bytes "target/." ++ 0xFF :: Text.bytes "/Head.java"⟩ := by decide +kernel
  have coreHeld : (FileTree.directory (mixedEntries innerEntries)).Holds ["Core.java", "b.java"]
      .empty := .entry List.mem_cons_self (.entry (by simp [innerEntries]) (.file .empty))
  have dotted : (dottedNoText, FileTree.directory [("Head.java", .file .empty)])
      ∈ mixedEntries innerEntries := by simp [mixedEntries]
  have headHeld : (FileTree.directory (mixedEntries innerEntries)).Holds
      [dottedNoText, "Head.java"] .empty :=
    .entry dotted (.entry List.mem_cons_self (.file .empty))
  refine ⟨located, plain_mixedEntries, (mem _).2 ?_, (mem _).2 ?_, fun hidden => ?_, ?_, ?_⟩
  · refine ⟨_, _, core.symm, coreHeld, by decide +kernel, ?_,
      ⟨_, rfl, Text.bytes "b", by decide +kernel, by decide +kernel⟩⟩
    simp only [← isVisible_iff]
    decide +kernel
  · refine ⟨_, _, head.symm, headHeld, by decide +kernel, ?_,
      ⟨_, rfl, Text.bytes "Head", by decide +kernel, by decide +kernel⟩⟩
    simp only [← isVisible_iff]
    decide +kernel
  · obtain ⟨names, content, same, held, -, visible, -⟩ := (mem _).1 hidden
    have built : (["build", "Core.java"] : List RawText).foldl RawText.join "target"
        = "target/build/Core.java" := by decide +kernel
    obtain rfl : ["build", "Core.java"] = names :=
      RawText.foldl_join_injective "target" (by decide +kernel)
        (plain_mixedEntries.isEntryName_of_holds held) (built.trans same)
    exact (visible "build" (by simp) "build" rfl).2 (by simp)
  · exact relisted _ _ (tree?_targetHolding _) relisted_mixedEntries
  · rw [← core, read _ _ (by decide +kernel)]
    exact ⟨coreHeld, by decide +kernel⟩

/-! ## What is missed and what is found beyond that

Not every source that is in sight is found: the path of an entry may be too long to be followed,
and its directory may still be reached. And not all that begins with a dot is passed over. -/

/-- The working directory, written as so many steps to itself and a last one. -/
def roundabout (steps : Nat) : RawText :=
  ⟨(List.replicate steps [RawText.dot, RawText.slash]).flatten ++ [RawText.dot]⟩

theorem pieces_roundabout (steps : Nat) :
    (roundabout steps).pieces = List.replicate (steps + 1) (.ofText ".") := by
  induction steps with
  | zero => decide +kernel
  | succ steps ih =>
    have split : (roundabout (steps + 1)).bytes
        = [RawText.dot] ++ RawText.slash :: (roundabout steps).bytes := by
      simp [roundabout, List.replicate_succ]
    have first : RawText.pieces ⟨[RawText.dot]⟩ = [.ofText "."] := by decide +kernel
    rw [RawText.pieces_of_split split, first, ih, List.replicate_succ]
    rfl

theorem resolve_replicate_dot (budget steps : Nat) (around : List Entries) :
    resolve budget around (List.replicate steps (.ofText "."))
      = .ok ⟨.directory around, budget⟩ := by
  induction steps with
  | zero => simp [resolve]
  | succ steps ih => simpa [List.replicate_succ, resolve] using ih

theorem length_roundabout (steps : Nat) : (roundabout steps).bytes.length = 2 * steps + 1 := by
  simp [roundabout, Nat.mul_comm]

theorem tree?_roundabout (fs : FileSystem) {steps : Nat} (short : 2 * steps + 1 ≤ longestPath) :
    fs.tree? (roundabout steps) = some (.directory (fs.around.headD [])) := by
  have clean : (roundabout steps).bytes.contains 0 = false := by
    simp [roundabout, RawText.dot, RawText.slash]
  have relative : (roundabout steps).isAbsolute = false := by
    cases steps <;> simp [roundabout, RawText.isAbsolute, List.replicate_succ, RawText.dot,
      RawText.slash]
  have found : fs.follow (roundabout steps) = .ok ⟨.directory fs.around, mostLinks⟩ := by
    rw [follow, clean, if_neg Bool.false_ne_true, if_neg (by simp [roundabout]),
      length_roundabout, if_neg (Nat.not_lt.2 short), startOf, relative,
      if_neg Bool.false_ne_true, pieces_roundabout, resolve_replicate_dot]
  rw [tree?, directory?_eq_some_iff.2 found]
  rfl

/-- A directory can be reached by a path so long that no path to its entries can be followed. -/
theorem scan_eq_nil_of_long {entries : Entries}
    (located : fs.tree? root = some (.directory entries))
    (plain : (FileTree.directory entries).Plain)
    (long : ∀ e ∈ entries, longestPath < (root.join e.1).bytes.length) : fs.scan root = [] := by
  refine List.eq_nil_iff_forall_not_mem.2 fun path found => ?_
  obtain ⟨names, ⟨⟨content, held⟩, -, -, short⟩, -⟩ := (mem_scan_iff located plain).1 found
  have proper := plain.isEntryName_of_holds held
  cases names with
  | nil => exact FileTree.not_holds_nil held
  | cons name rest =>
    obtain ⟨node, mem, -⟩ := FileTree.holds_cons_iff.1 held
    have fits := RawText.length_le_foldl_join (root.join name)
      fun n hn => proper n (List.mem_cons_of_mem _ hn)
    exact absurd (Nat.le_trans fits short) (Nat.not_le.2 (long _ mem))

theorem length_join_roundabout (steps : Nat) {name : RawText} (proper : name.IsEntryName) :
    2 * steps + 1 + name.bytes.length ≤ ((roundabout steps).join name).bytes.length := by
  rcases RawText.bytes_join (roundabout steps) proper with ⟨joined, -⟩ | joined
  · rw [joined, List.length_append, length_roundabout]
  · rw [joined, List.length_append, length_roundabout, List.length_cons]
    omega

theorem plain_singleton {name : RawText} (proper : name.IsEntryName) {node : FileTree}
    (plain : node.Plain) : (FileTree.directory [(name, node)]).Plain :=
  .directory (by simp) (by simpa using proper) (by simpa using plain)

theorem scan_roundabout_and_dottedNoText :
    ((ofTree (.directory [("A.java", .file .empty)])).tree? (roundabout 2046)
        = some (.directory [("A.java", .file .empty)]) ∧
      (FileTree.directory [("A.java", .file .empty)]).Plain ∧
      (ofTree (.directory [("A.java", .file .empty)])).scan (roundabout 2046) = []) ∧
    (targetHolding [(dottedNoText, .directory [("Head.java", .file .empty)])]).tree? "target"
        = some (.directory [(dottedNoText, .directory [("Head.java", .file .empty)])]) ∧
      (FileTree.directory [(dottedNoText, .directory [("Head.java", .file .empty)])]).Plain ∧
      ⟨Text.bytes "target/." ++ 0xFF :: Text.bytes "/Head.java"⟩
        ∈ (targetHolding [(dottedNoText, .directory [("Head.java", .file .empty)])]).scan
          "target" := by
  have named : RawText.IsEntryName "A.java" := by decide +kernel
  have source := plain_singleton named (.file .empty)
  have dotted : (FileTree.directory
      [(dottedNoText, .directory [("Head.java", .file .empty)])]).Plain :=
    plain_singleton (by decide +kernel) (plain_singleton (by decide +kernel) (.file .empty))
  have round : (ofTree (.directory [("A.java", .file .empty)])).tree? (roundabout 2046)
      = some (.directory [("A.java", .file .empty)]) := tree?_roundabout _ (by decide)
  refine ⟨⟨round, source, scan_eq_nil_of_long round source ?_⟩, tree?_targetHolding _, dotted, ?_⟩
  · have long := length_join_roundabout 2046 named
    have six : (RawText.ofText "A.java").bytes.length = 6 := by decide +kernel
    simpa [longestPath] using Nat.lt_of_lt_of_le (by omega) long
  · refine (mem_scan_iff (tree?_targetHolding _) dotted).2
      ⟨[dottedNoText, "Head.java"], ⟨⟨.empty, ?_⟩, by decide +kernel, ?_, by decide +kernel⟩,
        by decide +kernel⟩
    · exact .entry List.mem_cons_self (.entry List.mem_cons_self (.file .empty))
    · exact ⟨_, rfl, by decide +kernel⟩

end FileSystem

end ChangeImpact

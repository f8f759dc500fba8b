import ChangeImpact.Proofs.Lookup
import ChangeImpact.Proofs.Path

/-!
# Paths into a tree

A path that goes on from a directory leads where the names behind the directory lead in
the tree below it. In a tree without links, whose directories list each name once, that
is to the file the tree holds under these names, and nowhere else.

## Main definitions

* `FileTree.Plain`: a tree without links whose directories list proper names.
* `FileTree.Holds`: a tree holds a file under a list of names.
* `FileSystem.tree?`: the tree below a directory.

## Main statements

* `FileSystem.resolve_append`: a path is followed in two steps.
* `FileSystem.follow_foldl_join`: a path that goes on from a directory.
* `FileSystem.read_foldl_join_eq_ok_iff`: what can be read below a directory.
-/

namespace ChangeImpact

/-! ## Trees without links -/

namespace FileTree

/-- A tree without links, in which every directory lists proper names, each of them once. -/
inductive Plain : FileTree → Prop where
  | file (content : ByteArray) : Plain (.file content)
  | directory {entries : Entries} : (entries.map Prod.fst).Nodup →
    (∀ e ∈ entries, RawText.IsEntryName e.1) → (∀ e ∈ entries, Plain e.2) →
    Plain (.directory entries)

/-- A tree holds a file with the given content under a list of names. -/
inductive Holds : FileTree → List RawText → ByteArray → Prop where
  | file (content : ByteArray) : Holds (.file content) [] content
  | entry {entries : Entries} {name : RawText} {node : FileTree} {names : List RawText}
    {content : ByteArray} : (name, node) ∈ entries → Holds node names content →
    Holds (.directory entries) (name :: names) content

variable {entries : Entries} {tree : FileTree} {names : List RawText} {content : ByteArray}

theorem Plain.isEntryName_of_holds (plain : tree.Plain) (holds : tree.Holds names content) :
    ∀ name ∈ names, RawText.IsEntryName name := by
  induction holds with
  | file content => simp
  | entry mem _ ih =>
    cases plain with
    | directory distinct proper below =>
      intro name inside
      rcases List.mem_cons.1 inside with rfl | inside
      · exact proper _ mem
      · exact ih (below _ mem) name inside

theorem not_holds_nil : ¬ (directory entries).Holds [] content := by
  rintro ⟨⟩

theorem holds_file_iff {stored : ByteArray} :
    (file stored).Holds names content ↔ names = [] ∧ content = stored := by
  constructor
  · rintro ⟨⟩
    exact ⟨rfl, rfl⟩
  · rintro ⟨rfl, rfl⟩
    exact .file _

theorem holds_cons_iff {name : RawText} :
    (directory entries).Holds (name :: names) content ↔
      ∃ node, (name, node) ∈ entries ∧ node.Holds names content := by
  constructor
  · rintro ⟨⟩
    exact ⟨_, ‹_›, ‹_›⟩
  · rintro ⟨node, mem, holds⟩
    exact .entry mem holds

theorem Plain.of_mem (plain : (FileTree.directory entries).Plain) {e : RawText × FileTree}
    (mem : e ∈ entries) : e.2.Plain := by
  cases plain with
  | directory _ _ below => exact below e mem

theorem Plain.of_lookup {name : RawText} {node : FileTree}
    (plain : (FileTree.directory entries).Plain) (found : entries.lookup name = some node) :
    node.Plain := by
  cases plain with
  | directory distinct _ below => exact below _ ((lookup_eq_some_iff_mem distinct).1 found)

/-- A directory lists a name once, so the entry that is found is the one that is held. -/
theorem Plain.holds_cons_iff_lookup {name : RawText} (plain : (FileTree.directory entries).Plain) :
    (FileTree.directory entries).Holds (name :: names) content ↔
      ∃ node, entries.lookup name = some node ∧ node.Holds names content := by
  cases plain with
  | directory distinct _ _ => simp only [holds_cons_iff, lookup_eq_some_iff_mem distinct]

end FileTree

namespace FileSystem

/-! ## Following a path in two steps -/

/-- Go on along a path from where its first part has led. -/
def Resolved.goOn (found : Resolved) (rest : List RawText) : Except PathFault Resolved :=
  match found.target with
  | .directory around => resolve found.budget around rest
  | .file _ => if rest.isEmpty then .ok found else .error .notDirectory

/-- A path is followed part by part, so it can be cut anywhere. -/
theorem resolve_append (budget : Nat) (around : List Entries) (parts rest : List RawText) :
    resolve budget around (parts ++ rest)
      = (resolve budget around parts).bind fun found => found.goOn rest := by
  -- Followed from a link, the pieces of its target come in front of the parts that are left.
  fun_induction resolve budget around parts <;>
    grind [resolve, Resolved.goOn, Except.bind, List.isEmpty_iff, List.append_eq_nil_iff]

/-! ## Going on from a directory -/

variable {fs : FileSystem} {root : RawText} {around : List Entries} {budget : Nat}
  {names : List RawText}

theorem directory?_eq_some_iff :
    fs.directory? root = some (around, budget) ↔
      fs.follow root = .ok ⟨.directory around, budget⟩ := by
  unfold directory?
  split <;> simp_all

/-- A slash at the end of a path that leads to a directory can be left out. -/
theorem resolve_of_resolve_concat_empty {start : List Entries} {links : Nat} {parts : List RawText}
    (found : resolve links start (parts ++ [RawText.ofText ""]) = .ok ⟨.directory around, budget⟩) :
    resolve links start parts = .ok ⟨.directory around, budget⟩ := by
  rw [resolve_append] at found
  cases first : resolve links start parts with
  | error fault => simp [first, Except.bind] at found
  | ok there =>
    obtain ⟨target, left⟩ := there
    cases target with
    | file content => simp [first, Except.bind, Resolved.goOn] at found
    | directory inner => simpa [first, Except.bind, Resolved.goOn, resolve] using found

/-- Where a path begins shows in its first byte. -/
theorem startOf_eq_of_append {path : RawText} {rest : List UInt8} (nonempty : root.bytes ≠ [])
    (behind : path.bytes = root.bytes ++ rest) : startOf around path = startOf around root := by
  obtain ⟨b, bs, split⟩ := List.exists_cons_of_ne_nil nonempty
  simp [startOf, RawText.isAbsolute, behind, split]

/-- An empty piece at the end of the root leads nowhere else, so it may be missing when names
follow. -/
theorem exists_resolve_eq_of_pieces {start : List Entries} {links : Nat}
    (proper : ∀ name ∈ names, RawText.IsEntryName name)
    (found : resolve links start root.pieces = .ok ⟨.directory around, budget⟩) :
    ∃ base, resolve links start base = .ok ⟨.directory around, budget⟩ ∧
      (names.foldl RawText.join root).pieces = base ++ names := by
  rcases eq_or_ne names [] with rfl | nonempty
  · exact ⟨_, found, by simp⟩
  · obtain ⟨base, written, pieces⟩ := RawText.exists_pieces_foldl_join root proper nonempty
    refine ⟨base, ?_, pieces⟩
    rcases written with same | slash
    · rwa [same] at found
    · rw [slash] at found
      exact resolve_of_resolve_concat_empty found

/-- A path that goes on from a directory leads where the names behind the directory lead from
there, if it is not too long. -/
theorem follow_foldl_join (located : fs.follow root = .ok ⟨.directory around, budget⟩)
    (proper : ∀ name ∈ names, RawText.IsEntryName name) :
    fs.follow (names.foldl RawText.join root) =
      if longestPath < (names.foldl RawText.join root).bytes.length then .error .nameTooLong
      else resolve budget around names := by
  obtain ⟨rest, behind, noNul⟩ := RawText.exists_bytes_foldl_join root proper
  unfold follow at located
  split_ifs at located with nul empty long
  obtain ⟨base, reached, pieces⟩ := exists_resolve_eq_of_pieces proper located
  have nonempty : (names.foldl RawText.join root).bytes ≠ [] := by simp [behind, empty]
  have clean : (names.foldl RawText.join root).bytes.contains 0 = false := by simp_all
  rw [follow, clean, if_neg Bool.false_ne_true, if_neg nonempty, pieces,
    startOf_eq_of_append empty behind, resolve_append, reached]
  rfl

/-! ## What can be read in a tree without links -/

variable {content : ByteArray}

/-- Names lead from a directory to the file that it holds under them, and to no other. -/
theorem resolve_eq_file_iff {left : Nat} (plain : (FileTree.directory (around.headD [])).Plain)
    (proper : ∀ name ∈ names, RawText.IsEntryName name) :
    resolve budget around names = .ok ⟨.file content, left⟩ ↔
      (FileTree.directory (around.headD [])).Holds names content ∧ left = budget := by
  induction names generalizing around with
  | nil => simp [resolve, FileTree.not_holds_nil]
  | cons name rest ih =>
    have own := proper name (by simp)
    rw [plain.holds_cons_iff_lookup, resolve, if_neg (by simp [own.ne_empty, own.ne_dot]),
      if_neg own.ne_dots, if_neg (Nat.not_lt.2 own.short)]
    cases found : (around.headD []).lookup name with
    | none => simp
    | some node =>
      have below := plain.of_lookup found
      cases node with
      | file stored =>
        cases rest <;> simp [FileTree.holds_file_iff, eq_comm]
      | link target => cases below
      | directory inner =>
        have inside := @ih (inner :: around) below fun n hn => proper n (by simp [hn])
        simpa using inside

theorem read_eq_ok_iff {path : RawText} :
    fs.read path = .ok content ↔ ∃ left, fs.follow path = .ok ⟨.file content, left⟩ := by
  cases found : fs.follow path with
  | error fault => simp [read, found, bind, Except.bind]
  | ok there =>
    obtain ⟨target, left⟩ := there
    cases target <;> simp [read, found, bind, Except.bind, pure, Except.pure, throw, throwThe,
      MonadExceptOf.throw]

def tree? (fs : FileSystem) (root : RawText) : Option FileTree :=
  (fs.directory? root).map fun found => .directory (found.1.headD [])

/-- What can be read below a directory is what its tree holds, as far as paths can be followed. -/
theorem read_foldl_join_eq_ok_iff {tree : FileTree} (located : fs.tree? root = some tree)
    (plain : tree.Plain) (proper : ∀ name ∈ names, RawText.IsEntryName name) :
    fs.read (names.foldl RawText.join root) = .ok content ↔
      tree.Holds names content ∧ (names.foldl RawText.join root).bytes.length ≤ longestPath := by
  obtain ⟨⟨around, budget⟩, directory, rfl⟩ := Option.map_eq_some_iff.1 located
  rw [read_eq_ok_iff, follow_foldl_join (directory?_eq_some_iff.1 directory) proper]
  split_ifs with long
  · simp [Nat.not_le.2 long]
  · simp [resolve_eq_file_iff plain proper, Nat.not_lt.1 long]

end FileSystem

end ChangeImpact

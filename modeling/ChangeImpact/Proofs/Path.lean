import ChangeImpact.FileTree.Basic
import ChangeImpact.Proofs.Text.Pieces

/-!
# Paths and their parts

A path that is made by joining names to a directory has the parts of the directory and
then the names, however the directory is written: with a slash at its end, with several
slashes in a row or with dots in between. The extension of a file can be read off its
name.

## Main definitions

* `RawText.IsEntryName`: a name under which a directory can list something.
* `RawText.parts`: the parts of a path that lead somewhere.

## Main statements

* `Path.cutList_eq_iff`: where a name is cut.
* `RawText.exists_pieces_foldl_join`, `RawText.parts_foldl_join`: names joined to a directory.
* `RawText.isJavaName_iff`, `Path.isJavaFile_iff`: a Java source has a name that ends in `.java`
  and has something in front of that.
* `Path.fileName?_eq`: the name of a file is what stands behind the last slash.
-/

namespace ChangeImpact

/-! ## Names that are cut at a dot -/

namespace Path

section

variable {α : Type} [DecidableEq α] {dot : α}

/-- With nothing in front of it, the last dot begins the name and cuts nothing off. -/
theorem cutList_append_cons (front : List α) {back : List α} (last : dot ∉ back) :
    cutList dot (front ++ dot :: back)
      = if front.isEmpty then (dot :: back, none) else (front, some back) := by
  have before : (front ++ dot :: back).take ((front ++ dot :: back).length - back.length - 1)
      = front := List.take_left' (by simp; omega)
  simp only [cutList, Text.listAfterLast_append_cons last, before]
  split <;> simp_all

/-- A name is cut at a dot if something stands in front of it and no dot behind it. -/
theorem cutList_eq_iff {name stem extension : List α} :
    cutList dot name = (stem, some extension) ↔
      name = stem ++ dot :: extension ∧ stem ≠ [] ∧ dot ∉ extension := by
  constructor
  · intro cut
    by_cases mem : dot ∈ name
    · obtain ⟨front, back, rfl, last⟩ := Text.exists_append_cons_of_mem mem
      rw [cutList_append_cons front last] at cut
      split at cut
      · simp at cut
      · rename_i nonempty
        obtain ⟨rfl, rfl⟩ : front = stem ∧ back = extension := by simpa using cut
        exact ⟨rfl, by simpa using nonempty, last⟩
    · simp [cutList, Text.listAfterLast_of_not_mem mem] at cut
  · rintro ⟨rfl, nonempty, last⟩
    rw [cutList_append_cons stem last, if_neg (by simpa using nonempty)]

end

theorem cutName_eq_iff {name stem extension : String} :
    cutName name = (stem, some extension) ↔
      name.toList = stem.toList ++ '.' :: extension.toList ∧ stem ≠ "" ∧
        '.' ∉ extension.toList := by
  have cut : cutName name = (stem, some extension) ↔
      cutList '.' name.toList = (stem.toList, some extension.toList) := by
    rcases parts : cutList '.' name.toList with ⟨front, back?⟩
    cases back? with
    | none => simp [cutName, parts]
    | some back => simp [cutName, parts, ← String.toList_inj]
  rw [cut, cutList_eq_iff]
  simp

theorem cutName_java {stem : String} (nonempty : stem ≠ "") :
    cutName (stem ++ ".java") = (stem, some "java") :=
  cutName_eq_iff.2 ⟨by simp, nonempty, by decide⟩

end Path

namespace RawText

/-- An entry is a Java source if its name ends in `.java` and has more than that. -/
theorem isJavaName_iff {name : RawText} :
    name.isJavaName = true ↔ ∃ stem, stem ≠ [] ∧ name.bytes = stem ++ Text.bytes ".java" := by
  have ending : Text.bytes ".java" = dot :: Text.bytes "java" := by decide +kernel
  have noDot : dot ∉ Text.bytes "java" := by decide +kernel
  rw [isJavaName, beq_iff_eq, ending]
  constructor
  · intro cut
    obtain ⟨split, nonempty, -⟩ := Path.cutList_eq_iff.1 (Prod.ext rfl cut)
    exact ⟨_, nonempty, split⟩
  · rintro ⟨stem, nonempty, split⟩
    rw [Path.cutList_eq_iff.2 ⟨split, nonempty, noDot⟩]

/-! ## Entries of a directory -/

/-- A name that stands for one entry of a directory. -/
structure IsEntryName (name : RawText) : Prop where
  slash_not_mem : slash ∉ name.bytes
  nul_not_mem : 0 ∉ name.bytes
  leads : name ∉ (["", ".", ".."] : List RawText)
  short : name.bytes.length ≤ FileSystem.longestName

instance decidableIsEntryName {name : RawText} : Decidable (IsEntryName name) :=
  decidable_of_iff (slash ∉ name.bytes ∧ 0 ∉ name.bytes ∧
      name ∉ (["", ".", ".."] : List RawText) ∧ name.bytes.length ≤ FileSystem.longestName)
    ⟨fun h => ⟨h.1, h.2.1, h.2.2.1, h.2.2.2⟩, fun h => ⟨h.1, h.2, h.3, h.4⟩⟩

section

variable {root name : RawText} {names : List RawText}

theorem pieces_of_split {path : RawText} {front back : List UInt8}
    (split : path.bytes = front ++ slash :: back) :
    path.pieces = pieces ⟨front⟩ ++ pieces ⟨back⟩ := by
  simp [pieces, split, Text.listPieces_append_cons]

theorem pieces_of_not_mem (h : slash ∉ name.bytes) : name.pieces = [name] := by
  simp [pieces, Text.listPieces_of_not_mem h]

namespace IsEntryName

theorem pieces_eq (h : IsEntryName name) : name.pieces = [name] :=
  pieces_of_not_mem h.slash_not_mem

theorem relative (h : IsEntryName name) : name.bytes.head? ≠ some slash :=
  fun first => h.slash_not_mem (List.mem_of_head? first)

theorem ne_empty (h : IsEntryName name) : name ≠ "" := fun e => h.leads (by simp [e])

theorem ne_dot (h : IsEntryName name) : name ≠ "." := fun e => h.leads (by simp [e])

theorem ne_dots (h : IsEntryName name) : name ≠ ".." := fun e => h.leads (by simp [e])

end IsEntryName

/-! ## Joining names to a directory -/

/-- A slash is put between the two, unless one is there or nothing comes before. -/
theorem bytes_join (root : RawText) (proper : IsEntryName name) :
    (root.join name).bytes = root.bytes ++ name.bytes ∧
      (root.bytes = [] ∨ root.bytes.getLast? = some slash) ∨
    (root.join name).bytes = root.bytes ++ slash :: name.bytes := by
  rw [join, Path.joinLists, if_neg proper.relative]
  split
  · exact .inl ⟨rfl, ‹_›⟩
  · exact .inr rfl

/-- A slash at the end of the directory adds an empty piece to it, and nothing to the path. -/
theorem exists_pieces_join (root : RawText) (proper : IsEntryName name) :
    ∃ base, (root.pieces = base ∨ root.pieces = base ++ [ofText ""]) ∧
      (root.join name).pieces = base ++ [name] := by
  rcases bytes_join root proper with ⟨joined, empty | last⟩ | joined
  · refine ⟨[], .inr ?_, ?_⟩
    · rw [pieces, empty]
      rfl
    · rw [pieces, joined, empty]
      exact proper.pieces_eq
  · obtain ⟨front, split⟩ := List.getLast?_eq_some_iff.1 last
    have inner : (root.join name).bytes = front ++ slash :: name.bytes := by
      rw [joined, split]
      simp
    refine ⟨pieces ⟨front⟩, .inr (pieces_of_split split), ?_⟩
    rw [pieces_of_split inner]
    exact congrArg _ proper.pieces_eq
  · exact ⟨_, .inl rfl, by rw [pieces_of_split joined]; exact congrArg _ proper.pieces_eq⟩

/-- A slash at the end of the root leaves an empty piece there, and the first name takes its place.
-/
theorem exists_pieces_foldl_join (root : RawText) (proper : ∀ n ∈ names, IsEntryName n)
    (nonempty : names ≠ []) :
    ∃ base, (root.pieces = base ∨ root.pieces = base ++ [ofText ""]) ∧
      (names.foldl join root).pieces = base ++ names := by
  induction names generalizing root with
  | nil => exact absurd rfl nonempty
  | cons name rest ih =>
    obtain ⟨base, written, joined⟩ := exists_pieces_join root (proper name (by simp))
    refine ⟨base, written, ?_⟩
    cases rest with
    | nil => exact joined
    | cons next more =>
      obtain ⟨base', written', pieces⟩ :=
        ih (root.join name) (fun n hn => proper n (by simp [hn])) (by simp)
      -- The name that was joined last is not empty, so it ends no slash.
      have last : base' = base ++ [name] := by
        rcases written' with same | slash
        · rw [← same, joined]
        · rw [joined] at slash
          exact absurd (List.append_inj' slash rfl).2 (by simp [(proper name (by simp)).ne_empty])
      rw [List.foldl_cons, pieces, last]
      simp

/-- The parts of a path that lead somewhere. -/
def parts (path : RawText) : List RawText :=
  path.pieces.filter fun part => part != ofText "" && part != ofText "."

theorem parts_foldl_join (root : RawText) (proper : ∀ n ∈ names, IsEntryName n) :
    (names.foldl join root).parts = root.parts ++ names := by
  cases names with
  | nil => simp
  | cons name rest =>
    obtain ⟨base, written, pieces⟩ := exists_pieces_foldl_join root proper (by simp)
    have all : (name :: rest).filter (fun part => part != ofText "" && part != ofText ".")
        = name :: rest := by
      refine List.filter_eq_self.2 fun n hn => ?_
      simp [(proper n hn).ne_empty, (proper n hn).ne_dot]
    have outer : root.parts = base.filter fun part => part != ofText "" && part != ofText "." := by
      rcases written with same | slash
      · rw [parts, same]
      · rw [parts, slash]
        simp
    rw [parts, pieces, List.filter_append, all, outer]

/-- The parts of such a path are those of the root and then the names, which can be read off again.
-/
theorem foldl_join_injective (root : RawText) {names' : List RawText}
    (proper : ∀ n ∈ names, IsEntryName n) (proper' : ∀ n ∈ names', IsEntryName n)
    (same : names.foldl join root = names'.foldl join root) : names = names' := by
  have parts := congrArg parts same
  rw [parts_foldl_join root proper, parts_foldl_join root proper'] at parts
  exact List.append_cancel_left parts

/-- Joining names to a directory only adds bytes behind it. -/
theorem exists_bytes_foldl_join (root : RawText) (proper : ∀ n ∈ names, IsEntryName n) :
    ∃ rest, (names.foldl join root).bytes = root.bytes ++ rest ∧ 0 ∉ rest := by
  induction names generalizing root with
  | nil => exact ⟨[], by simp, by simp⟩
  | cons name names ih =>
    obtain ⟨rest, behind, noNul⟩ := ih (root.join name) fun n hn => proper n (by simp [hn])
    have plain := (proper name (by simp)).nul_not_mem
    rw [List.foldl_cons, behind]
    rcases bytes_join root (proper name (by simp)) with ⟨joined, -⟩ | joined
    · exact ⟨name.bytes ++ rest, by simp [joined], by simp [plain, noNul]⟩
    · exact ⟨slash :: name.bytes ++ rest, by simp [joined], by simp [plain, noNul, slash]⟩

theorem length_le_foldl_join (root : RawText) (proper : ∀ n ∈ names, IsEntryName n) :
    root.bytes.length ≤ (names.foldl join root).bytes.length := by
  obtain ⟨rest, behind, -⟩ := exists_bytes_foldl_join root proper
  rw [behind, List.length_append]
  exact Nat.le_add_right _ _

end

end RawText

/-! ## The name of a file -/

namespace Path

/-- A path that does not end in a slash or in a dot behind one is named for what stands behind its
last slash. -/
theorem fileName?_eq {path : String} (noSlash : Text.endsWith path "/" = false)
    (noDot : Text.endsWith path "/." = false) :
    fileName? path = if Text.afterLast '/' path ∈ ["", ".", ".."] then none
      else some (Text.afterLast '/' path) := by
  obtain ⟨front, pieces⟩ := Text.exists_pieces_eq_concat '/' path
  have setOff : ∀ last, Text.endsWith path ("/" ++ last) = false →
      Text.afterLast '/' path = last → path = last := by
    intro last notEnd rfl
    rcases Text.afterLast_cases '/' path with ⟨-, whole⟩ | ⟨front, split⟩
    · exact whole.symm
    · exact absurd (Text.endsWith_iff.2 ⟨front.toList, by simpa using split⟩)
        (Bool.eq_false_iff.1 notEnd)
  split
  · rename_i special
    simp only [List.mem_cons, List.not_mem_nil, or_false] at special
    rcases special with empty | dot | dots
    · rw [setOff "" noSlash empty]
      decide +kernel
    · rw [setOff "." noDot dot]
      decide +kernel
    · simp [fileName?, parts, pieces, List.filter_append, dots]
  · rename_i proper
    simp only [List.mem_cons, List.not_mem_nil, or_false, not_or] at proper
    simp [fileName?, parts, pieces, List.filter_append, proper]

/-- A Java source is known by the end of its name, unless that is all of its name. -/
theorem isJavaFile_iff {path : String} :
    isJavaFile path = true ↔ ∃ stem, stem ≠ "" ∧ fileName? path = some (stem ++ ".java") := by
  simp only [isJavaFile, extension?, beq_iff_eq, Option.bind_eq_some_iff]
  constructor
  · rintro ⟨name, found, extension⟩
    obtain ⟨split, nonempty, -⟩ := cutName_eq_iff.1 (Prod.ext rfl extension)
    refine ⟨(cutName name).1, nonempty, ?_⟩
    rw [found]
    exact congrArg some (String.toList_inj.1 (by simpa using split))
  · rintro ⟨stem, nonempty, found⟩
    exact ⟨_, found, by rw [cutName_java nonempty]⟩

theorem stem?_of_fileName? {path stem : String} (nonempty : stem ≠ "")
    (found : fileName? path = some (stem ++ ".java")) : stem? path = some stem := by
  rw [stem?, found, Option.map_some, cutName_java nonempty]

end Path

end ChangeImpact

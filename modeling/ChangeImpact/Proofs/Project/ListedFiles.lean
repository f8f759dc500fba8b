import ChangeImpact.Project.Changes
import ChangeImpact.Proofs.Graph.Observation
import ChangeImpact.Proofs.Path

/-!
# Listed files and the sources they stand for

Which classes a list of files stands for is a matter of its lines alone: not of their
order, of how often they come or of how they end. A line stands for a class if it names
a Java source in the sense in which sources are looked for, and the class is what the
file is called without `.java`. The two senses part only where a path ends in a slash or
in a dot behind one, which a look for sources passes over, and at a file that has
nothing but the extension for a name.

## Main definitions

* `Listing`: a text as its lines, with the way in which each of them ends.

## Main statements

* `Changes.mem_ofFileNames`: the classes of a text are those of its trimmed lines.
* `Changes.stemOfLine?_eq_some_iff`: which class a line stands for.
* `Changes.ofFileNames_exact`: both of them, for every listing.
-/

namespace ChangeImpact

/-! ## Texts made of lines -/

inductive LineEnding where
  | lf
  | crlf
deriving DecidableEq

def LineEnding.text : LineEnding → String
  | .lf => "\n"
  | .crlf => "\r\n"

/-- A carriage return is trimmed off with the blanks, so either ending leaves the same line. -/
theorem LineEnding.map_trim_pieces (ending : LineEnding) {line : String}
    (oneLine : '\n' ∉ line.toList) (rest : String) :
    (Text.pieces '\n' (line ++ ending.text ++ rest)).map Text.trim
      = Text.trim line :: (Text.pieces '\n' rest).map Text.trim := by
  cases ending with
  | lf =>
    have split : (line ++ "\n" ++ rest).toList = line.toList ++ '\n' :: rest.toList := by simp
    rw [text, Text.pieces_of_split split, Text.pieces_of_not_mem oneLine]
    rfl
  | crlf =>
    have split : (line ++ "\r\n" ++ rest).toList
        = (line.push '\r').toList ++ '\n' :: rest.toList := by simp
    rw [text, Text.pieces_of_split split, Text.pieces_of_not_mem (by simp [oneLine]),
      List.singleton_append, List.map_cons, Text.trim_push (by decide)]

/-- The lines of a text, each with its ending, and what stands behind the last ending. -/
structure Listing where
  ended : List (String × LineEnding)
  last : String
  oneLine : ∀ line ∈ ended.map Prod.fst ++ [last], '\n' ∉ line.toList

namespace Listing

def lines (l : Listing) : List String := l.ended.map Prod.fst ++ [l.last]

def text (l : Listing) : String :=
  l.ended.foldr (fun line rest => line.1 ++ line.2.text ++ rest) l.last

/-- Every text has lines. -/
theorem exists_text_eq (text : String) : ∃ l : Listing, l.text = text := by
  generalize length : text.toList.length = n
  induction n using Nat.strong_induction_on generalizing text with
  | _ n ih =>
    by_cases ends : '\n' ∈ text.toList
    · obtain ⟨front, back, split, notMem⟩ := List.eq_append_cons_of_mem ends
      have shorter : back.length < n := by
        rw [← length, split, List.length_append, List.length_cons]
        omega
      obtain ⟨⟨ended, last, oneLine⟩, rest⟩ := ih _ shorter (String.ofList back) (by simp)
      refine ⟨⟨(String.ofList front, .lf) :: ended, last, ?_⟩, String.toList_inj.1 ?_⟩
      · intro line mem
        rcases List.mem_cons.1 mem with rfl | mem
        · simpa using notMem
        · exact oneLine line mem
      · simp only [Listing.text] at rest
        simp only [Listing.text, List.foldr_cons, rest]
        simp [LineEnding.text, split]
    · exact ⟨⟨[], text, by simpa using ends⟩, rfl⟩

/-- Trimming makes endings alike. -/
theorem map_trim_pieces_text (l : Listing) :
    (Text.pieces '\n' l.text).map Text.trim = l.lines.map Text.trim := by
  obtain ⟨ended, last, oneLine⟩ := l
  simp only [text, lines]
  induction ended with
  | nil => rw [List.foldr_nil, Text.pieces_of_not_mem (oneLine last (by simp))]; rfl
  | cons line ended ih =>
    have rest := ih fun other mem => oneLine other (List.mem_cons_of_mem _ mem)
    rw [List.foldr_cons, line.2.map_trim_pieces (oneLine line.1 (by simp)), rest]
    rfl

end Listing

namespace Changes

/-! ## Lines as a set -/

theorem stemOfLine?_trim (line : String) : stemOfLine? (Text.trim line) = stemOfLine? line := by
  simp [stemOfLine?, Text.trim_trim]

theorem mem_ofFileNames {text stem : String} :
    stem ∈ ofFileNames text ↔
      ∃ line ∈ (Text.pieces '\n' text).map Text.trim, stemOfLine? line = some stem := by
  simp [ofFileNames, stemOfLine?_trim]

/-- The classes of a text do not change with the order, the number and the endings of its lines. -/
theorem ofFileNames_eq_of_mem_lines_iff {a b : Listing}
    (same : ∀ line, line ≠ "" → (line ∈ a.lines ↔ line ∈ b.lines)) :
    ofFileNames a.text = ofFileNames b.text := by
  have blank : stemOfLine? "" = none := by decide +kernel
  refine NameSet.ext fun stem => ?_
  rw [mem_ofFileNames, mem_ofFileNames, a.map_trim_pieces_text, b.map_trim_pieces_text]
  simp only [List.mem_map, exists_exists_and_eq_and, stemOfLine?_trim]
  refine exists_congr fun line => and_congr_left fun stands => same line ?_
  rintro rfl
  exact absurd stands (by simp [blank])

/-! ## What a line stands for -/

/-- A trimmed line that ends in the name of a file stands for a class exactly if it names a Java
source, unless the file has nothing but the extension for a name. -/
theorem stemOfLine?_eq_some_iff {line stem : String} (trimmed : Text.trim line = line)
    (noSlash : Text.endsWith line "/" = false) (noDot : Text.endsWith line "/." = false)
    (named : Text.afterLast '/' line ≠ ".java") :
    stemOfLine? line = some stem ↔
      Path.isJavaFile line = true ∧ Text.afterLast '/' line = stem ++ ".java" := by
  have nonempty : ∀ front, Text.afterLast '/' line = front ++ ".java" → front ≠ "" := by
    rintro front last rfl
    exact named last
  have found : ∀ front, Text.afterLast '/' line = front ++ ".java" →
      Path.fileName? line = some (front ++ ".java") := by
    intro front last
    have long : 5 ≤ (front ++ ".java").toList.length := by simp
    have short : ∀ part ∈ ["", ".", ".."], part.toList.length < 5 := by decide
    have proper : front ++ ".java" ∉ ["", ".", ".."] := fun mem =>
      absurd (short _ mem) (Nat.not_lt.2 long)
    rw [Path.fileName?_eq noSlash noDot, last, if_neg proper]
  simp only [stemOfLine?, trimmed, Option.ite_none_right_eq_some]
  constructor
  · rintro ⟨ends, stem?⟩
    obtain ⟨front, last⟩ := Text.exists_afterLast_eq_append (c := '/') ends (by decide)
    have java := Path.isJavaFile_iff.2 ⟨front, nonempty front last, found front last⟩
    rw [Path.stem?_of_fileName? (nonempty front last) (found front last)] at stem?
    exact ⟨java, by rw [last, Option.some.inj stem?]⟩
  · rintro ⟨-, last⟩
    refine ⟨?_, Path.stem?_of_fileName? (nonempty stem last) (found stem last)⟩
    rcases Text.afterLast_cases '/' line with ⟨-, whole⟩ | ⟨front, split⟩
    · exact Text.endsWith_iff.2 ⟨stem.toList, by rw [← whole, last, String.toList_append]⟩
    · exact Text.endsWith_iff.2 ⟨front.toList ++ '/' :: stem.toList, by simp [split, last]⟩

/-- The conditions leave out directories, and a name that is nothing but an extension. -/
theorem isSome_stemOfLine? {line : String} (trimmed : Text.trim line = line)
    (noSlash : Text.endsWith line "/" = false) (noDot : Text.endsWith line "/." = false)
    (named : Text.afterLast '/' line ≠ ".java") :
    (stemOfLine? line).isSome = Path.isJavaFile line := by
  rw [Bool.eq_iff_iff, Option.isSome_iff_exists]
  simp only [stemOfLine?_eq_some_iff trimmed noSlash noDot named, exists_and_left,
    and_iff_left_iff_imp]
  intro java
  obtain ⟨stem, -, found⟩ := Path.isJavaFile_iff.1 java
  rw [Path.fileName?_eq noSlash noDot] at found
  split at found
  · cases found
  · exact ⟨stem, Option.some.inj found⟩

/-- A list of files stands for the classes of its lines. Whatever their order, however often they
come and in whichever way they end, the classes are the same. A trimmed line that ends in the name
of a file adds a class exactly if it names a Java source, and the class is the name of the file
without the `.java` at its end. -/
theorem ofFileNames_exact :
    (∀ text stem, stem ∈ ofFileNames text ↔
      ∃ line ∈ (Text.pieces '\n' text).map Text.trim, stemOfLine? line = some stem) ∧
    (∀ text, ∃ l : Listing, l.text = text) ∧
    (∀ a b : Listing, (∀ line, line ≠ "" → (line ∈ a.lines ↔ line ∈ b.lines)) →
      ofFileNames a.text = ofFileNames b.text) ∧
    ∀ line, Text.trim line = line → Text.endsWith line "/" = false →
      Text.endsWith line "/." = false → Text.afterLast '/' line ≠ ".java" →
      (stemOfLine? line).isSome = Path.isJavaFile line ∧
      ∀ stem, stemOfLine? line = some stem ↔
        Path.isJavaFile line = true ∧ Text.afterLast '/' line = stem ++ ".java" := by
  refine ⟨fun _ _ => mem_ofFileNames, Listing.exists_text_eq,
    fun _ _ same => ofFileNames_eq_of_mem_lines_iff same, ?_⟩
  intro line trimmed noSlash noDot named
  exact ⟨isSome_stemOfLine? trimmed noSlash noDot named,
    fun _ => stemOfLine?_eq_some_iff trimmed noSlash noDot named⟩

/-- A source and a note, listed once with either ending. -/
def mixedListing : Listing where
  ended := [("shop/Été.v2.java", .crlf), ("README.md", .lf)]
  last := ""
  oneLine := by decide

/-- The same lines in another order, one of them twice. -/
def repeatedListing : Listing where
  ended := [("README.md", .lf), ("shop/Été.v2.java", .lf)]
  last := "shop/Été.v2.java"
  oneLine := by decide

/-- The two listings stand for the same class, whose name keeps its first dot. -/
theorem ofFileNames_mixedListing :
    ofFileNames mixedListing.text = ofFileNames repeatedListing.text ∧
    Text.trim "shop/Été.v2.java" = "shop/Été.v2.java" ∧
    Path.isJavaFile "shop/Été.v2.java" = true ∧
    stemOfLine? "shop/Été.v2.java" = some "Été.v2" := by
  obtain ⟨-, -, sameLines, stands⟩ := ofFileNames_exact
  have trimmed : Text.trim "shop/Été.v2.java" = "shop/Été.v2.java" := by decide +kernel
  have java : Path.isJavaFile "shop/Été.v2.java" = true := by decide +kernel
  obtain ⟨-, stem⟩ := stands "shop/Été.v2.java" trimmed (by decide) (by decide) (by decide)
  refine ⟨sameLines _ _ fun line nonempty => ?_, trimmed, java,
    (stem "Été.v2").2 ⟨java, by decide +kernel⟩⟩
  grind [Listing.lines, mixedListing, repeatedListing]

end Changes

end ChangeImpact

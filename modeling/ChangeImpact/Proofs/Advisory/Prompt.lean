import ChangeImpact.Advisory.Prompt
import ChangeImpact.Proofs.Json.Lines
import ChangeImpact.Proofs.Project.Documents
import ChangeImpact.Proofs.Text.Pieces

/-!
# The fenced block of a prompt

Whatever the classes of a graph are called, the block that shows the graph to an advisor
begins and ends where it should: no line of the graph looks like a fence, because no line
of it begins with a backtick. What stands in the block determines the graph.

## Main statements

* `Advisory.exists_pieces_prompt`: the lines of a prompt.
* `Advisory.head_ne_of_mem_pieces_pretty`: no line of the graph begins as a fence does.
* `Advisory.prompt_fenced`: the block of a prompt, and that it says all about the graph.
-/

namespace ChangeImpact

/-! ## Graphs as JSON -/

theorem Json.strings_injective : Function.Injective Json.strings := by
  intro xs ys same
  exact List.map_injective_iff.2 (fun _ _ => Json.string.inj) (Json.array.inj same)

theorem Projection.toJson_injective : Function.Injective Projection.toJson := by
  intro p q same
  have entries := Json.object.inj same
  refine Projection.ext (List.map_injective_iff.2 ?_ entries)
  intro a b entry
  obtain ⟨name, uses, users⟩ := a
  obtain ⟨name', uses', users'⟩ := b
  simp only [Prod.mk.injEq, Json.object.injEq, List.cons.injEq, true_and, and_true] at entry
  obtain ⟨rfl, dependsOn, dependedOnBy⟩ := entry
  rw [Json.strings_injective dependsOn, Json.strings_injective dependedOnBy]

/-- What is written can be read back, so no two projections are written the same. -/
theorem Projection.pretty_toJson_injective :
    Function.Injective fun p : Projection => p.toJson.pretty := by
  intro p q same
  refine Projection.toJson_injective (Option.some.inj ?_)
  rw [← Json.parse?_pretty p.wholeNumbers_toJson, ← Json.parse?_pretty q.wholeNumbers_toJson]
  exact congrArg Json.parse? same

namespace Advisory

/-! ## Lines -/

theorem toList_intercalate_newline (lines : List (List Char)) :
    ("\n".intercalate (lines.map String.ofList ++ [""])).toList = lines.flatMap (· ++ ['\n']) := by
  induction lines with
  | nil => simp
  | cons line lines ih =>
    rw [List.flatMap_cons, ← ih]
    cases lines <;> simp [String.intercalate_cons_cons]

set_option maxRecDepth 4000 in
/-- The lines in front of the block begin with no backtick and have no control characters. -/
theorem exists_headLines : ∃ lines : List (List Char),
    promptHead = "\n".intercalate (lines.map String.ofList ++ [""]) ∧
    (lines.all fun line => line.head? != some '`' && line.all (32 ≤ ·.toNat)) = true :=
  ⟨[_, _, _, _, _, _, _, _, _, _, _, _, _], rfl, by decide +kernel⟩

theorem toList_prompt (p : Projection) :
    (prompt p).toList = promptHead.toList ++ (openingFence.toList ++ '\n' ::
      (p.toJson.pretty.toList ++ '\n' :: (closingFence.toList ++ ['\n']))) := by
  have newline : "\n".toList = ['\n'] := rfl
  simp only [prompt, String.toList_append, newline, List.append_assoc, List.cons_append,
    List.nil_append]

/-- In front of the block there are lines that are no fences. -/
theorem exists_pieces_prompt (p : Projection) : ∃ before,
    Text.pieces '\n' (prompt p)
      = before ++ openingFence :: (Text.pieces '\n' p.toJson.pretty ++ [closingFence, ""]) ∧
    openingFence ∉ before ∧ closingFence ∉ before := by
  obtain ⟨lines, head, plain⟩ := exists_headLines
  simp only [List.all_eq_true, Bool.and_eq_true, bne_iff_ne, decide_eq_true_eq] at plain
  have oneLine : ∀ line ∈ lines, '\n' ∉ line := fun line mem newline =>
    absurd ((plain line mem).2 _ newline) (by decide)
  have noTick : ∀ line ∈ lines.map String.ofList, line.toList.head? ≠ some '`' := by
    intro text mem
    obtain ⟨line, inside, rfl⟩ := List.mem_map.1 mem
    simpa using (plain line inside).1
  refine ⟨lines.map String.ofList, ?_, fun mem => noTick _ mem rfl, fun mem => noTick _ mem rfl⟩
  have opening : '\n' ∉ openingFence.toList := by decide
  have closing : '\n' ∉ closingFence.toList := by decide
  rw [Text.pieces, toList_prompt, head, toList_intercalate_newline,
    Text.listPieces_flatMap_append oneLine, Text.listPieces_append_cons,
    Text.listPieces_append_cons, Text.listPieces_append_cons, Text.listPieces_of_not_mem opening,
    Text.listPieces_of_not_mem closing]
  simp [Text.pieces, Text.listPieces]

theorem exists_prettyChars_eq_cons (p : Projection) :
    ∃ cs, p.toJson.prettyChars 0 = '\x7b' :: cs := by
  obtain ⟨entries⟩ := p
  cases entries <;> exact ⟨_, rfl⟩

/-- No line of a written graph begins with a backtick: the first one begins with a brace, and the
others with a blank or with the brace that closes the graph. -/
theorem head_ne_of_mem_pieces_pretty (p : Projection) {line : String}
    (mem : line ∈ Text.pieces '\n' p.toJson.pretty) : line.toList.head? ≠ some '`' := by
  obtain ⟨piece, written, rfl⟩ := List.mem_map.1 mem
  rw [Json.pretty, String.toList_ofList] at written
  rw [String.toList_ofList]
  intro tick
  obtain ⟨rest, rfl⟩ := List.head?_eq_some_iff.1 tick
  obtain ⟨first, more, split⟩ :=
    List.exists_cons_of_ne_nil (Text.listPieces_ne_nil '\n' (p.toJson.prettyChars 0))
  obtain ⟨⟨back, begins⟩, behind⟩ := Text.append_of_listPieces_eq_cons split
  rw [split, List.mem_cons] at written
  rcases written with rfl | later
  · obtain ⟨cs, brace⟩ := exists_prettyChars_eq_cons p
    rw [brace, List.cons_append] at begins
    exact absurd (List.cons.inj begins).1 (by decide)
  · obtain ⟨front, back, split⟩ := behind _ later
    have laid := (p.wholeNumbers_toJson.laid_prettyChars 0).begins
    have begin := List.isChain_iff_forall_rel_of_append_cons_cons.1 laid split rfl
    exact absurd begin (by decide)

/-- The lines of the graph begin with a brace, a blank or a bracket, and a fence begins with none of
them. -/
theorem openingFence_not_mem (p : Projection) :
    openingFence ∉ Text.pieces '\n' p.toJson.pretty := fun mem =>
  head_ne_of_mem_pieces_pretty p mem rfl

theorem closingFence_not_mem (p : Projection) :
    closingFence ∉ Text.pieces '\n' p.toJson.pretty := fun mem =>
  head_ne_of_mem_pieces_pretty p mem rfl

theorem return_not_mem_prompt (p : Projection) : '\r' ∉ (prompt p).toList := by
  obtain ⟨lines, head, plain⟩ := exists_headLines
  simp only [List.all_eq_true, Bool.and_eq_true, decide_eq_true_eq] at plain
  have before : '\r' ∉ promptHead.toList := by
    rw [head, toList_intercalate_newline]
    intro mem
    obtain ⟨line, inside, mem⟩ := List.mem_flatMap.1 mem
    rcases List.mem_append.1 mem with mem | mem
    · exact absurd ((plain line inside).2 _ mem) (by decide)
    · exact absurd mem (by decide)
  have graph : '\r' ∉ p.toJson.pretty.toList := by
    rw [Json.pretty, String.toList_ofList]
    intro mem
    exact absurd ((p.wholeNumbers_toJson.laid_prettyChars 0).plain _ mem) (by decide)
  rw [toList_prompt]
  simp [openingFence, closingFence, before, graph]

/-- What stands around the graph is the same in all questions, so the graph can be cut out again. -/
theorem prompt_injective : Function.Injective prompt := by
  intro p q same
  refine Projection.pretty_toJson_injective (String.toList_inj.1 ?_)
  have chars := congrArg String.toList same
  rw [toList_prompt, toList_prompt] at chars
  exact List.append_cancel_right
    (List.cons.inj (List.append_cancel_left (List.append_cancel_left chars))).2

/-- The lines of a prompt are some that are no fences, the opening fence, the lines of the graph as
JSON, none of which is a fence, and the closing fence with the line break behind it. So each fence
is there once, there is no other kind of line break, and graphs with the same prompt are the
same. -/
theorem prompt_fenced (p : Projection) :
    let lines := Text.pieces '\n' (prompt p)
    let graph := Text.pieces '\n' p.toJson.pretty
    (∃ before, lines = before ++ openingFence :: (graph ++ [closingFence, ""]) ∧
      openingFence ∉ before ∧ closingFence ∉ before) ∧
    openingFence ∉ graph ∧ closingFence ∉ graph ∧
    lines.count openingFence = 1 ∧ lines.count closingFence = 1 ∧
    '\r' ∉ (prompt p).toList ∧ ∀ q, prompt q = prompt p → q = p := by
  intro lines graph
  obtain ⟨before, parts, headOpening, headClosing⟩ := exists_pieces_prompt p
  refine ⟨⟨before, parts, headOpening, headClosing⟩, openingFence_not_mem p, closingFence_not_mem p,
    ?_, ?_, return_not_mem_prompt p, fun q same => prompt_injective same⟩
  · rw [show lines = _ from parts, List.count_append, List.count_cons_self, List.count_append,
      List.count_eq_zero.2 headOpening, List.count_eq_zero.2 (openingFence_not_mem p)]
    decide
  · rw [show lines = _ from parts, List.count_append, List.count_cons_of_ne (by decide),
      List.count_append, List.count_eq_zero.2 headClosing,
      List.count_eq_zero.2 (closingFence_not_mem p)]
    decide

/-- Classes with the fences for names, set off by line breaks. -/
def fenceNames : Projection where
  entries := [("\n```json\n", ⟨[], ["```"]⟩), ("```", ⟨["\n```json\n"], []⟩)]
  sorted := by decide

theorem prompt_fenced_fenceNames :
    (Text.pieces '\n' (prompt fenceNames)).count openingFence = 1 ∧
    (Text.pieces '\n' (prompt fenceNames)).count closingFence = 1 ∧
    (∃ q, prompt q = prompt fenceNames ∧ q = fenceNames) ∧
    prompt ⟨[("```", ⟨["\n```json\n"], []⟩)], List.pairwise_singleton _ _⟩
      ≠ prompt fenceNames := by
  obtain ⟨-, -, -, opening, closing, -, same⟩ := prompt_fenced fenceNames
  exact ⟨opening, closing, ⟨fenceNames, rfl, same fenceNames rfl⟩,
    fun shorter => absurd (same _ shorter) (by decide)⟩

end Advisory

end ChangeImpact

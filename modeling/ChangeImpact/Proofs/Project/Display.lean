import ChangeImpact.Project.Summary
import ChangeImpact.Proofs.NameOrder
import ChangeImpact.Proofs.Text.Sink

/-!
# What is left of an outcome on two sinks

The tests of an outcome reach their sink as far as it has room, whatever becomes of the
summary on the other one. It does not matter into how many pieces a text is cut on its
way, so a sink may fill up in the middle of a line or of a character.

## Main statements

* `Outcome.display_exact`: what the two sinks hold and what is reported, for all limits.
-/

namespace ChangeImpact

theorem Text.bytes_join (texts : List String) :
    Text.bytes (String.join texts) = texts.flatMap Text.bytes := by
  simp only [funext bytes_eq_flatMap, String.toList_join, List.flatMap_assoc]

/-- Where a text is cut on its way to a sink makes no difference. -/
theorem Sink.writeAll_eq_write_join (s : Sink) (pieces : List String) :
    s.writeAll pieces = s.write (Text.bytes (String.join pieces)) := by
  rw [writeAll_eq_write, Text.bytes_join]

namespace Outcome

/-- The summary is written to a sink of its own, and what becomes of it does not matter here. -/
theorem tests_display (wanted : Bool) (o : Outcome) (tests summary : Sink) :
    ((o.display wanted tests summary).tests, (o.display wanted tests summary).ok)
      = tests.write (Text.bytes (String.join o.testLines)) :=
  tests.writeAll_eq_write_join o.testLines

theorem summary_display (wanted : Bool) (o : Outcome) (tests summary : Sink) :
    (o.display wanted tests summary).summary
      = (summary.write (Text.bytes (String.join (o.summaryLines wanted)))).1 :=
  congrArg Prod.fst (summary.writeAll_eq_write_join (o.summaryLines wanted))

/-- The sink for tests holds the longest beginning of the lines with the selected tests that it
has room for, and all is well exactly if that is the whole of them. The sink for the summary makes
no difference to either; it holds the longest beginning of the summary that it has room for. All of
this is so in whatever pieces the two texts are written. -/
theorem display_exact (wanted : Bool) (o : Outcome) (testLimit? summaryLimit? : Option Nat) :
    let tests := String.join (o.analysis.selection.ids.map fun test => test ++ "\n")
    let summary := String.join (o.summaryLines wanted)
    let shown := o.display wanted { limit? := testLimit? } { limit? := summaryLimit? }
    Sink.LongestFitting testLimit? (Text.bytes tests) shown.tests.taken ∧
    (shown.ok = true ↔ Sink.Fits testLimit? (Text.bytes tests)) ∧
    (∀ other, (o.display wanted { limit? := testLimit? } other).tests = shown.tests ∧
      (o.display wanted { limit? := testLimit? } other).ok = shown.ok) ∧
    Sink.LongestFitting summaryLimit? (Text.bytes summary) shown.summary.taken ∧
    (∀ pieces, String.join pieces = tests →
      Sink.writeAll { limit? := testLimit? } pieces = (shown.tests, shown.ok)) ∧
    ∀ pieces, String.join pieces = summary →
      (Sink.writeAll { limit? := summaryLimit? } pieces).1 = shown.summary := by
  intro tests summary shown
  have written : ∀ other, ((o.display wanted { limit? := testLimit? } other).tests,
      (o.display wanted { limit? := testLimit? } other).ok)
      = Sink.write { limit? := testLimit? } (Text.bytes tests) :=
    fun other => o.tests_display wanted _ other
  have taken := congrArg Prod.fst (written { limit? := summaryLimit? })
  have all := congrArg Prod.snd (written { limit? := summaryLimit? })
  have summarised : shown.summary = _ := o.summary_display wanted _ _
  refine ⟨?_, ?_, fun other => ?_, ?_, fun pieces same => ?_, fun pieces same => ?_⟩
  · rw [show shown.tests = _ from taken]
    exact Sink.longestFitting_write testLimit? _
  · rw [show shown.ok = _ from all]
    exact Sink.write_eq_true_iff testLimit? _
  · exact Prod.mk.inj ((written other).trans (written { limit? := summaryLimit? }).symm)
  · rw [summarised]
    exact Sink.longestFitting_write summaryLimit? _
  · rw [Sink.writeAll_eq_write_join, same]
    exact (written { limit? := summaryLimit? }).symm
  · rw [Sink.writeAll_eq_write_join, same, summarised]

/-- One selected test, whose name begins with a character of two bytes. -/
def umlautTest : Outcome where
  analysis := { selection := ⟨[⟨"ÄraTest", ["Ära"]⟩], List.pairwise_singleton _ _⟩ }

/-- A sink that fills up in the middle of a character takes the part of it that it has room for,
also if the name and the end of its line are written one after the other. -/
theorem display_umlautTest :
    let shown := umlautTest.display true { limit? := some 1 } { limit? := some 0 }
    String.join ["ÄraTest", "\n"] = "ÄraTest\n" ∧ shown.ok = false ∧
    shown.tests.taken <+: Text.bytes "ÄraTest\n" ∧ [195] <+: shown.tests.taken ∧
    Sink.writeAll { limit? := some 1 } ["ÄraTest", "\n"] = (shown.tests, shown.ok) := by
  intro shown
  obtain ⟨held, whole, -, -, cut, -⟩ := display_exact true umlautTest (some 1) (some 0)
  have tooLong : ¬ Sink.Fits (some 1) (Text.bytes "ÄraTest\n") := fun fits =>
    absurd (fits 1 rfl) (by decide)
  exact ⟨rfl, Bool.eq_false_iff.2 (mt whole.1 tooLong), held.begins,
    held.longest [195] (by decide) (by simp [Sink.Fits]), cut ["ÄraTest", "\n"] rfl⟩

end Outcome

end ChangeImpact

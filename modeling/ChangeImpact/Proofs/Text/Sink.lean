import ChangeImpact.Text.Sink

/-!
# Writing texts one after another

Writing some texts one after another is writing what they make together: a sink with a
limit stops in the middle of some text just where it would stop in the whole, and the
texts behind that one are not tried. So a fresh sink holds the longest beginning of the
whole that its limit allows, at whatever places the whole was cut.

## Main definitions

* `Sink.Fits`, `Sink.LongestFitting`: what has room within a limit.

## Main statements

* `Sink.writeAll_eq_write`: texts are written as their bytes together are.
* `Sink.longestFitting_write`, `Sink.write_eq_true_iff`: what a fresh sink takes, and when
  that is all.
-/

namespace ChangeImpact

namespace Sink

theorem write_of_no_limit {s : Sink} (unlimited : s.limit? = none) (bytes : List UInt8) :
    s.write bytes = ({ s with taken := s.taken ++ bytes }, true) := by
  simp [write, room, unlimited]

theorem write_of_limit {s : Sink} {n : Nat} (limited : s.limit? = some n) (bytes : List UInt8) :
    s.write bytes = ({ s with taken := s.taken ++ bytes.take (n - s.taken.length) },
      decide (bytes.length ≤ n - s.taken.length)) := by
  have part : bytes.take (min bytes.length (n - s.taken.length))
      = bytes.take (n - s.taken.length) := by
    rw [Nat.min_comm, ← List.take_take, List.take_length]
  have whole : (min bytes.length (n - s.taken.length) == bytes.length)
      = decide (bytes.length ≤ n - s.taken.length) := by
    rw [Bool.eq_iff_iff, beq_iff_eq, decide_eq_true_iff]
    omega
  simp only [write, room, limited, part, whole]

/-- Bytes that are taken as a whole leave the rest of the writing to the sink behind them. -/
theorem write_append_of_taken {s : Sink} {front : List UInt8} (back : List UInt8)
    (taken : (s.write front).2 = true) :
    s.write (front ++ back) = (s.write front).1.write back := by
  cases limit : s.limit? with
  | none => simp [write_of_no_limit, limit]
  | some n =>
    simp only [write_of_limit limit, decide_eq_true_eq] at taken
    have rest : n - (s.taken.length + front.length) = n - s.taken.length - front.length := by omega
    have whole : front.length + back.length ≤ n - s.taken.length ↔
        back.length ≤ n - s.taken.length - front.length := by omega
    have behind : ({ s with taken := s.taken ++ front } : Sink).limit? = some n := limit
    rw [write_of_limit limit, write_of_limit limit front, List.take_of_length_le taken,
      write_of_limit behind]
    simp [rest, whole, List.take_append, List.take_of_length_le taken]

/-- Where bytes are not taken as a whole, nothing behind them is. -/
theorem write_append_of_not_taken {s : Sink} {front : List UInt8} (back : List UInt8)
    (lost : (s.write front).2 = false) : s.write (front ++ back) = s.write front := by
  cases limit : s.limit? with
  | none => simp [write_of_no_limit, limit] at lost
  | some n =>
    simp only [write_of_limit limit, decide_eq_false_iff_not, Nat.not_le] at lost
    have part : ¬ front.length ≤ n - s.taken.length := by omega
    have whole : ¬ front.length + back.length ≤ n - s.taken.length := by omega
    simp [write_of_limit limit, List.take_append_of_le_length (Nat.le_of_lt lost), part, whole]

/-- To stop at the first text that is not taken as a whole is to write all of them at once. -/
theorem writeAll_eq_write (s : Sink) (texts : List String) :
    s.writeAll texts = s.write (texts.flatMap Text.bytes) := by
  induction texts generalizing s with
  | nil =>
    have nothing : s.room [] = 0 := by cases limit : s.limit? <;> simp [room, limit]
    simp [writeAll, write, nothing]
  | cons text rest ih =>
    rw [List.flatMap_cons, writeAll]
    rcases written : s.write (Text.bytes text) with ⟨s', taken⟩
    cases taken with
    | true => simp [write_append_of_taken, written, ih]
    | false => simp [write_append_of_not_taken, written]

/-! ## What a limit leaves room for -/

/-- Bytes that have room within a limit, if there is one. -/
def Fits (limit? : Option Nat) (bytes : List UInt8) : Prop :=
  ∀ limit ∈ limit?, bytes.length ≤ limit

/-- The longest beginning of some bytes that has room within a limit. -/
structure LongestFitting (limit? : Option Nat) (bytes part : List UInt8) : Prop where
  begins : part <+: bytes
  fits : Fits limit? part
  longest : ∀ other, other <+: bytes → Fits limit? other → other <+: part

theorem longestFitting_write (limit? : Option Nat) (bytes : List UInt8) :
    LongestFitting limit? bytes (({ limit? } : Sink).write bytes).1.taken := by
  cases limit? with
  | none =>
    rw [write_of_no_limit rfl, List.nil_append]
    exact ⟨List.prefix_refl bytes, by simp [Fits], fun _ begins _ => begins⟩
  | some limit =>
    rw [write_of_limit rfl, List.nil_append, List.length_nil, Nat.sub_zero]
    refine ⟨List.take_prefix limit bytes, ?_, fun other begins fits => ?_⟩
    · intro n same
      obtain rfl := Option.some.inj same
      exact List.length_take_le limit bytes
    · exact List.prefix_take_iff.2 ⟨begins, fits limit rfl⟩

theorem write_eq_true_iff (limit? : Option Nat) (bytes : List UInt8) :
    (({ limit? } : Sink).write bytes).2 = true ↔ Fits limit? bytes := by
  cases limit? with
  | none => simp [write_of_no_limit, Fits]
  | some limit => simp [write_of_limit, Fits]

end Sink

end ChangeImpact

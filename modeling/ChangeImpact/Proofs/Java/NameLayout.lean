import ChangeImpact.Proofs.Java.Layout

/-!
# Layout that no name keeps

Some layout is kept as part of a name: what stands behind a dot, what stands in front of a
dot in the name of a package or of an import, and everything between a dot and a name that
has annotations of its own. If two sources with the same tokens do not differ in such
layout, the names in them are the same.

## Main definitions

* `Token.inName`: the layout in front of a token is kept as part of a name.
* `Relaid`: two lists of tokens differ in layout that no name keeps.

## Main statements

* `Relaid.sameTokens`: such lists have the same tokens.
* `SourcePair.Segment.eq_of_relaid`, `SourcePair.Path.eq_of_relaid`: names that stand at one
  place of both sources are equal.
-/

namespace ChangeImpact.Java

namespace Token

def endsWithDot (before : List Token) : Bool := before.head?.any (·.isSymbol ".")

/-- Whether the layout in front of a token is kept as part of a name. -/
def inName (before : List Token) (t : Token) : Bool :=
  endsWithDot before || t.isSymbol "." && endsInPath before

theorem endsWithDot_of_inAnnotationName {before : List Token} (h : inAnnotationName before = true) :
    endsWithDot before = true := by
  rcases before with _ | ⟨dot, _ | ⟨segment, before⟩⟩
  · cases h
  · cases h
  · simp only [inAnnotationName, Bool.and_eq_true] at h
    exact h.1.1

theorem toList_textOf_append {front : List Token} (nonempty : front ≠ []) (back : List Token) :
    (textOf (front ++ back)).toList = (textOf front).toList ++ source back := by
  cases front with
  | nil => exact absurd rfl nonempty
  | cons t ts => simp [textOf, source_append]

end Token

/-- Two lists of tokens that follow the same tokens differ in layout only, and not in layout
that a name keeps. From an annotation behind a dot on they do not differ at all. -/
inductive Relaid : List Token → List Token → List Token → Prop
  | same (before ts : List Token) : Relaid before ts ts
  | cons {before ts ts' : List Token} (t : Token) (layout : List Char)
      (close : t.fuses before = true → (t.relaid layout).adjacent = t.adjacent)
      (named : t.inName before = true → layout = t.layout)
      (plain : Token.endsWithDot before = true → t.beginsAnnotation = false)
      (more : Relaid (t :: before) ts ts') : Relaid before (t :: ts) (t.relaid layout :: ts')

namespace Relaid

variable {before ts ts' : List Token}

/-- The layout behind a dot is the same, so it is in the name of an annotation. -/
theorem sameTokens (h : Relaid before ts ts') : SameTokens before ts ts' := by
  induction h with
  | same before ts => exact .refl before ts
  | cons t layout close named _ _ ih =>
    refine .cons t layout close (fun marked => named ?_) ih
    rw [Token.inName, Token.endsWithDot_of_inAnnotationName marked, Bool.true_or]

theorem cons_iff {t t' : Token} :
    Relaid before (t :: ts) (t' :: ts') ↔ (t = t' ∧ ts = ts') ∨
      (t' = t.relaid t'.layout ∧ (t.fuses before = true → t'.adjacent = t.adjacent) ∧
        (t.inName before = true → t'.layout = t.layout) ∧
        (Token.endsWithDot before = true → t.beginsAnnotation = false) ∧
        Relaid (t :: before) ts ts') := by
  constructor
  · intro h
    cases h with
    | same => exact .inl ⟨rfl, rfl⟩
    | cons _ layout close named plain more => exact .inr ⟨rfl, close, named, plain, more⟩
  · rintro (⟨rfl, rfl⟩ | ⟨eq, close, named, plain, more⟩)
    · exact .same _ _
    · rw [eq] at close ⊢
      exact .cons t t'.layout close named plain more

instance decidable : (before ts ts' : List Token) → Decidable (Relaid before ts ts')
  | _, [], [] => .isTrue (.same _ _)
  | _, [], _ :: _ => .isFalse fun h => nomatch h.sameTokens.length_eq
  | _, _ :: _, [] => .isFalse fun h => nomatch h.sameTokens.length_eq
  | before, t :: ts, _ :: ts' =>
    have := decidable (t :: before) ts ts'
    decidable_of_iff _ cons_iff.symm

theorem drop (h : Relaid before ts ts') (n : Nat) :
    Relaid ((ts.take n).reverse ++ before) (ts.drop n) (ts'.drop n) := by
  induction n generalizing before ts ts' with
  | zero => simpa using h
  | succ n ih =>
    cases h with
    | same => exact .same _ _
    | cons t layout _ _ _ more => simpa using ih more

theorem take (h : Relaid before ts ts') (n : Nat) : Relaid before (ts.take n) (ts'.take n) := by
  induction h generalizing n with
  | same => exact .same _ _
  | cons t layout close named plain _ ih =>
    cases n with
    | zero => exact .same _ _
    | succ n => exact .cons t layout close named plain (ih n)

theorem append_inv {us vs : List Token} (h : Relaid before (us ++ vs) ts') :
    ∃ us' vs', ts' = us' ++ vs' ∧ Relaid before us us' ∧ Relaid (us.reverse ++ before) vs vs' := by
  have first := h.take us.length
  have rest := h.drop us.length
  rw [List.take_left] at first rest
  rw [List.drop_left] at rest
  exact ⟨_, _, (List.take_append_drop us.length ts').symm, first, rest⟩

/-! ## Names -/

theorem singleton_inv {t : Token} (h : Relaid before [t] ts') :
    ∃ layout, ts' = [t.relaid layout] ∧ (t.inName before = true → layout = t.layout) := by
  cases h with
  | same => exact ⟨t.layout, rfl, fun _ => rfl⟩
  | cons _ layout _ named _ more =>
    cases more
    exact ⟨layout, rfl, named⟩

/-- What is left of a name behind its last dot is the same in both, layout and all. -/
theorem eq_behindDot {dot t : Token} {more : List Token} (isDot : dot.isSymbol "." = true)
    (h : Relaid (dot :: before) (t :: more) ts') (whole : more = [] ∨ t.beginsAnnotation = true) :
    ts' = t :: more := by
  have afterDot : Token.endsWithDot (dot :: before) = true := isDot
  cases h with
  | same => rfl
  | cons _ layout _ named plain rest =>
    obtain rfl := named (by rw [Token.inName, afterDot, Bool.true_or])
    rcases whole with rfl | begins
    · rw [List.length_eq_zero_iff.mp rest.sameTokens.length_eq.symm]
      rfl
    · rw [plain afterDot] at begins
      cases begins

/-- The last segment of a name begins behind its last dot, and there the layout is the same. -/
theorem simpleName_eq (h : Relaid before ts ts') (ends : EndsWithSegment ts) :
    simpleName (Token.textOf ts) = simpleName (Token.textOf ts') := by
  cases ends with
  | single t =>
    obtain ⟨layout, rfl, -⟩ := h.singleton_inv
    rfl
  | @behindDot front dot isDot t more whole =>
    obtain ⟨front', _, rfl, -, behind⟩ := h.append_inv
    cases behind with
    | same => rw [simpleName_textOf isDot, simpleName_textOf isDot]
    | cons _ layout _ _ _ rest =>
      have isDot' : (dot.relaid layout).isSymbol "." = true := isDot
      rw [rest.eq_behindDot isDot whole, simpleName_textOf isDot, simpleName_textOf isDot']

/-- The name of a package or an import is the same in both, layout and all. -/
theorem textOf_eq (h : Relaid before ts ts') (inPath : Token.endsInPath before = true)
    (dotted : IsDotted ts) : Token.textOf ts = Token.textOf ts' := by
  induction dotted generalizing ts' with
  | word t _ =>
    obtain ⟨layout, rfl, -⟩ := h.singleton_inv
    rfl
  | @segment us dot t front isDot _ ih =>
    obtain ⟨us', vs', rfl, first, behind⟩ := h.append_inv
    have behind_eq : vs' = [dot, t] := by
      cases behind with
      | same => rfl
      | cons _ layout _ named _ rest =>
        obtain rfl := named (by simp [Token.inName, isDot, front.endsInPath inPath])
        rw [rest.eq_behindDot isDot (.inl rfl)]
        rfl
    have nonempty : us' ≠ [] := by
      rw [← List.length_pos_iff, ← first.sameTokens.length_eq]
      exact List.length_pos_iff.mpr front.ne_nil
    rw [behind_eq, ← String.toList_inj, Token.toList_textOf_append front.ne_nil,
      Token.toList_textOf_append nonempty, ih first]

end Relaid

namespace SourcePair

variable {P : SourcePair} (same : Relaid [] P.left P.right)

include same

theorem At.relaid {before ts ts' : List Token} (h : P.At before ts ts') : Relaid before ts ts' := by
  have rest := same.drop before.length
  rwa [h.take_left, h.drop_left, ← h.right_eq, List.reverse_reverse, List.append_nil] at rest

/-- A type has the same names in it, wherever it stands. -/
theorem Segment.eq_of_relaid {name name' : String} (h : P.Segment name name') : name = name' := by
  rcases h with rfl | ⟨before, ts, ts', n, place, ends, rfl, rfl⟩
  · rfl
  · exact ((place.relaid same).take n).simpleName_eq ends

theorem Path.eq_of_relaid {name name' : String} (h : P.Path name name') : name = name' := by
  rcases h with rfl | ⟨before, ts, ts', n, place, inPath, dotted, rfl, rfl⟩
  · rfl
  · exact ((place.relaid same).take n).textOf_eq inPath dotted

end SourcePair

end ChangeImpact.Java

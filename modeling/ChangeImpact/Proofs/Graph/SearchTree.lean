import ChangeImpact.Proofs.Graph.BreadthFirst

/-!
# Search trees

The trails that a breadth-first search leaves form a forest: the trail of a class
extends that of the class it was found from. Whatever is proved of them is proved
along that forest, by `SearchTree.induction`.

## Main statements

* `SearchTree.walk`, `SearchTree.reaches`: the classes with a trail are those that a
  walk from a changed class reaches.
* `SearchTree.noLater`: no walk comes before the trail of its last class.
* `SearchTree.nodup_names`, `SearchTree.not_mem_changed_of_mem_tail`: a trail repeats no
  class and passes no second changed one.
* `SearchTree.length_names_le`: no trail is longer than there are trails.
-/

namespace ChangeImpact

namespace SearchTree

variable {g : Graph} {changed : NameSet} {trails : List Trail}

theorem eq_of_name_eq (tree : SearchTree g changed trails) {t u : Trail} (ht : t ∈ trails)
    (hu : u ∈ trails) (name : t.name = u.name) : t = u :=
  List.inj_on_of_nodup_map tree.distinct ht hu name

/-- Induction along the forest. -/
theorem induction (tree : SearchTree g changed trails) {motive : Trail → Prop}
    (seed : ∀ x ∈ changed, motive (.seed x))
    (extend : ∀ p ∈ trails, ∀ d ∈ g.dependents p.name, p.extend d ∈ trails → motive p →
      motive (p.extend d))
    {t : Trail} (ht : t ∈ trails) : motive t := by
  obtain ⟨n, len⟩ : ∃ n, t.names.length = n := ⟨_, rfl⟩
  induction n generalizing t with
  | zero => exact absurd t.length_names_pos (by omega)
  | succ n ih =>
    rcases tree.grown t ht with ⟨x, hx, rfl⟩ | ⟨p, hp, d, hd, rfl⟩
    · exact seed x hx
    · exact extend p hp d hd ht (ih hp (by simpa using len))

/-! ## Trails and walks -/

/-- Along the forest: a seed is a walk by itself, and an extension follows one dependency more. -/
theorem walk (tree : SearchTree g changed trails) {t : Trail} (ht : t ∈ trails) :
    ∃ x ∈ changed, Walk g.Affects x t.name t.names := by
  refine tree.induction (motive := fun t => ∃ x ∈ changed, Walk g.Affects x t.name t.names)
    (fun x hx => ⟨x, hx, .single x⟩) ?_ ht
  rintro p - d hd - ⟨x, hx, walk⟩
  exact ⟨x, hx, walk.snoc (Graph.affects_iff.2 hd)⟩

/-- Every walk from a changed class ends at a class with a trail, which comes no later than
the walk. -/
theorem reaches (tree : SearchTree g changed trails) {x n : String} {names : List String}
    (hx : x ∈ changed) (walk : Walk g.Affects x n names) :
    ∃ t ∈ trails, t.name = n ∧ NoLater t.names names := by
  induction walk using Walk.snocInduction with
  | single => exact ⟨.seed x, tree.seeded x hx, rfl, .inl rfl⟩
  | snoc walk link ih =>
    obtain ⟨p, hp, rfl, early⟩ := ih
    obtain ⟨t, ht, rfl, early'⟩ := tree.closed p hp _ (Graph.affects_iff.1 link)
    exact ⟨t, ht, rfl, early'.trans (early.snoc _)⟩

/-- A trail is such a walk, and every walk ends at a class with a trail. -/
theorem mem_names_iff (tree : SearchTree g changed trails) {n : String} :
    n ∈ trails.map Trail.name ↔ ∃ x ∈ changed, ∃ names, Walk g.Affects x n names := by
  constructor
  · intro h
    obtain ⟨t, ht, rfl⟩ := List.mem_map.1 h
    obtain ⟨x, hx, walk⟩ := tree.walk ht
    exact ⟨x, hx, t.names, walk⟩
  · rintro ⟨x, hx, names, walk⟩
    obtain ⟨t, ht, rfl, -⟩ := tree.reaches hx walk
    exact List.mem_map_of_mem ht

/-- No walk from a changed class comes before the trail of its last class. -/
theorem noLater (tree : SearchTree g changed trails) {t : Trail} (ht : t ∈ trails) {x : String}
    {names : List String} (hx : x ∈ changed) (walk : Walk g.Affects x t.name names) :
    NoLater t.names names := by
  obtain ⟨u, hu, name, early⟩ := tree.reaches hx walk
  rwa [tree.eq_of_name_eq hu ht name] at early

/-! ## The classes on a trail -/

/-- A class on a trail has a trail of its own, which is not longer. -/
theorem exists_of_mem_names (tree : SearchTree g changed trails) {t : Trail} (ht : t ∈ trails)
    {n : String} (hn : n ∈ t.names) :
    ∃ u ∈ trails, u.name = n ∧ u.names.length ≤ t.names.length := by
  refine tree.induction
    (motive := fun t => n ∈ t.names → ∃ u ∈ trails, u.name = n ∧ u.names.length ≤ t.names.length)
    ?_ ?_ ht hn
  · intro x hx hn
    have nx : n = x := by simpa using hn
    exact ⟨.seed x, tree.seeded x hx, nx.symm, Nat.le_refl _⟩
  · intro p hp d hd mem ih hn
    rcases List.mem_append.1 hn with hn | hn
    · obtain ⟨u, hu, name, le⟩ := ih hn
      exact ⟨u, hu, name, by simp; omega⟩
    · exact ⟨p.extend d, mem, (List.mem_singleton.1 hn).symm, Nat.le_refl _⟩

theorem nodup_names (tree : SearchTree g changed trails) {t : Trail} (ht : t ∈ trails) :
    t.names.Nodup := by
  refine tree.induction (motive := fun t => t.names.Nodup) (by simp) ?_ ht
  intro p hp d hd mem ih
  rw [Trail.names_extend, ← List.concat_eq_append, List.nodup_concat]
  refine ⟨fun again => ?_, ih⟩
  -- The trail of an earlier occurrence would be this trail, and it is shorter.
  obtain ⟨u, hu, name, le⟩ := tree.exists_of_mem_names hp again
  rw [tree.eq_of_name_eq hu mem name, Trail.names_extend, List.length_append] at le
  simp at le

theorem not_mem_changed_of_mem_tail (tree : SearchTree g changed trails) {t : Trail}
    (ht : t ∈ trails) {n : String} (hn : n ∈ t.names.tail) : n ∉ changed := by
  refine tree.induction (motive := fun t => n ∈ t.names.tail → n ∉ changed) (by simp) ?_ ht hn
  intro p hp d hd mem ih hn
  have nonempty : p.names ≠ [] := List.ne_nil_of_length_pos p.length_names_pos
  rw [Trail.names_extend, List.tail_append_of_ne_nil nonempty] at hn
  rcases List.mem_append.1 hn with hn | hn
  · exact ih hn
  · obtain rfl := List.mem_singleton.1 hn
    intro hd
    have same := congrArg Trail.front (tree.eq_of_name_eq mem (tree.seeded n hd) rfl)
    exact nonempty same

/-- The classes of a trail are all found and different, so there are no fewer trails. -/
theorem length_names_le (tree : SearchTree g changed trails) {t : Trail} (ht : t ∈ trails) :
    t.names.length ≤ trails.length := by
  have covered : t.names ⊆ trails.map Trail.name := by
    intro n hn
    obtain ⟨u, hu, rfl, -⟩ := tree.exists_of_mem_names ht hn
    exact List.mem_map_of_mem hu
  have le := (tree.nodup_names ht).length_le_of_subset covered
  rwa [List.length_map] at le

end SearchTree

end ChangeImpact

import ChangeImpact.Graph.CycleSearch
import Mathlib.Data.List.Chain
import Mathlib.Data.List.Nodup

/-!
# What a depth-first search has done

The machine that looks for cycles keeps the classes it is in the middle of; those
that it has finished it only paints black. Here its states come with the list of
the finished classes, the last one first. Every state is reached by one of seven
moves, so whatever is to hold of all states is proved move by move, by induction on
`Search.Reached`.

## Main definitions

* `Search.Reached`: the search comes through a state, with these classes finished.
* `Search.Layout`: how path, stack and colours of a state go together.
* `Graph.findCyclesWithin`: the search with a limit on its steps, by recursion on that limit.

## Main statements

* `Search.Reached.layout`: every state that is reached is laid out so.
* `Graph.exists_finished`: the search ends with an empty stack, and then every class
  that is not excluded is finished.
* `Graph.findCycles_eq_of_within`: what the search finds within the limit is all that it finds.
-/

namespace ChangeImpact

theorem Graph.mem_names_of_mem_dependencies {g : Graph} {user used : String}
    (h : used ∈ g.dependencies user) : user ∈ g.names ∧ used ∈ g.names := by
  have ends := g.ends_registered _ (mem_dependencies.1 h)
  exact ⟨mem_names.2 ends.1, mem_names.2 ends.2⟩

/-! ## Colours -/

namespace Palette

/-- A colour is given to a class that has one already; a name without an entry gets none. -/
theorem lookup_set (entries : List (String × Colour)) (name other : String) (colour : Colour) :
    (set ⟨entries⟩ name colour).entries.lookup other
      = if other = name then (entries.lookup other).map fun _ => colour
        else entries.lookup other := by
  induction entries with
  | nil => simp [set]
  | cons e entries ih =>
    obtain ⟨n, c⟩ := e
    have entry : (if n = name then (n, colour) else (n, c))
        = (n, if n = name then colour else c) := by
      split_ifs <;> rfl
    simp only [set] at ih
    simp only [set, List.map_cons, entry]
    by_cases here : other = n
    · subst here
      by_cases same : other = name <;> simp [same]
    · have skip : (other == n) = false := by simpa using here
      simp only [List.lookup_cons, skip, ih]

theorem get_set_of_ne (p : Palette) {name other : String} (h : other ≠ name) (colour : Colour) :
    (p.set name colour).get other = p.get other := by
  rw [get, get, lookup_set p.entries, if_neg h]

/-- A class that is not finished can be given a colour. -/
theorem get_set_self {p : Palette} {name : String} (h : p.get name ≠ .black) (colour : Colour) :
    (p.set name colour).get name = colour := by
  rw [get] at h ⊢
  rw [lookup_set p.entries, if_pos rfl]
  cases found : p.entries.lookup name with
  | none => simp [found] at h
  | some c => rfl

theorem get_blank (names : List String) (n : String) :
    (blank names).get n = if n ∈ names then .white else .black := by
  induction names with
  | nil => rfl
  | cons m names ih =>
    by_cases same : n = m
    · simp [get, blank, same]
    · have skip : (n == m) = false := by simpa using same
      simp only [get, blank] at ih
      simp only [get, blank, List.map_cons, List.lookup_cons, skip, ih, List.mem_cons, same,
        false_or]

end Palette

/-! ## Moves -/

namespace Search

def advance (s : Search) (f : Frame) (outer : List Frame) : Search :=
  { s with frames := { f with next := f.next + 1 } :: outer }

/-- The next dependency that the search looks at is one of `f.name` on `used`. -/
structure LooksAt (s : Search) (f : Frame) (outer : List Frame) (used : String) : Prop where
  frames : s.frames = f :: outer
  next : f.neighbours[f.next]? = some used

/-- The search comes through the state `s`, and then it has finished the classes in `done`,
the last one first. -/
inductive Reached (g : Graph) (excluded : NameSet) : List String → Search → Prop
  | start : Reached g excluded [] (start g)
  | root {done s name} (before : Reached g excluded done s) (idle : s.frames = [])
      (registered : name ∈ g.names) (kept : name ∉ excluded)
      (white : s.palette.get name = .white) : Reached g excluded done (s.enter g name)
  | leave {done s f outer} (before : Reached g excluded done s) (frames : s.frames = f :: outer)
      (exhausted : f.neighbours[f.next]? = none) :
      Reached g excluded (f.name :: done) (s.leave f outer)
  | prune {done s f outer used} (before : Reached g excluded done s)
      (look : s.LooksAt f outer used) (skipped : used ∈ excluded) :
      Reached g excluded done ((s.advance f outer).prune f.name used)
  | enter {done s f outer used} (before : Reached g excluded done s)
      (look : s.LooksAt f outer used) (kept : used ∉ excluded)
      (white : s.palette.get used = .white) :
      Reached g excluded done ((s.advance f outer).enter g used)
  | close {done s f outer used position} (before : Reached g excluded done s)
      (look : s.LooksAt f outer used) (kept : used ∉ excluded)
      (gray : s.palette.get used = .gray position) :
      Reached g excluded done ((s.advance f outer).close position used)
  | pass {done s f outer used} (before : Reached g excluded done s)
      (look : s.LooksAt f outer used) (kept : used ∉ excluded)
      (black : s.palette.get used = .black) :
      Reached g excluded done (s.advance f outer)

/-- The classes entered so far: those on the stack and the finished ones. -/
def entered (s : Search) (done : List String) : List String := s.frames.map Frame.name ++ done

variable {g : Graph} {excluded : NameSet} {done : List String} {s t : Search} {f : Frame}
  {outer : List Frame} {used : String}

theorem entered_advance (frames : s.frames = f :: outer) (done : List String) :
    (s.advance f outer).entered done = s.entered done := by
  simp [entered, advance, frames]

/-- A class that is left moves from the stack to the finished ones. -/
theorem entered_leave_perm (frames : s.frames = f :: outer) (done : List String) :
    ((s.leave f outer).entered (f.name :: done)).Perm (s.entered done) := by
  simp only [entered, frames, Search.leave, List.map_cons, List.cons_append]
  exact List.perm_middle

/-- One case for each way to look at a dependency. None of them loses a class that was entered. -/
theorem Reached.examine (h : Reached g excluded done s) (look : s.LooksAt f outer used) :
    Reached g excluded done ((s.advance f outer).examine g excluded f.name used) ∧
      s.entered done ⊆ ((s.advance f outer).examine g excluded f.name used).entered done := by
  rw [← entered_advance look.frames]
  unfold Search.examine
  split
  · rename_i skipped
    exact ⟨h.prune look (NameSet.contains_iff.1 skipped), List.Subset.refl _⟩
  · rename_i kept
    rw [NameSet.contains_iff] at kept
    split
    · rename_i white
      exact ⟨h.enter look kept white, List.subset_cons_self used _⟩
    · rename_i gray
      exact ⟨h.close look kept gray, List.Subset.refl _⟩
    · rename_i black
      exact ⟨h.pass look kept black, List.Subset.refl _⟩

/-- A step leaves the innermost class or looks at its next dependency. -/
theorem step_cases (step : s.step g excluded = some t) :
    (∃ f outer, s.frames = f :: outer ∧ f.neighbours[f.next]? = none ∧ t = s.leave f outer) ∨
    ∃ f outer used, s.LooksAt f outer used ∧
      t = (s.advance f outer).examine g excluded f.name used := by
  unfold Search.step at step
  split at step
  · simp at step
  · rename_i f outer frames
    split at step
    · rename_i exhausted
      exact .inl ⟨f, outer, frames, exhausted, (Option.some.inj step).symm⟩
    · rename_i used next
      exact .inr ⟨f, outer, used, ⟨frames, next⟩, (Option.some.inj step).symm⟩

/-- A step is one of the moves, and no class that was entered is forgotten. -/
theorem Reached.step (h : Reached g excluded done s) (step : s.step g excluded = some t) :
    ∃ done', Reached g excluded done' t ∧ s.entered done ⊆ t.entered done' := by
  rcases step_cases step with ⟨f, outer, frames, exhausted, rfl⟩ | ⟨f, outer, used, look, rfl⟩
  · exact ⟨f.name :: done, h.leave frames exhausted, (entered_leave_perm frames done).symm.subset⟩
  · exact ⟨done, h.examine look⟩

theorem frames_eq_nil_of_step_eq_none (h : s.step g excluded = none) : s.frames = [] := by
  unfold Search.step at h
  split at h
  · assumption
  · split at h <;> simp at h

/-- By the recursion of the run. The stack is empty in the end, so what was entered is then
finished. -/
theorem Reached.run (h : Reached g excluded done s) :
    ∃ done', Reached g excluded done' (s.run g excluded) ∧ (s.run g excluded).frames = [] ∧
      s.entered done ⊆ done' := by
  fun_induction Search.run g excluded s generalizing done with
  | case1 s stop =>
    have idle := frames_eq_nil_of_step_eq_none stop
    exact ⟨done, h, idle, by simp [entered, idle]⟩
  | case2 s t next ih =>
    obtain ⟨mid, reached, kept⟩ := h.step next
    obtain ⟨last, reached', idle, kept'⟩ := ih reached
    exact ⟨last, reached', idle, fun n hn => kept' (kept hn)⟩

/-! ## Layout -/

/-- How path, stack and colours of a state go together. -/
structure Layout (g : Graph) (excluded : NameSet) (done : List String) (s : Search) : Prop where
  path_eq : s.path = (s.frames.map Frame.name).reverse
  distinct : (s.entered done).Nodup
  kept : ∀ n ∈ s.entered done, n ∉ excluded
  gray_iff : ∀ n i, s.palette.get n = .gray i ↔ s.path[i]? = some n
  black_iff : ∀ n ∈ g.names, s.palette.get n = .black ↔ n ∈ done
  rows : ∀ f ∈ s.frames, f.neighbours = (g.dependencies f.name).toList
  linked : s.frames.IsChain fun inner outer => inner.name ∈ g.dependencies outer.name

theorem getElem?_snoc_eq_some_iff {xs : List String} {x n : String} {i : Nat} :
    (xs ++ [x])[i]? = some n ↔ xs[i]? = some n ∨ i = xs.length ∧ x = n := by
  grind

namespace Layout

theorem start (g : Graph) (excluded : NameSet) : Layout g excluded [] (start g) where
  path_eq := rfl
  distinct := by simp [entered, Search.start]
  kept := by simp [entered, Search.start]
  gray_iff n i := by
    simp only [Search.start, Palette.get_blank]
    split <;> simp
  black_iff n hn := by
    have white : n ∈ g.names.toList := hn
    simp [Search.start, Palette.get_blank, white]
  rows := by simp [Search.start]
  linked := .nil

theorem mem_path_iff (h : Layout g excluded done s) {n : String} :
    n ∈ s.path ↔ n ∈ s.frames.map Frame.name := by
  rw [h.path_eq, List.mem_reverse]

theorem path_eq_concat (h : Layout g excluded done s) (frames : s.frames = f :: outer) :
    s.path = (outer.map Frame.name).reverse ++ [f.name] := by
  rw [h.path_eq, frames, List.map_cons, List.reverse_cons]

theorem not_mem_entered (h : Layout g excluded done s) {n : String} (registered : n ∈ g.names)
    (white : s.palette.get n = .white) : n ∉ s.entered done := by
  intro hn
  rcases List.mem_append.1 hn with onStack | finished
  · obtain ⟨i, hi⟩ := List.getElem?_of_mem (h.mem_path_iff.2 onStack)
    simp [(h.gray_iff n i).2 hi] at white
  · simp [(h.black_iff n registered).2 finished] at white

/-- The classes that have been entered are those that are not white. -/
theorem mem_entered_iff (h : Layout g excluded done s) {n : String} (registered : n ∈ g.names) :
    n ∈ s.entered done ↔ s.palette.get n ≠ .white := by
  refine ⟨fun hn white => h.not_mem_entered registered white hn, fun notWhite => ?_⟩
  cases colour : s.palette.get n with
  | white => exact absurd colour notWhite
  | gray i =>
    have onPath := List.mem_of_getElem? ((h.gray_iff n i).1 colour)
    exact List.mem_append_left _ (h.mem_path_iff.1 onPath)
  | black => exact List.mem_append_right _ ((h.black_iff n registered).1 colour)

/-- A class is entered from the one on top of the stack or with an empty stack; either way the path
stays linked. -/
theorem enter (h : Layout g excluded done s) {name : String} (registered : name ∈ g.names)
    (kept : name ∉ excluded) (white : s.palette.get name = .white)
    (link : ∀ f ∈ s.frames.head?, name ∈ g.dependencies f.name) :
    Layout g excluded done (s.enter g name) := by
  have new := h.not_mem_entered registered white
  have notBlack : s.palette.get name ≠ .black := by simp [white]
  constructor
  case path_eq => simp [Search.enter, h.path_eq]
  case distinct => exact List.nodup_cons.2 ⟨new, h.distinct⟩
  case kept => exact List.forall_mem_cons.2 ⟨kept, h.kept⟩
  case gray_iff =>
    intro n i
    simp only [Search.enter, getElem?_snoc_eq_some_iff]
    by_cases same : n = name
    · subst same
      have absent : s.path[i]? ≠ some n := fun hi =>
        new (List.mem_append_left _ (h.mem_path_iff.1 (List.mem_of_getElem? hi)))
      simp [Palette.get_set_self notBlack, absent, eq_comm]
    · rw [Palette.get_set_of_ne _ same, h.gray_iff]
      simp [Ne.symm same]
  case black_iff =>
    intro n hn
    simp only [Search.enter]
    by_cases same : n = name
    · subst same
      have unfinished : n ∉ done := fun hd => new (List.mem_append_right _ hd)
      simp [Palette.get_set_self notBlack, unfinished]
    · rw [Palette.get_set_of_ne _ same, h.black_iff n hn]
  case rows => exact List.forall_mem_cons.2 ⟨rfl, h.rows⟩
  case linked => exact h.linked.cons link

/-- Only the names on the stack count, and they stay. -/
theorem advance (h : Layout g excluded done s) (frames : s.frames = f :: outer) :
    Layout g excluded done (s.advance f outer) := by
  have rows := h.rows
  have linked := h.linked
  rw [frames] at rows linked
  constructor
  case path_eq => simp [Search.advance, h.path_eq, frames]
  case distinct =>
    rw [entered_advance frames]
    exact h.distinct
  case kept =>
    rw [entered_advance frames]
    exact h.kept
  case gray_iff => exact h.gray_iff
  case black_iff => exact h.black_iff
  case rows => exact List.forall_mem_cons.2 (List.forall_mem_cons.1 rows)
  case linked =>
    rw [List.isChain_cons] at linked
    exact linked.2.cons linked.1

/-- The layout does not depend on what has been found. -/
theorem withReport (h : Layout g excluded done s) (report : CycleReport) :
    Layout g excluded done { s with report } :=
  ⟨h.path_eq, h.distinct, h.kept, h.gray_iff, h.black_iff, h.rows, h.linked⟩

/-- The innermost class is gray at the end of the path. -/
theorem innermost_ne_black (h : Layout g excluded done s) (frames : s.frames = f :: outer) :
    s.palette.get f.name ≠ .black := by
  have gray : s.palette.get f.name = .gray (outer.map Frame.name).reverse.length := by
    rw [h.gray_iff, h.path_eq_concat frames, getElem?_snoc_eq_some_iff]
    exact .inr ⟨rfl, rfl⟩
  simp [gray]

theorem nodup_path (h : Layout g excluded done s) : s.path.Nodup := by
  rw [h.path_eq, List.nodup_reverse]
  exact (List.nodup_append.1 h.distinct).1

/-- The innermost class stands at the end of the path, and both get shorter there. -/
theorem leave (h : Layout g excluded done s) (frames : s.frames = f :: outer) :
    Layout g excluded (f.name :: done) (s.leave f outer) := by
  have path_eq := h.path_eq_concat frames
  have dropLast_eq : s.path.dropLast = (outer.map Frame.name).reverse := by simp [path_eq]
  have moved := entered_leave_perm frames done
  have notBlack := h.innermost_ne_black frames
  have notOuter : f.name ∉ outer.map Frame.name := by
    have distinct := (List.nodup_append.1 h.distinct).1
    rw [frames, List.map_cons, List.nodup_cons] at distinct
    exact distinct.1
  have rows := h.rows
  have linked := h.linked
  rw [frames] at rows linked
  constructor
  case path_eq => exact dropLast_eq
  case distinct => exact moved.nodup_iff.2 h.distinct
  case kept => exact fun n hn => h.kept n (moved.mem_iff.1 hn)
  case gray_iff =>
    intro n i
    simp only [Search.leave, dropLast_eq]
    by_cases same : n = f.name
    · subst same
      have absent : (outer.map Frame.name).reverse[i]? ≠ some f.name := fun hi =>
        notOuter (List.mem_reverse.1 (List.mem_of_getElem? hi))
      simp [Palette.get_set_self notBlack, absent]
    · rw [Palette.get_set_of_ne _ same, h.gray_iff, path_eq, getElem?_snoc_eq_some_iff]
      simp [Ne.symm same]
  case black_iff =>
    intro n hn
    simp only [Search.leave]
    by_cases same : n = f.name
    · subst same
      simp [Palette.get_set_self notBlack]
    · rw [Palette.get_set_of_ne _ same, h.black_iff n hn]
      simp [same]
  case rows => exact (List.forall_mem_cons.1 rows).2
  case linked => exact (List.isChain_cons.1 linked).2

/-- What the search looks at is a dependency of the innermost class. -/
theorem mem_dependencies (h : Layout g excluded done s) (look : s.LooksAt f outer used) :
    used ∈ g.dependencies f.name := by
  have row := h.rows f (by simp [look.frames])
  have mem := List.mem_of_getElem? look.next
  rwa [row] at mem

theorem mem_names (h : Layout g excluded done s) (look : s.LooksAt f outer used) :
    used ∈ g.names :=
  (Graph.mem_names_of_mem_dependencies (h.mem_dependencies look)).2

end Layout

/-- By induction on the moves. All facts about path and colours are read off this one. -/
theorem Reached.layout (h : Reached g excluded done s) : Layout g excluded done s := by
  induction h with
  | start => exact .start g excluded
  | root before idle registered kept white ih =>
    exact ih.enter registered kept white (by simp [idle])
  | leave before frames exhausted ih => exact ih.leave frames
  | prune before look skipped ih => exact (ih.advance look.frames).withReport _
  | enter before look kept white ih =>
    refine (ih.advance look.frames).enter (ih.mem_names look) kept white ?_
    simpa [Search.advance] using ih.mem_dependencies look
  | close before look kept gray ih => exact (ih.advance look.frames).withReport _
  | pass before look kept black ih => exact ih.advance look.frames

/-- Only registered classes are entered. -/
theorem Reached.mem_names (h : Reached g excluded done s) {n : String} (hn : n ∈ s.entered done) :
    n ∈ g.names := by
  induction h with
  | start => simp [entered, Search.start] at hn
  | root before idle registered kept white ih =>
    rcases List.mem_cons.1 hn with rfl | old
    · exact registered
    · exact ih old
  | leave before frames exhausted ih => exact ih ((entered_leave_perm frames _).subset hn)
  | prune before look skipped ih =>
    rw [← entered_advance look.frames] at ih
    exact ih hn
  | enter before look kept white ih =>
    rw [← entered_advance look.frames] at ih
    rcases List.mem_cons.1 hn with rfl | old
    · exact before.layout.mem_names look
    · exact ih old
  | close before look kept gray ih =>
    rw [← entered_advance look.frames] at ih
    exact ih hn
  | pass before look kept black ih =>
    rw [entered_advance look.frames] at hn
    exact ih hn

/-! ## The end of the search -/

/-- Between two searches, a class that is not white is finished. -/
theorem Layout.mem_done_of_idle (h : Layout g excluded done s) (idle : s.frames = []) {n : String}
    (registered : n ∈ g.names) (notWhite : s.palette.get n ≠ .white) : n ∈ done := by
  have entered := (h.mem_entered_iff registered).2 notWhite
  simpa [Search.entered, idle] using entered

/-- A root that is not white was finished earlier, for between two roots nothing is on the path. -/
theorem Reached.visit (h : Reached g excluded done s) (idle : s.frames = []) {name : String}
    (registered : name ∈ g.names) :
    ∃ done', Reached g excluded done' (s.visit g excluded name) ∧
      (s.visit g excluded name).frames = [] ∧ done ⊆ done' ∧
      (name ∉ excluded → name ∈ done') := by
  unfold Search.visit
  split
  · rename_i skipped
    rw [NameSet.contains_iff] at skipped
    exact ⟨done, h, idle, List.Subset.refl _, fun kept => absurd skipped kept⟩
  · rename_i kept
    rw [NameSet.contains_iff] at kept
    split
    · rename_i white
      obtain ⟨done', reached, idle', grown⟩ := (h.root idle registered kept white).run
      refine ⟨done', reached, idle', fun n hn => grown ?_, fun _ => grown ?_⟩
      · exact List.mem_append_right _ hn
      · simp [entered, Search.enter]
    · rename_i notWhite
      exact ⟨done, h, idle, List.Subset.refl _,
        fun _ => h.layout.mem_done_of_idle idle registered notWhite⟩

theorem Reached.foldl_visit (h : Reached g excluded done s) (idle : s.frames = [])
    (names : List String) (registered : ∀ n ∈ names, n ∈ g.names) :
    ∃ done', Reached g excluded done' (names.foldl (Search.visit g excluded) s) ∧
      (names.foldl (Search.visit g excluded) s).frames = [] ∧ done ⊆ done' ∧
      ∀ n ∈ names, n ∉ excluded → n ∈ done' := by
  induction names generalizing done s with
  | nil => exact ⟨done, h, idle, List.Subset.refl _, by simp⟩
  | cons name names ih =>
    obtain ⟨mid, reached, idle', grown, here⟩ := h.visit idle (registered name (by simp))
    obtain ⟨last, reached', idle'', grown', rest⟩ :=
      ih reached idle' fun n hn => registered n (List.mem_cons_of_mem _ hn)
    refine ⟨last, reached', idle'', fun n hn => grown' (grown hn), fun n hn kept => ?_⟩
    rcases List.mem_cons.1 hn with rfl | hn
    · exact grown' (here kept)
    · exact rest n hn kept

end Search

/-- The search for cycles ends with nothing left to do, and then every class that is not excluded
is finished. -/
theorem Graph.exists_finished (g : Graph) (excluded : NameSet) :
    ∃ done s, Search.Reached g excluded done s ∧ s.frames = [] ∧
      (∀ n ∈ g.names, n ∉ excluded → n ∈ done) ∧ g.findCycles excluded = s.report := by
  have first : Search.Reached g excluded [] (Search.start g) := .start
  obtain ⟨done, reached, idle, -, all⟩ := first.foldl_visit rfl g.names.toList fun n hn => hn
  exact ⟨done, _, reached, idle, all, rfl⟩

/-! ## Running the search

The search runs for as long as there is something to do, which no evaluation by the recursion of
its definition can see the end of. With a limit on the steps there is one to follow.
-/

namespace Search

def runWithin (g : Graph) (excluded : NameSet) : Nat → Search → Option Search
  | 0, _ => none
  | limit + 1, s =>
    match step g excluded s with
    | none => some s
    | some t => runWithin g excluded limit t

def visitWithin (g : Graph) (excluded : NameSet) (limit : Nat) (s : Search) (root : String) :
    Option Search :=
  if excluded.contains root then some s
  else if s.palette.get root = .white then (s.enter g root).runWithin g excluded limit
  else some s

variable {g : Graph} {excluded : NameSet} {limit : Nat} {s t : Search}

/-- By the recursion of the run, with one step of the limit for each of its own. -/
theorem run_eq_of_within (h : s.runWithin g excluded limit = some t) : s.run g excluded = t := by
  fun_induction Search.run g excluded s generalizing limit with
  | case1 s stop =>
    cases limit with
    | zero => simp [runWithin] at h
    | succ limit => simpa [runWithin, stop] using h
  | case2 s next stepped ih =>
    cases limit with
    | zero => simp [runWithin] at h
    | succ limit => exact ih (by simpa [runWithin, stepped] using h)

theorem visit_eq_of_within {root : String} (h : s.visitWithin g excluded limit root = some t) :
    s.visit g excluded root = t := by
  unfold visitWithin at h
  unfold visit
  split_ifs at h ⊢
  · exact Option.some.inj h
  · exact run_eq_of_within h
  · exact Option.some.inj h

theorem foldl_visit_eq_of_within {names : List String}
    (h : names.foldlM (visitWithin g excluded limit) s = some t) :
    names.foldl (visit g excluded) s = t := by
  induction names generalizing s with
  | nil => exact Option.some.inj h
  | cons root names ih =>
    rw [List.foldlM_cons] at h
    obtain ⟨u, visited, rest⟩ := Option.bind_eq_some_iff.1 h
    rw [List.foldl_cons, visit_eq_of_within visited]
    exact ih rest

end Search

/-- The search for cycles, if it takes no more than `limit` steps from each class. -/
def Graph.findCyclesWithin (g : Graph) (excluded : NameSet) (limit : Nat) : Option CycleReport :=
  (g.names.toList.foldlM (Search.visitWithin g excluded limit) (.start g)).map Search.report

/-- A limit that is large enough changes nothing, so the search in a given graph can be evaluated.
-/
theorem Graph.findCycles_eq_of_within {g : Graph} {excluded : NameSet} {limit : Nat}
    {report : CycleReport} (h : g.findCyclesWithin excluded limit = some report) :
    g.findCycles excluded = report := by
  obtain ⟨s, finished, rfl⟩ := Option.map_eq_some_iff.1 h
  rw [findCycles, Search.foldl_visit_eq_of_within finished]

end ChangeImpact

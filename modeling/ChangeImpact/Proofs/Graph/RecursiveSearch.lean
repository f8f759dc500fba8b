import ChangeImpact.Proofs.Graph.DepthFirst
import ChangeImpact.Proofs.Graph.Observation
import Mathlib.Logic.Function.Basic

/-!
# The search for cycles as a recursion

The search is most easily said as a recursion: to visit a class is to go through its
dependencies and to visit those not met before. It is said here by an evaluation relation,
with a rule for everything that can happen to a dependency. The machine that runs the
search has no calls to return from. It keeps a frame for every visit that has begun, with
the place among the dependencies where that visit goes on.

A stack of frames thus says what the recursion still has to do, which is the relation
`Traversal.Resumes`. Every step of the machine leaves what is found that way unchanged.
When the stack is empty nothing is left to do, so the recursion finds what the machine
has found; and since the machine stops, there is a result.

## Main definitions

* `Traversal.Visits`: visiting a class and all that it leads to.
* `Graph.FindsRecursively`: what is found by visiting all classes that are not excluded.
* `Traversal.Resumes`: what the recursion does with a stack of visits that have begun.
* `Search.traversal`: what the recursion sees of a state of the machine.

## Main statements

* `Search.Reached.completesTo_step`: a step of the machine does not change what is found.
* `Graph.findsRecursively_iff`: the recursion finds what the machine finds, and nothing else.
-/

namespace ChangeImpact

/-! ## The recursion -/

/-- How far the recursion has come with a class: not met, on the path, or done. -/
inductive Shade where
  | white
  | gray
  | black
deriving DecidableEq

/-- What the recursion keeps: the shade of every class, the path to the class that is being
visited, and what has been found. -/
structure Traversal where
  shade : String → Shade
  path : List String
  report : CycleReport

namespace Traversal

def start : Traversal where
  shade _ := .white
  path := []
  report := {}

def enter (t : Traversal) (name : String) : Traversal :=
  { t with
    shade := Function.update t.shade name .gray
    path := t.path ++ [name] }

def leave (t : Traversal) (name : String) : Traversal :=
  { t with
    shade := Function.update t.shade name .black
    path := t.path.dropLast }

def prune (t : Traversal) (user used : String) : Traversal :=
  { t with report := { t.report with pruned := t.report.pruned ++ [(user, used)] } }

/-- Report the path from a class onward, and that class again. -/
def close (t : Traversal) (used : String) : Traversal :=
  let cycle : Cycle := ⟨t.path.dropWhile (· != used) ++ [used]⟩
  { t with report := { t.report with cycles := t.report.cycles ++ [cycle] } }

mutual

/-- A visit of a class: enter it, look at its dependencies in order, and leave it. -/
inductive Visits (g : Graph) (excluded : NameSet) : Traversal → String → Traversal → Prop where
  | intro {t u : Traversal} {name : String}
      (inside : Examines g excluded name (t.enter name) (g.dependencies name).toList u) :
      Visits g excluded t name (u.leave name)

/-- A look at dependencies of the class that is being visited, one after another. -/
inductive Examines (g : Graph) (excluded : NameSet) :
    String → Traversal → List String → Traversal → Prop where
  | done {user : String} {t : Traversal} : Examines g excluded user t [] t
  | prune {user used : String} {others : List String} {t u : Traversal}
      (skipped : used ∈ excluded)
      (rest : Examines g excluded user (t.prune user used) others u) :
      Examines g excluded user t (used :: others) u
  | visit {user used : String} {others : List String} {t u v : Traversal}
      (kept : used ∉ excluded) (white : t.shade used = .white)
      (inner : Visits g excluded t used u) (rest : Examines g excluded user u others v) :
      Examines g excluded user t (used :: others) v
  | close {user used : String} {others : List String} {t u : Traversal}
      (kept : used ∉ excluded) (gray : t.shade used = .gray)
      (rest : Examines g excluded user (t.close used) others u) :
      Examines g excluded user t (used :: others) u
  | pass {user used : String} {others : List String} {t u : Traversal}
      (kept : used ∉ excluded) (black : t.shade used = .black)
      (rest : Examines g excluded user t others u) :
      Examines g excluded user t (used :: others) u

end

/-- A visit of every class in a list, unless it is excluded or has been met before. -/
inductive VisitsAll (g : Graph) (excluded : NameSet) :
    Traversal → List String → Traversal → Prop where
  | done {t : Traversal} : VisitsAll g excluded t [] t
  | skip {root : String} {roots : List String} {t u : Traversal}
      (known : root ∈ excluded ∨ t.shade root ≠ .white) (rest : VisitsAll g excluded t roots u) :
      VisitsAll g excluded t (root :: roots) u
  | visit {root : String} {roots : List String} {t u v : Traversal}
      (kept : root ∉ excluded) (white : t.shade root = .white)
      (first : Visits g excluded t root u) (rest : VisitsAll g excluded u roots v) :
      VisitsAll g excluded t (root :: roots) v

end Traversal

/-- The report of a recursion that visits all classes in order. -/
def Graph.FindsRecursively (g : Graph) (excluded : NameSet) (report : CycleReport) : Prop :=
  ∃ t, Traversal.VisitsAll g excluded .start g.names.toList t ∧ t.report = report

namespace Traversal

variable {g : Graph} {excluded : NameSet} {t u : Traversal} {user used root : String}
  {others roots : List String}

/-- With an equivalence for each rule, a derivation is followed step by step in either direction. -/
theorem visits_iff : Visits g excluded t user u ↔
    ∃ v, Examines g excluded user (t.enter user) (g.dependencies user).toList v ∧
      u = v.leave user := by
  constructor
  · rintro ⟨inside⟩
    exact ⟨_, inside, rfl⟩
  · rintro ⟨v, inside, rfl⟩
    exact .intro inside

theorem examines_nil_iff : Examines g excluded user t [] u ↔ u = t := by
  constructor
  · rintro ⟨⟩
    rfl
  · rintro rfl
    exact .done

/-! Which rule applies to a dependency is settled by its class. -/

theorem examines_iff_of_mem (skipped : used ∈ excluded) :
    Examines g excluded user t (used :: others) u ↔
      Examines g excluded user (t.prune user used) others u := by
  refine ⟨fun h => ?_, .prune skipped⟩
  cases h with
  | prune _ rest => exact rest
  | visit kept | close kept | pass kept => exact absurd skipped kept

theorem examines_iff_of_white (kept : used ∉ excluded) (white : t.shade used = .white) :
    Examines g excluded user t (used :: others) u ↔
      ∃ v, Visits g excluded t used v ∧ Examines g excluded user v others u := by
  refine ⟨fun h => ?_, fun ⟨v, inner, rest⟩ => .visit kept white inner rest⟩
  cases h with
  | prune skipped => exact absurd skipped kept
  | visit _ _ inner rest => exact ⟨_, inner, rest⟩
  | close _ gray => cases white.symm.trans gray
  | pass _ black => cases white.symm.trans black

theorem examines_iff_of_gray (kept : used ∉ excluded) (gray : t.shade used = .gray) :
    Examines g excluded user t (used :: others) u ↔
      Examines g excluded user (t.close used) others u := by
  refine ⟨fun h => ?_, .close kept gray⟩
  cases h with
  | prune skipped => exact absurd skipped kept
  | visit _ white => cases gray.symm.trans white
  | close _ _ rest => exact rest
  | pass _ black => cases gray.symm.trans black

theorem examines_iff_of_black (kept : used ∉ excluded) (black : t.shade used = .black) :
    Examines g excluded user t (used :: others) u ↔ Examines g excluded user t others u := by
  refine ⟨fun h => ?_, .pass kept black⟩
  cases h with
  | prune skipped => exact absurd skipped kept
  | visit _ white => cases black.symm.trans white
  | close _ gray => cases black.symm.trans gray
  | pass _ _ rest => exact rest

theorem visitsAll_nil_iff : VisitsAll g excluded t [] u ↔ u = t := by
  constructor
  · rintro ⟨⟩
    rfl
  · rintro rfl
    exact .done

theorem visitsAll_iff_of_known (known : root ∈ excluded ∨ t.shade root ≠ .white) :
    VisitsAll g excluded t (root :: roots) u ↔ VisitsAll g excluded t roots u := by
  refine ⟨fun h => ?_, .skip known⟩
  cases h with
  | skip _ rest => exact rest
  | visit kept white => exact absurd white (known.resolve_left kept)

theorem visitsAll_iff_of_white (kept : root ∉ excluded) (white : t.shade root = .white) :
    VisitsAll g excluded t (root :: roots) u ↔
      ∃ v, Visits g excluded t root v ∧ VisitsAll g excluded v roots u := by
  refine ⟨fun h => ?_, fun ⟨v, first, rest⟩ => .visit kept white first rest⟩
  cases h with
  | skip known => exact absurd white (known.resolve_left kept)
  | visit _ _ first rest => exact ⟨_, first, rest⟩

/-! ## What a stack has left to do -/

/-- Visits that have begun are finished, the innermost first: the dependencies that are left are
looked at, then the class is left. -/
def Resumes (g : Graph) (excluded : NameSet) : Traversal → List Frame → Traversal → Prop
  | t, [], u => u = t
  | t, f :: outer, u => ∃ v, Examines g excluded f.name t (f.neighbours.drop f.next) v ∧
      Resumes g excluded (v.leave f.name) outer u

/-- A visit and what comes after it is what a new frame on the stack has left to do. -/
theorem exists_visits_and_resumes_iff {name : String} {frames : List Frame} :
    (∃ v, Visits g excluded t name v ∧ Resumes g excluded v frames u) ↔
      Resumes g excluded (t.enter name) (⟨name, (g.dependencies name).toList, 0⟩ :: frames) u := by
  simp only [visits_iff, Resumes, List.drop_zero]
  constructor
  · rintro ⟨_, ⟨v, inside, rfl⟩, rest⟩
    exact ⟨v, inside, rest⟩
  · rintro ⟨v, inside, rest⟩
    exact ⟨_, ⟨v, inside, rfl⟩, rest⟩

/-- Nothing is left to look at, so the visit ends with leaving the class. -/
theorem resumes_iff_of_exhausted {f : Frame} {outer : List Frame}
    (exhausted : f.neighbours[f.next]? = none) :
    Resumes g excluded t (f :: outer) u ↔ Resumes g excluded (t.leave f.name) outer u := by
  have nothing : f.neighbours.drop f.next = [] :=
    List.drop_eq_nil_of_le (List.getElem?_eq_none_iff.1 exhausted)
  simp only [Resumes, nothing, examines_nil_iff, exists_eq_left]

/-- The next dependency is looked at before all that is left. -/
theorem resumes_iff_of_looksAt {s : Search} {f : Frame} {outer : List Frame}
    (look : s.LooksAt f outer used) :
    Resumes g excluded t s.frames u ↔
      ∃ v, Examines g excluded f.name t (used :: f.neighbours.drop (f.next + 1)) v ∧
        Resumes g excluded (v.leave f.name) outer u := by
  obtain ⟨lt, at_next⟩ := List.getElem?_eq_some_iff.1 look.next
  have next : f.neighbours.drop f.next = used :: f.neighbours.drop (f.next + 1) := by
    rw [List.drop_eq_getElem_cons lt, at_next]
  rw [look.frames, Resumes, next]

end Traversal

/-! ## What the recursion sees of the machine -/

/-- The machine also keeps the position of a gray class on the path. -/
def Colour.shade : Colour → Shade
  | .white => .white
  | .gray _ => .gray
  | .black => .black

namespace Search

variable {g : Graph} {excluded : NameSet} {done : List String} {s t : Search} {f : Frame}
  {outer : List Frame} {used : String} {u : Traversal}

/-- The state of the recursion that a state of the machine stands for. What the machine does not
know is never met. -/
def traversal (g : Graph) (s : Search) : Traversal where
  shade n := if n ∈ g.names then (s.palette.get n).shade else .white
  path := s.path
  report := s.report

/-- For other names the two differ: the recursion has not met them, and the machine takes them for
finished. -/
theorem shade_traversal (s : Search) {n : String} (registered : n ∈ g.names) :
    (s.traversal g).shade n = (s.palette.get n).shade := if_pos registered

theorem traversal_start (g : Graph) : (start g).traversal g = .start := by
  have shade : ((start g).traversal g).shade = fun _ => .white := by
    funext n
    by_cases registered : n ∈ g.names
    · have listed : n ∈ g.names.toList := registered
      rw [shade_traversal _ registered, start, Palette.get_blank, if_pos listed]
      rfl
    · exact if_neg registered
  exact congrArg (fun shade => (⟨shade, [], {}⟩ : Traversal)) shade

/-- Painting a class that is known and not finished marks it. -/
theorem shade_traversal_set {palette : Palette} {name : String} (colour : Colour)
    (registered : name ∈ g.names) (unfinished : palette.get name ≠ .black) :
    (fun n => if n ∈ g.names then ((palette.set name colour).get n).shade else Shade.white)
      = Function.update (fun n => if n ∈ g.names then (palette.get n).shade else .white) name
          colour.shade := by
  funext n
  by_cases same : n = name
  · subst same
    simp [registered, Palette.get_set_self unfinished]
  · simp [Function.update_of_ne same, Palette.get_set_of_ne _ same]

theorem traversal_enter {name : String} (registered : name ∈ g.names)
    (white : s.palette.get name = .white) :
    (s.enter g name).traversal g = (s.traversal g).enter name := by
  have shade := shade_traversal_set (.gray s.path.length) registered
    (by simp [white] : s.palette.get name ≠ .black)
  exact congrArg (fun shade => (⟨shade, s.path ++ [name], s.report⟩ : Traversal)) shade

/-- The machine removes the last class of the path, the recursion the one it visits: they are the
same. -/
theorem Layout.traversal_leave (h : Layout g excluded done s) (frames : s.frames = f :: outer)
    (registered : f.name ∈ g.names) :
    (s.leave f outer).traversal g = (s.traversal g).leave f.name := by
  have shade := shade_traversal_set .black registered (h.innermost_ne_black frames)
  exact congrArg (fun shade => (⟨shade, s.path.dropLast, s.report⟩ : Traversal)) shade

/-- Where nothing repeats, the list from a name onward is the list from its position on. -/
theorem dropWhile_ne_eq_drop {names : List String} (distinct : names.Nodup) {n : String} {i : Nat}
    (at_i : names[i]? = some n) : names.dropWhile (· != n) = names.drop i := by
  obtain ⟨lt, rfl⟩ := List.getElem?_eq_some_iff.1 at_i
  have first : names.findIdx (· == names[i]) = i := distinct.idxOf_getElem i lt
  simp only [List.dropWhile_eq_drop_findIdx_not, bne, Bool.not_not, first]

/-- The machine cuts the path at a position, the recursion at a class: that class stands there and
nowhere else. -/
theorem Layout.traversal_close (h : Layout g excluded done s) {position : Nat}
    (gray : s.palette.get used = .gray position) :
    (s.close position used).traversal g = (s.traversal g).close used := by
  have onward := dropWhile_ne_eq_drop h.nodup_path ((h.gray_iff used position).1 gray)
  simp only [Search.close, traversal, Traversal.close, onward]

/-! ## Steps and runs -/

/-- What the recursion makes of a state of the machine, by finishing the visits on its stack. -/
def CompletesTo (g : Graph) (excluded : NameSet) (s : Search) (u : Traversal) : Prop :=
  Traversal.Resumes g excluded (s.traversal g) s.frames u

/-- To enter a class begins its visit, and the stack comes after it. -/
theorem completesTo_enter {name : String} (registered : name ∈ g.names)
    (white : s.palette.get name = .white) :
    CompletesTo g excluded (s.enter g name) u ↔
      ∃ v, Traversal.Visits g excluded (s.traversal g) name v ∧
        Traversal.Resumes g excluded v s.frames u := by
  rw [Traversal.exists_visits_and_resumes_iff, CompletesTo, traversal_enter registered white]
  rfl

/-- To look at a dependency does not change what is found in the end. -/
theorem Reached.completesTo_examine (h : Reached g excluded done s)
    (look : s.LooksAt f outer used) :
    CompletesTo g excluded ((s.advance f outer).examine g excluded f.name used) u ↔
      CompletesTo g excluded s u := by
  have registered : used ∈ g.names := h.layout.mem_names look
  have shade := shade_traversal (s.advance f outer) registered
  -- Taking the dependency off the frame changes nothing the recursion sees.
  have before : CompletesTo g excluded s u ↔
      ∃ v, Traversal.Examines g excluded f.name ((s.advance f outer).traversal g)
          (used :: f.neighbours.drop (f.next + 1)) v ∧
        Traversal.Resumes g excluded (v.leave f.name) outer u :=
    Traversal.resumes_iff_of_looksAt look
  rw [before]
  unfold Search.examine
  split
  · rename_i skipped
    rw [NameSet.contains_iff] at skipped
    simp only [Traversal.examines_iff_of_mem skipped]
    rfl
  · rename_i kept
    rw [NameSet.contains_iff] at kept
    split
    · rename_i white
      rw [white] at shade
      rw [completesTo_enter registered white]
      simp only [Traversal.examines_iff_of_white kept shade]
      -- The user's other dependencies: behind the inner visit there, on the stack here.
      constructor
      · rintro ⟨w, inner, v, rest, outside⟩
        exact ⟨v, ⟨w, inner, rest⟩, outside⟩
      · rintro ⟨v, ⟨w, inner, rest⟩, outside⟩
        exact ⟨w, inner, v, rest, outside⟩
    · rename_i gray
      rw [gray] at shade
      simp only [Traversal.examines_iff_of_gray kept shade]
      rw [CompletesTo, (h.layout.advance look.frames).traversal_close gray]
      rfl
    · rename_i black
      rw [black] at shade
      simp only [Traversal.examines_iff_of_black kept shade]
      rfl

/-- A step does not change what is found in the end. -/
theorem Reached.completesTo_step (h : Reached g excluded done s)
    (step : s.step g excluded = some t) :
    CompletesTo g excluded t u ↔ CompletesTo g excluded s u := by
  rcases step_cases step with ⟨f, outer, frames, exhausted, rfl⟩ | ⟨f, outer, used, look, rfl⟩
  · have registered : f.name ∈ g.names := h.mem_names (by simp [entered, frames])
    rw [CompletesTo, CompletesTo, h.layout.traversal_leave frames registered, frames,
      Traversal.resumes_iff_of_exhausted exhausted]
    rfl
  · exact h.completesTo_examine look

/-- The recursion finishes the visits on a stack in one way, and that is what the machine does. -/
theorem Reached.completesTo_iff (h : Reached g excluded done s) :
    CompletesTo g excluded s u ↔ u = (s.run g excluded).traversal g := by
  fun_induction Search.run g excluded s generalizing done with
  | case1 s stop =>
    rw [CompletesTo, frames_eq_nil_of_step_eq_none stop]
    rfl
  | case2 s t next ih =>
    obtain ⟨done', reached, -⟩ := h.step next
    rw [← h.completesTo_step next]
    exact ih reached

/-- With nothing on its stack, the machine visits a class as the recursion does. -/
theorem Reached.visits_iff (h : Reached g excluded done s) (idle : s.frames = []) {root : String}
    (registered : root ∈ g.names) (kept : root ∉ excluded) (white : s.palette.get root = .white) :
    Traversal.Visits g excluded (s.traversal g) root u ↔
      u = ((s.enter g root).run g excluded).traversal g := by
  rw [← (h.root idle registered kept white).completesTo_iff, completesTo_enter registered white,
    idle]
  simp only [Traversal.Resumes, exists_eq_right']

/-- Between two roots nothing is left to be finished, so a run of the machine is one visit. -/
theorem Reached.visitsAll_cons_iff (h : Reached g excluded done s) (idle : s.frames = [])
    {root : String} (registered : root ∈ g.names) {roots : List String} :
    Traversal.VisitsAll g excluded (s.traversal g) (root :: roots) u ↔
      Traversal.VisitsAll g excluded ((s.visit g excluded root).traversal g) roots u := by
  have shade := shade_traversal s registered
  unfold Search.visit
  split
  · rename_i skipped
    rw [NameSet.contains_iff] at skipped
    exact Traversal.visitsAll_iff_of_known (.inl skipped)
  · rename_i kept
    rw [NameSet.contains_iff] at kept
    split
    · rename_i white
      rw [white] at shade
      simp only [Traversal.visitsAll_iff_of_white kept shade,
        h.visits_iff idle registered kept white, exists_eq_left]
    · rename_i notWhite
      have met : (s.traversal g).shade root ≠ .white := by
        rw [shade]
        cases colour : s.palette.get root <;> simp_all [Colour.shade]
      exact Traversal.visitsAll_iff_of_known (.inr met)

theorem Reached.visitsAll_iff (h : Reached g excluded done s) (idle : s.frames = [])
    (names : List String) (registered : ∀ n ∈ names, n ∈ g.names) :
    Traversal.VisitsAll g excluded (s.traversal g) names u ↔
      u = (names.foldl (Search.visit g excluded) s).traversal g := by
  induction names generalizing done s with
  | nil => exact Traversal.visitsAll_nil_iff
  | cons name names ih =>
    have here := registered name (by simp)
    obtain ⟨done', reached, idle', -⟩ := h.visit idle here
    rw [h.visitsAll_cons_iff idle here, List.foldl_cons]
    exact ih reached idle' fun n hn => registered n (List.mem_cons_of_mem _ hn)

end Search

/-- The recursion has a result, and it is the report of the machine: the same cycles and the same
dependencies on excluded classes, in the same order. -/
theorem Graph.findsRecursively_iff (g : Graph) (excluded : NameSet) (report : CycleReport) :
    g.FindsRecursively excluded report ↔ report = g.findCycles excluded := by
  have first : Search.Reached g excluded [] (Search.start g) := .start
  rw [FindsRecursively, ← Search.traversal_start g]
  simp only [first.visitsAll_iff rfl g.names.toList fun n hn => hn, exists_eq_left]
  exact eq_comm

end ChangeImpact

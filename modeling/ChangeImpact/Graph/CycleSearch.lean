import ChangeImpact.Graph.Basic
import ChangeImpact.Graph.Cycle

/-!
# Searching for cycles

A depth-first search in three colours, run as a machine with an explicit stack.
A white class has not been entered, a gray one lies on the current path, a black
one is finished. A dependency on a gray class closes a cycle; a dependency on an
excluded class is recorded and not followed.

## Main definitions

* `Palette`: the colour of every class.
* `Search`, `Search.step`, `Search.run`: the machine, one step of it, and its run
  until the stack is empty.
* `Graph.findCycles`: the search from every class in order.
-/

namespace ChangeImpact

/-- How far the search has come with a class. -/
inductive Colour where
  | white
  /-- On the current path, at this position. -/
  | gray (position : Nat)
  | black
deriving DecidableEq, Inhabited

/-! ## Colours of all classes -/

structure Palette where
  entries : List (String × Colour)

namespace Palette

def blank (names : List String) : Palette := ⟨names.map (·, .white)⟩

/-- The colour of a class. A name without a colour counts as finished. -/
def get (p : Palette) (name : String) : Colour := (p.entries.lookup name).getD .black

def set (p : Palette) (name : String) (colour : Colour) : Palette :=
  ⟨p.entries.map fun e => if e.1 = name then (e.1, colour) else e⟩

def whites (p : Palette) : Nat := p.entries.countP (·.2 = .white)

theorem whites_set_le (p : Palette) (name : String) {colour : Colour} (h : colour ≠ .white) :
    (p.set name colour).whites ≤ p.whites := by
  obtain ⟨entries⟩ := p
  simp only [set, whites, List.countP_map]
  refine List.countP_mono_left fun e _ => ?_
  by_cases he : e.1 = name <;> simp [he, h]

theorem whites_set_lt {p : Palette} {name : String} {colour : Colour} (h : colour ≠ .white)
    (white : p.get name = .white) : (p.set name colour).whites < p.whites := by
  obtain ⟨entries⟩ := p
  induction entries with
  | nil => simp [get] at white
  | cons e entries ih =>
    obtain ⟨n, c⟩ := e
    by_cases same : n = name
    · subst same
      have hc : c = .white := by simpa [get] using white
      have rest := whites_set_le ⟨entries⟩ n h
      simp only [set, whites] at rest
      simp only [set, whites, List.map_cons, List.countP_cons, hc]
      simpa [h] using Nat.lt_succ_of_le rest
    · have white' : get ⟨entries⟩ name = .white := by
        have other : (name == n) = false := by simpa using Ne.symm same
        simpa [get, List.lookup_cons, other] using white
      have rest := ih white'
      simp only [set, whites] at rest
      simp only [set, whites, List.map_cons, List.countP_cons, same]
      simpa using rest

end Palette

/-! ## The machine -/

/-- A class on the path and how many of its dependencies have been looked at. -/
structure Frame where
  name : String
  neighbours : List String
  next : Nat
deriving DecidableEq, Inhabited

/-- What is left to do for a frame: its dependencies and its own end. -/
def Frame.work (f : Frame) : Nat := f.neighbours.length - f.next + 1

structure Search where
  palette : Palette
  /-- The classes being visited, outermost first. -/
  path : List String
  /-- Their frames, innermost first. -/
  frames : List Frame
  /-- What has been found, in the order of discovery. -/
  report : CycleReport

namespace Search

def start (g : Graph) : Search where
  palette := .blank g.names.toList
  path := []
  frames := []
  report := {}

def enter (g : Graph) (s : Search) (name : String) : Search :=
  { s with
    palette := s.palette.set name (.gray s.path.length)
    path := s.path ++ [name]
    frames := ⟨name, (g.dependencies name).toList, 0⟩ :: s.frames }

def leave (s : Search) (f : Frame) (outer : List Frame) : Search :=
  { s with
    palette := s.palette.set f.name .black
    path := s.path.dropLast
    frames := outer }

def prune (s : Search) (user used : String) : Search :=
  { s with report := { s.report with pruned := s.report.pruned ++ [(user, used)] } }

/-- Record the cycle that a dependency on the path's class at `position` closes. -/
def close (s : Search) (position : Nat) (name : String) : Search :=
  { s with
    report := { s.report with cycles := s.report.cycles ++ [⟨s.path.drop position ++ [name]⟩] } }

/-- Look at one dependency of the class on top of the stack. -/
def examine (g : Graph) (excluded : NameSet) (s : Search) (user used : String) : Search :=
  if excluded.contains used then s.prune user used
  else
    match s.palette.get used with
    | .white => s.enter g used
    | .gray position => s.close position used
    | .black => s

/-- One step: look at the next dependency of the innermost class, or finish that class. -/
def step (g : Graph) (excluded : NameSet) (s : Search) : Option Search :=
  match s.frames with
  | [] => none
  | f :: outer =>
    match f.neighbours[f.next]? with
    | none => some (s.leave f outer)
    | some used =>
      some <| examine g excluded { s with frames := { f with next := f.next + 1 } :: outer }
        f.name used

def work (s : Search) : Nat := s.frames.foldr (fun f n => f.work + n) 0

theorem step_measure {g : Graph} {excluded : NameSet} {s t : Search}
    (h : step g excluded s = some t) :
    t.palette.whites < s.palette.whites ∨
      t.palette.whites ≤ s.palette.whites ∧ t.work < s.work := by
  unfold step at h
  split at h
  · simp at h
  · rename_i f outer frames
    split at h
    · rename_i exhausted
      simp only [Option.some.injEq] at h
      subst h
      refine .inr ⟨s.palette.whites_set_le _ (by simp), ?_⟩
      simp only [work, leave, frames, List.foldr_cons, Frame.work]
      omega
    · rename_i used at_next
      have next_lt : f.next < f.neighbours.length := (List.getElem?_eq_some_iff.1 at_next).1
      simp only [Option.some.injEq] at h
      have less : f.neighbours.length - (f.next + 1) + 1 + outer.foldr (fun f n => f.work + n) 0
          < s.work := by
        simp only [work, frames, List.foldr_cons, Frame.work]
        omega
      subst h
      unfold examine
      split
      · exact .inr ⟨Nat.le_refl _, by simpa [prune, work, Frame.work] using less⟩
      · split
        · rename_i white
          exact .inl (Palette.whites_set_lt (by simp) white)
        · exact .inr ⟨Nat.le_refl _, by simpa [close, work, Frame.work] using less⟩
        · exact .inr ⟨Nat.le_refl _, by simpa [work, Frame.work] using less⟩

/-- Step until the stack is empty. Every step enters a white class or has less to do. -/
def run (g : Graph) (excluded : NameSet) (s : Search) : Search :=
  match _step : step g excluded s with
  | none => s
  | some t => run g excluded t
termination_by (s.palette.whites, s.work)
decreasing_by
  rcases step_measure _step with lt | ⟨le, lt⟩
  · exact Prod.Lex.left _ _ lt
  · rcases Nat.lt_or_eq_of_le le with less | same
    · exact Prod.Lex.left _ _ less
    · rw [same]; exact Prod.Lex.right _ lt

/-- Visit a class with everything that can be reached from it, unless it is excluded or
has been entered before. -/
def visit (g : Graph) (excluded : NameSet) (s : Search) (root : String) : Search :=
  if excluded.contains root then s
  else if s.palette.get root = .white then (s.enter g root).run g excluded
  else s

end Search

/-- All cycles among the classes that are not excluded, as far as closing dependencies tell
them apart, and the dependencies on excluded classes. -/
def Graph.findCycles (g : Graph) (excluded : NameSet) : CycleReport :=
  (g.names.toList.foldl (Search.visit g excluded) (Search.start g)).report

end ChangeImpact

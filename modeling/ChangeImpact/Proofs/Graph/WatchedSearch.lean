import ChangeImpact.Proofs.Graph.Observation
import ChangeImpact.Proofs.Graph.Projection
import ChangeImpact.Proofs.Graph.SearchInvariant

/-!
# The search under watch

The search asks for colours and cuts its path without checking that the colour is there or
that the path is long enough, and its loop has no limit. Here it runs under watch. The
watched search does what the search does, but it stops with a fault where a colour is
missing, where the path is too short, or where it has taken as many turns as it may. It
also writes down the classes that it enters and counts its turns.

It never stops with a fault. Since the classes entered and the dependencies looked at are
known in every state, what it has written down in the end is known too: every class that
is not excluded is entered once, and there is a turn to leave it and one for each of its
dependencies.

## Main definitions

* `WatchedSearch`, `WatchedSearch.step`, `WatchedSearch.run`: the search under watch.
* `Graph.watchCycles`: the search from every class, under watch.
* `Graph.turns`: how many turns the search takes.
* `WatchedSearch.Faithful`: what has been written down is what the search has done.

## Main statements

* `WatchedSearch.Faithful.exists_step`, `WatchedSearch.Faithful.exists_run`: where the search
  goes on, it goes on under watch too.
* `Graph.cycleSearch_coherent_and_ends`: every state of the search is coherent, nothing is
  accessed that is not there, and the search ends after the turns that it is known to take.
-/

namespace ChangeImpact

/-! ## Watching -/

/-- Why a watched search stops before its end. -/
inductive Search.Fault where
  /-- A class has no colour that could be read or changed. -/
  | uncoloured (name : String)
  /-- The path ends before this position. -/
  | beyondPath (position : Nat)
  /-- The loop has taken as many turns as it may. -/
  | outOfTurns
deriving DecidableEq

/-- A search with a record of what it has done. -/
structure WatchedSearch where
  search : Search
  /-- The classes entered, in the order of entering. -/
  entered : List String
  /-- The turns that the loop has taken. -/
  turns : Nat

namespace WatchedSearch

/-- The colour of a class, which has to be there. -/
def colour (w : WatchedSearch) (name : String) : Except Search.Fault Colour :=
  match w.search.palette.entries.lookup name with
  | some colour => .ok colour
  | none => .error (.uncoloured name)

def enter (g : Graph) (w : WatchedSearch) (name : String) : WatchedSearch :=
  { w with search := w.search.enter g name, entered := w.entered ++ [name] }

def advance (w : WatchedSearch) (f : Frame) (outer : List Frame) : WatchedSearch :=
  { w with search := w.search.advance f outer, turns := w.turns + 1 }

def leave (w : WatchedSearch) (f : Frame) (outer : List Frame) :
    Except Search.Fault WatchedSearch := do
  let _ ← w.colour f.name
  return { w with search := w.search.leave f outer, turns := w.turns + 1 }

/-- Record a cycle, which the path from `position` on has to give. -/
def close (w : WatchedSearch) (position : Nat) (name : String) :
    Except Search.Fault WatchedSearch :=
  if position ≤ w.search.path.length then
    .ok { w with search := w.search.close position name }
  else .error (.beyondPath position)

def examine (g : Graph) (excluded : NameSet) (w : WatchedSearch) (user used : String) :
    Except Search.Fault WatchedSearch :=
  if excluded.contains used then .ok { w with search := w.search.prune user used }
  else do
    match ← w.colour used with
    | .white => return w.enter g used
    | .gray position => w.close position used
    | .black => return w

def step (g : Graph) (excluded : NameSet) (w : WatchedSearch) :
    Except Search.Fault (Option WatchedSearch) :=
  match w.search.frames with
  | [] => .ok none
  | f :: outer =>
    match f.neighbours[f.next]? with
    | none => some <$> w.leave f outer
    | some used => some <$> (w.advance f outer).examine g excluded f.name used

def run (g : Graph) (excluded : NameSet) : Nat → WatchedSearch → Except Search.Fault WatchedSearch
  | 0, w => if w.search.frames = [] then .ok w else .error .outOfTurns
  | limit + 1, w => do
    match ← w.step g excluded with
    | none => return w
    | some v => run g excluded limit v

/-- Visit a class, unless it is excluded or has been entered before. In all, the loop may take
`limit` turns. -/
def visit (g : Graph) (excluded : NameSet) (limit : Nat) (w : WatchedSearch) (root : String) :
    Except Search.Fault WatchedSearch :=
  if excluded.contains root then .ok w
  else do
    if (← w.colour root) = .white then (w.enter g root).run g excluded (limit - w.turns)
    else return w

def start (g : Graph) : WatchedSearch := ⟨Search.start g, [], 0⟩

end WatchedSearch

namespace Graph

/-- The search for cycles under watch, with at most `limit` turns of its loop. -/
def watchCycles (g : Graph) (excluded : NameSet) (limit : Nat) :
    Except Search.Fault WatchedSearch :=
  g.names.toList.foldlM (WatchedSearch.visit g excluded limit) (.start g)

/-- A turn to leave every class that is not excluded, and one for each of its dependencies. -/
def turns (g : Graph) (excluded : NameSet) : Nat :=
  (g.kept excluded).toList.length + ((g.kept excluded).toList.flatMap g.row).length

end Graph

/-! ## What is written down -/

namespace WatchedSearch

/-- The search has come to a state that is reached, and what has been written down is what it has
done: it has entered the classes on the stack and the finished ones, looked at the dependencies
that have been examined, and left the finished classes. -/
structure Faithful (g : Graph) (excluded : NameSet) (done : List String) (w : WatchedSearch) :
    Prop where
  reached : Search.Reached g excluded done w.search
  entered : w.entered.Perm (w.search.entered done)
  turns : w.turns = (w.search.examined g done).length + done.length

variable {g : Graph} {excluded : NameSet} {done : List String} {w : WatchedSearch} {f : Frame}
  {outer : List Frame} {used : String}

theorem Faithful.start (g : Graph) (excluded : NameSet) :
    Faithful g excluded [] (start g) where
  reached := .start
  entered := .refl _
  turns := rfl

theorem Faithful.root (h : Faithful g excluded done w) (idle : w.search.frames = []) {name : String}
    (registered : name ∈ g.names) (kept : name ∉ excluded)
    (white : w.search.palette.get name = .white) : Faithful g excluded done (w.enter g name) where
  reached := h.reached.root idle registered kept white
  entered := (List.perm_append_singleton _ _).trans (h.entered.cons name)
  turns := by
    rw [WatchedSearch.enter, Search.examined_enter]
    exact h.turns

/-! ## No access fails -/

/-- Every class of the graph has a colour, so this access never fails. -/
theorem Faithful.colour_eq (h : Faithful g excluded done w) {name : String}
    (registered : name ∈ g.names) : w.colour name = .ok (w.search.palette.get name) := by
  have coloured : name ∈ w.search.palette.names := by
    rw [h.reached.names_palette]
    exact registered
  rw [colour, Palette.lookup_eq_some_get coloured]

/-- To leave a class is the turn after the last of its dependencies. -/
theorem Faithful.exists_leave (h : Faithful g excluded done w)
    (frames : w.search.frames = f :: outer) (exhausted : f.neighbours[f.next]? = none) :
    ∃ v, w.leave f outer = .ok v ∧ v.search = w.search.leave f outer ∧ v.turns = w.turns + 1 ∧
      Faithful g excluded (f.name :: done) v := by
  have registered : f.name ∈ g.names := h.reached.mem_names (by simp [Search.entered, frames])
  have entered := h.entered.trans (Search.entered_leave_perm frames done).symm
  have turns : w.turns + 1
      = ((w.search.leave f outer).examined g (f.name :: done)).length
        + (f.name :: done).length := by
    rw [(h.reached.layout.examined_leave_perm frames exhausted).length_eq, h.turns,
      List.length_cons]
    omega
  rw [leave, h.colour_eq registered]
  exact ⟨_, rfl, rfl, rfl, h.reached.leave frames exhausted, entered, turns⟩

/-- Every dependency leads to a class that has a colour, and the path is long enough for every
cycle that is closed. -/
theorem Faithful.exists_examine (h : Faithful g excluded done w)
    (look : w.search.LooksAt f outer used) :
    ∃ v, (w.advance f outer).examine g excluded f.name used = .ok v ∧
      v.search = (w.search.advance f outer).examine g excluded f.name used ∧
      v.turns = w.turns + 1 ∧ Faithful g excluded done v := by
  have found : (w.advance f outer).colour used = .ok (w.search.palette.get used) :=
    h.colour_eq (h.reached.layout.mem_names look)
  -- Whatever the dependency leads to, it has been looked at in this turn.
  have entered : w.entered.Perm ((w.search.advance f outer).entered done) := by
    rw [Search.entered_advance look.frames]
    exact h.entered
  have turns : w.turns + 1
      = ((w.search.advance f outer).examined g done).length + done.length := by
    rw [(Search.examined_advance_perm look done).length_eq, h.turns, List.length_cons]
    omega
  have palette : (w.search.advance f outer).palette = w.search.palette := rfl
  rw [examine, Search.examine, found, palette]
  by_cases skipped : used ∈ excluded
  · have contained := NameSet.contains_iff.2 skipped
    rw [if_pos contained, if_pos contained]
    exact ⟨_, rfl, rfl, rfl, h.reached.prune look skipped, entered, turns⟩
  · have contained : ¬ excluded.contains used = true := mt NameSet.contains_iff.1 skipped
    rw [if_neg contained, if_neg contained]
    cases colour : w.search.palette.get used with
    | white =>
      have more := (List.perm_append_singleton used _).trans (entered.cons used)
      have same := Search.examined_enter (g := g) (w.search.advance f outer) done used
      rw [← same] at turns
      exact ⟨_, rfl, rfl, rfl, h.reached.enter look skipped colour, more, turns⟩
    | gray position =>
      have long : position ≤ (w.search.advance f outer).path.length :=
        (h.reached.coherent.drop_path_eq_cons colour).1.le
      exact ⟨_, if_pos long, rfl, rfl, h.reached.close look skipped colour, entered, turns⟩
    | black => exact ⟨_, rfl, rfl, rfl, h.reached.pass look skipped colour, entered, turns⟩

/-- Where the search takes a step, it takes a turn under watch. -/
theorem Faithful.exists_step (h : Faithful g excluded done w) {t : Search}
    (next : w.search.step g excluded = some t) :
    ∃ v done', w.step g excluded = .ok (some v) ∧ v.search = t ∧ v.turns = w.turns + 1 ∧
      Faithful g excluded done' v := by
  rcases Search.step_cases next with ⟨f, outer, frames, exhausted, rfl⟩ |
    ⟨f, outer, used, look, rfl⟩
  · obtain ⟨v, left, search, turns, faithful⟩ := h.exists_leave frames exhausted
    refine ⟨v, _, ?_, search, turns, faithful⟩
    simp only [step, frames, exhausted, left]
    rfl
  · obtain ⟨v, examined, search, turns, faithful⟩ := h.exists_examine look
    refine ⟨v, _, ?_, search, turns, faithful⟩
    simp only [step, look.frames, look.next, examined]
    rfl

/-! ## The loop ends within its turns -/

/-- While a class is being visited, the turn in which it is left is still to come. -/
theorem Faithful.turns_lt (h : Faithful g excluded done w) (busy : w.search.frames ≠ []) :
    w.turns < g.turns excluded := by
  have layout := h.reached.layout
  obtain ⟨part, perm, sub⟩ : (w.search.entered done).Subperm (g.kept excluded).toList :=
    layout.distinct.subperm fun n hn => Graph.mem_kept.2 ⟨h.reached.mem_names hn, layout.kept n hn⟩
  have looked : (w.search.examined g done).length
      ≤ ((g.kept excluded).toList.flatMap g.row).length :=
    calc (w.search.examined g done).length
      _ ≤ ((w.search.entered done).flatMap g.row).length := layout.examined_sublist.length_le
      _ = (part.flatMap g.row).length := ((perm.flatMap_right g.row).length_eq).symm
      _ ≤ ((g.kept excluded).toList.flatMap g.row).length := (sub.flatMap g.row).length_le
  have left : done.length < (g.kept excluded).toList.length :=
    calc done.length
      _ < (w.search.entered done).length := by
        simpa [Search.entered] using List.length_pos_iff.2 busy
      _ = part.length := perm.length_eq.symm
      _ ≤ (g.kept excluded).toList.length := sub.length_le
  rw [h.turns, Graph.turns]
  omega

theorem run_of_idle (g : Graph) (excluded : NameSet) (idle : w.search.frames = []) (limit : Nat) :
    w.run g excluded limit = .ok w ∧ w.search.run g excluded = w.search := by
  have stop : w.search.step g excluded = none := by simp [Search.step, idle]
  refine ⟨?_, Search.run_of_step_eq_none stop⟩
  cases limit with
  | zero => exact if_pos idle
  | succ limit =>
    rw [run, step, idle]
    rfl

/-- The loop under watch comes to where the search comes, if it may take all turns that are left. -/
theorem Faithful.exists_run (h : Faithful g excluded done w) {limit : Nat}
    (enough : g.turns excluded ≤ w.turns + limit) :
    ∃ v done', w.run g excluded limit = .ok v ∧ v.search = w.search.run g excluded ∧
      Faithful g excluded done' v := by
  induction limit generalizing done w with
  | zero =>
    have idle : w.search.frames = [] := by
      by_contra busy
      exact absurd (h.turns_lt busy) (by omega)
    obtain ⟨stays, search⟩ := run_of_idle g excluded idle 0
    exact ⟨w, done, stays, search.symm, h⟩
  | succ limit ih =>
    cases next : w.search.step g excluded with
    | none =>
      have idle := Search.frames_eq_nil_of_step_eq_none next
      obtain ⟨stays, search⟩ := run_of_idle g excluded idle (limit + 1)
      exact ⟨w, done, stays, search.symm, h⟩
    | some t =>
      obtain ⟨u, mid, turn, rfl, turns, faithful⟩ := h.exists_step next
      obtain ⟨v, last, rest, search, faithful'⟩ := ih faithful (by omega)
      refine ⟨v, last, ?_, ?_, faithful'⟩
      · rw [run, turn]
        exact rest
      · rw [search, Search.run_of_step_eq_some next]

/-! ## The whole search -/

/-- The turns left are enough, for those taken and those to come are together known beforehand. -/
theorem Faithful.exists_visit (h : Faithful g excluded done w) (idle : w.search.frames = [])
    {limit : Nat} (enough : g.turns excluded ≤ limit) {root : String}
    (registered : root ∈ g.names) :
    ∃ v done', w.visit g excluded limit root = .ok v ∧
      v.search = w.search.visit g excluded root ∧ Faithful g excluded done' v := by
  unfold visit Search.visit
  rw [h.colour_eq registered]
  by_cases skipped : root ∈ excluded
  · have contained := NameSet.contains_iff.2 skipped
    rw [if_pos contained, if_pos contained]
    exact ⟨w, done, rfl, rfl, h⟩
  · have contained : ¬ excluded.contains root = true := mt NameSet.contains_iff.1 skipped
    rw [if_neg contained, if_neg contained]
    by_cases white : w.search.palette.get root = .white
    · have left : g.turns excluded ≤ (w.enter g root).turns + (limit - w.turns) := by
        simp only [enter]
        omega
      obtain ⟨v, last, ended, search, faithful⟩ :=
        (h.root idle registered skipped white).exists_run left
      rw [if_pos white]
      exact ⟨v, last, (if_pos white).trans ended, search, faithful⟩
    · rw [if_neg white]
      exact ⟨w, done, if_neg white, rfl, h⟩

theorem Faithful.exists_visits (h : Faithful g excluded done w) (idle : w.search.frames = [])
    {limit : Nat} (enough : g.turns excluded ≤ limit) (roots : List String)
    (registered : ∀ n ∈ roots, n ∈ g.names) :
    ∃ v done', roots.foldlM (visit g excluded limit) w = .ok v ∧
      v.search = roots.foldl (Search.visit g excluded) w.search ∧ Faithful g excluded done' v := by
  induction roots generalizing done w with
  | nil => exact ⟨w, done, rfl, rfl, h⟩
  | cons root roots ih =>
    have here := registered root (by simp)
    obtain ⟨u, mid, first, search, faithful⟩ := h.exists_visit idle enough here
    obtain ⟨-, -, idle', -⟩ := h.reached.visit idle here
    rw [← search] at idle'
    obtain ⟨v, last, rest, search', faithful'⟩ :=
      ih faithful idle' fun n hn => registered n (List.mem_cons_of_mem _ hn)
    refine ⟨v, last, ?_, ?_, faithful'⟩
    · rw [List.foldlM_cons, first]
      exact rest
    · rw [search', search, List.foldl_cons]

/-- When nothing is left to do, what has been written down is known. -/
theorem Faithful.of_finished (h : Faithful g excluded done w) (idle : w.search.frames = [])
    (all : ∀ n ∈ g.names, n ∉ excluded → n ∈ done) :
    w.entered.Perm (g.kept excluded).toList ∧ w.turns = g.turns excluded := by
  have layout := h.reached.layout
  have entered : w.search.entered done = done := by simp [Search.entered, idle]
  have examined : w.search.examined g done = done.flatMap g.row := by
    simp [Search.examined, idle]
  have distinct := layout.distinct
  have members : ∀ n, n ∈ done ↔ n ∈ (g.kept excluded).toList := fun n => by
    rw [← NameSet.mem_def, Graph.mem_kept]
    constructor
    · intro hn
      rw [← entered] at hn
      exact ⟨h.reached.mem_names hn, layout.kept n hn⟩
    · exact fun kept => all n kept.1 kept.2
  rw [entered] at distinct
  have perm : done.Perm (g.kept excluded).toList :=
    (List.perm_ext_iff_of_nodup distinct (g.kept excluded).nodup).2 members
  constructor
  · rw [← entered] at perm
    exact h.entered.trans perm
  · rw [h.turns, examined, Graph.turns, perm.length_eq, (perm.flatMap_right g.row).length_eq]
    exact Nat.add_comm _ _

end WatchedSearch

/-- Which classes are finished can be seen from the colours. -/
theorem Search.Reached.mem_done_of_mem {g : Graph} {excluded : NameSet} {done done' : List String}
    {s : Search} (h : Reached g excluded done s) (h' : Reached g excluded done' s) {n : String}
    (hn : n ∈ done') : n ∈ done := by
  have registered := h'.mem_names (List.mem_append_right _ hn)
  have black := (h'.layout.black_iff n registered).2 hn
  exact (h.layout.black_iff n registered).1 black

namespace Graph

/-- Under watch the search comes to its end, and with a record that is known beforehand. -/
theorem exists_watchCycles (g : Graph) (excluded : NameSet) {limit : Nat}
    (enough : g.turns excluded ≤ limit) :
    ∃ w, g.watchCycles excluded limit = .ok w ∧
      w.search = g.names.toList.foldl (Search.visit g excluded) (Search.start g) ∧
      w.entered.Perm (g.kept excluded).toList ∧ w.turns = g.turns excluded := by
  have first : Search.Reached g excluded [] (Search.start g) := .start
  obtain ⟨finished, reached, idle, -, all⟩ := first.foldl_visit rfl g.names.toList fun n hn => hn
  obtain ⟨w, done, ended, search, faithful⟩ :=
    (WatchedSearch.Faithful.start g excluded).exists_visits rfl enough g.names.toList fun n hn => hn
  change w.search = g.names.toList.foldl (Search.visit g excluded) (Search.start g) at search
  rw [← search] at reached idle
  obtain ⟨entered, turns⟩ := faithful.of_finished idle fun n registered kept =>
    faithful.reached.mem_done_of_mem reached (all n registered kept)
  exact ⟨w, ended, search, entered, turns⟩

/-- In every state that the search for cycles passes, path, stack and colours agree, and the path
from the position of a gray class on begins with that class. Between two roots path and stack are
empty. No access fails, every class that is not excluded is entered once, and the loop ends after
a turn for each of these classes and for each of their dependencies, however many it may take. -/
theorem cycleSearch_coherent_and_ends (g : Graph) (excluded : NameSet) :
    (∀ s, Search.Passes g excluded s →
      s.Coherent g excluded ∧
      ∀ used position, s.palette.get used = .gray position →
        position < s.path.length ∧ (s.path.drop position).head? = some used) ∧
    (∀ visited rest, g.names.toList = visited ++ rest →
      let s := visited.foldl (Search.visit g excluded) (Search.start g)
      s.path = [] ∧ s.frames = []) ∧
    ∀ limit, g.turns excluded ≤ limit →
      ∃ w, g.watchCycles excluded limit = .ok w ∧
        w.search = g.names.toList.foldl (Search.visit g excluded) (Search.start g) ∧
        w.search.report = g.findCycles excluded ∧
        w.entered.Perm (g.kept excluded).toList ∧ w.turns = g.turns excluded := by
  refine ⟨fun s passes => ?_, fun visited rest roots => ?_, fun limit enough => ?_⟩
  · refine ⟨passes.coherent, fun used position gray => ?_⟩
    obtain ⟨lt, onward⟩ := passes.coherent.drop_path_eq_cons gray
    exact ⟨lt, by rw [onward, List.head?_cons]⟩
  · obtain ⟨done, reached, idle⟩ := Search.exists_reached_between roots
    exact ⟨by simp [reached.layout.path_eq, idle], idle⟩
  · obtain ⟨w, ended, search, entered, turns⟩ := g.exists_watchCycles excluded enough
    exact ⟨w, ended, search, by rw [search, findCycles], entered, turns⟩

/-- The state in which the cycle is about to be closed, and the end of the search. -/
theorem cycleSearch_coherent_and_ends_twoRoutes :
    (∃ s, Search.Passes twoRoutes (.ofList ["C"]) s ∧
      s.path = ["A", "B", "D"] ∧ s.palette.get "A" = .gray 0 ∧
      s.Coherent twoRoutes (.ofList ["C"]) ∧ (s.path.drop 0).head? = some "A") ∧
    (Search.visit twoRoutes (.ofList ["C"]) (Search.start twoRoutes) "A").frames = [] ∧
    twoRoutes.turns (.ofList ["C"]) = 7 ∧
    ∃ w, twoRoutes.watchCycles (.ofList ["C"]) 7 = .ok w ∧ w.entered.Perm ["A", "B", "D"] ∧
      w.turns = 7 := by
  obtain ⟨coherent, between, ends⟩ := cycleSearch_coherent_and_ends twoRoutes (.ofList ["C"])
  have roots : twoRoutes.names.toList = [] ++ "A" :: ["B", "C", "D"] := by decide
  have turns : twoRoutes.turns (.ofList ["C"]) = 7 := by decide
  have kept : (twoRoutes.kept (.ofList ["C"])).toList = ["A", "B", "D"] := by decide
  have root : Search.Passes twoRoutes (.ofList ["C"])
      ((Search.start twoRoutes).enter twoRoutes "A") :=
    .root roots (by decide) (by decide)
  have closing := (root.step rfl).step rfl
  refine ⟨⟨_, closing, ?_, ?_, ?_⟩, ?_, turns, ?_⟩
  · decide
  · decide
  · have gray := (coherent _ closing).2 "A" 0 (by decide)
    exact ⟨(coherent _ closing).1, gray.2⟩
  · exact (between ["A"] ["B", "C", "D"] (by decide)).2
  · obtain ⟨w, ended, -, -, entered, count⟩ := ends 7 (by rw [turns])
    rw [kept] at entered
    rw [turns] at count
    exact ⟨w, ended, entered, count⟩

end Graph

end ChangeImpact

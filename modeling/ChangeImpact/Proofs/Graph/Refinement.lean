import ChangeImpact.Proofs.Graph.Store
import ChangeImpact.Proofs.Lookup
import ChangeImpact.Proofs.NameOrder
import Mathlib.Data.List.Induction
import Mathlib.Data.Set.Card

/-!
# A graph and the calls that built it

A graph is built by calls that come in any order: a class may be offered again under a
name that is taken, and a dependency may be named before its ends are known, or twice.
What the graph shows of all this can be said without the graph. Of the classes offered
under one name the first is kept, and a pair is a dependency if some call named it when
both ends were registered.

## Main definitions

* `Graph.firstNames`, `Graph.first?`, `Graph.Connected`: what a sequence of calls says.
* `Graph.Refines`: every answer of a graph is the one its calls say.

## Main statements

* `Graph.Tracks.edit`: one more call keeps the graph in step with the calls.
* `Graph.ofEdits_refines`: every graph gives the answers that its calls say.
-/

namespace ChangeImpact

namespace Graph

/-! ## What the calls say -/

def Edit.node? : Edit → Option ClassNode
  | .register node => some node
  | .connect _ _ => none

/-- All classes that were offered, in order, those turned away included. -/
def offered (edits : List Edit) : List ClassNode := edits.filterMap Edit.node?

/-- The names in the order in which they were first offered. -/
def firstNames (edits : List Edit) : List String :=
  ((offered edits).map ClassNode.name).eraseDups

def first? (edits : List Edit) (name : String) : Option ClassNode :=
  (offered edits).find? (·.name == name)

/-- Some call connected the two when both were registered. -/
def Connected (edits : List Edit) (user used : String) : Prop :=
  ∃ before after, edits = before ++ .connect user used :: after ∧
    user ∈ firstNames before ∧ used ∈ firstNames before

theorem mem_firstNames {edits : List Edit} {name : String} :
    name ∈ firstNames edits ↔ ∃ kept, first? edits name = some kept := by
  rw [firstNames, List.mem_eraseDups, ← Option.isSome_iff_exists, first?, List.find?_isSome]
  simp

theorem offered_append (edits : List Edit) (e : Edit) :
    offered (edits ++ [e]) = offered edits ++ e.node?.toList := by
  cases e <;> simp [offered, Edit.node?]

/-- A later offer of a name counts only if there was none before. -/
theorem first?_append (edits : List Edit) (e : Edit) (name : String) :
    first? (edits ++ [e]) name
      = (first? edits name).or (e.node?.toList.find? (·.name == name)) := by
  rw [first?, offered_append, List.find?_append]
  rfl

/-- A name offered once more at the end is new or leaves the list as it is. -/
theorem firstNames_register (edits : List Edit) (node : ClassNode) :
    firstNames (edits ++ [.register node])
      = if node.name ∈ firstNames edits then firstNames edits
        else firstNames edits ++ [node.name] := by
  have names : (offered (edits ++ [.register node])).map ClassNode.name
      = (offered edits).map ClassNode.name ++ [node.name] := by
    simp [offered_append, Edit.node?]
  simp only [firstNames, names, List.eraseDups_append, List.mem_eraseDups, List.removeAll]
  split_ifs with taken
  · rw [List.filter_cons_of_neg (by simpa using taken)]
    simp
  · rw [List.filter_cons_of_pos (by simpa using taken)]
    simp [List.eraseDups_cons]

theorem firstNames_connect (edits : List Edit) (user used : String) :
    firstNames (edits ++ [.connect user used]) = firstNames edits := by
  simp [firstNames, offered_append, Edit.node?]

/-- A pair is connected by the last call or was so before. -/
theorem connected_append {edits : List Edit} {e : Edit} {user used : String} :
    Connected (edits ++ [e]) user used ↔ Connected edits user used ∨
      e = .connect user used ∧ user ∈ firstNames edits ∧ used ∈ firstNames edits := by
  constructor
  · rintro ⟨before, after, split, ends⟩
    rcases after.eq_nil_or_concat with rfl | ⟨after, last, rfl⟩
    · obtain ⟨rfl, same⟩ := List.append_inj' split rfl
      exact .inr ⟨by simpa using same, ends⟩
    · rw [List.concat_eq_append, ← List.cons_append, ← List.append_assoc] at split
      exact .inl ⟨before, after, (List.append_inj' split rfl).1, ends⟩
  · rintro (⟨before, after, rfl, ends⟩ | ⟨rfl, ends⟩)
    · exact ⟨before, after ++ [e], by simp, ends⟩
    · exact ⟨edits, [], rfl, ends⟩

/-! ## A graph in step with its calls -/

/-- The store of a graph holds what some calls say. -/
structure Tracks (g : Graph) (edits : List Edit) : Prop where
  names : g.nodes.map ClassNode.name = firstNames edits
  find? : ∀ n, g.find? n = first? edits n
  links : ∀ a b, (a, b) ∈ g.links ↔ Connected edits a b

namespace Tracks

variable {g : Graph} {edits : List Edit}

theorem contains_iff (h : g.Tracks edits) {name : String} :
    g.contains name = true ↔ name ∈ firstNames edits := by
  rw [Graph.contains_iff, h.names]

/-- The class is new and joins at the end, or it is turned away and nothing changes. -/
theorem register (h : g.Tracks edits) (node : ClassNode) :
    (g.edit (.register node)).Tracks (edits ++ [.register node]) := by
  have links : ∀ a b, Connected (edits ++ [.register node]) a b ↔ Connected edits a b := by
    intro a b
    simp [connected_append]
  rcases g.register_cases node with ⟨kept, taken, rejected⟩ | ⟨free, g', ok, nodes, kept⟩
  · have known : node.name ∈ firstNames edits := mem_firstNames.2 ⟨kept, h.find? _ ▸ taken⟩
    simp only [Graph.edit, rejected]
    refine ⟨by rw [h.names, firstNames_register, if_pos known], fun n => ?_, ?_⟩
    · rw [first?_append, ← h.find?]
      by_cases same : node.name = n
      · subst same
        simp [taken]
      · simp [Edit.node?, same]
    · exact fun a b => (h.links a b).trans (links a b).symm
  · have new : node.name ∉ firstNames edits := by
      rw [← h.contains_iff, Graph.contains, free]
      simp
    simp only [Graph.edit, ok]
    refine ⟨?_, fun n => ?_, ?_⟩
    · rw [nodes, List.map_append, h.names, firstNames_register, if_neg new]
      rfl
    · rw [first?_append, ← h.find?, Graph.find?, nodes, List.find?_append]
      rfl
    · intro a b
      rw [kept, h.links, links]

/-- Whether the dependency is taken depends on the calls so far, and later ones do not make up for
it. -/
theorem connect (h : g.Tracks edits) (user used : String) :
    (g.edit (.connect user used)).Tracks (edits ++ [.connect user used]) := by
  refine ⟨?_, fun n => ?_, fun a b => ?_⟩
  · rw [firstNames_connect, ← h.names, Graph.edit, nodes_connect]
  · rw [first?_append, ← h.find?, Graph.edit, Graph.find?, nodes_connect]
    simp [Edit.node?, Graph.find?]
  · rw [Graph.edit, mem_links_connect, connected_append, h.links, h.contains_iff, h.contains_iff]
    grind

/-- One more call keeps a graph in step with its calls. -/
theorem edit (h : g.Tracks edits) (e : Edit) : (g.edit e).Tracks (edits ++ [e]) := by
  cases e with
  | register node => exact h.register node
  | connect user used => exact h.connect user used

end Tracks

theorem ofEdits_append (edits : List Edit) (e : Edit) :
    ofEdits (edits ++ [e]) = (ofEdits edits).edit e := by
  rw [ofEdits, List.foldl_append]
  rfl

theorem tracks_ofEdits (edits : List Edit) : (ofEdits edits).Tracks edits := by
  -- Calls are made from the first on, so the induction takes them off at the end.
  induction edits using List.reverseRecOn with
  | nil => exact ⟨rfl, fun _ => rfl, fun a b => by simp [Connected, ofEdits, empty]⟩
  | append_singleton edits e ih => exact ofEdits_append edits e ▸ ih.edit e

/-! ## The views of a store -/

/-- The dependencies are listed by the user and then by what it uses. -/
theorem pairwise_edges (g : Graph) : g.edges.Pairwise (Prod.Lex (· < ·) (· < ·)) := by
  rw [edges, List.pairwise_flatMap]
  constructor
  · intro user _
    rw [List.pairwise_map]
    exact (g.dependencies user).sorted.imp fun lt => .right _ lt
  · refine g.names.sorted.imp fun lt => ?_
    intro e he e' he'
    obtain ⟨b, -, rfl⟩ := List.mem_map.1 he
    obtain ⟨b', -, rfl⟩ := List.mem_map.1 he'
    exact .left _ _ lt

theorem names_perm (g : Graph) : g.names.toList.Perm (g.nodes.map ClassNode.name) := by
  rw [List.perm_ext_iff_of_nodup g.names.nodup g.names_nodup]
  exact fun n => mem_names

/-! ## All answers of a graph -/

/-- Every answer of a graph is the one that some calls say: what it holds, what it shows and
what it replies to a further call. Lists are in the order of the names' bytes. -/
structure Refines (g : Graph) (edits : List Edit) : Prop where
  /-- Under a name the first class offered is found. -/
  find?_eq : ∀ n, g.find? n = first? edits n
  /-- Classes are listed in the order in which their names were first offered. -/
  nodes_eq : g.nodes.map some = (firstNames edits).map (first? edits)
  /-- A class is turned away exactly if its name is taken. -/
  rejects_iff : ∀ node, (∃ d, g.register node = .error d) ↔ node.name ∈ firstNames edits
  /-- Then it is said where the first class of the name is declared, and where the new one. -/
  rejection_iff : ∀ node d, g.register node = .error d ↔
    ∃ kept, first? edits node.name = some kept ∧ d = ⟨node.name, kept.locator, node.locator⟩
  rejected : ∀ node d, g.register node = .error d → ofEdits (edits ++ [.register node]) = g
  accepted : ∀ node g', g.register node = .ok g' → ofEdits (edits ++ [.register node]) = g'
  dropped_iff : ∀ a b, (g.connect a b).2 = .dropped ↔
    ¬ (a ∈ firstNames edits ∧ b ∈ firstNames edits)
  alreadyPresent_iff : ∀ a b, (g.connect a b).2 = .alreadyPresent ↔ Connected edits a b
  added_iff : ∀ a b, (g.connect a b).2 = .added ↔
    a ∈ firstNames edits ∧ b ∈ firstNames edits ∧ ¬ Connected edits a b
  connected : ∀ a b, ofEdits (edits ++ [.connect a b]) = (g.connect a b).1
  /-- Only a new dependency changes anything. -/
  unchanged : ∀ a b, (g.connect a b).2 ≠ .added → (g.connect a b).1 = g
  names_sorted : g.names.toList.Pairwise BytesBefore
  names_perm : g.names.toList.Perm (firstNames edits)
  edges_sorted : g.edges.Pairwise (Prod.Lex BytesBefore BytesBefore)
  mem_edges : ∀ a b, (a, b) ∈ g.edges ↔ Connected edits a b
  edgeCount_eq : g.edgeCount = {e : String × String | Connected edits e.1 e.2}.ncard
  dependencies_sorted : ∀ a, (g.dependencies a).toList.Pairwise BytesBefore
  mem_dependencies : ∀ a b, b ∈ g.dependencies a ↔ Connected edits a b
  dependents_sorted : ∀ b, (g.dependents b).toList.Pairwise BytesBefore
  mem_dependents : ∀ a b, a ∈ g.dependents b ↔ Connected edits a b

namespace Tracks

variable {g : Graph} {edits : List Edit}

theorem nodes_eq (h : g.Tracks edits) :
    g.nodes.map some = (firstNames edits).map (first? edits) := by
  rw [← h.names, List.map_map]
  refine List.map_congr_left fun node mem => ?_
  have found : g.find? node.name = some node :=
    (find?_name_eq_some_iff g.names_nodup).2 ⟨mem, rfl⟩
  exact found.symm.trans (h.find? node.name)

/-- The store lists no dependency twice, so its length is their number. -/
theorem edgeCount_eq (h : g.Tracks edits) :
    g.edgeCount = {e : String × String | Connected edits e.1 e.2}.ncard := by
  have same : {e : String × String | Connected edits e.1 e.2} = ↑g.links.toFinset := by
    ext e
    simp [← h.links]
  rw [same, Set.ncard_coe_finset, List.toFinset_card_of_nodup g.links_nodup, edgeCount]

/-- A class is turned away in favour of the first one offered under its name. -/
theorem register_eq_error_iff (h : g.Tracks edits) {node : ClassNode} {d : DuplicateClass} :
    g.register node = .error d ↔ ∃ kept, first? edits node.name = some kept ∧
      d = ⟨node.name, kept.locator, node.locator⟩ := by
  rw [← h.find?]
  rcases g.register_cases node with ⟨kept, taken, rejected⟩ | ⟨free, g', ok, -⟩
  · rw [rejected, taken]
    simp [eq_comm]
  · rw [ok, free]
    simp

/-- What becomes of a dependency depends on its ends and on what was connected before. -/
theorem connect_cases (h : g.Tracks edits) (a b : String) :
    (¬ (a ∈ firstNames edits ∧ b ∈ firstNames edits) ∧ ¬ Connected edits a b ∧
      g.connect a b = (g, .dropped)) ∨
    (a ∈ firstNames edits ∧ b ∈ firstNames edits ∧ Connected edits a b ∧
      g.connect a b = (g, .alreadyPresent)) ∨
    (a ∈ firstNames edits ∧ b ∈ firstNames edits ∧ ¬ Connected edits a b ∧
      (g.connect a b).2 = .added) := by
  rw [← h.contains_iff, ← h.contains_iff, ← h.links]
  unfold Graph.connect
  split_ifs with ends present
  · exact .inr (.inl ⟨ends.1, ends.2, present, rfl⟩)
  · exact .inr (.inr ⟨ends.1, ends.2, present, rfl⟩)
  · refine .inl ⟨ends, fun held => ends ?_, rfl⟩
    exact ⟨Graph.contains_iff.2 (g.ends_registered _ held).1,
      Graph.contains_iff.2 (g.ends_registered _ held).2⟩

end Tracks

/-- Every graph gives the answers that its calls say. -/
theorem ofEdits_refines (edits : List Edit) : (ofEdits edits).Refines edits := by
  have tracks := tracks_ofEdits edits
  have append := ofEdits_append edits
  generalize ofEdits edits = g at tracks append
  refine
    { find?_eq := tracks.find?
      nodes_eq := tracks.nodes_eq
      rejects_iff := fun node => ?_
      rejection_iff := fun node d => tracks.register_eq_error_iff
      rejected := fun node d failed => ?_
      accepted := fun node g' ok => ?_
      dropped_iff := fun a b => ?_
      alreadyPresent_iff := fun a b => ?_
      added_iff := fun a b => ?_
      connected := fun a b => append _
      unchanged := fun a b => ?_
      names_sorted := bytesBefore_eq ▸ g.names.sorted
      names_perm := tracks.names ▸ g.names_perm
      edges_sorted := bytesBefore_eq ▸ g.pairwise_edges
      mem_edges := fun a b => mem_edges.trans (tracks.links a b)
      edgeCount_eq := tracks.edgeCount_eq
      dependencies_sorted := fun a => bytesBefore_eq ▸ (g.dependencies a).sorted
      mem_dependencies := fun a b => Graph.mem_dependencies.trans (tracks.links a b)
      dependents_sorted := fun b => bytesBefore_eq ▸ (g.dependents b).sorted
      mem_dependents := fun a b => Graph.mem_dependents.trans (tracks.links a b) }
  · simp only [tracks.register_eq_error_iff, mem_firstNames]
    grind
  · rw [append, edit, failed]
  · rw [append, edit, ok]
  -- The four answers to a connection are read off the three things that can become of it.
  all_goals
    rcases tracks.connect_cases a b with ⟨ends, free, reply⟩ | ⟨user, used, held, reply⟩ |
      ⟨user, used, free, reply⟩ <;> simp_all

end Graph

end ChangeImpact

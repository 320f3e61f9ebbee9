import Mathlib.Data.Finset.Card
import Mathlib.Data.Finset.Basic
import Mathlib.Data.List.Nodup
import Mathlib.Logic.Relation

/-! Depth-first search that keeps the vertices still open on a stack and records the edges
that lead back to one of them. The order in which the vertices are finished decides which
edges are recorded: exactly those whose target is not finished before their source. Hence
what is left has no cycle, every recorded edge lies on a cycle, and what the starts reach
they still reach without the recorded edges. -/

set_option autoImplicit false

namespace Lib.DepthFirst

/-- A graph, with the test by which a search takes an edge to lead back to an open vertex. -/
structure Graph (α ε : Type) where
  edges : α → List ε
  target : ε → α
  leadsBack : α → List α → ε → Bool
  leadsBack_iff : ∀ {vertex : α} {inStack : List α} {edge : ε}, vertex ∈ inStack →
    (leadsBack vertex inStack edge = true ↔ target edge ∈ inStack)

/-- The graph whose edges from a vertex are its successors. -/
def Graph.ofSuccessors {α : Type} [DecidableEq α] (successors : α → List α) : Graph α α where
  edges := successors
  target := id
  leadsBack _ inStack target := decide (target ∈ inStack)
  leadsBack_iff := fun _ => decide_eq_true_iff

structure State (α ε : Type) where
  visited : List α
  inStack : List α
  back : List (α × ε)

def State.initial {α ε : Type} : State α ε := ⟨[], [], []⟩

variable {α ε : Type} [DecidableEq α]

/-- The edges of an open vertex, one after the other. -/
def scan (graph : Graph α ε) (visit : α → State α ε → Option (State α ε)) (vertex : α) :
    List ε → State α ε → Option (State α ε)
  | [], state => some state
  | edge :: rest, state =>
      if graph.leadsBack vertex state.inStack edge then
        scan graph visit vertex rest { state with back := state.back ++ [(vertex, edge)] }
      else if graph.target edge ∈ state.visited then scan graph visit vertex rest state
      else (visit (graph.target edge) state).bind (scan graph visit vertex rest)

/-- `none` when the fuel, which bounds the depth, ends first. -/
def visit (graph : Graph α ε) : Nat → α → State α ε → Option (State α ε)
  | 0, _, _ => none
  | fuel + 1, vertex, state =>
      (scan graph (visit graph fuel) vertex (graph.edges vertex)
        { state with
          visited := state.visited ++ [vertex]
          inStack := vertex :: state.inStack }).map fun state =>
        { state with inStack := state.inStack.filter fun other => decide (other ≠ vertex) }

/-- Visit the vertices that are not visited when their turn comes. -/
def visitAll (graph : Graph α ε) (fuel : Nat) : List α → State α ε → Option (State α ε)
  | [], state => some state
  | vertex :: rest, state =>
      if vertex ∈ state.visited then visitAll graph fuel rest state
      else (visit graph fuel vertex state).bind (visitAll graph fuel rest)

/-!
## The order of finishing
-/

/-- Later in a list, the latest finished vertex first: the second was finished before. -/
def Before (order : List α) (vertex other : α) : Prop :=
  other ∈ order ∧ order.idxOf vertex < order.idxOf other

theorem before_cons_self {order : List α} {vertex other : α} (fresh : vertex ∉ order) :
    Before (vertex :: order) vertex other ↔ other ∈ order := by
  by_cases same : other = vertex
  · subst same
    simp [Before, fresh]
  · simp [Before, same, Ne.symm same, List.idxOf_cons_ne]

theorem before_append {front order : List α} {vertex other : α} (nodup : (front ++ order).Nodup)
    (member : vertex ∈ order) :
    Before (front ++ order) vertex other ↔ Before order vertex other := by
  have apart := List.disjoint_of_nodup_append nodup
  have absent : vertex ∉ front := fun inFront => apart inFront member
  by_cases inFront : other ∈ front
  · have outside : other ∉ order := fun inOrder => apart inFront inOrder
    have early : front.idxOf other < front.length := List.idxOf_lt_length_of_mem inFront
    rw [Before, Before, List.idxOf_append_of_notMem absent, List.idxOf_append_of_mem inFront]
    constructor
    · rintro ⟨_, later⟩
      omega
    · rintro ⟨inOrder, _⟩
      exact absurd inOrder outside
  · rw [Before, Before, List.idxOf_append_of_notMem absent, List.idxOf_append_of_notMem inFront,
      List.mem_append]
    simp [inFront]

theorem Before.trans {order : List α} {first second third : α} (left : Before order first second)
    (right : Before order second third) : Before order first third :=
  ⟨right.1, left.2.trans right.2⟩

theorem Before.mem {order : List α} {vertex other : α} (before : Before order vertex other) :
    vertex ∈ order := by
  have later := before.2.trans_le List.idxOf_le_length
  exact List.idxOf_lt_length_iff.mp later

/-- There is an edge. -/
def Step (graph : Graph α ε) (vertex other : α) : Prop :=
  ∃ edge ∈ graph.edges vertex, graph.target edge = other

theorem step_ofSuccessors {successors : α → List α} {vertex other : α} :
    Step (.ofSuccessors successors) vertex other ↔ other ∈ successors vertex := by
  simp only [Step, Graph.ofSuccessors, id_eq, exists_eq_right]

/-- There is an edge, to a vertex that was finished before. -/
def Kept (graph : Graph α ε) (order : List α) (vertex other : α) : Prop :=
  Step graph vertex other ∧ Before order vertex other

theorem Kept.append {graph : Graph α ε} {front order : List α} (nodup : (front ++ order).Nodup)
    {vertex other : α} (path : Relation.ReflTransGen (Kept graph order) vertex other) :
    Relation.ReflTransGen (Kept graph (front ++ order)) vertex other := by
  refine Relation.ReflTransGen.mono ?_ _ _ path
  intro first second kept
  exact ⟨kept.1, (before_append nodup kept.2.mem).mpr kept.2⟩

/-!
## The search
-/

/-- What holds of every state: `order` has the finished vertices, the latest first. -/
structure Inv (graph : Graph α ε) (state : State α ε) (order : List α) : Prop where
  nodup : order.Nodup
  visitedNodup : state.visited.Nodup
  apart : ∀ vertex ∈ order, vertex ∉ state.inStack
  visited : ∀ vertex, vertex ∈ state.visited ↔ vertex ∈ order ∨ vertex ∈ state.inStack
  settled : ∀ vertex ∈ order, ∀ edge, (vertex, edge) ∈ state.back ↔
    edge ∈ graph.edges vertex ∧ ¬ Before order vertex (graph.target edge)
  origin : ∀ vertex edge, (vertex, edge) ∈ state.back →
    vertex ∈ state.visited ∧ graph.target edge ∈ state.visited
  sound : ∀ vertex edge, (vertex, edge) ∈ state.back → edge ∈ graph.edges vertex ∧
    Relation.ReflTransGen (Step graph) (graph.target edge) vertex

/-- Nothing is recorded for the vertices of before. -/
def Frame (before : List α) (state next : State α ε) : Prop :=
  ∀ vertex ∈ before, ∀ edge : ε, (vertex, edge) ∈ next.back ↔ (vertex, edge) ∈ state.back

theorem Inv.initial (graph : Graph α ε) : Inv graph State.initial [] where
  nodup := List.nodup_nil
  visitedNodup := List.nodup_nil
  apart := fun _ member => nomatch member
  visited := fun _ => by simp [State.initial]
  settled := fun _ member => nomatch member
  origin := fun _ _ member => nomatch member
  sound := fun _ _ member => nomatch member

/-- What holds while the edges of the top vertex are scanned, after the seen ones. -/
structure Scanning (graph : Graph α ε) (vertex : α) (seen : List ε) (state : State α ε)
    (order : List α) : Prop where
  inv : Inv graph state order
  top : vertex ∈ state.inStack
  opened : ∀ other ∈ state.inStack, Relation.ReflTransGen (Step graph) other vertex
  own : ∀ edge, (vertex, edge) ∈ state.back ↔ edge ∈ seen ∧ graph.target edge ∈ state.inStack
  seenVisited : ∀ edge ∈ seen, graph.target edge ∈ state.visited

theorem Scanning.back {graph : Graph α ε} {vertex : α} {seen : List ε} {state : State α ε}
    {order : List α} {edge : ε} (scanning : Scanning graph vertex seen state order)
    (member : edge ∈ graph.edges vertex) (opened : graph.target edge ∈ state.inStack) :
    Scanning graph vertex (seen ++ [edge])
      { state with back := state.back ++ [(vertex, edge)] } order := by
  have inv := scanning.inv
  have visited : ∀ other ∈ state.inStack, other ∈ state.visited := fun other inStack =>
    (inv.visited other).mpr (.inr inStack)
  refine ⟨⟨inv.nodup, inv.visitedNodup, inv.apart, inv.visited, ?_, ?_, ?_⟩, scanning.top,
    scanning.opened, ?_, ?_⟩
  · intro other finished edge'
    have different : other ≠ vertex := by
      rintro rfl
      exact inv.apart other finished scanning.top
    rw [List.mem_append, inv.settled other finished]
    simp [different]
  · intro other edge' recorded
    rcases List.mem_append.mp recorded with old | new
    · exact inv.origin other edge' old
    · cases List.mem_singleton.mp new
      exact ⟨visited vertex scanning.top, visited _ opened⟩
  · intro other edge' recorded
    rcases List.mem_append.mp recorded with old | new
    · exact inv.sound other edge' old
    · cases List.mem_singleton.mp new
      exact ⟨member, scanning.opened _ opened⟩
  · intro edge'
    rw [List.mem_append, scanning.own, List.mem_append, List.mem_singleton, List.mem_singleton,
      Prod.mk.injEq]
    constructor
    · rintro (⟨seenBefore, inStack⟩ | ⟨_, rfl⟩)
      · exact ⟨.inl seenBefore, inStack⟩
      · exact ⟨.inr rfl, opened⟩
    · rintro ⟨seenBefore | rfl, inStack⟩
      · exact .inl ⟨seenBefore, inStack⟩
      · exact .inr ⟨rfl, rfl⟩
  · intro edge' isSeen
    rcases List.mem_append.mp isSeen with old | new
    · exact scanning.seenVisited edge' old
    · cases List.mem_singleton.mp new
      exact visited _ opened

/-- An edge to a vertex that is not open leaves the scan as it is. -/
theorem Scanning.pass {graph : Graph α ε} {vertex : α} {seen : List ε} {state next : State α ε}
    {order others : List α} {edge : ε} (scanning : Scanning graph vertex seen state order)
    (inv : Inv graph next others) (stack : next.inStack = state.inStack)
    (frame : Frame state.visited state next) (grows : ∀ other ∈ state.visited, other ∈ next.visited)
    (closed : graph.target edge ∉ state.inStack) (visited : graph.target edge ∈ next.visited) :
    Scanning graph vertex (seen ++ [edge]) next others := by
  refine ⟨inv, stack ▸ scanning.top, stack ▸ scanning.opened, ?_, ?_⟩
  · intro edge'
    have listed : vertex ∈ state.visited := (scanning.inv.visited vertex).mpr (.inr scanning.top)
    rw [frame vertex listed, scanning.own, List.mem_append, List.mem_singleton, stack]
    constructor
    · rintro ⟨seenBefore, inStack⟩
      exact ⟨.inl seenBefore, inStack⟩
    · rintro ⟨seenBefore | rfl, inStack⟩
      · exact ⟨seenBefore, inStack⟩
      · exact absurd inStack closed
  · intro edge' isSeen
    rcases List.mem_append.mp isSeen with old | new
    · exact grows _ (scanning.seenVisited edge' old)
    · cases List.mem_singleton.mp new
      exact visited

/-- The result of a visit: newly finished vertices, all with a path from the vertex. -/
structure Visited (graph : Graph α ε) (vertex : α) (state : State α ε) (order : List α)
    (next : State α ε) (fresh : List α) : Prop where
  inv : Inv graph next (fresh ++ order)
  stack : next.inStack = state.inStack
  front : state.visited <+: next.visited
  frame : Frame state.visited state next
  finished : vertex ∈ fresh
  reached : ∀ other ∈ fresh, Relation.ReflTransGen (Kept graph (fresh ++ order)) vertex other

/-- The vertices that are not visited yet. -/
def pending (vertices : Finset α) (state : State α ε) : Nat :=
  (vertices \ state.visited.toFinset).card

theorem pending_le {vertices : Finset α} {state next : State α ε}
    (grows : ∀ vertex ∈ state.visited, vertex ∈ next.visited) :
    pending vertices next ≤ pending vertices state := by
  refine Finset.card_le_card (Finset.sdiff_subset_sdiff subset_rfl fun vertex member => ?_)
  exact List.mem_toFinset.mpr (grows vertex (List.mem_toFinset.mp member))

/-- Visits that end, with a result as above, when the fuel bounds the pending vertices. -/
def Visits (graph : Graph α ε) (vertices : Finset α)
    (visit : α → State α ε → Option (State α ε)) (fuel : Nat) : Prop :=
  ∀ vertex state order, Inv graph state order → vertex ∉ state.visited → vertex ∈ vertices →
    (∀ other ∈ state.inStack, Relation.ReflTransGen (Step graph) other vertex) →
    pending vertices state ≤ fuel →
    ∃ next fresh, visit vertex state = some next ∧ Visited graph vertex state order next fresh

section Search

variable {graph : Graph α ε} {vertices : Finset α}
  (inside : ∀ vertex, ∀ edge ∈ graph.edges vertex, graph.target edge ∈ vertices)

include inside in
theorem scan_spec {visit : α → State α ε → Option (State α ε)} {fuel : Nat}
    (visits : Visits graph vertices visit fuel) {vertex : α} {seen edges : List ε}
    {state : State α ε} {order : List α} (scanning : Scanning graph vertex seen state order)
    (given : ∀ edge ∈ edges, edge ∈ graph.edges vertex)
    (enough : pending vertices state ≤ fuel) :
    ∃ next fresh, scan graph visit vertex edges state = some next ∧
      Scanning graph vertex (seen ++ edges) next (fresh ++ order) ∧
      next.inStack = state.inStack ∧ state.visited <+: next.visited ∧
      (∀ other ∈ state.visited, other ≠ vertex → ∀ edge : ε,
        (other, edge) ∈ next.back ↔ (other, edge) ∈ state.back) ∧
      ∀ other ∈ fresh, ∃ edge ∈ edges, graph.target edge ∈ fresh ∧
        Relation.ReflTransGen (Kept graph (fresh ++ order)) (graph.target edge) other := by
  induction edges generalizing seen state order with
  | nil =>
      refine ⟨state, [], rfl, ?_, rfl, List.prefix_rfl, fun _ _ _ _ => Iff.rfl,
        fun _ member => nomatch member⟩
      rw [List.append_nil]
      exact scanning
  | cons edge rest ih =>
      have listed := given edge List.mem_cons_self
      have later : ∀ other ∈ rest, other ∈ graph.edges vertex := fun other member =>
        given other (List.mem_cons_of_mem _ member)
      have inv := scanning.inv
      rw [scan, List.append_cons seen]
      by_cases opened : graph.target edge ∈ state.inStack
      · rw [if_pos ((graph.leadsBack_iff scanning.top).mpr opened)]
        obtain ⟨next, fresh, done, scanned, stack, front, frame, reached⟩ :=
          ih (scanning.back listed opened) later enough
        refine ⟨next, fresh, done, scanned, stack, front,
          fun other visited different edge' => ?_, ?_⟩
        · rw [frame other visited different, List.mem_append, List.mem_singleton]
          simp [different]
        · intro other member
          obtain ⟨edge', isLater, path⟩ := reached other member
          exact ⟨edge', List.mem_cons_of_mem _ isLater, path⟩
      · have notBack : ¬ graph.leadsBack vertex state.inStack edge = true := fun leads =>
          opened ((graph.leadsBack_iff scanning.top).mp leads)
        rw [if_neg notBack]
        by_cases visited : graph.target edge ∈ state.visited
        · rw [if_pos visited]
          have passed := scanning.pass inv rfl (fun _ _ _ => Iff.rfl) (fun _ member => member)
            opened visited
          obtain ⟨next, fresh, done, scanned, stack, front, frame, reached⟩ :=
            ih passed later enough
          refine ⟨next, fresh, done, scanned, stack, front, frame, fun other member => ?_⟩
          obtain ⟨edge', isLater, path⟩ := reached other member
          exact ⟨edge', List.mem_cons_of_mem _ isLater, path⟩
        · rw [if_neg visited]
          have opens : ∀ other ∈ state.inStack,
              Relation.ReflTransGen (Step graph) other (graph.target edge) := fun other inStack =>
            (scanning.opened other inStack).tail ⟨edge, listed, rfl⟩
          obtain ⟨middle, first, ran, result⟩ := visits (graph.target edge) state order inv visited
            (inside vertex edge listed) opens enough
          have grows : ∀ other ∈ state.visited, other ∈ middle.visited := fun other member =>
            result.front.subset member
          have done : graph.target edge ∈ middle.visited :=
            (result.inv.visited _).mpr (.inl (List.mem_append_left _ result.finished))
          have passed := scanning.pass result.inv result.stack result.frame grows opened done
          obtain ⟨next, fresh, ended, scanned, stack, front, frame, reached⟩ :=
            ih passed later ((pending_le grows).trans enough)
          rw [ran, Option.bind_some]
          refine ⟨next, fresh ++ first, ended, by rwa [List.append_assoc fresh],
            stack.trans result.stack, result.front.trans front, ?_, ?_⟩
          · intro other member different edge'
            rw [frame other (grows other member) different, result.frame other member]
          · intro other member
            rw [List.append_assoc]
            rcases List.mem_append.mp member with late | early
            · obtain ⟨edge', isLater, there, path⟩ := reached other late
              exact ⟨edge', List.mem_cons_of_mem _ isLater, List.mem_append_left _ there, path⟩
            · refine ⟨edge, List.mem_cons_self, List.mem_append_right _ result.finished, ?_⟩
              exact Kept.append scanned.inv.nodup (result.reached other early)

theorem Scanning.start {vertex : α} {state : State α ε} {order : List α}
    (inv : Inv graph state order) (fresh : vertex ∉ state.visited)
    (opens : ∀ other ∈ state.inStack, Relation.ReflTransGen (Step graph) other vertex) :
    Scanning graph vertex [] { state with
      visited := state.visited ++ [vertex], inStack := vertex :: state.inStack } order := by
  refine ⟨⟨inv.nodup, ?_, ?_, ?_, inv.settled, ?_, inv.sound⟩, List.mem_cons_self, ?_, ?_, ?_⟩
  · refine List.nodup_append.mpr ⟨inv.visitedNodup, List.nodup_singleton vertex, ?_⟩
    rintro other old _ new rfl
    exact fresh (List.mem_singleton.mp new ▸ old)
  · intro other finished inStack
    rcases List.mem_cons.mp inStack with rfl | inStack
    · exact fresh ((inv.visited other).mpr (.inl finished))
    · exact inv.apart other finished inStack
  · intro other
    rw [List.mem_append, inv.visited, List.mem_singleton, List.mem_cons, or_assoc,
      or_comm (a := other ∈ state.inStack)]
  · intro other edge recorded
    obtain ⟨source, target⟩ := inv.origin other edge recorded
    exact ⟨List.mem_append_left _ source, List.mem_append_left _ target⟩
  · intro other inStack
    rcases List.mem_cons.mp inStack with rfl | inStack
    · exact .refl
    · exact opens other inStack
  · intro edge
    simp only [List.not_mem_nil, false_and, iff_false]
    exact fun recorded => fresh (inv.origin vertex edge recorded).1
  · exact fun _ member => nomatch member

/-- The top vertex is finished when all its edges are scanned. -/
theorem Scanning.finish {vertex : α} {state : State α ε} {order inStack : List α}
    (scanning : Scanning graph vertex (graph.edges vertex) state order)
    (top : state.inStack = vertex :: inStack) (below : vertex ∉ inStack) :
    Inv graph { state with inStack := inStack } (vertex :: order) := by
  have inv := scanning.inv
  have unfinished : vertex ∉ order := fun finished => inv.apart vertex finished scanning.top
  have nodup : ([vertex] ++ order).Nodup := List.nodup_cons.mpr ⟨unfinished, inv.nodup⟩
  refine ⟨nodup, inv.visitedNodup, ?_, ?_, ?_, inv.origin, inv.sound⟩
  · intro other member isOpen
    rcases List.mem_cons.mp member with rfl | finished
    · exact below isOpen
    · exact inv.apart other finished (top ▸ List.mem_cons_of_mem _ isOpen)
  · intro other
    rw [inv.visited, top, List.mem_cons, List.mem_cons]
    tauto
  · intro other member edge
    rcases List.mem_cons.mp member with rfl | finished
    · rw [scanning.own, before_cons_self unfinished]
      constructor
      · rintro ⟨listed, opened⟩
        exact ⟨listed, fun finished => inv.apart _ finished opened⟩
      · rintro ⟨listed, unfinishedTarget⟩
        have visited := (inv.visited _).mp (scanning.seenVisited edge listed)
        exact ⟨listed, visited.resolve_left unfinishedTarget⟩
    · have same : Before ([vertex] ++ order) other (graph.target edge) ↔
          Before order other (graph.target edge) := before_append nodup finished
      rw [inv.settled other finished, ← same]
      rfl

include inside in
theorem visit_spec (fuel : Nat) : Visits graph vertices (visit graph fuel) fuel := by
  induction fuel with
  | zero =>
      intro vertex state order inv fresh member opens enough
      have waiting : vertex ∈ vertices \ state.visited.toFinset := by simp [member, fresh]
      have some := Finset.card_pos.mpr ⟨vertex, waiting⟩
      rw [pending] at enough
      omega
  | succ fuel ih =>
      intro vertex state order inv fresh member opens enough
      have started := Scanning.start inv fresh opens
      have fewer : pending vertices { state with
          visited := state.visited ++ [vertex], inStack := vertex :: state.inStack } ≤ fuel := by
        have waiting : vertex ∈ vertices \ state.visited.toFinset := by simp [member, fresh]
        have left : vertices \ (state.visited ++ [vertex]).toFinset =
            (vertices \ state.visited.toFinset).erase vertex := by
          ext other
          simp only [List.toFinset_append, Finset.mem_sdiff, Finset.mem_union, Finset.mem_erase,
            List.toFinset_cons, List.toFinset_nil, Finset.mem_insert, Finset.notMem_empty]
          tauto
        rw [pending, left, Finset.card_erase_of_mem waiting]
        rw [pending] at enough
        omega
      obtain ⟨next, later, done, scanned, stack, front, frame, reached⟩ :=
        scan_spec inside ih started (fun _ listed => listed) fewer
      have below : vertex ∉ state.inStack := fun inStack =>
        fresh ((inv.visited vertex).mpr (.inr inStack))
      have popped : next.inStack.filter (fun other => decide (other ≠ vertex)) =
          state.inStack := by
        rw [stack, List.filter_cons_of_neg (by simp)]
        exact List.filter_eq_self.mpr fun other inStack => decide_eq_true fun same =>
          below (same ▸ inStack)
      have finished := scanned.finish stack below
      refine ⟨{ next with inStack := state.inStack }, vertex :: later, ?_, finished, rfl,
        (List.prefix_append _ _).trans front, ?_, List.mem_cons_self, ?_⟩
      · rw [visit, done, Option.map_some, popped]
      · intro other visited edge
        refine frame other (List.mem_append_left _ visited) ?_ edge
        rintro rfl
        exact fresh visited
      · intro other new
        rcases List.mem_cons.mp new with rfl | new
        · exact .refl
        · obtain ⟨edge, listed, there, path⟩ := reached other new
          have unfinished : vertex ∉ later ++ order := (List.nodup_cons.mp finished.nodup).1
          have before := (before_cons_self unfinished).mpr (List.mem_append_left order there)
          have continued : Relation.ReflTransGen (Kept graph ([vertex] ++ (later ++ order)))
              (graph.target edge) other := Kept.append finished.nodup path
          exact .head ⟨⟨edge, listed, rfl⟩, before⟩ continued

include inside in
theorem visitAll_spec (fuel : Nat) {starts : List α} {state : State α ε} {order : List α}
    (inv : Inv graph state order) (empty : state.inStack = [])
    (given : ∀ vertex ∈ starts, vertex ∈ vertices) (enough : pending vertices state ≤ fuel) :
    ∃ next fresh, visitAll graph fuel starts state = some next ∧ Inv graph next (fresh ++ order) ∧
      next.inStack = [] ∧ (∀ vertex ∈ starts, vertex ∈ fresh ++ order) ∧
      ∀ other ∈ fresh, ∃ start ∈ starts,
        Relation.ReflTransGen (Kept graph (fresh ++ order)) start other := by
  induction starts generalizing state order with
  | nil =>
      refine ⟨state, [], rfl, inv, empty, ?_, ?_⟩
      · exact fun _ member => nomatch member
      · exact fun _ member => nomatch member
  | cons vertex rest ih =>
      have later : ∀ other ∈ rest, other ∈ vertices := fun other member =>
        given other (List.mem_cons_of_mem _ member)
      rw [visitAll]
      by_cases visited : vertex ∈ state.visited
      · rw [if_pos visited]
        obtain ⟨next, fresh, done, nextInv, stack, covered, reached⟩ := ih inv empty later enough
        refine ⟨next, fresh, done, nextInv, stack, ?_, ?_⟩
        · intro other member
          rcases List.mem_cons.mp member with rfl | member
          · have finished := (inv.visited other).mp visited
            rw [empty] at finished
            exact List.mem_append_right _ (finished.resolve_right List.not_mem_nil)
          · exact covered other member
        · intro other member
          obtain ⟨start, isStart, path⟩ := reached other member
          exact ⟨start, List.mem_cons_of_mem _ isStart, path⟩
      · rw [if_neg visited]
        obtain ⟨middle, first, ran, result⟩ := visit_spec inside fuel vertex state order inv visited
          (given vertex List.mem_cons_self) (by simp [empty]) enough
        have grows : ∀ other ∈ state.visited, other ∈ middle.visited := fun other member =>
          result.front.subset member
        obtain ⟨next, fresh, done, nextInv, stack, covered, reached⟩ :=
          ih result.inv (result.stack.trans empty) later ((pending_le grows).trans enough)
        rw [ran, Option.bind_some, ← List.append_assoc] at *
        refine ⟨next, fresh ++ first, done, nextInv, stack, ?_, ?_⟩
        · intro other member
          rcases List.mem_cons.mp member with rfl | member
          · exact List.mem_append_left _ (List.mem_append_right _ result.finished)
          · exact covered other member
        · intro other member
          rcases List.mem_append.mp member with late | early
          · obtain ⟨start, isStart, path⟩ := reached other late
            exact ⟨start, List.mem_cons_of_mem _ isStart, path⟩
          · refine ⟨vertex, List.mem_cons_self, ?_⟩
            rw [List.append_assoc]
            exact Kept.append (List.append_assoc .. ▸ nextInv.nodup) (result.reached other early)

end Search

/-!
## What is left
-/

/-- There is an edge that is not recorded. -/
def Left (graph : Graph α ε) (back : List (α × ε)) (source target : α) : Prop :=
  ∃ edge ∈ graph.edges source, graph.target edge = target ∧ (source, edge) ∉ back

/-- What a search records that starts from some vertices first and then from all. -/
structure Searched (graph : Graph α ε) (starts all : List α) (back : List (α × ε)) : Prop where
  sound : ∀ vertex edge, (vertex, edge) ∈ back → edge ∈ graph.edges vertex ∧
    Relation.ReflTransGen (Step graph) (graph.target edge) vertex
  acyclic : (∀ vertex, ∀ edge ∈ graph.edges vertex, vertex ∈ all) →
    ∀ vertex, ¬ Relation.TransGen (Left graph back) vertex vertex
  reached : ∀ start ∈ starts, ∀ vertex, Relation.ReflTransGen (Step graph) start vertex →
    ∃ other ∈ starts, Relation.ReflTransGen (Left graph back) other vertex

theorem Inv.left {graph : Graph α ε} {state : State α ε} {order : List α}
    (inv : Inv graph state order) {source target : α} (kept : Kept graph order source target) :
    Left graph state.back source target := by
  obtain ⟨⟨edge, listed, rfl⟩, before⟩ := kept
  refine ⟨edge, listed, rfl, fun recorded => ?_⟩
  exact ((inv.settled source before.mem edge).mp recorded).2 before

theorem Inv.before {graph : Graph α ε} {state : State α ε} {order : List α}
    (inv : Inv graph state order) {source target : α} (finished : source ∈ order)
    (left : Left graph state.back source target) : Before order source target := by
  obtain ⟨edge, listed, rfl, unrecorded⟩ := left
  by_contra later
  exact unrecorded ((inv.settled source finished edge).mpr ⟨listed, later⟩)

theorem Inv.acyclic {graph : Graph α ε} {state : State α ε} {order : List α}
    (inv : Inv graph state order) (covers : ∀ vertex, ∀ edge ∈ graph.edges vertex, vertex ∈ order)
    (vertex : α) : ¬ Relation.TransGen (Left graph state.back) vertex vertex := by
  have before : ∀ source target, Relation.TransGen (Left graph state.back) source target →
      Before order source target := by
    intro source target path
    have step : ∀ first second, Left graph state.back first second →
        Before order first second := by
      rintro first second ⟨edge, listed, leads⟩
      exact inv.before (covers first edge listed) ⟨edge, listed, leads⟩
    induction path with
    | single left => exact step _ _ left
    | tail _ left ih => exact ih.trans (step _ _ left)
  intro cycle
  exact (before vertex vertex cycle).2.false

/-- The finished vertices have no edge to others once no vertex is open. -/
theorem Inv.closed {graph : Graph α ε} {state : State α ε} {order : List α}
    (inv : Inv graph state order) (empty : state.inStack = []) {source target : α}
    (finished : source ∈ order) (path : Relation.ReflTransGen (Step graph) source target) :
    target ∈ order := by
  induction path with
  | refl => exact finished
  | @tail vertex _ _ step ih =>
      obtain ⟨edge, listed, rfl⟩ := step
      by_cases recorded : (vertex, edge) ∈ state.back
      · have visited := (inv.visited _).mp (inv.origin _ edge recorded).2
        rw [empty] at visited
        exact visited.resolve_right List.not_mem_nil
      · exact (inv.before ih ⟨edge, listed, rfl, recorded⟩).1

/-- The search from the starts and then from all vertices ends. -/
theorem search_searched (graph : Graph α ε) (vertices : Finset α)
    (inside : ∀ vertex, ∀ edge ∈ graph.edges vertex, graph.target edge ∈ vertices)
    {starts all : List α} (startsInside : ∀ vertex ∈ starts, vertex ∈ vertices)
    (allInside : ∀ vertex ∈ all, vertex ∈ vertices) {fuel : Nat} (enough : vertices.card ≤ fuel) :
    ∃ state, (visitAll graph fuel starts State.initial).bind (visitAll graph fuel all) =
      some state ∧ Searched graph starts all state.back := by
  have few : ∀ state : State α ε, pending vertices state ≤ fuel := fun state =>
    (Finset.card_le_card Finset.sdiff_subset).trans enough
  obtain ⟨first, fresh, firstRan, firstInv, firstEmpty, firstCovered, reached⟩ :=
    visitAll_spec inside fuel (Inv.initial graph) rfl startsInside (few _)
  obtain ⟨last, later, lastRan, lastInv, _, covered, _⟩ :=
    visitAll_spec inside fuel firstInv firstEmpty allInside (few _)
  refine ⟨last, by rw [firstRan, Option.bind_some, lastRan], lastInv.sound, ?_, ?_⟩
  · intro listed
    exact lastInv.acyclic fun vertex edge member => covered vertex (listed vertex edge member)
  · intro start isStart vertex path
    have finished := firstInv.closed firstEmpty (firstCovered start isStart) path
    rw [List.append_nil] at finished
    obtain ⟨other, isOther, kept⟩ := reached vertex finished
    refine ⟨other, isOther, ?_⟩
    refine Relation.ReflTransGen.mono ?_ _ _ (Kept.append lastInv.nodup kept)
    exact fun _ _ step => lastInv.left step

omit [DecidableEq α] in
/-- Nothing is recorded exactly when there is no cycle. -/
theorem Searched.back_eq_nil_iff {graph : Graph α ε} {starts all : List α} {back : List (α × ε)}
    (searched : Searched graph starts all back)
    (listed : ∀ vertex, ∀ edge ∈ graph.edges vertex, vertex ∈ all) :
    back = [] ↔ ∀ vertex, ¬ Relation.TransGen (Step graph) vertex vertex := by
  constructor
  · rintro rfl vertex cycle
    refine searched.acyclic listed vertex (Relation.TransGen.mono ?_ _ _ cycle)
    rintro source target ⟨edge, member, same⟩
    exact ⟨edge, member, same, List.not_mem_nil⟩
  · intro acyclic
    rw [List.eq_nil_iff_forall_not_mem]
    rintro ⟨vertex, edge⟩ recorded
    obtain ⟨member, path⟩ := searched.sound vertex edge recorded
    exact acyclic vertex (.head' ⟨edge, member, rfl⟩ path)

end Lib.DepthFirst

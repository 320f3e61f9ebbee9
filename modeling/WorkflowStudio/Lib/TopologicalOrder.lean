import Mathlib.Data.Set.Finite.Basic
import Mathlib.Data.List.Nodup

/-! Ordering the vertices of a finite graph by counting, for each vertex, the parents that
have not been taken yet. Cycles are allowed: what can be reached from one is left out. -/

set_option autoImplicit false

namespace Lib.Topological

variable {α : Type} [DecidableEq α]

/-- One parent of each of the nodes has been taken. -/
def release : List α → (α → Int) → List α → (α → Int) × List α
  | [], counts, queue => (counts, queue)
  | node :: rest, counts, queue =>
      let counts := Function.update counts node (counts node - 1)
      release rest counts (if counts node = 0 then queue ++ [node] else queue)

/-- Takes the vertices of the queue, `none` when the fuel ends first. -/
def drain (next : α → List α) : Nat → (α → Int) → List α → Option (List α)
  | _, _, [] => some []
  | 0, _, _ :: _ => none
  | fuel + 1, counts, vertex :: queue =>
      (drain next fuel (release (next vertex) counts queue).1
        (release (next vertex) counts queue).2).map fun order => vertex :: order

theorem release_eq {nodes : List α} (nodup : nodes.Nodup) (counts : α → Int) (queue : List α) :
    release nodes counts queue =
      (fun node => if node ∈ nodes then counts node - 1 else counts node,
        queue ++ nodes.filter fun node => decide (counts node = 1)) := by
  induction nodes generalizing counts queue with
  | nil => simp [release]
  | cons node rest ih =>
      obtain ⟨fresh, nodup⟩ := List.nodup_cons.mp nodup
      have others : ∀ other ∈ rest,
          Function.update counts node (counts node - 1) other = counts other :=
        fun other member => Function.update_of_ne (ne_of_mem_of_not_mem member fresh) _ _
      rw [release, ih nodup]
      refine Prod.ext (funext fun other => ?_) ?_
      · by_cases same : other = node
        · subst same
          simp [fresh]
        · simp [same]
      · have kept : rest.filter (fun other =>
            decide (Function.update counts node (counts node - 1) other = 1)) =
              rest.filter fun other => decide (counts other = 1) :=
          List.filter_congr fun other member => by rw [others other member]
        simp only [kept, Function.update_self]
        by_cases last : counts node = 1
        · simp [last]
        · have more : ¬ counts node - 1 = 0 := fun zero => last (by omega)
          simp [last, more]

section Order

variable (vertices : Finset α) (next : α → List α)

def Edge (parent child : α) : Prop :=
  parent ∈ vertices ∧ child ∈ next parent

/-- The parents that are not among those that were taken. -/
def missing (taken : List α) (vertex : α) : Finset α :=
  vertices.filter fun parent => vertex ∈ next parent ∧ parent ∉ taken

/-- The invariant: the counts are those of the missing parents, and the vertices without
missing parents are taken or queued, after their parents. -/
structure Counted (taken queue : List α) (counts : α → Int) : Prop where
  nodup : (taken ++ queue).Nodup
  within : ∀ vertex ∈ taken ++ queue, vertex ∈ vertices
  counts : ∀ vertex ∈ vertices, counts vertex = (missing vertices next taken vertex).card
  ripe : ∀ vertex ∈ vertices,
    vertex ∈ taken ++ queue ↔ missing vertices next taken vertex = ∅
  founded : ∀ vertex ∈ taken ++ queue, Acc (Edge vertices next) vertex
  ordered : (taken ++ queue).Pairwise fun first second => first ∉ next second

/-- The vertices that are not reached from a cycle, each once, and the parents first. -/
structure Sorted (order : List α) : Prop where
  nodup : order.Nodup
  mem_iff : ∀ vertex, vertex ∈ order ↔ vertex ∈ vertices ∧ Acc (Edge vertices next) vertex
  ordered : order.Pairwise fun first second => first ∉ next second

variable {vertices next} {taken queue : List α} {counts : α → Int} {vertex : α}

theorem mem_missing {parent : α} : parent ∈ missing vertices next taken vertex ↔
    parent ∈ vertices ∧ vertex ∈ next parent ∧ parent ∉ taken :=
  Finset.mem_filter

/-- A vertex that is taken is missing no more. -/
theorem missing_take (current : α) : missing vertices next (taken ++ [current]) vertex =
    (missing vertices next taken vertex).erase current := by
  ext parent
  simp only [Finset.mem_erase, mem_missing, List.mem_append, List.mem_singleton, not_or]
  tauto

theorem Counted.take {current : α}
    (counted : Counted vertices next taken (current :: queue) counts)
    (nodup : (next current).Nodup) (closed : ∀ node ∈ next current, node ∈ vertices) :
    Counted vertices next (taken ++ [current]) (release (next current) counts queue).2
      (release (next current) counts queue).1 := by
  rw [release_eq nodup]
  have here : current ∈ taken ++ current :: queue :=
    List.mem_append_right taken List.mem_cons_self
  have isVertex := counted.within current here
  have fresh : current ∉ taken := fun member =>
    (List.nodup_append.mp counted.nodup).2.2 current member current List.mem_cons_self rfl
  have parent : ∀ {node}, node ∈ next current → current ∈ missing vertices next taken node :=
    fun child => mem_missing.mpr ⟨isVertex, child, fresh⟩
  have stranger : ∀ {node}, node ∉ next current → current ∉ missing vertices next taken node :=
    fun apart member => apart (mem_missing.mp member).2.1
  have last : ∀ {node}, node ∈ (next current).filter (fun node => decide (counts node = 1)) ↔
      node ∈ next current ∧ missing vertices next taken node = {current} := by
    intro node
    rw [List.mem_filter, decide_eq_true_eq]
    refine and_congr_right fun child => ?_
    have one : ∀ count : Nat, (count : Int) = 1 ↔ count = 1 := fun count => by omega
    rw [counted.counts node (closed node child), one, Finset.card_eq_one]
    refine ⟨?_, fun only => ⟨current, only⟩⟩
    rintro ⟨single, only⟩
    have same : current = single := Finset.mem_singleton.mp (only ▸ parent child)
    rw [only, same]
  have split : taken ++ [current] ++ (queue ++ (next current).filter fun node =>
      decide (counts node = 1)) = taken ++ current :: queue ++
        (next current).filter fun node => decide (counts node = 1) := by
    simp
  have unripe : ∀ {node}, node ∈ (next current).filter (fun node => decide (counts node = 1)) →
      node ∉ taken ++ current :: queue := by
    intro node member ready
    obtain ⟨child, only⟩ := last.mp member
    rw [counted.ripe node (closed node child), only] at ready
    exact Finset.singleton_ne_empty current ready
  refine ⟨?_, ?_, fun node member => ?_, fun node member => ?_, ?_, ?_⟩
  · rw [split]
    refine List.nodup_append.mpr ⟨counted.nodup, nodup.filter _, ?_⟩
    rintro node ready _ new rfl
    exact unripe new ready
  · rw [split]
    intro node member
    rcases List.mem_append.mp member with old | new
    · exact counted.within node old
    · exact closed node (last.mp new).1
  · simp only [missing_take]
    by_cases child : node ∈ next current
    · have positive := Finset.card_pos.mpr ⟨current, parent child⟩
      rw [if_pos child, counted.counts node member, Finset.card_erase_of_mem (parent child)]
      omega
    · rw [if_neg child, counted.counts node member, Finset.erase_eq_of_notMem (stranger child)]
  · rw [split, List.mem_append, counted.ripe node member, missing_take, last]
    by_cases child : node ∈ next current
    · rw [Finset.erase_eq_empty_iff]
      exact or_congr_right (and_iff_right child)
    · rw [Finset.erase_eq_of_notMem (stranger child)]
      exact or_iff_left fun new => child new.1
  · rw [split]
    intro node member
    rcases List.mem_append.mp member with old | new
    · exact counted.founded node old
    · obtain ⟨child, only⟩ := last.mp new
      refine Acc.intro node fun other edge => ?_
      by_cases before : other ∈ taken
      · exact counted.founded other (List.mem_append_left _ before)
      · have among := mem_missing.mpr ⟨edge.1, edge.2, before⟩
        rw [only, Finset.mem_singleton] at among
        exact among ▸ counted.founded current here
  · rw [split]
    refine List.pairwise_append.mpr ⟨counted.ordered, ?_, fun ready old node new edge => ?_⟩
    · -- two children of the same vertex: neither is a parent of the other
      refine List.Pairwise.imp_of_mem ?_ (nodup.filter _)
      intro first second member also different edge
      obtain ⟨_, only⟩ := last.mp member
      obtain ⟨child, _⟩ := last.mp also
      have among : second ∈ missing vertices next taken first :=
        mem_missing.mpr ⟨closed second child, edge,
          fun before => unripe also (List.mem_append_left _ before)⟩
      rw [only, Finset.mem_singleton] at among
      exact unripe also (among ▸ here)
    · -- the parents of a vertex that was ripe before were taken before
      have none : missing vertices next taken ready = ∅ :=
        (counted.ripe ready (counted.within ready old)).mp old
      have among : node ∈ missing vertices next taken ready :=
        mem_missing.mpr ⟨closed node (last.mp new).1, edge,
          fun before => unripe new (List.mem_append_left _ before)⟩
      rw [none] at among
      exact Finset.notMem_empty node among

/-- When nothing is queued, what was taken is the order. -/
theorem Counted.sorted (counted : Counted vertices next taken [] counts) :
    Sorted vertices next taken := by
  obtain ⟨nodup, within, _, ripe, founded, ordered⟩ := counted
  rw [List.append_nil] at nodup within ripe founded ordered
  refine ⟨nodup, fun vertex => ⟨fun member => ⟨within vertex member, founded vertex member⟩, ?_⟩,
    ordered⟩
  rintro ⟨isVertex, accessible⟩
  induction accessible with
  | intro vertex _ ih =>
      rw [ripe vertex isVertex, Finset.eq_empty_iff_forall_notMem]
      intro parent member
      obtain ⟨isParent, child, missing⟩ := mem_missing.mp member
      exact missing (ih parent ⟨isParent, child⟩ isParent)

/-- Every round takes a vertex, so as much fuel as there are vertices is enough. -/
theorem Counted.drain {fuel : Nat} (counted : Counted vertices next taken queue counts)
    (sets : ∀ vertex ∈ vertices, (next vertex).Nodup)
    (closed : ∀ vertex ∈ vertices, ∀ node ∈ next vertex, node ∈ vertices)
    (enough : vertices.card ≤ taken.length + fuel) :
    ∃ rest, drain next fuel counts queue = some rest ∧ Sorted vertices next (taken ++ rest) := by
  induction fuel generalizing taken queue counts with
  | zero =>
      cases queue with
      | nil => exact ⟨[], rfl, (List.append_nil taken).symm ▸ counted.sorted⟩
      | cons vertex queue =>
          have within : (taken ++ vertex :: queue).toFinset ⊆ vertices := fun other member =>
            counted.within other (List.mem_toFinset.mp member)
          have card := Finset.card_le_card within
          rw [List.toFinset_card_of_nodup counted.nodup, List.length_append,
            List.length_cons] at card
          omega
  | succ fuel ih =>
      cases queue with
      | nil => exact ⟨[], rfl, (List.append_nil taken).symm ▸ counted.sorted⟩
      | cons vertex queue =>
          have isVertex := counted.within vertex (List.mem_append_right taken List.mem_cons_self)
          obtain ⟨rest, drained, sorted⟩ :=
            ih (counted.take (sets vertex isVertex) (closed vertex isVertex)) (by simp; omega)
          refine ⟨vertex :: rest, by rw [Topological.drain, drained]; rfl, ?_⟩
          rwa [List.append_assoc, List.singleton_append] at sorted

/-- The vertices without parents, to begin with. -/
theorem counted_start (nodup : queue.Nodup)
    (counts_ : ∀ vertex ∈ vertices, counts vertex = (missing vertices next [] vertex).card)
    (roots : ∀ vertex, vertex ∈ queue ↔
      vertex ∈ vertices ∧ missing vertices next [] vertex = ∅) :
    Counted vertices next [] queue counts where
  nodup := nodup
  within vertex member := ((roots vertex).mp member).1
  counts := counts_
  ripe vertex member := (roots vertex).trans (and_iff_right member)
  founded vertex member := by
    refine Acc.intro vertex fun parent edge => ?_
    have among := mem_missing.mpr ⟨edge.1, edge.2, @List.not_mem_nil _ parent⟩
    rw [((roots vertex).mp member).2] at among
    exact absurd among (Finset.notMem_empty parent)
  ordered := by
    refine List.Pairwise.imp_of_mem (fun {first second} member also _ edge => ?_) nodup
    have among := mem_missing.mpr ⟨((roots second).mp also).1, edge, @List.not_mem_nil _ second⟩
    rw [((roots first).mp member).2] at among
    exact Finset.notMem_empty second among

omit [DecidableEq α] in
/-- Without a cycle, the order has all vertices. -/
theorem Sorted.mem_of_acyclic {order : List α} (sorted : Sorted vertices next order)
    (acyclic : ∀ vertex, ¬ Relation.TransGen (Edge vertices next) vertex vertex)
    (isVertex : vertex ∈ vertices) : vertex ∈ order := by
  let Above (first second : vertices) : Prop :=
    Relation.TransGen (Edge vertices next) first.1 second.1
  have : IsTrans vertices Above := ⟨fun _ _ _ => Relation.TransGen.trans⟩
  have : Std.Irrefl Above := ⟨fun first => acyclic first.1⟩
  have founded := Finite.wellFounded_of_trans_of_irrefl Above
  refine (sorted.mem_iff vertex).mpr ⟨isVertex, ?_⟩
  have accessible : ∀ current : vertices, Acc (Edge vertices next) current.1 := by
    intro current
    induction current using founded.induction with
    | h current ih =>
        exact Acc.intro _ fun parent edge =>
          ih ⟨parent, edge.1⟩ (Relation.TransGen.single edge)
  exact accessible ⟨vertex, isVertex⟩

end Order

end Lib.Topological

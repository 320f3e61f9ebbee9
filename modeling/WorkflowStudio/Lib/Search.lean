import Mathlib.Data.Finset.Card
import Mathlib.Data.Finset.Basic
import Mathlib.Logic.Relation

/-! Queue-driven search over a successor function. The search marks a
successor when it first meets it and appends it to the queue, so the start is
marked only when a cycle leads back to it. With as much fuel as there are
queue entries and unmarked vertices the search ends, and then it has marked
exactly the vertices at the end of a non-empty path. -/

set_option autoImplicit false

namespace Lib.Search

variable {α : Type} [DecidableEq α]

/-- Mark the unmarked successors in order and queue each one. -/
def scan : List α → List α → List α → List α × List α
  | [], marked, queue => (marked, queue)
  | vertex :: rest, marked, queue =>
      if vertex ∈ marked then scan rest marked queue
      else scan rest (marked ++ [vertex]) (queue ++ [vertex])

/-- Empty the queue, `none` when the fuel ends first. -/
def search (next : α → List α) : Nat → List α → List α → Option (List α)
  | _, [], marked => some marked
  | 0, _ :: _, _ => none
  | fuel + 1, current :: queue, marked =>
      search next fuel (scan (next current) marked queue).2
        (scan (next current) marked queue).1

theorem scan_spec (vertices marked queue : List α) :
    ∃ fresh : List α, scan vertices marked queue = (marked ++ fresh, queue ++ fresh) ∧
      fresh.Nodup ∧ (∀ vertex ∈ fresh, vertex ∉ marked ∧ vertex ∈ vertices) ∧
      ∀ vertex ∈ vertices, vertex ∈ marked ++ fresh := by
  induction vertices generalizing marked queue with
  | nil => exact ⟨[], by simp [scan]⟩
  | cons vertex rest ih =>
      by_cases present : vertex ∈ marked
      · obtain ⟨fresh, scanned, nodup, new, covered⟩ := ih marked queue
        refine ⟨fresh, by simpa [scan, present] using scanned, nodup, ?_, ?_⟩
        · intro found member
          exact ⟨(new found member).1, List.mem_cons_of_mem _ (new found member).2⟩
        · intro found member
          rcases List.mem_cons.mp member with rfl | member
          · exact List.mem_append_left _ present
          · exact covered found member
      · obtain ⟨fresh, scanned, nodup, new, covered⟩ := ih (marked ++ [vertex]) (queue ++ [vertex])
        refine ⟨vertex :: fresh, by simpa [scan, present] using scanned, ?_, ?_, ?_⟩
        · refine List.nodup_cons.mpr ⟨?_, nodup⟩
          intro member
          exact (new vertex member).1 (by simp)
        · intro found member
          rcases List.mem_cons.mp member with rfl | member
          · exact ⟨present, List.mem_cons_self⟩
          · have apart := new found member
            exact ⟨fun old => apart.1 (List.mem_append_left _ old),
              List.mem_cons_of_mem _ apart.2⟩
        · intro found member
          rcases List.mem_cons.mp member with rfl | member
          · simp
          · simpa using covered found member

/-- The queue entries and the unmarked vertices of a finite set that
holds every successor bound the number of rounds. -/
theorem search_total (next : α → List α) (vertices : Finset α)
    (inside : ∀ vertex, ∀ successor ∈ next vertex, successor ∈ vertices)
    (fuel : Nat) (queue marked : List α)
    (enough : queue.length + (vertices \ marked.toFinset).card ≤ fuel) :
    ∃ result, search next fuel queue marked = some result := by
  induction fuel generalizing queue marked with
  | zero =>
      cases queue with
      | nil => exact ⟨marked, rfl⟩
      | cons current queue => simp at enough
  | succ fuel ih =>
      cases queue with
      | nil => exact ⟨marked, rfl⟩
      | cons current queue =>
          obtain ⟨fresh, scanned, nodup, new, _⟩ := scan_spec (next current) marked queue
          rw [search, scanned]
          apply ih
          -- every fresh vertex enters the queue and leaves the unmarked set
          have left : vertices \ (marked ++ fresh).toFinset =
              (vertices \ marked.toFinset) \ fresh.toFinset := by
            ext vertex
            simp only [List.toFinset_append, Finset.mem_sdiff, Finset.mem_union]
            tauto
          have included : fresh.toFinset ⊆ vertices \ marked.toFinset := by
            intro vertex member
            have found := new vertex (List.mem_toFinset.mp member)
            simp [inside current vertex found.2, found.1]
          have counted := Finset.card_sdiff_add_card_eq_card included
          rw [List.toFinset_card_of_nodup nodup] at counted
          rw [left, List.length_append]
          rw [List.length_cons] at enough
          omega

/-- The marks of before stay in front, and no vertex is marked twice. -/
theorem search_extends {next : α → List α} {fuel : Nat} {queue marked result : List α}
    (finished : search next fuel queue marked = some result) :
    marked <+: result ∧ (marked.Nodup → result.Nodup) := by
  induction fuel generalizing queue marked with
  | zero =>
      cases queue with
      | nil =>
          rw [search, Option.some.injEq] at finished
          exact finished ▸ ⟨List.prefix_rfl, id⟩
      | cons current queue => simp [search] at finished
  | succ fuel ih =>
      cases queue with
      | nil =>
          rw [search, Option.some.injEq] at finished
          exact finished ▸ ⟨List.prefix_rfl, id⟩
      | cons current queue =>
          obtain ⟨fresh, scanned, nodup, new, _⟩ := scan_spec (next current) marked queue
          rw [search, scanned] at finished
          obtain ⟨front, distinct⟩ := ih finished
          refine ⟨(List.prefix_append _ _).trans front, fun markedNodup => distinct ?_⟩
          refine List.nodup_append.mpr ⟨markedNodup, nodup, ?_⟩
          rintro vertex old other isFresh rfl
          exact (new vertex isFresh).1 old

/-- What holds between rounds: every mark is reached from the start, and only queued vertices
may still have unmarked successors. -/
structure Progress (next : α → List α) (start : α) (reached : α → Prop)
    (queue marked : List α) : Prop where
  queued : ∀ vertex ∈ queue, vertex = start ∨ vertex ∈ marked
  sound : ∀ vertex ∈ marked, reached vertex
  expanded : ∀ vertex, vertex = start ∨ vertex ∈ marked →
    vertex ∈ queue ∨ ∀ successor ∈ next vertex, successor ∈ marked

section Progress

variable {next : α → List α} {start : α} {reached : α → Prop}
  (steps : ∀ vertex, vertex = start ∨ reached vertex →
    ∀ successor ∈ next vertex, reached successor)

include steps in
theorem Progress.round {current : α} {queue marked : List α}
    (progress : Progress next start reached (current :: queue) marked) :
    Progress next start reached (scan (next current) marked queue).2
      (scan (next current) marked queue).1 := by
  obtain ⟨fresh, scanned, _, new, covered⟩ := scan_spec (next current) marked queue
  rw [scanned]
  refine ⟨?_, ?_, ?_⟩
  · intro vertex member
    rcases List.mem_append.mp member with old | fresh
    · rcases progress.queued vertex (List.mem_cons_of_mem _ old) with same | marked
      · exact .inl same
      · exact .inr (List.mem_append_left _ marked)
    · exact .inr (List.mem_append_right _ fresh)
  · intro vertex member
    rcases List.mem_append.mp member with old | fresh
    · exact progress.sound vertex old
    · have step : vertex ∈ next current := (new vertex fresh).2
      rcases progress.queued current List.mem_cons_self with isStart | found
      · exact steps current (.inl isStart) vertex step
      · exact steps current (.inr (progress.sound current found)) vertex step
  · intro vertex member
    by_cases isFresh : vertex ∈ fresh
    · exact .inl (List.mem_append_right _ isFresh)
    · have old : vertex = start ∨ vertex ∈ marked := by
        rcases member with same | member
        · exact .inl same
        · exact .inr ((List.mem_append.mp member).resolve_right isFresh)
      rcases progress.expanded vertex old with waiting | done
      · rcases List.mem_cons.mp waiting with rfl | waiting
        · exact .inr covered
        · exact .inl (List.mem_append_left _ waiting)
      · exact .inr fun successor edge => List.mem_append_left _ (done successor edge)

include steps in
theorem Progress.finish {queue marked : List α}
    (progress : Progress next start reached queue marked) (fuel : Nat) {result : List α}
    (finished : search next fuel queue marked = some result) :
    Progress next start reached [] result := by
  induction fuel generalizing queue marked with
  | zero =>
      cases queue with
      | nil =>
          rw [search, Option.some.injEq] at finished
          exact finished ▸ progress
      | cons current queue => simp [search] at finished
  | succ fuel ih =>
      cases queue with
      | nil =>
          rw [search, Option.some.injEq] at finished
          exact finished ▸ progress
      | cons current queue =>
          rw [search] at finished
          exact ih (progress.round steps) finished

omit [DecidableEq α] in
theorem Progress.closed {result : List α} (progress : Progress next start reached [] result)
    {vertex : α} (member : vertex = start ∨ vertex ∈ result) :
    ∀ successor ∈ next vertex, successor ∈ result :=
  (progress.expanded vertex member).resolve_left (by simp)

end Progress

/-- A finished search has marked exactly the ends of non-empty paths. -/
theorem mem_search_iff {next : α → List α} {start : α} {fuel : Nat} {result : List α}
    (finished : search next fuel [start] [] = some result) (vertex : α) :
    vertex ∈ result ↔ Relation.TransGen (fun a b => b ∈ next a) start vertex := by
  have initial : Progress next start (Relation.TransGen (fun a b => b ∈ next a) start)
      [start] [] := ⟨by simp, by simp, fun found member => .inl (by simpa using member)⟩
  have final := initial.finish (by
    rintro found (rfl | path) successor edge
    · exact .single edge
    · exact path.tail edge) fuel finished
  constructor
  · exact final.sound vertex
  · intro path
    induction path with
    | single edge => exact final.closed (.inl rfl) _ edge
    | tail _ edge ih => exact final.closed (.inr ih) _ edge

/-- A finished search that has the start marked has marked exactly the ends of paths. -/
theorem mem_search_marked_iff {next : α → List α} {start : α} {fuel : Nat} {result : List α}
    (finished : search next fuel [start] [start] = some result) (vertex : α) :
    vertex ∈ result ↔ Relation.ReflTransGen (fun a b => b ∈ next a) start vertex := by
  have initial : Progress next start (Relation.ReflTransGen (fun a b => b ∈ next a) start)
      [start] [start] := by
    refine ⟨by simp, fun found member => ?_, fun found member => .inl (by simpa using member)⟩
    rw [List.mem_singleton.mp member]
  have final := initial.finish (by
    rintro found (rfl | path) successor edge
    · exact .single edge
    · exact path.tail edge) fuel finished
  constructor
  · exact final.sound vertex
  · intro path
    have kept : start ∈ result := (search_extends finished).1.subset List.mem_cons_self
    induction path with
    | refl => exact kept
    | tail _ edge ih => exact final.closed (.inr ih) _ edge

end Lib.Search

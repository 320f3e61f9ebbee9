import Mathlib.Data.List.MinMax
import WorkflowStudio.Lib.LeastFirst

/-! The priority queue of the job runner: a heap whose objects are removed only when
they come to its front, and what it is for, a set of objects taken out least first. -/

set_option autoImplicit false

namespace WorkflowStudio.Queue

/-- `_known` holds the objects of the heap, `_removed` those of them that are out of
the queue. Only which object of the heap is smallest matters, so that the heap is the
list of its objects in the order in which they were pushed. -/
structure PriorityQueue (Object : Type) [DecidableEq Object] where
  heap : List Object
  known : Finset Object
  removed : Finset Object
  distinct : heap.Nodup
  knows : ∀ object, object ∈ known ↔ object ∈ heap
  drops : removed ⊆ known

namespace PriorityQueue

variable {Object Bound : Type} [DecidableEq Object] [LinearOrder Bound]

def empty : PriorityQueue Object where
  heap := []
  known := ∅
  removed := ∅
  distinct := List.nodup_nil
  knows := fun object => iff_of_false (Finset.notMem_empty object) List.not_mem_nil
  drops := Finset.Subset.refl ∅

def length (queue : PriorityQueue Object) : Nat :=
  queue.known.card - queue.removed.card

def contains (queue : PriorityQueue Object) (object : Object) : Bool :=
  decide (object ∈ queue.known) && !decide (object ∈ queue.removed)

theorem distinct_push (queue : PriorityQueue Object) {object : Object}
    (absent : object ∉ queue.known) : (queue.heap ++ [object]).Nodup := by
  rw [← List.concat_eq_append]
  exact List.Nodup.concat (fun pushed => absent ((queue.knows object).mpr pushed)) queue.distinct

theorem knows_push (queue : PriorityQueue Object) (object other : Object) :
    other ∈ insert object queue.known ↔ other ∈ queue.heap ++ [object] := by
  rw [Finset.mem_insert, queue.knows, List.mem_append, List.mem_singleton, or_comm]

theorem knows_erase (queue : PriorityQueue Object) (object other : Object) :
    other ∈ queue.known.erase object ↔ other ∈ queue.heap.erase object := by
  rw [Finset.mem_erase, queue.knows, queue.distinct.mem_erase_iff]

def add (queue : PriorityQueue Object) (object : Object) : PriorityQueue Object :=
  if present : object ∈ queue.known then
    { queue with
      removed := queue.removed.erase object
      drops := (Finset.erase_subset _ _).trans queue.drops }
  else
    { heap := queue.heap ++ [object]
      known := insert object queue.known
      removed := queue.removed.erase object
      distinct := queue.distinct_push present
      knows := queue.knows_push object
      drops := (Finset.erase_subset _ _).trans (queue.drops.trans (Finset.subset_insert _ _)) }

def remove (queue : PriorityQueue Object) (object : Object) : PriorityQueue Object :=
  if present : object ∈ queue.known then
    { queue with
      removed := insert object queue.removed
      drops := Finset.insert_subset present queue.drops }
  else queue

/-- `heappop` of an object at the front of the heap, which is forgotten with it. -/
def expel (queue : PriorityQueue Object) (object : Object) : PriorityQueue Object where
  heap := queue.heap.erase object
  known := queue.known.erase object
  removed := queue.removed.erase object
  distinct := queue.distinct.erase object
  knows := queue.knows_erase object
  drops := Finset.erase_subset_erase object queue.drops

/-- `self._heap[0]`. -/
def front (key : Object → Bound) (queue : PriorityQueue Object) : Option Object :=
  queue.heap.argmin key

/-- The loop of `__getitem__`, which drops the removed objects before the first one that
is in the queue; a heap without one is an `IndexError`. -/
def topFrom (key : Object → Bound) : Nat → PriorityQueue Object →
    Option Object × PriorityQueue Object
  | 0, queue => (none, queue)
  | rounds + 1, queue =>
      match queue.front key with
      | none => (none, queue)
      | some object =>
          if object ∈ queue.removed then topFrom key rounds (queue.expel object)
          else (some object, queue)

def top (key : Object → Bound) (queue : PriorityQueue Object) :
    Option Object × PriorityQueue Object :=
  queue.topFrom key queue.heap.length

def popFrom (key : Object → Bound) : Nat → PriorityQueue Object →
    Option Object × PriorityQueue Object
  | 0, queue => (none, queue)
  | rounds + 1, queue =>
      match queue.front key with
      | none => (none, queue)
      | some object =>
          if object ∈ queue.removed then popFrom key rounds (queue.expel object)
          else (some object, queue.expel object)

def pop (key : Object → Bound) (queue : PriorityQueue Object) :
    Option Object × PriorityQueue Object :=
  queue.popFrom key queue.heap.length

/-! What the queue stands for. -/

/-- The objects that are in the queue. -/
def objects (queue : PriorityQueue Object) : Finset Object :=
  queue.known \ queue.removed

theorem mem_objects {queue : PriorityQueue Object} {object : Object} :
    object ∈ queue.objects ↔ object ∈ queue.known ∧ object ∉ queue.removed :=
  Finset.mem_sdiff

theorem mem_known_of_mem {queue : PriorityQueue Object} {object : Object}
    (member : object ∈ queue.objects) : object ∈ queue.known :=
  (mem_objects.mp member).1

theorem contains_iff {queue : PriorityQueue Object} {object : Object} :
    queue.contains object = true ↔ object ∈ queue.objects := by
  rw [mem_objects, contains, Bool.and_eq_true, decide_eq_true_eq, Bool.not_eq_true',
    decide_eq_false_iff_not]

theorem length_eq (queue : PriorityQueue Object) : queue.length = queue.objects.card :=
  (Finset.card_sdiff_of_subset queue.drops).symm

@[simp] theorem objects_empty : (empty : PriorityQueue Object).objects = ∅ := rfl

@[simp] theorem objects_add (queue : PriorityQueue Object) (object : Object) :
    (queue.add object).objects = insert object queue.objects := by
  ext other
  rw [Finset.mem_insert, mem_objects, mem_objects]
  unfold add
  by_cases same : other = object
  · subst same
    by_cases present : other ∈ queue.known
    · simp [present]
    · simp [present]
  · by_cases present : object ∈ queue.known
    · simp [present, same]
    · simp [present, same]

@[simp] theorem objects_remove (queue : PriorityQueue Object) (object : Object) :
    (queue.remove object).objects = queue.objects.erase object := by
  ext other
  rw [Finset.mem_erase, mem_objects, mem_objects]
  unfold remove
  by_cases present : object ∈ queue.known
  · rw [dif_pos present, Finset.mem_insert]
    tauto
  · rw [dif_neg present]
    constructor
    · rintro ⟨known, kept⟩
      exact ⟨fun same => present (same ▸ known), known, kept⟩
    · exact fun ⟨_, member⟩ => member

theorem known_add (queue : PriorityQueue Object) (object : Object) :
    (queue.add object).known = insert object queue.known := by
  unfold add
  by_cases present : object ∈ queue.known
  · rw [dif_pos present, Finset.insert_eq_of_mem present]
  · rw [dif_neg present]

theorem known_remove (queue : PriorityQueue Object) (object : Object) :
    (queue.remove object).known = queue.known := by
  unfold remove
  by_cases present : object ∈ queue.known
  · rw [dif_pos present]
  · rw [dif_neg present]

theorem objects_expel (queue : PriorityQueue Object) (object : Object) :
    (queue.expel object).objects = queue.objects.erase object := by
  ext other
  rw [Finset.mem_erase, mem_objects, mem_objects]
  simp only [expel, Finset.mem_erase]
  tauto

theorem front_eq_none_iff {key : Object → Bound} {queue : PriorityQueue Object} :
    queue.front key = none ↔ queue.heap = [] :=
  List.argmin_eq_none

theorem objects_of_empty_heap {queue : PriorityQueue Object} (empty : queue.heap = []) :
    queue.objects = ∅ := by
  refine Finset.eq_empty_of_forall_notMem fun object member => ?_
  have pushed := (queue.knows object).mp (mem_known_of_mem member)
  rw [empty] at pushed
  exact absurd pushed List.not_mem_nil

theorem front_least {key : Object → Bound} {queue : PriorityQueue Object} {object : Object}
    (front : queue.front key = some object) (kept : object ∉ queue.removed) :
    Lib.LeastIn key queue.objects object := by
  have pushed : object ∈ queue.heap := List.argmin_mem (Option.mem_def.mpr front)
  refine ⟨mem_objects.mpr ⟨(queue.knows object).mpr pushed, kept⟩, fun other member => ?_⟩
  exact List.le_of_mem_argmin ((queue.knows other).mp (mem_known_of_mem member))
    (Option.mem_def.mpr front)

/-- What the loop of `__getitem__` keeps: it drops objects that were removed already. -/
theorem objects_expel_removed {queue : PriorityQueue Object} {object : Object}
    (removed : object ∈ queue.removed) : (queue.expel object).objects = queue.objects := by
  rw [objects_expel, Finset.erase_eq_of_notMem]
  exact fun member => (mem_objects.mp member).2 removed

theorem length_expel {key : Object → Bound} {queue : PriorityQueue Object} {object : Object}
    (front : queue.front key = some object) {rounds : Nat}
    (enough : queue.heap.length ≤ rounds + 1) : (queue.expel object).heap.length ≤ rounds := by
  have pushed : object ∈ queue.heap := List.argmin_mem (Option.mem_def.mpr front)
  have shorter := List.length_erase_of_mem pushed
  have some := List.length_pos_of_mem pushed
  change (queue.heap.erase object).length ≤ rounds
  omega

/-- What one look at the front of the queue gives, and what it leaves. -/
structure Looks (key : Object → Bound) (queue : PriorityQueue Object)
    (answer : Option Object) (after : PriorityQueue Object) : Prop where
  objects : after.objects = queue.objects
  known : after.known ⊆ queue.known
  none : answer = none → queue.objects = ∅
  some : ∀ object, answer = some object → Lib.LeastIn key queue.objects object

theorem topFrom_looks {key : Object → Bound} (rounds : Nat) (queue : PriorityQueue Object)
    (enough : queue.heap.length ≤ rounds) :
    Looks key queue (queue.topFrom key rounds).1 (queue.topFrom key rounds).2 := by
  induction rounds generalizing queue with
  | zero =>
      have empty := List.eq_nil_of_length_eq_zero (Nat.le_zero.mp enough)
      exact ⟨rfl, Finset.Subset.refl _, fun _ => objects_of_empty_heap empty,
        fun _ absent => nomatch absent⟩
  | succ rounds ih =>
      cases front : queue.front key with
      | none =>
          rw [topFrom, front]
          exact ⟨rfl, Finset.Subset.refl _,
            fun _ => objects_of_empty_heap (front_eq_none_iff.mp front),
            fun _ absent => nomatch absent⟩
      | some object =>
          by_cases removed : object ∈ queue.removed
          · have later := ih (queue.expel object) (length_expel front enough)
            have same := objects_expel_removed removed
            rw [topFrom, front]
            simp only [removed, if_true]
            refine ⟨later.objects.trans same, later.known.trans (Finset.erase_subset _ _), ?_, ?_⟩
            · exact fun answer => same ▸ later.none answer
            · exact fun other answer => same ▸ later.some other answer
          · rw [topFrom, front]
            simp only [removed, if_false]
            refine ⟨rfl, Finset.Subset.refl _, fun absent => (Option.some_ne_none _ absent).elim, ?_⟩
            intro other answer
            cases answer
            exact front_least front removed

theorem top_looks (key : Object → Bound) (queue : PriorityQueue Object) :
    Looks key queue (queue.top key).1 (queue.top key).2 :=
  topFrom_looks _ queue le_rfl

/-- What taking an object from the queue gives, and what it leaves. -/
inductive Takes (key : Object → Bound) (queue : PriorityQueue Object) :
    Option Object → PriorityQueue Object → Prop where
  | none {after : PriorityQueue Object} (empty : queue.objects = ∅) (left : after.objects = ∅)
      (known : after.known ⊆ queue.known) : Takes key queue none after
  | some {object : Object} {after : PriorityQueue Object}
      (least : Lib.LeastIn key queue.objects object)
      (left : after.objects = queue.objects.erase object)
      (known : after.known ⊆ queue.known.erase object) : Takes key queue (some object) after

theorem popFrom_takes {key : Object → Bound} (rounds : Nat) (queue : PriorityQueue Object)
    (enough : queue.heap.length ≤ rounds) :
    Takes key queue (queue.popFrom key rounds).1 (queue.popFrom key rounds).2 := by
  induction rounds generalizing queue with
  | zero =>
      have empty := objects_of_empty_heap
        (List.eq_nil_of_length_eq_zero (Nat.le_zero.mp enough))
      exact .none empty empty (Finset.Subset.refl _)
  | succ rounds ih =>
      cases front : queue.front key with
      | none =>
          have empty := objects_of_empty_heap (front_eq_none_iff.mp front)
          rw [popFrom, front]
          exact .none empty empty (Finset.Subset.refl _)
      | some object =>
          by_cases removed : object ∈ queue.removed
          · have later := ih (queue.expel object) (length_expel front enough)
            have same := objects_expel_removed removed
            rw [popFrom, front]
            simp only [removed, if_true]
            generalize (queue.expel object).popFrom key rounds = outcome at later ⊢
            obtain ⟨answer, after⟩ := outcome
            cases later with
            | none empty left known =>
                exact .none (same ▸ empty) left (known.trans (Finset.erase_subset _ _))
            | some least left known =>
                refine .some (same ▸ least) (same ▸ left) (known.trans ?_)
                exact Finset.erase_subset_erase _ (Finset.erase_subset _ _)
          · rw [popFrom, front]
            simp only [removed, if_false]
            exact .some (front_least front removed) (objects_expel queue object)
              (Finset.Subset.refl _)

theorem pop_takes (key : Object → Bound) (queue : PriorityQueue Object) :
    Takes key queue (queue.pop key).1 (queue.pop key).2 :=
  popFrom_takes _ queue le_rfl

/-! A whole run of the queue against a set. -/

inductive Operation (Object : Type) where
  | add (object : Object)
  | remove (object : Object)
  | contains (object : Object)
  | length
  | top
  | pop

inductive Answer (Object : Type) where
  | nothing
  | found (present : Bool)
  | size (count : Nat)
  | object (answer : Option Object)

def apply (key : Object → Bound) (queue : PriorityQueue Object) :
    Operation Object → Answer Object × PriorityQueue Object
  | .add object => (.nothing, queue.add object)
  | .remove object => (.nothing, queue.remove object)
  | .contains object => (.found (queue.contains object), queue)
  | .length => (.size queue.length, queue)
  | .top => ((queue.top key).1 |> .object, (queue.top key).2)
  | .pop => ((queue.pop key).1 |> .object, (queue.pop key).2)

def run (key : Object → Bound) : PriorityQueue Object → List (Operation Object) →
    List (Answer Object) × PriorityQueue Object
  | queue, [] => ([], queue)
  | queue, operation :: rest =>
      let outcome := (queue.apply key operation).2.run key rest
      ((queue.apply key operation).1 :: outcome.1, outcome.2)

/-- What an operation may answer on a set of objects, and what it makes of the set. A
queue with several least objects may give any of them. -/
inductive SetStep (key : Object → Bound) (objects : Finset Object) :
    Operation Object → Answer Object → Finset Object → Prop where
  | add (object : Object) : SetStep key objects (.add object) .nothing (insert object objects)
  | remove (object : Object) : SetStep key objects (.remove object) .nothing (objects.erase object)
  | contains (object : Object) :
      SetStep key objects (.contains object) (.found (decide (object ∈ objects))) objects
  | length : SetStep key objects .length (.size objects.card) objects
  | topEmpty (empty : objects = ∅) : SetStep key objects .top (.object none) objects
  | top {object : Object} (least : Lib.LeastIn key objects object) :
      SetStep key objects .top (.object (some object)) objects
  | popEmpty (empty : objects = ∅) : SetStep key objects .pop (.object none) objects
  | pop {object : Object} (least : Lib.LeastIn key objects object) :
      SetStep key objects .pop (.object (some object)) (objects.erase object)

inductive SetRun (key : Object → Bound) : Finset Object → List (Operation Object) →
    List (Answer Object) → Finset Object → Prop where
  | nil (objects : Finset Object) : SetRun key objects [] [] objects
  | cons {objects middle left : Finset Object} {operation : Operation Object}
      {answer : Answer Object} {operations : List (Operation Object)}
      {answers : List (Answer Object)} (step : SetStep key objects operation answer middle)
      (rest : SetRun key middle operations answers left) :
      SetRun key objects (operation :: operations) (answer :: answers) left

theorem apply_refines (key : Object → Bound) (queue : PriorityQueue Object)
    (operation : Operation Object) :
    SetStep key queue.objects operation (queue.apply key operation).1
      (queue.apply key operation).2.objects := by
  cases operation with
  | add object => exact objects_add queue object ▸ SetStep.add object
  | remove object => exact objects_remove queue object ▸ SetStep.remove object
  | contains object =>
      have same : queue.contains object = decide (object ∈ queue.objects) := by
        rw [Bool.eq_iff_iff, contains_iff, decide_eq_true_eq]
      change SetStep key queue.objects (.contains object) (.found (queue.contains object))
        queue.objects
      exact same ▸ SetStep.contains object
  | length =>
      change SetStep key queue.objects .length (.size queue.length) queue.objects
      exact queue.length_eq ▸ SetStep.length
  | top =>
      have looks := queue.top_looks key
      change SetStep key queue.objects .top (.object (queue.top key).1)
        (queue.top key).2.objects
      rw [looks.objects]
      cases answer : (queue.top key).1 with
      | none => exact .topEmpty (looks.none answer)
      | some object => exact .top (looks.some object answer)
  | pop =>
      have takes := queue.pop_takes key
      change SetStep key queue.objects .pop (.object (queue.pop key).1)
        (queue.pop key).2.objects
      generalize queue.pop key = outcome at takes ⊢
      obtain ⟨answer, after⟩ := outcome
      cases takes with
      | none empty left known =>
          rw [show after.objects = queue.objects from left.trans empty.symm]
          exact .popEmpty empty
      | some least left known =>
          change SetStep key queue.objects .pop (.object (some _)) after.objects
          rw [left]
          exact .pop least

/-- However objects are added and removed, looked at and taken, the heap answers what a
set answers from which a least object is taken. -/
theorem run_refines (key : Object → Bound) (queue : PriorityQueue Object)
    (operations : List (Operation Object)) :
    SetRun key queue.objects operations (queue.run key operations).1
      (queue.run key operations).2.objects := by
  induction operations generalizing queue with
  | nil => exact .nil _
  | cons operation rest ih => exact .cons (queue.apply_refines key operation) (ih _)

end PriorityQueue

end WorkflowStudio.Queue

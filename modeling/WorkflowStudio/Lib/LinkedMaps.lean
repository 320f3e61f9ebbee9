import WorkflowStudio.Lib.OrderedMap

/-! Maps that several holders share. A value may be a map, which is known by its address in
a heap, so that a write is seen by all who hold the map. Maps may hold each other, hence what
values are made of is compared depth by depth. -/

set_option autoImplicit false

namespace Lib

/-- A scalar, a sequence of values, or a map of the heap. -/
inductive Linked (Shape Scalar : Type) where
  | scalar (value : Scalar)
  | sequence (shape : Shape) (items : List (Linked Shape Scalar))
  | map (address : Nat)

/-- What a value is made of, to a depth at which it is cut. -/
inductive Content (Key Shape Scalar : Type) where
  | cut
  | scalar (value : Scalar)
  | sequence (shape : Shape) (items : List (Content Key Shape Scalar))
  | map (entries : List (Key × Content Key Shape Scalar))

variable {Key Shape Scalar : Type}

/-- The maps by their addresses. -/
abbrev LinkedHeap (Key Shape Scalar : Type) := List (OrderedMap Key (Linked Shape Scalar))

namespace LinkedHeap

/-- The map at an address; there is an empty one where the heap ends. -/
def mapAt (heap : LinkedHeap Key Shape Scalar) (address : Nat) :
    OrderedMap Key (Linked Shape Scalar) :=
  heap.getD address OrderedMap.empty

def put (heap : LinkedHeap Key Shape Scalar) (address : Nat)
    (map : OrderedMap Key (Linked Shape Scalar)) : LinkedHeap Key Shape Scalar :=
  heap.set address map

def content (heap : LinkedHeap Key Shape Scalar) : Nat → Linked Shape Scalar →
    Content Key Shape Scalar
  | 0, _ => .cut
  | _ + 1, .scalar value => .scalar value
  | depth + 1, .sequence shape items => .sequence shape (items.map (content heap depth))
  | depth + 1, .map address =>
      .map ((mapAt heap address).entries.map fun entry => (entry.1, content heap depth entry.2))

/-- A value leads to a map in any number of steps. -/
inductive Reaches (heap : LinkedHeap Key Shape Scalar) (target : Nat) : Linked Shape Scalar → Prop
  | here : Reaches heap target (.map target)
  | item {shape : Shape} {items : List (Linked Shape Scalar)} {item : Linked Shape Scalar}
      (member : item ∈ items) (below : Reaches heap target item) :
      Reaches heap target (.sequence shape items)
  | entry {address : Nat} {entry : Key × Linked Shape Scalar}
      (member : entry ∈ (mapAt heap address).entries) (below : Reaches heap target entry.2) :
      Reaches heap target (.map address)

/-- All maps in the value itself are among the first of a heap. -/
inductive Within (count : Nat) : Linked Shape Scalar → Prop
  | scalar (value : Scalar) : Within count (.scalar value)
  | sequence (shape : Shape) (items : List (Linked Shape Scalar))
      (each : ∀ item ∈ items, Within count item) : Within count (.sequence shape items)
  | map (address : Nat) (below : address < count) : Within count (.map address)

/-- No value in a map leads out of the heap. -/
def Sound (heap : LinkedHeap Key Shape Scalar) : Prop :=
  ∀ map ∈ heap, ∀ entry ∈ map.entries, Within heap.length entry.2

variable {heap other : LinkedHeap Key Shape Scalar} {value : Linked Shape Scalar}

/-!
## Reading and writing
-/

theorem mapAt_put_self {address : Nat} (below : address < heap.length)
    (map : OrderedMap Key (Linked Shape Scalar)) : mapAt (put heap address map) address = map := by
  simp [mapAt, put, List.getD_eq_getElem?_getD, below]

theorem mapAt_put_of_ne {address another : Nat} (different : another ≠ address)
    (map : OrderedMap Key (Linked Shape Scalar)) :
    mapAt (put heap address map) another = mapAt heap another := by
  simp [mapAt, put, List.getD_eq_getElem?_getD, List.getElem?_set_ne different.symm]

@[simp] theorem length_put (address : Nat) (map : OrderedMap Key (Linked Shape Scalar)) :
    (put heap address map).length = heap.length := List.length_set

theorem mapAt_of_grows (starts : heap <+: other) {address : Nat} (below : address < heap.length) :
    mapAt other address = mapAt heap address := by
  obtain ⟨added, rfl⟩ := starts
  simp [mapAt, List.getD_eq_getElem?_getD, List.getElem?_append_left below]

theorem mapAt_length (map : OrderedMap Key (Linked Shape Scalar)) :
    mapAt (heap ++ [map]) heap.length = map := by
  simp [mapAt, List.getD_eq_getElem?_getD]

/-!
## What is reached
-/

/-- Heaps that agree on the maps to which a value leads give it the same content. -/
theorem content_congr
    (agree : ∀ address, Reaches heap address value → mapAt other address = mapAt heap address)
    (depth : Nat) : content other depth value = content heap depth value := by
  induction depth generalizing value with
  | zero => rfl
  | succ depth ih =>
      cases value with
      | scalar value => rfl
      | sequence shape items =>
          refine congrArg (Content.sequence shape) (List.map_congr_left fun item member => ?_)
          exact ih fun address below => agree address (.item member below)
      | map address =>
          rw [content, content, agree address .here]
          refine congrArg Content.map (List.map_congr_left fun entry member => ?_)
          rw [ih fun target below => agree target (.entry member below)]

theorem Sound.within (sound : Sound heap) {address : Nat} {entry : Key × Linked Shape Scalar}
    (member : entry ∈ (mapAt heap address).entries) : Within heap.length entry.2 := by
  by_cases below : address < heap.length
  · refine sound _ ?_ entry member
    rw [mapAt, List.getD_eq_getElem?_getD, List.getElem?_eq_getElem below]
    exact List.getElem_mem below
  · rw [mapAt, List.getD_eq_getElem?_getD, List.getElem?_eq_none (by omega)] at member
    cases member

theorem Sound.within_of_get? [DecidableEq Key] (sound : Sound heap) {address : Nat} {key : Key}
    (found : (mapAt heap address).get? key = some value) : Within heap.length value :=
  sound.within (OrderedMap.get?_eq_some_iff.mp found)

theorem Sound.reaches_lt (sound : Sound heap) (within : Within heap.length value) {target : Nat}
    (reached : Reaches heap target value) : target < heap.length := by
  induction reached with
  | here =>
      cases within with
      | map _ below => exact below
  | item member _ ih =>
      cases within with
      | sequence _ _ each => exact ih (each _ member)
  | entry member _ ih => exact ih (sound.within member)

/-- The content of a map after an entry was set. -/
theorem content_map_set [DecidableEq Key] {Val Other : Type} (map : OrderedMap Key Val)
    (key : Key) (value : Val) (convert : Val → Other) :
    ((map.set key value).entries.map fun entry => (entry.1, convert entry.2)) =
      OrderedMap.setEntries key (convert value)
        (map.entries.map fun entry => (entry.1, convert entry.2)) := by
  change (OrderedMap.setEntries key value map.entries).map _ = _
  induction map.entries with
  | nil => rfl
  | cons entry entries ih =>
      by_cases same : entry.1 = key
      · simp [OrderedMap.setEntries, same]
      · simp [OrderedMap.setEntries, same, ih]

end LinkedHeap

end Lib

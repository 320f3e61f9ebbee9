import Mathlib.Data.Set.Card
import Mathlib.Order.CompletePartialOrder
import Mathlib.Order.Interval.Set.Disjoint
import Mathlib.Order.Interval.Set.Nat
import WorkflowStudio.Data.Heap

/-! What references hold: a value, with the addresses of the objects that it is read from. Changes
at other addresses leave it as it is. -/

set_option autoImplicit false

namespace WorkflowStudio.Heap

open Lib

/-!
## What a reference holds
-/

def isLeaf : Value → Bool
  | .list _ | .dict _ => false
  | _ => true

mutual

/-- A reference holds a value and only the objects at these addresses. The fields of a dictionary
share none of their objects. -/
inductive Held (heap : Heap) : Value → Ref → Set Address → Prop where
  | leaf {value : Value} {own : Set Address} (plain : isLeaf value = true) :
      Held heap value (.leaf value) own
  | list {items : List Value} {refs : List Ref} {address : Address} {own : Set Address}
      (here : heap[address]? = some (.list refs)) (member : address ∈ own)
      (held : HeldItems heap items refs (own \ {address})) :
      Held heap (.list items) (.at address) own
  | dict {fields : List (Value × Value)} {entries : Entries} {address : Address}
      {own : Set Address} {part : Value → Set Address}
      (here : heap[address]? = some (.dict entries)) (member : address ∈ own)
      (inside : ∀ key, part key ⊆ own \ {address})
      (held : HeldFields heap fields entries part) :
      Held heap (.dict fields) (.at address) own

inductive HeldItems (heap : Heap) : List Value → List Ref → Set Address → Prop where
  | nil {own : Set Address} : HeldItems heap [] [] own
  | cons {value : Value} {values : List Value} {ref : Ref} {refs : List Ref} {own : Set Address}
      (first : Held heap value ref own) (rest : HeldItems heap values refs own) :
      HeldItems heap (value :: values) (ref :: refs) own

/-- The objects of each field are its part. -/
inductive HeldFields (heap : Heap) :
    List (Value × Value) → Entries → (Value → Set Address) → Prop where
  | nil {part : Value → Set Address} : HeldFields heap [] [] part
  | cons {key value : Value} {ref : Ref} {fields : List (Value × Value)} {entries : Entries}
      {part : Value → Set Address} (fresh : key ∉ fields.map Prod.fst)
      (apart : ∀ other ∈ fields.map Prod.fst, Disjoint (part key) (part other))
      (first : Held heap value ref (part key)) (rest : HeldFields heap fields entries part) :
      HeldFields heap ((key, value) :: fields) ((key, ref) :: entries) part

end


variable {heap other : Heap}

mutual

theorem Held.mono {value : Value} {ref : Ref} {own wider : Set Address}
    (held : Held heap value ref own) (subset : own ⊆ wider) : Held heap value ref wider := by
  cases held with
  | leaf plain => exact .leaf plain
  | list here member held =>
      exact .list here (subset member) (held.mono (Set.sdiff_subset_sdiff_left subset))
  | dict here member inside held =>
      exact .dict here (subset member)
        (fun key => (inside key).trans (Set.sdiff_subset_sdiff_left subset)) held

theorem HeldItems.mono {values : List Value} {refs : List Ref} {own wider : Set Address}
    (held : HeldItems heap values refs own) (subset : own ⊆ wider) :
    HeldItems heap values refs wider := by
  cases held with
  | nil => exact .nil
  | cons first rest => exact .cons (first.mono subset) (rest.mono subset)

end

mutual

/-- A change at other addresses plays no role. -/
theorem Held.frame {value : Value} {ref : Ref} {own : Set Address}
    (held : Held heap value ref own) (same : ∀ address ∈ own, other[address]? = heap[address]?) :
    Held other value ref own := by
  cases held with
  | leaf plain => exact .leaf plain
  | list here member held =>
      exact .list ((same _ member).trans here) member
        (held.frame fun address inside => same address (Set.sdiff_subset inside))
  | dict here member inside held =>
      exact .dict ((same _ member).trans here) member inside
        (held.frame fun key _ address within => same address (Set.sdiff_subset (inside key within)))

theorem HeldItems.frame {values : List Value} {refs : List Ref} {own : Set Address}
    (held : HeldItems heap values refs own)
    (same : ∀ address ∈ own, other[address]? = heap[address]?) :
    HeldItems other values refs own := by
  cases held with
  | nil => exact .nil
  | cons first rest => exact .cons (first.frame same) (rest.frame same)

theorem HeldFields.frame {fields : List (Value × Value)} {entries : Entries}
    {part : Value → Set Address} (held : HeldFields heap fields entries part)
    (same : ∀ key ∈ fields.map Prod.fst, ∀ address ∈ part key, other[address]? = heap[address]?) :
    HeldFields other fields entries part := by
  cases held with
  | nil => exact .nil
  | cons fresh apart first rest =>
      exact .cons fresh apart (first.frame (same _ List.mem_cons_self))
        (rest.frame fun key member => same key (List.mem_cons_of_mem _ member))

end

mutual

/-- A held value is no deeper than it has objects. -/
theorem Held.readTo {value : Value} {ref : Ref} {own : Set Address} {fuel : Nat}
    (held : Held heap value ref own) (finite : own.Finite) (enough : own.ncard ≤ fuel) :
    heap.readTo fuel ref = value := by
  cases held with
  | leaf plain => cases fuel <;> rfl
  | @list items refs address _ here member held =>
      obtain ⟨fuel, rfl⟩ : ∃ less, fuel = less + 1 :=
        Nat.exists_eq_add_one.mpr ((Set.ncard_pos finite).mpr ⟨address, member⟩ |>.trans_le enough)
      have rest := Set.ncard_sdiff_singleton_add_one member finite
      rw [Heap.readTo, here]
      exact congrArg Value.list (held.readTo finite.sdiff (by omega))
  | @dict fields entries address _ part here member inside held =>
      obtain ⟨fuel, rfl⟩ : ∃ less, fuel = less + 1 :=
        Nat.exists_eq_add_one.mpr ((Set.ncard_pos finite).mpr ⟨address, member⟩ |>.trans_le enough)
      have rest := Set.ncard_sdiff_singleton_add_one member finite
      rw [Heap.readTo, here]
      exact congrArg Value.dict (held.readTo finite.sdiff inside (by omega))

theorem HeldItems.readTo {values : List Value} {refs : List Ref} {own : Set Address} {fuel : Nat}
    (held : HeldItems heap values refs own) (finite : own.Finite) (enough : own.ncard ≤ fuel) :
    refs.map (heap.readTo fuel) = values := by
  cases held with
  | nil => rfl
  | cons first rest =>
      rw [List.map_cons, first.readTo finite enough, rest.readTo finite enough]

theorem HeldFields.readTo {fields : List (Value × Value)} {entries : Entries}
    {part : Value → Set Address} {own : Set Address} {fuel : Nat}
    (held : HeldFields heap fields entries part) (finite : own.Finite)
    (inside : ∀ key, part key ⊆ own) (enough : own.ncard ≤ fuel) :
    entries.map (fun entry => (entry.1, heap.readTo fuel entry.2)) = fields := by
  cases held with
  | nil => rfl
  | @cons key value ref fields entries part _ _ first rest =>
      have fits := (Set.ncard_le_ncard (inside key) finite).trans enough
      rw [List.map_cons, first.readTo (finite.subset (inside key)) fits,
        rest.readTo finite inside enough]

end

theorem Held.read {value : Value} {ref : Ref} {own : Set Address}
    (held : Held heap value ref own) (bounded : own ⊆ Set.Iio heap.length) :
    heap.read ref = value := by
  have finite := Set.finite_Iio heap.length
  refine held.readTo (finite.subset bounded) ((Set.ncard_le_ncard bounded finite).trans ?_)
  exact (Set.ncard_Iio_nat heap.length).le

theorem Held.dictAt {value : Value} {ref : Ref} {own : Set Address}
    (held : Held heap value ref own) :
    (∃ fields address entries part, value = .dict fields ∧
        heap.dictAt ref = some (address, entries) ∧ ref = .at address ∧
        heap[address]? = some (.dict entries) ∧ address ∈ own ∧
        (∀ key, part key ⊆ own \ {address}) ∧ HeldFields heap fields entries part) ∨
      ((∀ fields, value ≠ .dict fields) ∧ heap.dictAt ref = none) := by
  cases held with
  | leaf plain =>
      refine .inr ⟨?_, rfl⟩
      rintro fields rfl
      cases plain
  | list here member held =>
      refine .inr ⟨?_, ?_⟩
      · rintro fields same
        cases same
      · rw [Heap.dictAt, here]
  | @dict fields entries address _ part here member inside held =>
      refine .inl ⟨fields, address, entries, part, rfl, ?_, rfl, here, member, inside, held⟩
      rw [Heap.dictAt, here]

theorem HeldItems.length {values : List Value} {refs : List Ref} {own : Set Address}
    (held : HeldItems heap values refs own) : refs.length = values.length := by
  induction values generalizing refs with
  | nil =>
      cases held
      rfl
  | cons value values ih =>
      cases held with
      | cons first rest => exact congrArg (· + 1) (ih rest)

theorem HeldItems.append {front back : List Value} {refs later : List Ref} {own : Set Address}
    (held : HeldItems heap front refs own) (heldLater : HeldItems heap back later own) :
    HeldItems heap (front ++ back) (refs ++ later) own := by
  induction front generalizing refs with
  | nil =>
      cases held
      exact heldLater
  | cons value front ih =>
      cases held with
      | cons first rest => exact .cons first (ih rest)

theorem Held.truthyAt {value : Value} {ref : Ref} {own : Set Address}
    (held : Held heap value ref own) : heap.truthyAt ref = value.truthy := by
  cases held with
  | leaf plain => rfl
  | @list items refs _ _ here _ held =>
      rw [Heap.truthyAt, here, Value.truthy]
      cases held <;> rfl
  | dict here _ _ held =>
      rw [Heap.truthyAt, here, Value.truthy]
      cases held <;> rfl

theorem Held.listAt {value : Value} {ref : Ref} {own : Set Address}
    (held : Held heap value ref own) :
    (∃ items address refs, value = .list items ∧ heap.listAt ref = some (address, refs) ∧
        ref = .at address ∧ heap[address]? = some (.list refs) ∧ address ∈ own ∧
        HeldItems heap items refs (own \ {address})) ∨
      ((∀ items, value ≠ .list items) ∧ heap.listAt ref = none) := by
  cases held with
  | leaf plain =>
      refine .inr ⟨?_, rfl⟩
      rintro items rfl
      cases plain
  | @list items refs address _ here member held =>
      refine .inl ⟨items, address, refs, rfl, ?_, rfl, here, member, held⟩
      rw [Heap.listAt, here]
  | dict here member inside held =>
      refine .inr ⟨?_, ?_⟩
      · rintro items same
        cases same
      · rw [Heap.listAt, here]

/-!
## Building
-/

/-- Each dictionary has a key only once, and no list or dictionary is a key. -/
inductive Distinct : Value → Prop where
  | leaf {value : Value} (plain : isLeaf value = true) : Distinct value
  | list {items : List Value} (each : ∀ item ∈ items, Distinct item) : Distinct (.list items)
  | dict {fields : List (Value × Value)} (distinct : (fields.map Prod.fst).Nodup)
      (keys : ∀ field ∈ fields, isLeaf field.1 = true)
      (each : ∀ field ∈ fields, Distinct field.2) : Distinct (.dict fields)

theorem Distinct.fields {fields : List (Value × Value)} (distinct : Distinct (.dict fields)) :
    (fields.map Prod.fst).Nodup ∧ ∀ field ∈ fields, isLeaf field.1 = true ∧ Distinct field.2 := by
  cases distinct with
  | leaf plain => cases plain
  | dict distinct keys each =>
      exact ⟨distinct, fun field member => ⟨keys field member, each field member⟩⟩

/-- What is built reads as the value, and only through the new objects. -/
def Built (heap : Heap) (value : Value) (built : Ref × Heap) : Prop :=
  heap <+: built.2 ∧ Held built.2 value built.1 (Set.Ico heap.length built.2.length)

theorem prefix_getElem? (starts : heap <+: other) {address : Address}
    (old : address < heap.length) : other[address]? = heap[address]? := by
  obtain ⟨later, rfl⟩ := starts
  exact List.getElem?_append_left old

theorem getElem?_allocate (heap : Heap) (object : Object) :
    (heap.allocate object).2[heap.length]? = some object := List.getElem?_concat_length

theorem prefix_allocate (heap : Heap) (object : Object) : heap <+: (heap.allocate object).2 :=
  List.prefix_append _ _

theorem length_allocate (heap : Heap) (object : Object) :
    (heap.allocate object).2.length = heap.length + 1 := List.length_append

theorem length_changeAt (heap : Heap) (dictionary : Address) (change : Entries → Entries) :
    (heap.changeAt dictionary change).length = heap.length := by
  rw [changeAt]
  split
  · exact List.length_set
  · rfl

/-- What was held before is held after more objects were added. -/
theorem Held.extended {value : Value} {ref : Ref} {own : Set Address}
    (held : Held heap value ref own) (bounded : own ⊆ Set.Iio heap.length)
    (starts : heap <+: other) : Held other value ref own :=
  held.frame fun _ member => prefix_getElem? starts (bounded member)

theorem HeldItems.extended {values : List Value} {refs : List Ref} {own : Set Address}
    (held : HeldItems heap values refs own) (bounded : own ⊆ Set.Iio heap.length)
    (starts : heap <+: other) : HeldItems other values refs own :=
  held.frame fun _ member => prefix_getElem? starts (bounded member)

theorem HeldFields.extended {fields : List (Value × Value)} {entries : Entries}
    {part : Value → Set Address} (held : HeldFields heap fields entries part)
    (bounded : ∀ key, part key ⊆ Set.Iio heap.length) (starts : heap <+: other) :
    HeldFields other fields entries part :=
  held.frame fun key _ _ member => prefix_getElem? starts (bounded key member)

theorem HeldFields.congr {fields : List (Value × Value)} {entries : Entries}
    {part others : Value → Set Address} (held : HeldFields heap fields entries part)
    (same : ∀ key ∈ fields.map Prod.fst, others key = part key) :
    HeldFields heap fields entries others := by
  induction fields generalizing entries with
  | nil =>
      cases held
      exact .nil
  | cons field fields ih =>
      cases held with
      | @cons key value ref _ entries _ fresh apart first rest =>
          have here : others key = part key := same key List.mem_cons_self
          refine .cons fresh (fun other member => ?_) (here ▸ first)
            (ih rest fun other member => same other (List.mem_cons_of_mem _ member))
          rw [here, same other (List.mem_cons_of_mem _ member)]
          exact apart other member

mutual

theorem built_build : ∀ {value : Value} (_ : Distinct value) (heap : Heap),
    Built heap value (build value heap)
  | .list items, distinct, heap => by
      cases distinct with
      | leaf plain => cases plain
      | list each =>
          obtain ⟨starts, held⟩ := built_buildItems each heap
          have longer := starts.length_le
          have more := prefix_allocate (buildItems items heap).2 (.list (buildItems items heap).1)
          refine ⟨starts.trans more, .list (getElem?_allocate _ _) ?_ ((held.extended ?_ more).mono ?_)⟩
          · rw [build, length_allocate]
            exact ⟨longer, Nat.lt_succ_self _⟩
          · exact fun _ member => member.2
          · rintro address ⟨low, high⟩
            rw [build, length_allocate]
            exact ⟨⟨low, Nat.lt_succ_of_lt high⟩, fun same => Nat.ne_of_lt high same⟩
  | .dict fields, distinct, heap => by
      cases distinct with
      | leaf plain => cases plain
      | dict distinct _ each =>
          obtain ⟨starts, part, inside, held⟩ := built_buildEntries distinct each heap
          have longer := starts.length_le
          have more := prefix_allocate (buildEntries fields heap).2
            (.dict (buildEntries fields heap).1)
          refine ⟨starts.trans more,
            .dict (getElem?_allocate _ _) ?_ (fun key => ?_) (held.extended ?_ more)⟩
          · rw [build, length_allocate]
            exact ⟨longer, Nat.lt_succ_self _⟩
          · intro address member
            obtain ⟨low, high⟩ := inside key member
            rw [build, length_allocate]
            exact ⟨⟨low, Nat.lt_succ_of_lt high⟩, fun same => Nat.ne_of_lt high same⟩
          · exact fun key _ member => (inside key member).2
  | .none, _, heap | .bool _, _, heap | .int _, _, heap | .str _, _, heap | .tuple _, _, heap
  | .object _ _, _, heap => ⟨List.prefix_rfl, .leaf rfl⟩

theorem built_buildItems : ∀ {items : List Value} (_ : ∀ item ∈ items, Distinct item)
    (heap : Heap), heap <+: (buildItems items heap).2 ∧
      HeldItems (buildItems items heap).2 items (buildItems items heap).1
        (Set.Ico heap.length (buildItems items heap).2.length)
  | [], _, heap => ⟨List.prefix_rfl, .nil⟩
  | item :: items, each, heap => by
      obtain ⟨starts, first⟩ := built_build (each item List.mem_cons_self) heap
      obtain ⟨more, rest⟩ := built_buildItems
        (fun other member => each other (List.mem_cons_of_mem _ member)) (build item heap).2
      refine ⟨starts.trans more, .cons ((first.extended ?_ more).mono ?_) (rest.mono ?_)⟩
      · exact fun _ member => member.2
      · exact Set.Ico_subset_Ico_right more.length_le
      · exact Set.Ico_subset_Ico_left starts.length_le

theorem built_buildEntries : ∀ {fields : List (Value × Value)}
    (_ : (fields.map Prod.fst).Nodup) (_ : ∀ field ∈ fields, Distinct field.2) (heap : Heap),
    heap <+: (buildEntries fields heap).2 ∧ ∃ part,
      (∀ key, part key ⊆ Set.Ico heap.length (buildEntries fields heap).2.length) ∧
      HeldFields (buildEntries fields heap).2 fields (buildEntries fields heap).1 part
  | [], _, _, heap => ⟨List.prefix_rfl, fun _ => ∅, fun _ => Set.empty_subset _, .nil⟩
  | (key, value) :: fields, distinct, each, heap => by
      obtain ⟨fresh, distinct⟩ := List.nodup_cons.mp distinct
      obtain ⟨starts, first⟩ := built_build (each (key, value) List.mem_cons_self) heap
      obtain ⟨more, part, inside, rest⟩ := built_buildEntries distinct
        (fun other member => each other (List.mem_cons_of_mem _ member)) (build value heap).2
      have others : ∀ other ∈ fields.map Prod.fst, Function.update part key
          (Set.Ico heap.length (build value heap).2.length) other = part other := by
        intro other member
        refine Function.update_of_ne ?_ _ _
        rintro rfl
        exact fresh member
      refine ⟨starts.trans more, Function.update part key
        (Set.Ico heap.length (build value heap).2.length), fun other => ?_,
        .cons fresh (fun other member => ?_) ?_ (rest.congr others)⟩
      · by_cases same : other = key
        · subst same
          rw [Function.update_self]
          exact Set.Ico_subset_Ico_right more.length_le
        · rw [Function.update_of_ne same]
          exact (inside other).trans (Set.Ico_subset_Ico_left starts.length_le)
      · rw [Function.update_self, others other member]
        exact (Set.Ico_disjoint_Ico_same).mono_right (inside other)
      · rw [Function.update_self]
        exact first.extended (fun _ member => member.2) more

end

/-!
## Fields
-/

section Fields

variable {fields : List (Value × Value)} {entries : Entries} {part : Value → Set Address}

theorem HeldFields.keys (held : HeldFields heap fields entries part) :
    entries.map Prod.fst = fields.map Prod.fst := by
  induction fields generalizing entries with
  | nil =>
      cases held
      rfl
  | cons field fields ih =>
      cases held with
      | cons _ _ _ rest => exact congrArg _ (ih rest)

theorem HeldFields.nodup (held : HeldFields heap fields entries part) :
    (fields.map Prod.fst).Nodup := by
  induction fields generalizing entries with
  | nil => exact List.nodup_nil
  | cons field fields ih =>
      cases held with
      | cons fresh _ _ rest => exact List.nodup_cons.mpr ⟨fresh, ih rest⟩

theorem HeldFields.apart (held : HeldFields heap fields entries part) {one two : Value}
    (first : one ∈ fields.map Prod.fst) (second : two ∈ fields.map Prod.fst)
    (different : one ≠ two) : Disjoint (part one) (part two) := by
  induction fields generalizing entries with
  | nil => cases first
  | cons field fields ih =>
      cases held with
      | cons _ apart _ rest =>
          rcases List.mem_cons.mp first with rfl | firstLater
          · exact apart two ((List.mem_cons.mp second).resolve_left different.symm)
          · rcases List.mem_cons.mp second with rfl | secondLater
            · exact (apart one firstLater).symm
            · exact ih rest firstLater secondLater

theorem HeldFields.lookup (held : HeldFields heap fields entries part) (key : Value) :
    (fields.lookup key = none ∧ entries.lookup key = none) ∨
      ∃ value ref, fields.lookup key = some value ∧ entries.lookup key = some ref ∧
        Held heap value ref (part key) := by
  induction fields generalizing entries with
  | nil =>
      cases held
      exact .inl ⟨rfl, rfl⟩
  | cons field fields ih =>
      cases held with
      | @cons other value ref _ entries _ _ _ first rest =>
          rw [OrderedMap.lookup_cons_eq, OrderedMap.lookup_cons_eq]
          by_cases same : key = other
          · subst same
            rw [if_pos rfl, if_pos rfl]
            exact .inr ⟨value, ref, rfl, rfl, first⟩
          · rw [if_neg same, if_neg same]
            exact ih rest

/-- A field is set and the objects of the others stay. -/
theorem HeldFields.set (held : HeldFields heap fields entries part) {key value : Value}
    {ref : Ref} {own : Set Address} (new : Held other value ref own)
    (apart : ∀ name ∈ fields.map Prod.fst, name ≠ key → Disjoint own (part name))
    (same : ∀ name ∈ fields.map Prod.fst, name ≠ key → ∀ address ∈ part name,
      other[address]? = heap[address]?) :
    HeldFields other (OrderedMap.setEntries key value fields)
      (OrderedMap.setEntries key ref entries) (Function.update part key own) := by
  induction fields generalizing entries with
  | nil =>
      cases held
      refine .cons List.not_mem_nil (fun name member => ?_) ?_ .nil
      · cases member
      · rwa [Function.update_self]
  | cons field fields ih =>
      cases held with
      | @cons name first ref' _ entries _ fresh apartFirst held rest =>
          rw [OrderedMap.setEntries, OrderedMap.setEntries]
          by_cases here : name = key
          · subst here
            rw [if_pos rfl, if_pos rfl]
            have others : ∀ name' ∈ fields.map Prod.fst, name' ≠ name := by
              rintro _ member rfl
              exact fresh member
            refine .cons fresh (fun name' member => ?_) ?_ ((rest.frame fun name' member => ?_).congr
              fun name' member => Function.update_of_ne (others name' member) _ _)
            · rw [Function.update_self, Function.update_of_ne (others name' member)]
              exact apart name' (List.mem_cons_of_mem _ member) (others name' member)
            · rwa [Function.update_self]
            · exact same name' (List.mem_cons_of_mem _ member) (others name' member)
          · rw [if_neg here, if_neg here]
            have later := ih rest (fun name' member => apart name' (List.mem_cons_of_mem _ member))
              fun name' member => same name' (List.mem_cons_of_mem _ member)
            refine .cons (fun member => ?_) (fun name' member => ?_) ?_ later
            · exact ((OrderedMap.mem_keys_setEntries key name value fields).mp member).elim here fresh
            · rw [Function.update_of_ne here]
              by_cases there : name' = key
              · subst there
                rw [Function.update_self]
                exact (apart name List.mem_cons_self here).symm
              · rw [Function.update_of_ne there]
                exact apartFirst name'
                  (((OrderedMap.mem_keys_setEntries key name' value fields).mp member).resolve_left
                    there)
            · rw [Function.update_of_ne here]
              exact held.frame (same name List.mem_cons_self here)

theorem HeldFields.filter (held : HeldFields heap fields entries part)
    {keep : Value × Value → Bool} {keepRef : Value × Ref → Bool}
    (same : ∀ key value ref, Held heap value ref (part key) →
      keepRef (key, ref) = keep (key, value)) :
    HeldFields heap (fields.filter keep) (entries.filter keepRef) part := by
  induction fields generalizing entries with
  | nil =>
      cases held
      exact .nil
  | cons field fields ih =>
      cases held with
      | @cons key value ref _ entries _ fresh apart first rest =>
          have subset : (fields.filter keep).map Prod.fst ⊆ fields.map Prod.fst :=
            List.map_subset _ (List.filter_subset_self _)
          rw [List.filter_cons, List.filter_cons, same key value ref first]
          split
          · exact .cons (fun member => fresh (subset member))
              (fun other member => apart other (subset member)) first (ih rest)
          · exact ih rest

end Fields

end WorkflowStudio.Heap

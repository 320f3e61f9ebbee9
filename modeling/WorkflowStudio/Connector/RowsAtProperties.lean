import WorkflowStudio.Connector.MergeAtProperties

/-! Adding rows to a list of the configuration: the list is found where the key has it, so that it
grows for all that hold it. -/

set_option autoImplicit false

namespace WorkflowStudio.Connector

open Lib Heap

/-- The rows of the authentication on the values; `none` where there is something else than a
list. -/
def addRows (key : String) (rows : Fields) (config : Fields) : Option Fields :=
  if rows = [] then some config
  else
    match ((getField config key).getD .none).orElse (.list []) with
    | .list existing => some (setField config key (.list (existing ++ authRows rows)))
    | _ => none

/-- The configuration after rows were added to the list of a key. -/
structure RowsAdded (heap other : Heap) (config : Address) (key : Value) (rows : Fields)
    (entries : Entries) (part : Value → Set Address) (fields : Fields) (entries' : Entries)
    (parts : Value → Set Address) : Prop where
  dict : DictHeld other config fields entries' parts
  bounded : ∀ name, parts name ⊆ Set.Iio other.length
  others : ∀ name, name ≠ key → parts name = part name ∧
    entries'.lookup name = entries.lookup name
  longer : heap.length ≤ other.length
  frame : ∀ address < heap.length, address ≠ config →
    (rows ≠ [] → key ∈ entries.map Prod.fst → address ∉ part key) →
    other[address]? = heap[address]?

/-- Where the key has a list, that list itself grows. -/
def Grows (heap other : Heap) (key : Value) (rows : Fields) (entries : Entries) : Prop :=
  ∀ address items, rows ≠ [] → items ≠ [] → entries.lookup key = some (.at address) →
    heap[address]? = some (.list items) →
    ∃ more, more ≠ [] ∧ other[address]? = some (.list (items ++ more))

section Rows

variable {heap : Heap} {config : Address} {fields : Fields} {entries : Entries}
  {part : Value → Set Address}

/-- Rows are appended to a list that is no part of another field. -/
theorem rows_appended (dict : DictHeld heap config fields entries part)
    (bounded : ∀ name, part name ⊆ Set.Iio heap.length) (key : Value) {address : Address}
    {items rows : List Value} {refs : List Ref} {own : Set Address}
    (here : heap[address]? = some (.list refs)) (member : address ∈ own)
    (held : HeldItems heap items refs (own \ {address})) (within : own ⊆ Set.Iio heap.length)
    (apart : ∀ name ∈ fields.map Prod.fst, name ≠ key → Disjoint own (part name))
    (outside : config ∉ own) (distinct : ∀ row ∈ rows, Distinct row) :
    let built := buildItems rows heap
    let changed := setAt (built.2.set address (.list (refs ++ built.1))) config key (.at address)
    DictHeld changed config (OrderedMap.setEntries key (.list (items ++ rows)) fields)
        (OrderedMap.setEntries key (.at address) entries)
        (Function.update part key (own ∪ Set.Ico heap.length built.2.length)) ∧
      changed.length = built.2.length ∧ heap <+: built.2 ∧
      changed[address]? = some (.list (refs ++ built.1)) ∧
      ∀ place < heap.length, place ≠ config → place ≠ address → changed[place]? = heap[place]? := by
  intro built changed
  obtain ⟨starts, heldRows⟩ : heap <+: built.2 ∧ HeldItems built.2 rows built.1
      (Set.Ico heap.length built.2.length) := built_buildItems distinct heap
  have longer := starts.length_le
  have old : address < heap.length := within member
  have notConfig : config ≠ address := fun same => outside (same ▸ member)
  have appended : (built.2.set address (.list (refs ++ built.1)))[config]? =
      some (.dict entries) := by
    rw [List.getElem?_set_ne notConfig.symm, prefix_getElem? starts dict.bound]
    exact dict.here
  have changed_eq : changed = (built.2.set address (.list (refs ++ built.1))).set config
      (.dict (OrderedMap.setEntries key (.at address) entries)) := by
    change setAt _ _ _ _ = _
    rw [setAt, changeAt, appended]
  have elsewhere {place : Address} (notConfig : place ≠ config) (notList : place ≠ address) :
      changed[place]? = built.2[place]? := by
    rw [changed_eq, List.getElem?_set_ne notConfig.symm, List.getElem?_set_ne notList.symm]
  have frame {place : Address} (old : place < heap.length) (notConfig : place ≠ config)
      (notList : place ≠ address) : changed[place]? = heap[place]? := by
    rw [elsewhere notConfig notList, prefix_getElem? starts old]
  have list : changed[address]? = some (.list (refs ++ built.1)) := by
    rw [changed_eq, List.getElem?_set_ne notConfig, List.getElem?_set_self (old.trans_le longer)]
  have new : Held changed (.list (items ++ rows)) (.at address)
      (own ∪ Set.Ico heap.length built.2.length) := by
    refine .list list (.inl member) (HeldItems.append ?_ ?_)
    · refine (held.frame fun place inside => ?_).mono
        (Set.sdiff_subset_sdiff_left Set.subset_union_left)
      exact frame (within inside.1) (fun same => outside (same ▸ inside.1)) inside.2
    · refine (heldRows.frame fun place inside => ?_).mono ?_
      · exact elsewhere (fun same => Nat.not_lt_of_le inside.1 (same ▸ dict.bound))
          (fun same => Nat.not_lt_of_le inside.1 (same ▸ old))
      · exact fun place inside => ⟨.inr inside, fun same =>
          Nat.not_lt_of_le inside.1 ((Set.mem_singleton_iff.mp same) ▸ old)⟩
  have length : changed.length = built.2.length := by
    rw [changed_eq, List.length_set, List.length_set]
  refine ⟨⟨?_, fun name => ?_, dict.held.set new (fun name among different => ?_) ?_⟩, length,
    starts, list, fun place old => frame old⟩
  · rw [changed_eq, List.getElem?_set_self]
    rw [List.length_set]
    exact dict.bound.trans_le longer
  · by_cases same : name = key
    · rw [same, Function.update_self]
      rintro (inside | inside)
      · exact outside inside
      · exact Nat.not_lt_of_le inside.1 dict.bound
    · rw [Function.update_of_ne same]
      exact dict.outside name
  · refine Set.disjoint_union_left.mpr ⟨apart name among different, ?_⟩
    exact Set.disjoint_left.mpr fun place inside within =>
      Nat.not_lt_of_le inside.1 (bounded name within)
  · intro name among different place inside
    refine frame (bounded name inside) (fun same => dict.outside name (same ▸ inside)) ?_
    rintro rfl
    exact Set.disjoint_left.mp (apart name among different) member inside

theorem existing_held (dict : DictHeld heap config fields entries part) (key : String) :
    Held heap ((getField fields key).getD .none) (heap.getAt config (.str key))
      (part (.str key)) := by
  rw [dict.getAt, getField]
  rcases dict.held.lookup (.str key) with ⟨none, noneRef⟩ | ⟨value, ref, some, someRef, held⟩
  · rw [none, noneRef]
    exact .leaf rfl
  · rw [some, someRef]
    exact held

theorem appendRowsAt_none (dict : DictHeld heap config fields entries part) {key : String}
    {rows : Fields} (here : addRows key rows fields = none) :
    appendRowsAt key rows config heap = none := by
  have held := existing_held dict key
  unfold addRows at here
  split at here
  · cases here
  · next nonempty =>
    rw [appendRowsAt, if_neg nonempty]
    split at here
    · cases here
    · next noList =>
      rw [Value.orElse] at noList
      split at noList
      · next truthy =>
        rcases held.listAt with ⟨items, _, _, same, -⟩ | ⟨-, none⟩
        · exact absurd same (noList items)
        · dsimp only
          rw [held.truthyAt, if_pos truthy, none]
      · exact absurd rfl (noList [])

theorem appendRowsAt_some (dict : DictHeld heap config fields entries part)
    (bounded : ∀ name, part name ⊆ Set.Iio heap.length) {key : String} {rows : Fields}
    (distinct : ∀ row ∈ authRows rows, Distinct row) {added : Fields}
    (here : addRows key rows fields = some added) :
    ∃ other entries' parts, appendRowsAt key rows config heap = some other ∧
      RowsAdded heap other config (.str key) rows entries part added entries' parts ∧
      Grows heap other (.str key) rows entries := by
  have held := existing_held dict key
  unfold addRows at here
  split at here
  · next empty =>
    obtain rfl := Option.some.inj here
    refine ⟨heap, entries, part, by rw [appendRowsAt, if_pos empty],
      ⟨dict, bounded, fun _ _ => ⟨rfl, rfl⟩, Nat.le_refl _, fun _ _ _ _ => rfl⟩, ?_⟩
    exact fun _ _ nonempty => absurd empty nonempty
  next nonempty =>
  have moreRows (start : Heap) : (buildItems (authRows rows) start).1 ≠ [] := by
    cases rows with
    | nil => exact absurd rfl nonempty
    | cons row rows =>
        rw [authRows, List.map_cons, buildItems]
        exact List.cons_ne_nil _ _
  have others (name : Value) (different : name ≠ .str key) (own : Set Address) (ref : Ref) :
      Function.update part (.str key) own name = part name ∧
        (OrderedMap.setEntries (.str key) ref entries).lookup name = entries.lookup name := by
    rw [Function.update_of_ne different, OrderedMap.lookup_setEntries, if_neg different]
    exact ⟨rfl, rfl⟩
  split at here
  swap
  · cases here
  next existing same =>
  obtain rfl := Option.some.inj here
  rw [Value.orElse] at same
  rw [appendRowsAt, if_neg nonempty]
  dsimp only
  rw [held.truthyAt]
  split at same
  · next truthy =>
    rw [if_pos truthy]
    rw [same] at held
    rcases held.listAt with ⟨items, address, refs, sameItems, found, ref_eq, object, member,
      inside⟩ | ⟨noList, -⟩
    swap
    · exact absurd rfl (noList existing)
    cases sameItems
    have among : Value.str key ∈ fields.map Prod.fst := by
      rcases dict.held.lookup (.str key) with ⟨none, -⟩ | ⟨value, ref, some, -⟩
      · rw [getField, none] at same
        cases same
      · exact List.mem_map.mpr ⟨_, OrderedMap.mem_of_lookup some, rfl⟩
    obtain ⟨dict', length, starts, list, frame⟩ := rows_appended dict bounded (.str key) object
      member inside (bounded _)
      (fun name amongName different => dict.held.apart among amongName different.symm)
      (dict.outside _) distinct
    refine ⟨_, _, _, by rw [found], ⟨dict', fun name place within => ?_,
      fun name different => others name different _ _, ?_,
      fun place old notConfig away => frame place old notConfig ?_⟩,
      fun place items' _ _ someRef object' => ?_⟩
    · rw [Set.mem_Iio, length]
      by_cases sameName : name = .str key
      · rw [sameName, Function.update_self] at within
        exact within.elim (fun old => (bounded _ old).trans_le starts.length_le) fun new => new.2
      · rw [Function.update_of_ne sameName] at within
        exact (bounded name within).trans_le starts.length_le
    · rw [length]
      exact starts.length_le
    · rintro rfl
      exact away nonempty (dict.held.keys ▸ among) member
    · have sameRef : Ref.at place = .at address := by
        rw [← ref_eq, dict.getAt, someRef, Option.getD_some]
      cases sameRef
      rw [object] at object'
      cases object'
      exact ⟨_, moreRows heap, list⟩
  · next falsy =>
    cases same
    rw [if_neg falsy]
    have starts := prefix_allocate heap (.list [])
    have longer := length_allocate heap (.list [])
    have object := getElem?_allocate heap (.list [])
    have dict' := dict.frame bounded fun place old => prefix_getElem? starts old
    have found : (heap.allocate (.list [])).2.listAt (heap.allocate (.list [])).1 =
        some (heap.length, []) := by
      rw [allocate] at object ⊢
      rw [listAt, object]
    generalize heap.allocate (.list []) = allocated at starts longer object dict' found ⊢
    have room : heap.length < allocated.2.length := by
      rw [longer]
      exact Nat.lt_succ_self _
    have bounded' (name : Value) : part name ⊆ Set.Iio allocated.2.length := fun _ within =>
      (bounded name within).trans_le starts.length_le
    obtain ⟨added, length, more, list, frame⟩ := rows_appended dict' bounded' (.str key)
      object (Set.mem_singleton heap.length) .nil
      (Set.singleton_subset_iff.mpr room)
      (fun name _ _ => Set.disjoint_singleton_left.mpr fun within =>
        Nat.lt_irrefl _ (bounded name within))
      (fun same => Nat.lt_irrefl _ (Set.mem_singleton_iff.mp same ▸ dict.bound)) distinct
    refine ⟨_, _, _, by rw [found], ⟨added, fun name place within => ?_,
      fun name different => others name different _ _, ?_, fun place old notConfig away => ?_⟩,
      fun place items _ nonemptyItems someRef object' => ?_⟩
    · rw [Set.mem_Iio, length]
      by_cases sameName : name = .str key
      · rw [sameName, Function.update_self] at within
        rcases within with old | new
        · rw [Set.mem_singleton_iff.mp old]
          exact room.trans_le more.length_le
        · exact new.2
      · rw [Function.update_of_ne sameName] at within
        exact (bounded' name within).trans_le more.length_le
    · rw [length]
      exact starts.length_le.trans more.length_le
    · rw [frame place (old.trans_le starts.length_le) notConfig (Nat.ne_of_lt old)]
      exact prefix_getElem? starts old
    · have truthy := held.truthyAt
      rw [Bool.eq_false_iff.mpr falsy, dict.getAt, someRef, Option.getD_some, truthyAt,
        object'] at truthy
      cases items with
      | nil => exact absurd rfl nonemptyItems
      | cons item items => cases truthy

end Rows

end WorkflowStudio.Connector

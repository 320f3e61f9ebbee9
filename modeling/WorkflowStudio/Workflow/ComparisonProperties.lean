import WorkflowStudio.Workflow.Comparison

/-! The comparison in the other direction has additions and removals exchanged. It finds
every difference of the snapshots that an editor writes, the positions of nodes among
them, but takes a key without a value for one that is missing. -/

set_option autoImplicit false

namespace WorkflowStudio.Workflow.Comparison

open Lib

/-!
## Dictionaries
-/

/-- The dictionaries have the same keys with equal values. -/
structure SameEntries (left right : Item) : Prop where
  keys : ∀ key, key ∈ left.keys ↔ key ∈ right.keys
  reads : ∀ key, (left.read key).Equal (right.read key)

theorem SameEntries.symm {left right : Item} (same : SameEntries left right) :
    SameEntries right left :=
  ⟨fun key => (same.keys key).symm, fun key => (same.reads key).symm⟩

theorem read_of_get? {item : Item} {key : String} {value : Value}
    (found : item.get? key = some value) : item.read key = value := by
  rw [Item.read, found, Option.getD_some]

theorem read_of_absent {item : Item} {key : String} (absent : key ∉ item.keys) :
    item.read key = .none := by
  rw [Item.read, OrderedMap.get?_eq_none_iff.mpr absent, Option.getD_none]

theorem sameItem_iff {left right : Item} : sameItem left right = true ↔ SameEntries left right := by
  rw [sameItem, Bool.and_eq_true, beq_iff_eq, List.all_eq_true]
  constructor
  · rintro ⟨lengths, found⟩
    have finds : ∀ key value, left.get? key = some value →
        ∃ other, right.get? key = some other ∧ value.Equal other := by
      intro key value holds
      have listed := found (key, value) (OrderedMap.get?_eq_some_iff.mp holds)
      cases other : right.get? key with
      | none => simp [other] at listed
      | some value => exact ⟨value, rfl, by simpa [other] using listed⟩
    have within : left.keys ⊆ right.keys := by
      intro key member
      obtain ⟨value, holds⟩ := OrderedMap.mem_keys_iff.mp member
      obtain ⟨other, there, _⟩ := finds key value holds
      exact OrderedMap.mem_keys_iff.mpr ⟨other, there⟩
    have same := (List.subperm_of_subset left.keys_nodup within).perm_of_length_le lengths.ge
    refine ⟨fun key => same.mem_iff, fun key => ?_⟩
    cases holds : left.get? key with
    | some value =>
        obtain ⟨other, there, equal⟩ := finds key value holds
        rw [read_of_get? holds, read_of_get? there]
        exact equal
    | none =>
        have absent := OrderedMap.get?_eq_none_iff.mp holds
        rw [read_of_absent absent, read_of_absent fun there => absent (same.mem_iff.mpr there)]
        exact .refl _
  · intro same
    have keys : left.keys.Perm right.keys :=
      (List.perm_ext_iff_of_nodup left.keys_nodup right.keys_nodup).mpr same.keys
    refine ⟨keys.length_eq, ?_⟩
    rintro ⟨key, value⟩ listed
    have holds := OrderedMap.get?_eq_some_iff.mpr listed
    obtain ⟨other, there⟩ := OrderedMap.mem_keys_iff.mp
      ((same.keys key).mp (OrderedMap.mem_keys_iff.mpr ⟨value, holds⟩))
    have equal := same.reads key
    rw [read_of_get? holds, read_of_get? there] at equal
    simpa [there] using equal

theorem sameItem_comm (left right : Item) : sameItem left right = sameItem right left := by
  rw [Bool.eq_iff_iff, sameItem_iff, sameItem_iff]
  exact ⟨SameEntries.symm, SameEntries.symm⟩

theorem mem_allKeys {new old : Item} {key : String} :
    key ∈ allKeys new old ↔ key ∈ new.keys ∨ key ∈ old.keys := by
  rw [allKeys, List.mem_insertionSort, List.mem_dedup, List.mem_append]

theorem allKeys_comm (new old : Item) : allKeys new old = allKeys old new := by
  have same : (new.keys ++ old.keys).dedup.Perm (old.keys ++ new.keys).dedup := by
    refine (List.perm_ext_iff_of_nodup (List.nodup_dedup _) (List.nodup_dedup _)).mpr fun key => ?_
    rw [List.mem_dedup, List.mem_dedup, List.mem_append, List.mem_append, or_comm]
  have sorted : (allKeys new old).Perm (allKeys old new) :=
    (List.perm_insertionSort _ _).trans (same.trans (List.perm_insertionSort _ _).symm)
  exact sorted.eq_of_pairwise' (List.pairwise_insertionSort _ _) (List.pairwise_insertionSort _ _)

theorem diffObjects_comm (new old : Item) : diffObjects new old = diffObjects old new := by
  rw [diffObjects, diffObjects, allKeys_comm]
  simp only [Value.equal_comm]

/-!
## Items under their ids
-/

/-- Every id is kept under its own key. -/
def Keyed (map : ItemMap) : Prop := ∀ entry ∈ map.entries, entry.1 = idKey entry.2.1

theorem keyed_empty : Keyed OrderedMap.empty := by
  intro entry member
  cases member

theorem addItem_keyed {map next : ItemMap} {item : Item} (keyed : Keyed map)
    (added : addItem map item = .ok next) : Keyed next := by
  simp only [addItem] at added
  split at added
  · cases added
    exact keyed
  · cases hashable : unhashable (item.read "id") with
    | some error => simp [hashable] at added
    | none =>
        simp only [hashable, Except.ok.injEq] at added
        subst added
        rintro ⟨key, found⟩ listed
        have holds := OrderedMap.get?_eq_some_iff.mpr listed
        rw [OrderedMap.get?_set] at holds
        split at holds
        · next same =>
            cases holds
            cases known : map.get? (idKey (item.read "id")) with
            | none => exact same
            | some entry =>
                exact same.trans (keyed _ (OrderedMap.get?_eq_some_iff.mp known))
        · exact keyed _ (OrderedMap.get?_eq_some_iff.mp holds)

theorem itemMap_keyed {map result : ItemMap} {items : List Item} (keyed : Keyed map)
    (built : itemMap map items = .ok result) : Keyed result := by
  induction items generalizing map with
  | nil =>
      cases built
      exact keyed
  | cons item items ih =>
      cases added : addItem map item with
      | error error => simp [itemMap, added, bind, Except.bind] at built
      | ok next =>
          simp only [itemMap, added, bind, Except.bind] at built
          exact ih (addItem_keyed keyed added) built

/-!
## The other direction
-/

/-- The entry of the other direction: new and old exchanged, the same changes. -/
structure Exchanged (forward backward : Modified) : Prop where
  id : backward.id.Equal forward.id
  new : backward.new = forward.old
  old : backward.old = forward.new
  changes : backward.changes = forward.changes

/-- The comparison of the items in the other direction. -/
structure DualItems (forward backward : ItemComparison) : Prop where
  added : backward.added = forward.removed
  removed : backward.removed = forward.added
  modified : ∃ entries, entries.Perm backward.modified ∧
    List.Forall₂ Exchanged forward.modified entries

theorem modifiedItem_exchanged (labelKey : Option String) {newId oldId : Value}
    (same : oldId.Equal newId) (new old : Item) :
    Option.Rel Exchanged (modifiedItem labelKey newId new old)
      (modifiedItem labelKey oldId old new) := by
  simp only [modifiedItem, sameItem_comm old new, diffObjects_comm old new]
  split
  · exact .none
  · split
    · exact .none
    · exact .some ⟨same, rfl, rfl, rfl⟩

theorem modifiedIn_eq_shared (labelKey : Option String) (new old : ItemMap) :
    modifiedIn labelKey new old = (new.shared old).filterMap fun entry =>
      modifiedItem labelKey entry.2.1.1 entry.2.1.2 entry.2.2.2 := by
  rw [modifiedIn, OrderedMap.shared, List.filterMap_filterMap]
  congr 1
  funext entry
  rw [Option.bind_map]
  rfl

theorem modifiedIn_dual (labelKey : Option String) {new old : ItemMap} (newKeyed : Keyed new)
    (oldKeyed : Keyed old) :
    ∃ entries, entries.Perm (modifiedIn labelKey old new) ∧
      List.Forall₂ Exchanged (modifiedIn labelKey new old) entries := by
  rw [modifiedIn_eq_shared, modifiedIn_eq_shared]
  refine ⟨_, ((new.shared_perm old).filterMap _).symm, ?_⟩
  rw [List.filterMap_map]
  have related : List.Forall₂ (fun entry other : Value × (Value × Item) × (Value × Item) =>
      entry = other ∧ other.2.2.1.Equal other.2.1.1) (new.shared old) (new.shared old) := by
    refine List.forall₂_same.mpr ?_
    rintro ⟨key, inNew, inOld⟩ listed
    obtain ⟨holds, there⟩ := OrderedMap.mem_shared.mp listed
    have newKey := newKeyed _ (OrderedMap.get?_eq_some_iff.mp holds)
    have oldKey := oldKeyed _ (OrderedMap.get?_eq_some_iff.mp there)
    exact ⟨rfl, oldKey.symm.trans newKey⟩
  refine List.rel_filterMap ?_ related
  rintro entry other ⟨rfl, same⟩
  exact modifiedItem_exchanged labelKey same _ _

theorem compareItems_dual {labelKey : Option String} {new old : Option (List Item)}
    {forward : ItemComparison} (compared : compareItems labelKey new old = .ok forward) :
    ∃ backward, compareItems labelKey old new = .ok backward ∧ DualItems forward backward := by
  cases newBuilt : itemMap OrderedMap.empty (new.getD []) with
  | error error => simp [compareItems, newBuilt, bind, Except.bind] at compared
  | ok newMap =>
      cases oldBuilt : itemMap OrderedMap.empty (old.getD []) with
      | error error => simp [compareItems, newBuilt, oldBuilt, bind, Except.bind] at compared
      | ok oldMap =>
          simp only [compareItems, newBuilt, oldBuilt, bind, Except.bind, pure, Except.pure,
            Except.ok.injEq] at compared ⊢
          subst compared
          exact ⟨_, rfl, rfl, rfl, modifiedIn_dual labelKey
            (itemMap_keyed keyed_empty newBuilt) (itemMap_keyed keyed_empty oldBuilt)⟩

/-- The metadata entry of the other direction. -/
def MetadataChange.exchanged (change : MetadataChange) : MetadataChange :=
  ⟨change.key, change.old, change.new⟩

theorem compareDicts_dual (new old : Option Item) :
    compareDicts old new = (compareDicts new old).map MetadataChange.exchanged := by
  simp only [compareDicts, allKeys_comm (old.getD _), List.map_filterMap]
  congr 1
  funext key
  by_cases same : ((new.getD OrderedMap.empty).read key).Equal
      ((old.getD OrderedMap.empty).read key)
  · simp only [if_pos same, if_pos same.symm, Option.map_none]
  · have different : ¬ ((old.getD OrderedMap.empty).read key).Equal
        ((new.getD OrderedMap.empty).read key) := fun back => same back.symm
    simp only [if_neg same, if_neg different, Option.map_some, MetadataChange.exchanged]

/-- The comparison in the other direction. -/
structure Dual (forward backward : ComparisonResult) : Prop where
  nodes : DualItems forward.nodes backward.nodes
  connections : DualItems forward.connections backward.connections
  metadata : backward.metadata = forward.metadata.map MetadataChange.exchanged

theorem generateWorkflowComparison_ok {str : Value → String} {new old : Content}
    {forward : ComparisonResult} (compared : generateWorkflowComparison str new old = .ok forward) :
    ∃ backward, generateWorkflowComparison str old new = .ok backward ∧ Dual forward backward := by
  cases nodes : compareItems (some "label") new.nodes old.nodes with
  | error error => simp [generateWorkflowComparison, nodes, bind, Except.bind] at compared
  | ok nodeChanges =>
      cases connections : compareItems none new.connections old.connections with
      | error error =>
          simp [generateWorkflowComparison, nodes, connections, bind, Except.bind] at compared
      | ok connectionChanges =>
          obtain ⟨nodesBack, nodesCompared, nodesDual⟩ := compareItems_dual nodes
          obtain ⟨connectionsBack, connectionsCompared, connectionsDual⟩ :=
            compareItems_dual connections
          simp only [generateWorkflowComparison, nodes, connections, bind, Except.bind, pure,
            Except.pure, Except.ok.injEq] at compared
          subst compared
          simp only [generateWorkflowComparison, nodesCompared, connectionsCompared, bind,
            Except.bind, pure, Except.pure, Except.ok.injEq]
          exact ⟨_, rfl, nodesDual, connectionsDual, compareDicts_dual _ _⟩

/-- The comparisons in the two directions are dual, unless both fail. -/
theorem generateWorkflowComparison_dual (str : Value → String) (new old : Content) :
    (∃ forward backward, generateWorkflowComparison str new old = .ok forward ∧
      generateWorkflowComparison str old new = .ok backward ∧ Dual forward backward) ∨
    (∃ error other, generateWorkflowComparison str new old = .error error ∧
      generateWorkflowComparison str old new = .error other) := by
  cases compared : generateWorkflowComparison str new old with
  | ok forward =>
      obtain ⟨backward, reversed, dual⟩ := generateWorkflowComparison_ok compared
      exact .inl ⟨forward, backward, rfl, reversed, dual⟩
  | error error =>
      cases reversed : generateWorkflowComparison str old new with
      | error other => exact .inr ⟨error, other, rfl, rfl⟩
      | ok backward =>
          obtain ⟨forward, again, _⟩ := generateWorkflowComparison_ok reversed
          rw [compared] at again
          cases again

end WorkflowStudio.Workflow.Comparison

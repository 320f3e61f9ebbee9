import WorkflowStudio.Workflow.ComparisonProperties

/-! No change is reported exactly for snapshots whose nodes, with their positions, and
connections are equal, and whose metadata reads the same: a position counts, and a key
without a value is not told from a missing one. -/

set_option autoImplicit false

namespace WorkflowStudio.Workflow.Comparison

open Lib

/-!
## Items that are not modified
-/

/-- Equal, apart from the keys that the comparison skips. -/
def Alike (left right : Item) : Prop :=
  ∀ key, key ∉ skipKeys → (left.read key).Equal (right.read key)

theorem diffObjects_eq_nil_iff {new old : Item} : diffObjects new old = [] ↔ Alike new old := by
  rw [diffObjects, List.filter_eq_nil_iff]
  constructor
  · intro unchanged key counts
    by_cases listed : key ∈ allKeys new old
    · simpa [counts] using unchanged key listed
    · rw [mem_allKeys, not_or] at listed
      rw [read_of_absent listed.1, read_of_absent listed.2]
      exact .refl _
  · intro alike key _
    by_cases counts : key ∈ skipKeys
    · simp [counts]
    · simp [counts, alike key counts]

theorem compareDicts_eq_nil_iff {new old : Option Item} :
    compareDicts new old = [] ↔
      ∀ key,
        ((new.getD OrderedMap.empty).read key).Equal ((old.getD OrderedMap.empty).read key) := by
  rw [compareDicts, List.filterMap_eq_nil_iff]
  constructor
  · intro unchanged key
    by_cases listed : key ∈ allKeys (new.getD OrderedMap.empty) (old.getD OrderedMap.empty)
    · simpa using unchanged key listed
    · rw [mem_allKeys, not_or] at listed
      rw [read_of_absent listed.1, read_of_absent listed.2]
      exact .refl _
  · intro same key _
    exact if_pos (same key)

theorem modifiedItem_eq_none_iff {labelKey : Option String} {id : Value} {new old : Item} :
    modifiedItem labelKey id new old = none ↔ Alike new old := by
  cases same : sameItem new old with
  | true =>
      simp only [modifiedItem, same, ↓reduceIte, true_iff]
      exact fun key _ => (sameItem_iff.mp same).reads key
  | false => simp [modifiedItem, same, diffObjects_eq_nil_iff]

/-!
## Items with ids of their own
-/

section Identified

variable {Entry : Type} {toJSON : Entry → Item} {idOf : Entry → String}

/-- The map that is built of items with ids of their own. -/
theorem itemMap_distinct (reads : ∀ entry, (toJSON entry).read "id" = .str (idOf entry))
    {items : List Entry} (named : ∀ entry ∈ items, idOf entry ≠ "")
    (distinct : (items.map idOf).Nodup) (map : ItemMap)
    (fresh : ∀ entry ∈ items, Value.str (idOf entry) ∉ map.keys) :
    ∃ built, itemMap map (items.map toJSON) = .ok built ∧
      built.entries = map.entries ++ items.map fun entry =>
        (.str (idOf entry), .str (idOf entry), toJSON entry) := by
  induction items generalizing map with
  | nil => exact ⟨map, rfl, (List.append_nil _).symm⟩
  | cons entry items ih =>
      rw [List.map_cons, List.nodup_cons] at distinct
      have absent := fresh entry List.mem_cons_self
      have added : addItem map (toJSON entry) =
          .ok (map.set (.str (idOf entry)) (.str (idOf entry), toJSON entry)) := by
        have key : idKey (.str (idOf entry)) = .str (idOf entry) := rfl
        have truthy : (Value.str (idOf entry)).truthy = true := by
          simpa [Value.truthy] using named entry List.mem_cons_self
        simp [addItem, reads, key, truthy, unhashable, OrderedMap.get?_eq_none_iff.mpr absent]
      have later : ∀ other ∈ items, Value.str (idOf other) ∉
          (map.set (.str (idOf entry)) (.str (idOf entry), toJSON entry)).keys := by
        intro other member
        rw [OrderedMap.mem_keys_set, not_or]
        constructor
        · intro same
          apply distinct.1
          rw [← Value.str.inj same]
          exact List.mem_map_of_mem member
        · exact fresh other (List.mem_cons_of_mem _ member)
      obtain ⟨built, made, entries⟩ := ih
        (fun other member => named other (List.mem_cons_of_mem _ member)) distinct.2 _ later
      have extended : (map.set (.str (idOf entry)) (.str (idOf entry), toJSON entry)).entries =
          map.entries ++ [(.str (idOf entry), .str (idOf entry), toJSON entry)] :=
        OrderedMap.setEntries_of_absent absent _
      refine ⟨built, by simpa [itemMap, added, bind, Except.bind] using made, ?_⟩
      rw [entries, extended, List.append_assoc, List.singleton_append, List.map_cons]

/-- The map of the items, and no others. -/
def MapOf (toJSON : Entry → Item) (idOf : Entry → String) (items : List Entry)
    (map : ItemMap) : Prop :=
  ∀ key found, map.get? key = some found ↔
    ∃ entry ∈ items, key = .str (idOf entry) ∧ found = (.str (idOf entry), toJSON entry)

theorem itemMap_mapOf (reads : ∀ entry, (toJSON entry).read "id" = .str (idOf entry))
    {items : List Entry} (named : ∀ entry ∈ items, idOf entry ≠ "")
    (distinct : (items.map idOf).Nodup) :
    ∃ built, itemMap OrderedMap.empty (items.map toJSON) = .ok built ∧
      MapOf toJSON idOf items built := by
  obtain ⟨built, made, entries⟩ := itemMap_distinct reads named distinct OrderedMap.empty
    fun _ _ => List.not_mem_nil
  refine ⟨built, made, fun key found => ?_⟩
  rw [OrderedMap.get?_eq_some_iff, entries]
  constructor
  · intro listed
    obtain ⟨entry, member, same⟩ := List.mem_map.mp listed
    cases same
    exact ⟨entry, member, rfl, rfl⟩
  · rintro ⟨entry, member, rfl, rfl⟩
    exact List.mem_map.mpr ⟨entry, member, rfl⟩

theorem MapOf.isSome_iff {items : List Entry} {map : ItemMap} (holds : MapOf toJSON idOf items map)
    (id : String) : (map.get? (.str id)).isSome ↔ ∃ entry ∈ items, idOf entry = id := by
  rw [Option.isSome_iff_exists]
  constructor
  · rintro ⟨found, there⟩
    obtain ⟨entry, member, same, _⟩ := (holds _ _).mp there
    exact ⟨entry, member, (Value.str.inj same).symm⟩
  · rintro ⟨entry, member, rfl⟩
    exact ⟨_, (holds _ _).mpr ⟨entry, member, rfl, rfl⟩⟩

theorem MapOf.onlyIn_eq_nil_iff {labelKey : Option String} {items others : List Entry}
    {map other : ItemMap} (holds : MapOf toJSON idOf items map)
    (otherHolds : MapOf toJSON idOf others other) :
    onlyIn labelKey map other = [] ↔
      ∀ entry ∈ items, ∃ known ∈ others, idOf known = idOf entry := by
  rw [onlyIn, List.filterMap_eq_nil_iff]
  constructor
  · intro nothing entry member
    have listed := OrderedMap.get?_eq_some_iff.mp
      ((holds _ _).mpr ⟨entry, member, rfl, rfl⟩)
    exact (otherHolds.isSome_iff (idOf entry)).mp
      (by simpa [Option.isSome_iff_ne_none] using nothing _ listed)
  · rintro found ⟨key, value⟩ listed
    obtain ⟨entry, member, rfl, rfl⟩ := (holds _ _).mp (OrderedMap.get?_eq_some_iff.mpr listed)
    exact if_pos ((otherHolds.isSome_iff (idOf entry)).mpr (found entry member))

theorem MapOf.modifiedIn_eq_nil_iff {labelKey : Option String} {news olds : List Entry}
    {new old : ItemMap} (newHolds : MapOf toJSON idOf news new)
    (oldHolds : MapOf toJSON idOf olds old) :
    modifiedIn labelKey new old = [] ↔ ∀ entry ∈ news, ∀ other ∈ olds,
      idOf other = idOf entry → Alike (toJSON entry) (toJSON other) := by
  rw [modifiedIn_eq_shared, List.filterMap_eq_nil_iff]
  constructor
  · intro nothing entry member other otherMember same
    have listed := OrderedMap.mem_shared.mpr
      ⟨(newHolds _ _).mpr ⟨entry, member, rfl, rfl⟩,
        (oldHolds _ _).mpr ⟨other, otherMember, congrArg Value.str same.symm, rfl⟩⟩
    exact modifiedItem_eq_none_iff.mp (nothing _ listed)
  · rintro alike ⟨key, first, second⟩ listed
    obtain ⟨inNew, inOld⟩ := OrderedMap.mem_shared.mp listed
    obtain ⟨entry, member, rfl, rfl⟩ := (newHolds _ _).mp inNew
    obtain ⟨other, otherMember, same, rfl⟩ := (oldHolds _ _).mp inOld
    exact modifiedItem_eq_none_iff.mpr
      (alike entry member other otherMember (Value.str.inj same).symm)

/-- The items with the same ids, those of one id in the relation. -/
structure Paired (idOf : Entry → String) (same : Entry → Entry → Prop)
    (new old : List Entry) : Prop where
  kept : ∀ entry ∈ new, ∃ other ∈ old, idOf other = idOf entry
  known : ∀ other ∈ old, ∃ entry ∈ new, idOf entry = idOf other
  alike : ∀ entry ∈ new, ∀ other ∈ old, idOf other = idOf entry → same entry other

theorem compareItems_unchanged (labelKey : Option String)
    (reads : ∀ entry, (toJSON entry).read "id" = .str (idOf entry)) {news olds : List Entry}
    (newsNamed : ∀ entry ∈ news, idOf entry ≠ "") (newsDistinct : (news.map idOf).Nodup)
    (oldsNamed : ∀ entry ∈ olds, idOf entry ≠ "") (oldsDistinct : (olds.map idOf).Nodup) :
    ∃ compared, compareItems labelKey (some (news.map toJSON)) (some (olds.map toJSON)) =
        .ok compared ∧
      (compared.isEmpty = true ↔
        Paired idOf (fun entry other => Alike (toJSON entry) (toJSON other)) news olds) := by
  obtain ⟨newMap, newBuilt, newHolds⟩ := itemMap_mapOf reads newsNamed newsDistinct
  obtain ⟨oldMap, oldBuilt, oldHolds⟩ := itemMap_mapOf reads oldsNamed oldsDistinct
  simp only [compareItems, Option.getD_some, newBuilt, oldBuilt, bind, Except.bind, pure,
    Except.pure, Except.ok.injEq]
  refine ⟨_, rfl, ?_⟩
  simp only [ItemComparison.isEmpty, Bool.and_eq_true, List.isEmpty_iff,
    newHolds.onlyIn_eq_nil_iff oldHolds, oldHolds.onlyIn_eq_nil_iff newHolds,
    newHolds.modifiedIn_eq_nil_iff oldHolds]
  constructor
  · rintro ⟨⟨kept, known⟩, alike⟩
    exact ⟨kept, known, alike⟩
  · rintro ⟨kept, known, alike⟩
    exact ⟨⟨kept, known⟩, alike⟩

end Identified

/-!
## Snapshots of the editor
-/

theorem NodeJson.read_toJSON (node : NodeJson) (key : String) : node.toJSON.read key =
    if key = "id" then .str node.id else if key = "type" then node.type
    else if key = "label" then node.label else if key = "position" then node.position
    else if key = "config" then node.config else if key = "meta" then node.metaFields
    else .none := by
  simp only [Item.read, toJSON, OrderedMap.get?, OrderedMap.lookup_cons_eq,
    List.lookup_nil]
  split_ifs <;> rfl

theorem ConnectionJson.read_toJSON (connection : ConnectionJson) (key : String) :
    connection.toJSON.read key =
    if key = "id" then .str connection.id else if key = "source" then connection.source
    else if key = "sourceHandle" then connection.sourceHandle
    else if key = "target" then connection.target
    else if key = "targetHandle" then connection.targetHandle
    else if key = "meta" then connection.metaFields else .none := by
  simp only [Item.read, toJSON, OrderedMap.get?, OrderedMap.lookup_cons_eq,
    List.lookup_nil]
  split_ifs <;> rfl

/-- Nodes that are equal once their positions are ignored. -/
structure NodeJson.Same (left right : NodeJson) : Prop where
  id : right.id = left.id
  type : left.type.Equal right.type
  label : left.label.Equal right.label
  config : left.config.Equal right.config
  metaFields : left.metaFields.Equal right.metaFields

structure ConnectionJson.Same (left right : ConnectionJson) : Prop where
  id : right.id = left.id
  source : left.source.Equal right.source
  sourceHandle : left.sourceHandle.Equal right.sourceHandle
  target : left.target.Equal right.target
  targetHandle : left.targetHandle.Equal right.targetHandle
  metaFields : left.metaFields.Equal right.metaFields

theorem NodeJson.alike_iff {left right : NodeJson} (sameId : right.id = left.id) :
    Alike left.toJSON right.toJSON ↔ left.Same right ∧ left.position.Equal right.position := by
  constructor
  · intro alike
    have reads := fun key counts => alike key counts
    simp only [NodeJson.read_toJSON] at reads
    exact ⟨⟨sameId, by simpa using reads "type" (by decide),
      by simpa using reads "label" (by decide), by simpa using reads "config" (by decide), by simpa using reads "meta" (by decide)⟩,
      by simpa using reads "position" (by decide)⟩
  · rintro ⟨same, position⟩ key _
    rw [read_toJSON, read_toJSON, sameId]
    split_ifs
    · exact .refl _
    · exact same.type
    · exact same.label
    · exact position
    · exact same.config
    · exact same.metaFields
    · exact .refl _

theorem ConnectionJson.alike_iff {left right : ConnectionJson} (sameId : right.id = left.id) :
    Alike left.toJSON right.toJSON ↔ left.Same right := by
  constructor
  · intro alike
    have reads := fun key counts => alike key counts
    simp only [ConnectionJson.read_toJSON] at reads
    exact ⟨sameId, by simpa using reads "source" (by decide),
      by simpa using reads "sourceHandle" (by decide), by simpa using reads "target" (by decide),
      by simpa using reads "targetHandle" (by decide), by simpa using reads "meta" (by decide)⟩
  · intro same key _
    rw [read_toJSON, read_toJSON, sameId]
    split_ifs
    · exact .refl _
    · exact same.source
    · exact same.sourceHandle
    · exact same.target
    · exact same.targetHandle
    · exact same.metaFields
    · exact .refl _

namespace EditorSnapshot

/-- The same ids, with equal nodes and connections per id, positions ignored. -/
structure SameItems (new old : EditorSnapshot) : Prop where
  nodes : Paired NodeJson.id NodeJson.Same new.nodes old.nodes
  connections : Paired ConnectionJson.id ConnectionJson.Same new.connections old.connections

/-- Nothing differs but the positions of nodes. -/
structure Same (new old : EditorSnapshot) : Prop extends SameItems new old where
  metadata : SameEntries new.metadata old.metadata

/-- Nothing differs but the positions of nodes, and metadata keys that have no value in one
snapshot and are missing in the other. -/
structure SameBesides (new old : EditorSnapshot) : Prop extends SameItems new old where
  metadata : ∀ key, (new.metadata.read key).Equal (old.metadata.read key)

/-- The nodes of one id are at one position. -/
def SamePositions (new old : EditorSnapshot) : Prop :=
  ∀ node ∈ new.nodes, ∀ other ∈ old.nodes, other.id = node.id → node.position.Equal other.position

/-- The comparison reports no change. -/
def Unchanged (str : Value → String) (new old : EditorSnapshot) : Prop :=
  ∃ comparison, generateWorkflowComparison str new.content old.content = .ok comparison ∧
    comparison.nodes.isEmpty = true ∧ comparison.connections.isEmpty = true ∧
    comparison.metadata = []

theorem unchanged_iff_sameBesides (str : Value → String) (new old : EditorSnapshot) :
    Unchanged str new old ↔ SameBesides new old ∧ SamePositions new old := by
  have nodeIds : ∀ node : NodeJson, node.toJSON.read "id" = .str node.id := fun node => by
    rw [NodeJson.read_toJSON, if_pos rfl]
  have connectionIds : ∀ connection : ConnectionJson,
      connection.toJSON.read "id" = .str connection.id := fun connection => by
    rw [ConnectionJson.read_toJSON, if_pos rfl]
  obtain ⟨nodes, nodesCompared, nodesEmpty⟩ := compareItems_unchanged (some "label") nodeIds
    new.nodesNamed new.nodesDistinct old.nodesNamed old.nodesDistinct
  obtain ⟨connections, connectionsCompared, connectionsEmpty⟩ := compareItems_unchanged none
    connectionIds new.connectionsNamed new.connectionsDistinct old.connectionsNamed
    old.connectionsDistinct
  simp only [Unchanged, generateWorkflowComparison, content, nodesCompared, connectionsCompared,
    bind, Except.bind, pure, Except.pure, Except.ok.injEq, exists_eq_left', nodesEmpty,
    connectionsEmpty, compareDicts_eq_nil_iff, Option.getD_some]
  constructor
  · rintro ⟨sameNodes, sameConnections, sameMetadata⟩
    have alike := fun node member other otherMember sameId => (NodeJson.alike_iff sameId).mp
      (sameNodes.alike node member other otherMember sameId)
    refine ⟨⟨⟨⟨sameNodes.kept, sameNodes.known, ?_⟩,
      sameConnections.kept, sameConnections.known, ?_⟩, sameMetadata⟩, ?_⟩
    · exact fun node member other otherMember sameId =>
        (alike node member other otherMember sameId).1
    · exact fun connection member other otherMember sameId => (ConnectionJson.alike_iff sameId).mp
        (sameConnections.alike connection member other otherMember sameId)
    · exact fun node member other otherMember sameId =>
        (alike node member other otherMember sameId).2
  · rintro ⟨same, positions⟩
    refine ⟨⟨same.nodes.kept, same.nodes.known, ?_⟩,
      ⟨same.connections.kept, same.connections.known, ?_⟩, same.metadata⟩
    · exact fun node member other otherMember sameId => (NodeJson.alike_iff sameId).mpr
        ⟨same.nodes.alike node member other otherMember sameId,
          positions node member other otherMember sameId⟩
    · exact fun connection member other otherMember sameId => (ConnectionJson.alike_iff sameId).mpr
        (same.connections.alike connection member other otherMember sameId)

theorem same_iff_sameBesides (new old : EditorSnapshot) :
    Same new old ↔ SameBesides new old ∧ SameEntries new.metadata old.metadata := by
  constructor
  · intro same
    exact ⟨⟨same.toSameItems, same.metadata.reads⟩, same.metadata⟩
  · rintro ⟨besides, metadata⟩
    exact ⟨besides.toSameItems, metadata⟩

theorem unchanged_iff_same (str : Value → String) (new old : EditorSnapshot) :
    (Unchanged str new old ↔ Same new old) ↔
      (SameBesides new old →
        (SamePositions new old ↔ ∀ key, key ∈ new.metadata.keys ↔ key ∈ old.metadata.keys)) := by
  have metadata : ∀ besides : SameBesides new old, SameEntries new.metadata old.metadata ↔
      ∀ key, key ∈ new.metadata.keys ↔ key ∈ old.metadata.keys := fun besides =>
    ⟨SameEntries.keys, fun keys => ⟨keys, besides.metadata⟩⟩
  rw [unchanged_iff_sameBesides, same_iff_sameBesides]
  constructor
  · intro agree besides
    rw [← metadata besides]
    exact ⟨fun positions => (agree.mp ⟨besides, positions⟩).2,
      fun entries => (agree.mpr ⟨besides, entries⟩).2⟩
  · intro agree
    constructor
    · rintro ⟨besides, positions⟩
      exact ⟨besides, (metadata besides).mpr ((agree besides).mp positions)⟩
    · rintro ⟨besides, entries⟩
      exact ⟨besides, (agree besides).mpr ((metadata besides).mp entries)⟩

/-- A snapshot with one node, at the given place. -/
def oneNodeAt (x : Int) : EditorSnapshot where
  nodes := [{
    id := "n_1"
    type := .str "set_data"
    label := .str "Set Data"
    position := .dict [(.str "x", .int x), (.str "y", .int 40)]
    config := .dict []
    metaFields := .dict [] }]
  connections := []
  metadata := OrderedMap.empty
  nodesNamed := by simp
  nodesDistinct := by simp
  connectionsNamed := by simp
  connectionsDistinct := by simp

/-- A node that was only moved is reported as modified. -/
theorem moved_node_is_reported :
    ¬ (Unchanged (fun _ => "") (oneNodeAt 100) (oneNodeAt 200) ↔
      Same (oneNodeAt 100) (oneNodeAt 200)) := by
  intro agree
  have same : Same (oneNodeAt 100) (oneNodeAt 200) := by
    refine ⟨⟨⟨?_, ?_, ?_⟩, ⟨?_, ?_, ?_⟩⟩, fun _ => Iff.rfl, fun _ => .refl _⟩
    · simp [oneNodeAt]
    · simp [oneNodeAt]
    · simp only [oneNodeAt, List.mem_singleton]
      rintro _ rfl _ rfl _
      exact ⟨rfl, .refl _, .refl _, .refl _, .refl _⟩
    · simp [oneNodeAt]
    · simp [oneNodeAt]
    · simp [oneNodeAt]
  obtain ⟨_, positions⟩ := (unchanged_iff_sameBesides _ _ _).mp (agree.mpr same)
  have still := positions _ List.mem_cons_self _ List.mem_cons_self rfl
  revert still
  decide

end EditorSnapshot

end WorkflowStudio.Workflow.Comparison

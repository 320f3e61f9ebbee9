import WorkflowStudio.Connector.MergeAtProperties

/-! The configuration of a connector request among the objects: it holds what the values merge to,
and of the objects of the node only the lists that the node overrides. -/

set_option autoImplicit false

namespace WorkflowStudio.Connector

open Lib Heap

/-- The method of an endpoint is a selection: a text, or `False`. -/
def Selected (bridge : Option Bridge) : Prop :=
  ∀ record, bridge = some record → ∀ endpoint, record.endpoint = some endpoint →
    isLeaf endpoint.method = true

/-!
## Distinct keys
-/

section Preset

variable {python : Python}

theorem distinct_setField {fields : Fields} (distinct : Distinct (.dict fields)) (key : String)
    {value : Value} (new : Distinct value) : Distinct (.dict (setField fields key value)) := by
  obtain ⟨keys, each⟩ := distinct.fields
  have nodup := OrderedMap.nodup_setEntries (.str key) value fields keys
  have found {field : Value × Value} (member : field ∈ setField fields key value) :
      (if field.1 = .str key then some value else fields.lookup field.1) = some field.2 := by
    rw [← OrderedMap.lookup_setEntries]
    exact (OrderedMap.lookup_eq_some_iff field.1 field.2 _ nodup).mpr member
  refine .dict nodup (fun field member => ?_) fun field member => ?_
  · have here := found member
    split at here
    · next same =>
      rw [same]
      rfl
    · exact (each _ (OrderedMap.mem_of_lookup here)).1
  · have here := found member
    split at here
    · exact Option.some.inj here ▸ new
    · exact (each _ (OrderedMap.mem_of_lookup here)).2

theorem distinct_row {key value : Value} (distinctKey : Distinct key)
    (distinct : Distinct value) :
    Distinct (.dict [(.str "key", key), (.str "value", value), (.str "enabled", .bool true)]) := by
  have nodup : [Value.str "key", .str "value", .str "enabled"].Nodup := by decide
  exact .dict nodup
    (List.forall_mem_cons.mpr ⟨rfl, List.forall_mem_cons.mpr ⟨rfl, List.forall_mem_singleton.mpr rfl⟩⟩)
    (List.forall_mem_cons.mpr ⟨distinctKey, List.forall_mem_cons.mpr
      ⟨distinct, List.forall_mem_singleton.mpr (.leaf rfl)⟩⟩)

theorem distinct_rows {fields : Fields}
    (each : ∀ field ∈ fields, isLeaf field.1 = true ∧ Distinct field.2) :
    ∀ row ∈ authRows fields, Distinct row := by
  intro row member
  obtain ⟨field, among, rfl⟩ := List.mem_map.mp member
  exact distinct_row (.leaf (each field among).1) (each field among).2

theorem distinct_setTemplate {fields set : Fields} (distinct : Distinct (.dict fields))
    {key : String} {template : Value} (parsed : Distinct template)
    (here : setTemplate fields key template = some set) : Distinct (.dict set) := by
  unfold setTemplate at here
  split at here
  · split at here
    · cases here
    · next rows found =>
      obtain rfl := Option.some.inj here
      refine distinct_setField distinct key ?_
      unfold templateRows at found
      split at found
      · obtain rfl := Option.some.inj found
        exact .list (distinct_rows parsed.fields.2)
      · cases found
  · exact Option.some.inj here ▸ distinct

variable (reads : ∀ text value, python.loads text = some value → Distinct value)

include reads

theorem distinct_template (template : String) : Distinct (getParsedTemplate python template) := by
  unfold getParsedTemplate
  split
  · exact .leaf rfl
  · cases parsed : python.loads template with
    | none => exact .leaf rfl
    | some value => exact reads template value parsed

theorem distinct_backendOf (bridge : Option Bridge) : Distinct (backendOf python bridge) := by
  have empty : Distinct (.dict []) :=
    .dict List.nodup_nil (List.forall_mem_nil _) (List.forall_mem_nil _)
  cases bridge with
  | none => exact empty
  | some bridge =>
      rw [backendOf, Bridge.getBackendConfig]
      split
      · exact empty
      · cases parsed : python.loads bridge.backendConfigJson with
        | none => exact empty
        | some value => exact reads _ value parsed

theorem distinct_endpointPreset {endpoint : Endpoint} (selected : isLeaf endpoint.method = true)
    {connector : Option WorkflowConnector} {preset : Fields}
    (here : endpointPreset python endpoint connector = some preset) :
    Distinct (.dict preset) := by
  have empty : Distinct (.dict []) :=
    .dict List.nodup_nil (List.forall_mem_nil _) (List.forall_mem_nil _)
  have method : Distinct (.dict (setField [] "method" endpoint.method)) :=
    distinct_setField empty "method" (.leaf selected)
  unfold endpointPreset at here
  dsimp only at here
  generalize setField [] "method" endpoint.method = fields at method here
  have url : Distinct (.dict (if endpoint.getEffectiveUrl connector ≠ "" then
      setField fields "url" (.str (endpoint.getEffectiveUrl connector)) else fields)) := by
    split
    · exact distinct_setField method "url" (.leaf rfl)
    · exact method
  generalize (if endpoint.getEffectiveUrl connector ≠ "" then
    setField fields "url" (.str (endpoint.getEffectiveUrl connector)) else fields) = fields at url here
  have timeout : Distinct (.dict (if endpoint.timeoutSeconds ≠ 0 then
      setField fields "timeout" (.int endpoint.timeoutSeconds) else fields)) := by
    split
    · exact distinct_setField url "timeout" (.leaf rfl)
    · exact url
  generalize (if endpoint.timeoutSeconds ≠ 0 then
    setField fields "timeout" (.int endpoint.timeoutSeconds) else fields) = fields at timeout here
  split at here
  · cases here
  · next headers set =>
    have headers := distinct_setTemplate timeout (distinct_template reads _) set
    split at here
    · cases here
    · next queries set =>
      have queries := distinct_setTemplate headers (distinct_template reads _) set
      obtain rfl := Option.some.inj here
      split
      · refine distinct_setField queries "body_config" (.dict ?_ ?_ ?_)
        · exact (by decide : [Value.str "content_type", .str "body"].Nodup)
        · exact List.forall_mem_cons.mpr ⟨rfl, List.forall_mem_singleton.mpr rfl⟩
        · exact List.forall_mem_cons.mpr ⟨.leaf rfl, List.forall_mem_singleton.mpr (.leaf rfl)⟩
      · exact queries

theorem distinct_presetOf {bridge : Option Bridge} (selected : Selected bridge) {preset : Fields}
    (here : presetOf python bridge = some preset) : Distinct (.dict preset) := by
  have empty : Distinct (.dict []) :=
    .dict List.nodup_nil (List.forall_mem_nil _) (List.forall_mem_nil _)
  unfold presetOf at here
  split at here
  · exact Option.some.inj here ▸ empty
  · next record =>
    split at here
    · exact Option.some.inj here ▸ empty
    · next endpoint found =>
      exact distinct_endpointPreset reads (selected record rfl endpoint found) here

end Preset

theorem bridgeConfig_eq (python : Python) (bridge : Option Bridge) :
    bridgeConfig python bridge =
      match presetOf python bridge, backendOf python bridge with
      | some preset, .dict backend => some (deepMerge preset backend)
      | _, _ => none := by
  cases bridge with
  | none => rfl
  | some bridge => rfl

/-!
## The configuration of the request
-/

section Config

variable {python : Python} {heap : Heap} {root : Address} {nodeConfig : Fields}
  {entries : Entries} {part : Value → Set Address}

theorem lookup_filter_keys {Item : Type} {keep : Value → Bool} {key : Value}
    (kept : keep key = true) (items : List (Value × Item)) :
    (items.filter fun item => keep item.1).lookup key = items.lookup key := by
  induction items with
  | nil => rfl
  | cons item items ih =>
      obtain ⟨name, value⟩ := item
      rw [List.filter_cons, OrderedMap.lookup_cons_eq]
      by_cases same : key = name
      · subst same
        rw [if_pos kept, OrderedMap.lookup_cons_eq, if_pos rfl, if_pos rfl]
      · rw [if_neg same]
        split
        · rw [OrderedMap.lookup_cons_eq, if_neg same, ih]
        · exact ih

theorem snapshotOverridesAt_eq (dict : DictHeld heap root nodeConfig entries part)
    (bridge : Option Bridge) :
    snapshotOverridesAt python heap (.at root) bridge = entries.filter fun entry =>
      decide (entry.1 ∉ relationKeys.map Value.str) &&
        shouldApplySnapshotOverride python entry.1 (heap.read entry.2) bridge := by
  rw [snapshotOverridesAt, dictAt, dict.here]

theorem overrides_held (dict : DictHeld heap root nodeConfig entries part)
    (bounded : ∀ key, part key ⊆ Set.Iio heap.length) (bridge : Option Bridge) :
    HeldFields heap (buildSnapshotOverrides python nodeConfig bridge)
      (snapshotOverridesAt python heap (.at root) bridge) part := by
  rw [snapshotOverridesAt_eq dict]
  refine dict.held.filter fun key value ref held => ?_
  rw [held.read (bounded key)]

theorem lookup_overrides (dict : DictHeld heap root nodeConfig entries part)
    (bridge : Option Bridge) {key : Value} {ref : Ref}
    (found : (snapshotOverridesAt python heap (.at root) bridge).lookup key = some ref) :
    entries.lookup key = some ref := by
  rw [snapshotOverridesAt_eq dict] at found
  refine (OrderedMap.lookup_eq_some_iff key ref entries ?_).mpr
    (List.mem_of_mem_filter (OrderedMap.mem_of_lookup found))
  rw [dict.held.keys]
  exact dict.held.nodup

/-- The relations are taken out of the configuration. -/
theorem DictHeld.changeAt (dict : DictHeld heap root nodeConfig entries part)
    (keep : Value → Bool) :
    DictHeld (heap.changeAt root fun entries => entries.filter fun entry => keep entry.1) root
      (nodeConfig.filter fun field => keep field.1) (entries.filter fun entry => keep entry.1)
      part ∧
    ∀ address, address ≠ root → (heap.changeAt root fun entries =>
      entries.filter fun entry => keep entry.1)[address]? = heap[address]? := by
  have changed : (heap.changeAt root fun entries => entries.filter fun entry => keep entry.1) =
      heap.set root (.dict (entries.filter fun entry => keep entry.1)) := by
    rw [Heap.changeAt, dict.here]
  rw [changed]
  have elsewhere {address : Address} (different : address ≠ root) :
      (heap.set root (.dict (entries.filter fun entry => keep entry.1)))[address]? =
        heap[address]? := List.getElem?_set_ne different.symm
  refine ⟨⟨List.getElem?_set_self dict.bound, dict.outside, ?_⟩, fun _ => elsewhere⟩
  refine HeldFields.frame (dict.held.filter fun _ _ _ _ => rfl) fun key _ address member => ?_
  exact elsewhere fun same => dict.outside key (same ▸ member)

/-- The configuration of the request among the objects. Only lists that the node overrides are
objects of the node. -/
structure ConfigBuilt (heap other : Heap) (config : Address) (overrides : Fields)
    (snapshot : Entries) (nodePart : Value → Set Address) (fields : Fields) (entries : Entries)
    (part : Value → Set Address) : Prop where
  dict : DictHeld other config fields entries part
  fresh : heap.length ≤ config
  bounded : ∀ key, part key ⊆ Set.Iio other.length
  reach : ∀ key, part key ⊆ Set.Ici heap.length ∪ nodePart key
  own : ∀ key ∉ overrides.map Prod.fst, part key ⊆ Set.Ici heap.length
  shared : ∀ key ∉ relationKeys.map Value.str, ∀ items,
    overrides.lookup key = some (.list items) → entries.lookup key = snapshot.lookup key
  longer : heap.length ≤ other.length
  frame : ∀ address < heap.length, other[address]? = heap[address]?

/-- The first two layers are objects of their own. -/
theorem layers_built {preset backend : Fields} (distinctPreset : Distinct (.dict preset))
    (distinctBackend : Distinct (.dict backend)) {first second : Ref × Heap}
    (builtFirst : build (.dict preset) heap = first)
    (builtSecond : build (.dict backend) first.2 = second) :
    ∃ config fields, second.2.dictAt first.1 = some config ∧
      second.2.dictAt second.1 = some fields ∧
      ∃ entries part, ConfigBuilt heap
        (deepMergeAt (second.2.length + 1) config.1 fields.2 second.2) config.1 [] []
        (fun _ => ∅) (deepMerge preset backend) entries part := by
  have startsFirst := (built_build distinctPreset heap).1
  have heldFirst := (built_build distinctPreset heap).2
  have startsSecond := (built_build distinctBackend first.2).1
  have heldSecond := (built_build distinctBackend first.2).2
  rw [builtFirst] at startsFirst heldFirst
  rw [builtSecond] at startsSecond heldSecond
  have longerFirst := startsFirst.length_le
  have longerSecond := startsSecond.length_le
  have heldFirst' := heldFirst.extended (fun _ member => member.2) startsSecond
  rcases heldFirst'.dictAt with ⟨_, config, entries, part, same, foundConfig, -, hereConfig, member,
    inside, heldConfig⟩ | ⟨noDict, -⟩
  swap
  · exact absurd rfl (noDict preset)
  cases same
  rcases heldSecond.dictAt with ⟨_, source, others, rest, same, foundFields, -, -, -, within,
    heldFields⟩ | ⟨noDict, -⟩
  swap
  · exact absurd rfl (noDict backend)
  cases same
  refine ⟨(config, entries), (source, others), foundConfig, foundFields, ?_⟩
  have dict : DictHeld second.2 config preset entries part :=
    ⟨hereConfig, fun key own => (inside key own).2 rfl, heldConfig⟩
  have small : (Set.Ico first.2.length second.2.length).ncard < second.2.length + 1 := by
    rw [Set.ncard_Ico_nat]
    omega
  have merged := merges _ dict heldFields (fun key => (within key).trans Set.sdiff_subset)
    (Set.finite_Ico _ _) small
    (fun key other _ => Set.Ico_disjoint_Ico_same.mono ((inside key).trans Set.sdiff_subset)
      ((within other).trans Set.sdiff_subset))
    fun other _ inside => Nat.not_lt_of_le (within other inside).1.1 member.2
  obtain ⟨entries', parts, dict', parts', -, -⟩ := merged.dict
  have range (key : Value) : parts key ⊆ Set.Ico heap.length second.2.length := by
    refine (parts' key).trans (Set.union_subset ?_ ?_)
    · exact (inside key).trans (Set.sdiff_subset.trans (Set.Ico_subset_Ico_right longerSecond))
    · exact (within key).trans (Set.sdiff_subset.trans (Set.Ico_subset_Ico_left longerFirst))
  refine ⟨entries', parts, dict', member.1, fun key place own => ?_,
    fun key place own => .inl (range key own).1, fun key _ place own => (range key own).1, fun key _ items found => ?_, ?_,
    fun place old => ?_⟩
  · rw [Set.mem_Iio, merged.length]
    exact (range key own).2
  · cases found
  · rw [merged.length]
    exact longerFirst.trans longerSecond
  · have outside : ∀ key ∈ backend.map Prod.fst, place ∉ part key := fun key _ own =>
      Nat.not_lt_of_le (inside key own).1.1 old
    have different : place ≠ config := by
      rintro rfl
      exact Nat.not_lt_of_le member.1 old
    rw [merged.frame place different outside, prefix_getElem? startsSecond (old.trans_le longerFirst),
      prefix_getElem? startsFirst old]

/-- The configuration of the node is merged into the first two layers. -/
theorem ConfigBuilt.overridden (python : Python) {middle : Heap} {config : Address} {fields : Fields}
    {base : Entries} {own : Value → Set Address}
    (built : ConfigBuilt heap middle config [] [] (fun _ => ∅) fields base own)
    (dict : DictHeld heap root nodeConfig entries part)
    (bounded : ∀ key, part key ⊆ Set.Iio heap.length) (bridge : Option Bridge) :
    ∃ entries' parts, ConfigBuilt heap
      ((deepMergeAt (middle.length + 1) config
        (snapshotOverridesAt python middle (.at root) bridge) middle).changeAt config fun entries =>
          entries.filter fun entry => entry.1 ∉ relationKeys.map Value.str)
      config (buildSnapshotOverrides python nodeConfig bridge) entries part
      ((deepMerge fields (buildSnapshotOverrides python nodeConfig bridge)).filter
        fun field => field.1 ∉ relationKeys.map Value.str) entries' parts := by
  have kept := dict.frame bounded built.frame
  have boundedMiddle (key : Value) : part key ⊆ Set.Iio middle.length := fun _ member =>
    (bounded key member).trans_le built.longer
  have overrides := @overrides_held python _ _ _ _ _ kept boundedMiddle bridge
  have fresh (key : Value) : own key ⊆ Set.Ici heap.length := built.own key List.not_mem_nil
  have small : (Set.Iio heap.length).ncard < middle.length + 1 := by
    rw [Set.ncard_Iio_nat]
    exact Nat.lt_succ_of_le built.longer
  have merged := merges _ built.dict overrides bounded (Set.finite_Iio _) small
    (fun key other _ => Set.disjoint_left.mpr fun place inside within =>
      Nat.not_lt_of_le (fresh key inside) (bounded other within))
    fun other _ inside => Nat.not_lt_of_le built.fresh (bounded other inside)
  obtain ⟨entries', parts, dict', parts', keeps, lists⟩ := merged.dict
  obtain ⟨popped, elsewhere⟩ :=
    dict'.changeAt fun key => decide (key ∉ relationKeys.map Value.str)
  have length : ((deepMergeAt (middle.length + 1) config
      (snapshotOverridesAt python middle (.at root) bridge) middle).changeAt config fun entries =>
        entries.filter fun entry => entry.1 ∉ relationKeys.map Value.str).length =
      middle.length := (length_changeAt _ _ _).trans merged.length
  refine ⟨_, _, popped, built.fresh, fun key place member => ?_,
    fun key => (parts' key).trans (Set.union_subset_union_left _ (fresh key)), fun key absent => ?_,
    fun key relation items found => ?_, ?_, fun place old => ?_⟩
  · rw [Set.mem_Iio, length]
    exact (parts' key member).elim (fun inside => built.bounded key inside)
      fun within => boundedMiddle key within
  · rw [(keeps key absent).1]
    exact fresh key
  · have plain := @lookup_filter_keys _ (fun key => decide (key ∉ relationKeys.map Value.str)) key
      (decide_eq_true relation) entries'
    refine plain.trans ((lists key items found).trans ?_)
    rcases overrides.lookup key with ⟨none, -⟩ | ⟨value, ref, some, someRef, -⟩
    · rw [none] at found
      cases found
    · rw [someRef, lookup_overrides kept bridge someRef]
  · rw [length]
    exact built.longer
  · have different : place ≠ config := fun same => Nat.not_lt_of_le built.fresh (same ▸ old)
    rw [elsewhere place different, merged.frame place different fun key _ inside =>
      Nat.not_lt_of_le (fresh key inside) old]
    exact built.frame place old

variable (reads : ∀ text value, python.loads text = some value → Distinct value)

include reads

theorem effectiveConfigAt_some (dict : DictHeld heap root nodeConfig entries part)
    (bounded : ∀ key, part key ⊆ Set.Iio heap.length) {bridge : Option Bridge}
    (selected : Selected bridge) {fields : Fields}
    (here : buildEffectiveConfig python nodeConfig bridge = some fields) :
    ∃ other config entries' parts,
      effectiveConfigAt python heap (.at root) bridge = (other, some config) ∧
      ConfigBuilt heap other config (buildSnapshotOverrides python nodeConfig bridge) entries part
        fields entries' parts := by
  unfold buildEffectiveConfig at here
  split at here
  · cases here
  next effective layers =>
  obtain rfl := Option.some.inj here
  rw [bridgeConfig_eq] at layers
  split at layers
  swap
  · cases layers
  next preset backend foundPreset foundBackend =>
  obtain rfl := Option.some.inj layers
  have distinctBackend := distinct_backendOf reads bridge
  rw [foundBackend] at distinctBackend
  obtain ⟨⟨config, old⟩, ⟨source, fields⟩, foundConfig, foundFields, base, own, built⟩ :=
    @layers_built heap _ _ (distinct_presetOf reads selected foundPreset) distinctBackend _ _ rfl rfl
  obtain ⟨entries', parts, built'⟩ := built.overridden python dict bounded bridge
  refine ⟨_, config, entries', parts, ?_, built'⟩
  rw [effectiveConfigAt, foundPreset]
  simp only [foundBackend, foundConfig, foundFields]

theorem effectiveConfigAt_none (nodeConfig : Fields) (snapshot : Ref) {bridge : Option Bridge}
    (selected : Selected bridge)
    (here : buildEffectiveConfig python nodeConfig bridge = none) :
    ∃ other, effectiveConfigAt python heap snapshot bridge = (other, none) ∧ heap <+: other := by
  have layers : bridgeConfig python bridge = none := by
    unfold buildEffectiveConfig at here
    split at here
    · assumption
    · cases here
  rw [bridgeConfig_eq] at layers
  cases foundPreset : presetOf python bridge with
  | none => exact ⟨heap, by rw [effectiveConfigAt, foundPreset], List.prefix_rfl⟩
  | some preset =>
      have first := built_build (distinct_presetOf reads selected foundPreset) heap
      have second := built_build (distinct_backendOf reads bridge) (build (.dict preset) heap).2
      refine ⟨_, ?_, first.1.trans second.1⟩
      have noDict : ∀ backend, backendOf python bridge ≠ .dict backend := by
        rintro backend found
        rw [foundPreset, found] at layers
        cases layers
      rcases second.2.dictAt with ⟨backend, _, _, _, found, -⟩ | ⟨-, none⟩
      · exact absurd found (noDict backend)
      · rw [effectiveConfigAt, foundPreset]
        dsimp only
        rw [none]
        cases (build (backendOf python bridge) (build (.dict preset) heap).2).2.dictAt
          (build (.dict preset) heap).1 <;> rfl

end Config

end WorkflowStudio.Connector

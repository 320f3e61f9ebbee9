import WorkflowStudio.Connector.ConfigAtProperties
import WorkflowStudio.Connector.EffectiveConfigProperties
import WorkflowStudio.Connector.RowsAtProperties

/-! Any number of executions of a connector request leave the configuration of the node as it is,
and hand on the same configuration each time, exactly when no rows of the authentication are added
to a list of the node. -/

set_option autoImplicit false

namespace WorkflowStudio.Connector

open Lib Heap

/-- The rows of the authentication are added to a list of the node itself. -/
def Extends (key : String) (rows nodeConfig : Fields) : Prop :=
  rows ≠ [] ∧ ∃ own, getField nodeConfig key = some own ∧ hasEnabledPairs own = true

/-- The headers of the first two layers are something to which no rows can be added. -/
def HeadersRefuse (python : Python) (bridge : Option Bridge) (rows : Fields) : Prop :=
  rows ≠ [] ∧ ∃ layers headers, bridgeConfig python bridge = some layers ∧
    getField layers "headers" = some headers ∧ headers.truthy = true ∧
    ∀ items, headers ≠ .list items

/-- No list of the node grows: the layers cannot be read, or no rows are added to the lists of the
node, where the parameters are not reached if the headers are refused. -/
def Untouched (python : Python) (auth : Fields × Fields) (bridge : Option Bridge)
    (nodeConfig : Fields) : Prop :=
  bridgeConfig python bridge = none ∨
    ¬ Extends "headers" auth.1 nodeConfig ∧
      (Extends "query_params" auth.2 nodeConfig → HeadersRefuse python bridge auth.1)

/-- The configuration of the request on the values. -/
def requestFields (python : Python) (auth : Fields × Fields) (bridge : Option Bridge)
    (nodeConfig : Fields) : Option Fields :=
  ((buildEffectiveConfig python nodeConfig bridge).bind (addRows "headers" auth.1)).bind
    (addRows "query_params" auth.2)

/-!
## Authentication
-/

section Auth

variable {python : Expression.Python}

def PlainFields (fields : Fields) : Prop :=
  ∀ field ∈ fields, isLeaf field.1 = true ∧ Distinct field.2

theorem distinct_replaceSlot {text result : Value} {secret : String × Value}
    (here : replaceSlot text secret = some result) : Distinct result := by
  unfold replaceSlot at here
  split at here
  · exact Option.some.inj here ▸ .leaf rfl
  · cases here

theorem distinct_foldlM {step : Value → String × Value → Option Value}
    (steps : ∀ text secret result, step text secret = some result → Distinct result)
    {secrets : Secrets} {text result : Value} (distinct : Distinct text)
    (here : secrets.foldlM step text = some result) : Distinct result := by
  induction secrets generalizing text with
  | nil => exact Option.some.inj here ▸ distinct
  | cons secret secrets ih =>
      rw [List.foldlM_cons] at here
      obtain ⟨next, first, rest⟩ := Option.bind_eq_some_iff.mp here
      exact ih (steps text secret next first) rest

theorem distinct_headerText (secrets : Secrets) (text result : Value) (distinct : Distinct text)
    (here : headerText secrets text = some result) : Distinct result :=
  distinct_foldlM (fun _ _ _ => distinct_replaceSlot) distinct here

theorem distinct_queryText (secrets : Secrets) (text result : Value) (distinct : Distinct text)
    (here : queryText python secrets text = some result) : Distinct result :=
  distinct_foldlM (fun _ _ _ => distinct_replaceSlot) distinct here

theorem plain_mapM {rendered : Value → Option Value}
    (distinct : ∀ value result, Distinct value → rendered value = some result → Distinct result)
    {fields results : Fields} (plain : PlainFields fields)
    (here : (fields.mapM fun field => (rendered field.2).map fun text => (field.1, text)) =
      some results) : PlainFields results := by
  induction fields generalizing results with
  | nil =>
      cases here
      exact List.forall_mem_nil _
  | cons field fields ih =>
      rw [List.mapM_cons] at here
      obtain ⟨first, found, rest⟩ := Option.bind_eq_some_iff.mp here
      obtain ⟨others, foundOthers, same⟩ := Option.bind_eq_some_iff.mp rest
      cases same
      obtain ⟨plainFirst, plainRest⟩ := List.forall_mem_cons.mp plain
      obtain ⟨value, rendering, rfl⟩ := Option.map_eq_some_iff.mp found
      exact List.forall_mem_cons.mpr
        ⟨⟨plainFirst.1, distinct _ _ plainFirst.2 rendering⟩, ih plainRest foundOthers⟩

theorem plain_template {rendered : Value → Option Value}
    (distinct : ∀ value result, Distinct value → rendered value = some result → Distinct result)
    {template : Value} (parsed : Distinct template) {results : Fields}
    (here : ((itemsOf template).bind fun fields =>
      fields.mapM fun field => (rendered field.2).map fun text => (field.1, text)) =
        some results) : PlainFields results := by
  obtain ⟨fields, items, mapped⟩ := Option.bind_eq_some_iff.mp here
  unfold itemsOf at items
  split at items
  · obtain rfl := Option.some.inj items
    exact plain_mapM distinct parsed.fields.2 mapped
  · cases items

theorem plain_bearerHeader (token : Value) : PlainFields (bearerHeader python token) := by
  rw [bearerHeader]
  split
  · exact List.forall_mem_singleton.mpr ⟨rfl, .leaf rfl⟩
  · exact List.forall_mem_nil _

theorem plain_authHeaders {base64 : String → String} {authType : AuthType} {secrets : Secrets}
    {template : Value} (parsed : Distinct template) {results : Fields}
    (here : authHeaders python base64 authType secrets template = some results) :
    PlainFields results := by
  have templated (here : templateHeaders secrets template = some results) :
      PlainFields results := plain_template (distinct_headerText secrets) parsed here
  cases authType with
  | none => exact Option.some.inj here ▸ List.forall_mem_nil _
  | bearer | oauth2ClientCredentials | oauth2RefreshToken =>
      exact Option.some.inj here ▸ plain_bearerHeader _
  | basic =>
      refine Option.some.inj here ▸ ?_
      split
      · exact List.forall_mem_singleton.mpr ⟨rfl, .leaf rfl⟩
      · exact List.forall_mem_nil _
  | apiKey | hmac | jwtAssertion | custom => exact templated here

theorem plain_authQueryParams {authType : AuthType} {secrets : Secrets} {template : Value}
    (parsed : Distinct template) {results : Fields}
    (here : authQueryParams python authType secrets template = some results) :
    PlainFields results := by
  unfold authQueryParams at here
  split at here
  · exact Option.some.inj here ▸ List.forall_mem_nil _
  · exact plain_template (distinct_queryText secrets) parsed here

variable (reads : ∀ text value, python.jsonLoads text = some value → Distinct value)

include reads

theorem distinct_parsedJson (text : String) : Distinct (parsedJson python text) := by
  have empty : Distinct (.dict []) :=
    .dict List.nodup_nil (List.forall_mem_nil _) (List.forall_mem_nil _)
  unfold parsedJson
  split
  · exact empty
  · cases parsed : python.jsonLoads text with
    | none => exact empty
    | some value => exact reads text value parsed

theorem plain_authOf (base64 : String → String) (broker : Value → Option Value)
    (bridge : Option Bridge) (profile : Option AuthProfile) :
    PlainFields (authOf python base64 broker bridge profile).1 ∧
      PlainFields (authOf python base64 broker bridge profile).2 := by
  have none : PlainFields [] := List.forall_mem_nil _
  unfold authOf resolveAuth
  split
  · exact ⟨none, none⟩
  split
  · exact ⟨none, none⟩
  next profile =>
  split
  · next headers queryParams foundHeaders foundParams =>
    constructor
    · unfold buildAuthHeaders at foundHeaders
      split at foundHeaders
      · exact Option.some.inj foundHeaders ▸ none
      · obtain ⟨refs, -, found⟩ := Option.bind_eq_some_iff.mp foundHeaders
        exact plain_authHeaders (distinct_parsedJson reads _) found
    · unfold buildAuthQueryParams at foundParams
      split at foundParams
      · exact Option.some.inj foundParams ▸ none
      · obtain ⟨refs, -, found⟩ := Option.bind_eq_some_iff.mp foundParams
        exact plain_authQueryParams (distinct_parsedJson reads _) found
  · exact ⟨none, none⟩

end Auth

/-!
## One execution
-/

section Execution

variable {python : Python} {heap : Heap} {root : Address} {nodeConfig : Fields}
  {entries : Entries} {part : Value → Set Address} {auth : Fields × Fields}
  {bridge : Option Bridge}

theorem keep_rows {key : String} (rows : key = "headers" ∨ key = "query_params") (value : Value) :
    (decide (Value.str key ∉ relationKeys.map Value.str) &&
      shouldApplySnapshotOverride python (.str key) value bridge) = hasEnabledPairs value := by
  rcases rows with rfl | rfl <;> rfl

theorem overrides_absent {key : String} (rows : key = "headers" ∨ key = "query_params")
    (distinct : (nodeConfig.map Prod.fst).Nodup)
    (none : ¬ ∃ own, getField nodeConfig key = some own ∧ hasEnabledPairs own = true) :
    .str key ∉ (buildSnapshotOverrides python nodeConfig bridge).map Prod.fst := by
  intro member
  obtain ⟨⟨name, own⟩, among, rfl⟩ := List.mem_map.mp member
  obtain ⟨inside, keep⟩ := List.mem_filter.mp among
  rw [keep_rows rows] at keep
  exact none ⟨own, (OrderedMap.lookup_eq_some_iff _ _ _ distinct).mpr inside, keep⟩

theorem overrides_rows {key : String} (rows : key = "headers" ∨ key = "query_params")
    (distinct : (nodeConfig.map Prod.fst).Nodup) {own : Value}
    (found : getField nodeConfig key = some own) (enabled : hasEnabledPairs own = true) :
    (buildSnapshotOverrides python nodeConfig bridge).lookup (.str key) = some own ∧
      ∃ items, own = .list items ∧ items ≠ [] := by
  have nodup : ((buildSnapshotOverrides python nodeConfig bridge).map Prod.fst).Nodup :=
    distinct.sublist (List.filter_sublist.map _)
  have member : (Value.str key, own) ∈ buildSnapshotOverrides python nodeConfig bridge :=
    List.mem_filter.mpr ⟨OrderedMap.mem_of_lookup found, (keep_rows rows own).trans enabled⟩
  refine ⟨(OrderedMap.lookup_eq_some_iff _ _ _ nodup).mpr member, ?_⟩
  unfold hasEnabledPairs at enabled
  split at enabled
  · next items =>
    refine ⟨items, rfl, ?_⟩
    rintro rfl
    cases enabled
  · cases enabled

theorem lookup_deepMerge_absent {base overrides : Fields} {key : Value}
    (absent : key ∉ overrides.map Prod.fst) :
    (deepMerge base overrides).lookup key = base.lookup key := by
  induction overrides generalizing base with
  | nil => rw [deepMerge]
  | cons field overrides ih =>
      rw [List.map_cons, List.mem_cons, not_or] at absent
      rw [deepMerge]
      split
      · exact ih absent.2
      · rw [ih absent.2, OrderedMap.lookup_setEntries, if_neg absent.1]

theorem lookup_deepMerge_list {base overrides : Fields} {key : Value} {items : List Value}
    (distinct : (overrides.map Prod.fst).Nodup)
    (found : overrides.lookup key = some (.list items)) :
    (deepMerge base overrides).lookup key = some (.list items) := by
  induction overrides generalizing base with
  | nil => cases found
  | cons field overrides ih =>
      obtain ⟨name, value⟩ := field
      obtain ⟨fresh, distinct⟩ := List.nodup_cons.mp distinct
      rw [OrderedMap.lookup_cons_eq] at found
      by_cases same : key = name
      · subst same
        rw [if_pos rfl] at found
        obtain rfl := Option.some.inj found
        rw [deepMerge, if_neg (by rintro ⟨⟩), lookup_deepMerge_absent fresh,
          OrderedMap.lookup_setEntries, if_pos rfl, mergeValue]
        rintro _ _ _ ⟨⟩
      · rw [if_neg same] at found
        rw [deepMerge]
        split
        · exact ih distinct found
        · exact ih distinct found

/-- What one execution does. -/
inductive Executed (python : Python) (auth : Fields × Fields) (bridge : Option Bridge)
    (nodeConfig : Fields) (heap : Heap) (entries : Entries) (part : Value → Set Address) :
    Heap × Option Address → Prop where
  | unread {other : Heap} (here : buildEffectiveConfig python nodeConfig bridge = none)
      (starts : heap <+: other) : Executed python auth bridge nodeConfig heap entries part (other, none)
  | noHeaders {other : Heap} {config : Address} {fields : Fields} {base : Entries}
      {own : Value → Set Address} (here : buildEffectiveConfig python nodeConfig bridge = some fields)
      (built : ConfigBuilt heap other config (buildSnapshotOverrides python nodeConfig bridge) entries
        part fields base own)
      (refused : addRows "headers" auth.1 fields = none) :
      Executed python auth bridge nodeConfig heap entries part (other, none)
  | noParams {other final : Heap} {config : Address} {fields headed : Fields}
      {base entries' : Entries} {own parts : Value → Set Address}
      (here : buildEffectiveConfig python nodeConfig bridge = some fields)
      (built : ConfigBuilt heap other config (buildSnapshotOverrides python nodeConfig bridge) entries
        part fields base own)
      (headers : addRows "headers" auth.1 fields = some headed)
      (added : RowsAdded other final config (.str "headers") auth.1 base own headed entries' parts)
      (grows : Grows other final (.str "headers") auth.1 base)
      (refused : addRows "query_params" auth.2 headed = none) :
      Executed python auth bridge nodeConfig heap entries part (final, none)
  | requested {other middle final : Heap} {config : Address} {fields headed result : Fields}
      {base entries' entries'' : Entries} {own parts parts' : Value → Set Address}
      (here : buildEffectiveConfig python nodeConfig bridge = some fields)
      (built : ConfigBuilt heap other config (buildSnapshotOverrides python nodeConfig bridge) entries
        part fields base own)
      (headers : addRows "headers" auth.1 fields = some headed)
      (added : RowsAdded other middle config (.str "headers") auth.1 base own headed entries' parts)
      (grows : Grows other middle (.str "headers") auth.1 base)
      (params : addRows "query_params" auth.2 headed = some result)
      (added' : RowsAdded middle final config (.str "query_params") auth.2 entries' parts result
        entries'' parts')
      (grows' : Grows middle final (.str "query_params") auth.2 entries') :
      Executed python auth bridge nodeConfig heap entries part (final, some config)

theorem executed (reads : ∀ text value, python.loads text = some value → Distinct value)
    (selected : Selected bridge) (plain : PlainFields auth.1 ∧ PlainFields auth.2)
    (dict : DictHeld heap root nodeConfig entries part)
    (bounded : ∀ key, part key ⊆ Set.Iio heap.length) :
    Executed python auth bridge nodeConfig heap entries part
      (execute python auth (.at root) bridge heap) := by
  rw [execute]
  cases here : buildEffectiveConfig python nodeConfig bridge with
  | none =>
      obtain ⟨other, same, starts⟩ := effectiveConfigAt_none reads nodeConfig (.at root) selected here
      rw [same]
      exact .unread here starts
  | some fields =>
      obtain ⟨other, config, base, own, same, built⟩ :=
        effectiveConfigAt_some reads dict bounded selected here
      rw [same]
      dsimp only
      cases headers : addRows "headers" auth.1 fields with
      | none =>
          rw [appendRowsAt_none built.dict headers]
          exact .noHeaders here built headers
      | some headed =>
          obtain ⟨middle, entries', parts, sameHeaders, added, grows⟩ := appendRowsAt_some built.dict
            built.bounded (distinct_rows plain.1) headers
          rw [sameHeaders]
          dsimp only
          cases params : addRows "query_params" auth.2 headed with
          | none =>
              rw [appendRowsAt_none added.dict params]
              exact .noParams here built headers added grows params
          | some result =>
              obtain ⟨final, entries'', parts', sameParams, added', grows'⟩ :=
                appendRowsAt_some added.dict added.bounded (distinct_rows plain.2) params
              rw [sameParams]
              exact .requested here built headers added grows params added' grows'

/-- The HTTP runner reads what the values merge to. -/
theorem Executed.reads {result : Heap × Option Address}
    (done : Executed python auth bridge nodeConfig heap entries part result) :
    (result.2.map fun config => result.1.read (.at config)) =
      (requestFields python auth bridge nodeConfig).map .dict := by
  cases done with
  | unread here starts =>
      rw [requestFields, here]
      rfl
  | noHeaders here built refused =>
      rw [requestFields, here, Option.bind_some, refused]
      rfl
  | noParams here built headers added grows refused =>
      rw [requestFields, here, Option.bind_some, headers, Option.bind_some, refused]
      rfl
  | @requested _ _ final config _ _ _ _ _ _ _ _ parts' here built headers added grows params
      added' =>
      rw [requestFields, here, Option.bind_some, headers, Option.bind_some, params]
      have held : Held final (.dict _) (.at config) (Set.Iio final.length) :=
        .dict added'.dict.here added'.dict.bound
          (fun key place inside => ⟨added'.bounded key inside, fun same =>
            added'.dict.outside key (Set.mem_singleton_iff.mp same ▸ inside)⟩) added'.dict.held
      exact congrArg some (held.read (Set.Subset.refl _))

/-- No object of before changes in the configuration itself. -/
theorem ConfigBuilt.kept {other : Heap} {config : Address} {fields : Fields} {base : Entries}
    {own : Value → Set Address}
    (built : ConfigBuilt heap other config (buildSnapshotOverrides python nodeConfig bridge) entries
      part fields base own)
    (distinct : (nodeConfig.map Prod.fst).Nodup) {key : String}
    (rows : key = "headers" ∨ key = "query_params") {added : Fields}
    (untouched : ¬ Extends key added nodeConfig) {place : Address} (old : place < heap.length)
    (nonempty : added ≠ []) : place ∉ own (.str key) := by
  intro inside
  refine Nat.not_lt_of_le (built.own _ (overrides_absent rows distinct fun extended => ?_) inside) old
  exact untouched ⟨nonempty, extended⟩

theorem bridgeConfig_of_effective {fields : Fields}
    (here : buildEffectiveConfig python nodeConfig bridge = some fields) :
    ∃ layers, bridgeConfig python bridge = some layers ∧
      fields = (deepMerge layers (buildSnapshotOverrides python nodeConfig bridge)).filter
        fun field => field.1 ∉ relationKeys.map Value.str := by
  unfold buildEffectiveConfig at here
  split at here
  · cases here
  · next layers found => exact ⟨layers, found, (Option.some.inj here).symm⟩

theorem getField_effective {layers : Fields} {key : String}
    (rows : key = "headers" ∨ key = "query_params") :
    getField ((deepMerge layers (buildSnapshotOverrides python nodeConfig bridge)).filter
      fun field => field.1 ∉ relationKeys.map Value.str) key =
      (deepMerge layers (buildSnapshotOverrides python nodeConfig bridge)).lookup (.str key) := by
  refine @lookup_filter_keys _ (fun key => decide (key ∉ relationKeys.map Value.str)) (.str key) ?_ _
  rcases rows with rfl | rfl <;> decide

/-- Where the node does not override the headers, rows can be added unless they are refused. -/
theorem headers_refuse_iff {fields : Fields} (distinct : (nodeConfig.map Prod.fst).Nodup)
    (here : buildEffectiveConfig python nodeConfig bridge = some fields) {rows : Fields}
    (untouched : ¬ Extends "headers" rows nodeConfig) :
    addRows "headers" rows fields = none ↔ HeadersRefuse python bridge rows := by
  obtain ⟨layers, found, rfl⟩ := bridgeConfig_of_effective here
  by_cases empty : rows = []
  · rw [addRows, if_pos empty]
    refine ⟨?_, fun refuse => absurd empty refuse.1⟩
    rintro ⟨⟩
  have absent := @overrides_absent python nodeConfig bridge _ (.inl rfl) distinct
    fun extended => untouched ⟨empty, extended⟩
  rw [addRows, if_neg empty, getField_effective (.inl rfl), lookup_deepMerge_absent absent]
  constructor
  · intro none
    cases headers : layers.lookup (.str "headers") with
    | none =>
        rw [headers] at none
        cases none
    | some value =>
        rw [headers, Option.getD_some, Value.orElse] at none
        split at none
        · cases none
        · next noList =>
          by_cases truthy : value.truthy = true
          · rw [if_pos truthy] at noList
            exact ⟨empty, layers, value, found, headers, truthy, noList⟩
          · rw [if_neg truthy] at noList
            exact absurd rfl (noList [])
  · rintro ⟨-, layers', value, found', headers, truthy, noList⟩
    cases found.symm.trans found'
    rw [getField] at headers
    rw [headers, Option.getD_some, Value.orElse, if_pos truthy]
    split
    · next items => exact absurd rfl (noList items)
    · rfl

theorem DictHeld.nodup (dict : DictHeld heap root nodeConfig entries part) :
    (nodeConfig.map Prod.fst).Nodup := dict.held.nodup

/-- An execution that touches no list of the node changes no object of before. -/
theorem Executed.kept {result : Heap × Option Address}
    (done : Executed python auth bridge nodeConfig heap entries part result)
    (distinct : (nodeConfig.map Prod.fst).Nodup)
    (untouched : Untouched python auth bridge nodeConfig) :
    heap.length ≤ result.1.length ∧
      ∀ place < heap.length, result.1[place]? = heap[place]? := by
  have layered {fields : Fields} (here : buildEffectiveConfig python nodeConfig bridge = some fields) :
      ¬ Extends "headers" auth.1 nodeConfig ∧
        (Extends "query_params" auth.2 nodeConfig → HeadersRefuse python bridge auth.1) := by
    obtain ⟨layers, found, -⟩ := bridgeConfig_of_effective here
    refine untouched.resolve_left ?_
    rw [found]
    rintro ⟨⟩
  cases done with
  | unread here starts => exact ⟨starts.length_le, fun place old => prefix_getElem? starts old⟩
  | noHeaders here built refused => exact ⟨built.longer, built.frame⟩
  | noParams here built headers added grows refused =>
      refine ⟨built.longer.trans added.longer, fun place old => ?_⟩
      rw [added.frame place (old.trans_le built.longer)
        (fun same => Nat.not_lt_of_le built.fresh (same ▸ old))
        fun nonempty _ => built.kept distinct (.inl rfl) (layered here).1 old nonempty]
      exact built.frame place old
  | requested here built headers added grows params added' grows' =>
      refine ⟨built.longer.trans (added.longer.trans added'.longer), fun place old => ?_⟩
      have notConfig {config : Address} (fresh : heap.length ≤ config) : place ≠ config := fun same =>
        Nat.not_lt_of_le fresh (same ▸ old)
      have noParams : ¬ Extends "query_params" auth.2 nodeConfig := by
        intro extended
        have refuse := (layered here).2 extended
        rw [← headers_refuse_iff distinct here (layered here).1, headers] at refuse
        cases refuse
      rw [added'.frame place (old.trans_le (built.longer.trans added.longer)) (notConfig built.fresh)
        fun nonempty _ => ?_, added.frame place (old.trans_le built.longer) (notConfig built.fresh)
        fun nonempty _ => built.kept distinct (.inl rfl) (layered here).1 old nonempty]
      · exact built.frame place old
      · rw [(added.others _ (by decide)).1]
        exact built.kept distinct (.inr rfl) noParams old nonempty

/-!
## Lists of the node
-/

/-- A list of the node that the configuration of the request has taken over. -/
structure SharedList (other : Heap) (nodeConfig fields : Fields) (entries base : Entries)
    (own : Value → Set Address) (key : String) (items : List Value) (refs : List Ref)
    (address : Address) : Prop where
  node : getField nodeConfig key = some (.list items)
  entry : entries.lookup (.str key) = some (.at address)
  length : refs.length = items.length
  nonempty : refs ≠ []
  filled : items ≠ []
  config : getField fields key = some (.list items)
  shared : base.lookup (.str key) = some (.at address)
  object : other[address]? = some (.list refs)
  member : address ∈ own (.str key)

theorem sharedList (dict : DictHeld heap root nodeConfig entries part)
    (bounded : ∀ key, part key ⊆ Set.Iio heap.length) {other : Heap} {config : Address}
    {fields : Fields} {base : Entries} {own : Value → Set Address}
    (here : buildEffectiveConfig python nodeConfig bridge = some fields)
    (built : ConfigBuilt heap other config (buildSnapshotOverrides python nodeConfig bridge) entries
      part fields base own)
    {key : String} (rows : key = "headers" ∨ key = "query_params") {added : Fields}
    (extended : Extends key added nodeConfig) :
    ∃ items refs address, address < heap.length ∧
      SharedList other nodeConfig fields entries base own key items refs address := by
  obtain ⟨-, value, found, enabled⟩ := extended
  obtain ⟨override, items, rfl, nonempty⟩ :=
    @overrides_rows python nodeConfig bridge key rows dict.nodup value found enabled
  obtain ⟨layers, -, rfl⟩ := bridgeConfig_of_effective here
  have nodup : ((buildSnapshotOverrides python nodeConfig bridge).map Prod.fst).Nodup :=
    dict.nodup.sublist (List.filter_sublist.map _)
  have inConfig := (@getField_effective python nodeConfig bridge layers key rows).trans
    (lookup_deepMerge_list nodup override)
  have relation : Value.str key ∉ relationKeys.map Value.str := by
    rcases rows with rfl | rfl <;> decide
  have shared := built.shared _ relation items override
  rcases dict.held.lookup (.str key) with ⟨none, -⟩ | ⟨_, ref, some, entry, held⟩
  · rw [getField, none] at found
    cases found
  rw [getField, some] at found
  cases found
  cases held with
  | leaf plain => cases plain
  | @list _ refs address _ object member inside =>
      have old := bounded _ member
      rcases built.dict.held.lookup (.str key) with ⟨none, -⟩ | ⟨_, _, some', entry', held'⟩
      · rw [getField, none] at inConfig
        cases inConfig
      rw [shared, entry] at entry'
      cases entry'
      rw [getField, some'] at inConfig
      cases inConfig
      refine ⟨items, refs, address, old, some, entry, inside.length, ?_, nonempty, some',
        shared.trans entry, (built.frame address old).trans object, ?_⟩
      · rintro rfl
        exact nonempty (List.length_eq_zero_iff.mp inside.length.symm)
      · cases held' with
        | list _ member' _ => exact member'

theorem addRows_list {fields : Fields} {key : String} {items : List Value} (nonempty : items ≠ [])
    (config : getField fields key = some (.list items)) (rows : Fields) :
    addRows key rows fields ≠ none := by
  have truthy : (Value.list items).truthy = true := by
    cases items with
    | nil => exact absurd rfl nonempty
    | cons item items => rfl
  rw [addRows]
  split
  · rintro ⟨⟩
  · rw [config, Option.getD_some, Value.orElse, if_pos truthy]
    rintro ⟨⟩

/-- A list of the node that has grown shows in its configuration. -/
theorem read_grown {other : Heap} {key : Value} {address : Address} {items : List Value}
    {refs more : List Ref} (object : other[root]? = some (.dict entries))
    (entry : entries.lookup key = some (.at address))
    (list : other[address]? = some (.list (refs ++ more))) (nonempty : more ≠ [])
    (node : nodeConfig.lookup key = some (.list items)) (length : refs.length = items.length) :
    other.read (.at root) ≠ .dict nodeConfig := by
  intro same
  have different : root ≠ address := by
    rintro rfl
    rw [object] at list
    cases list
  have rootOld := (List.getElem?_eq_some_iff.mp object).1
  have listOld := (List.getElem?_eq_some_iff.mp list).1
  have apart := Nat.lt_or_gt_of_ne different
  obtain ⟨fuel, size⟩ : ∃ fuel, other.length = fuel + 2 := ⟨other.length - 2, by omega⟩
  have lookup_map (entries : Entries) : (entries.map fun entry =>
      (entry.1, other.readTo (fuel + 1) entry.2)).lookup key =
        (entries.lookup key).map (other.readTo (fuel + 1)) := by
    induction entries with
    | nil => rfl
    | cons entry entries ih =>
        rw [List.map_cons, OrderedMap.lookup_cons_eq, OrderedMap.lookup_cons_eq, ih]
        split <;> rfl
  rw [Heap.read, size, readTo, object] at same
  have found := congrArg (List.lookup key) (Value.dict.inj same)
  rw [lookup_map, entry, node, Option.map_some, readTo, list] at found
  have lengths := congrArg List.length (Value.list.inj (Option.some.inj found))
  rw [List.length_map, List.length_append, length] at lengths
  have positive := List.length_pos_iff.mpr nonempty
  omega

theorem getField_addRows {key other : String} (different : Value.str other ≠ .str key)
    {rows fields added : Fields} (here : addRows key rows fields = some added) :
    getField added other = getField fields other := by
  unfold addRows at here
  split at here
  · rw [Option.some.inj here]
  · split at here
    · rw [← Option.some.inj here, getField, setField, OrderedMap.lookup_setEntries,
        if_neg different]
      rfl
    · cases here

theorem mem_keys_of_same {one two : Entries} {key : Value}
    (same : one.lookup key = two.lookup key) (member : key ∈ one.map Prod.fst) :
    key ∈ two.map Prod.fst := by
  obtain ⟨entry, among, rfl⟩ := List.mem_map.mp member
  cases found : two.lookup entry.1 with
  | some ref => exact List.mem_map.mpr ⟨_, OrderedMap.mem_of_lookup found, rfl⟩
  | none =>
      rw [found] at same
      exact absurd (List.lookup_eq_none_iff.mp same entry among) (by simp)

theorem mem_keys_of_lookup {fields : Entries} {key : Value} {ref : Ref}
    (found : fields.lookup key = some ref) : key ∈ fields.map Prod.fst :=
  List.mem_map.mpr ⟨_, OrderedMap.mem_of_lookup found, rfl⟩

/-- An execution that adds rows to a list of the node changes its configuration. -/
theorem Executed.touched {result : Heap × Option Address}
    (done : Executed python auth bridge nodeConfig heap entries part result)
    (dict : DictHeld heap root nodeConfig entries part)
    (bounded : ∀ key, part key ⊆ Set.Iio heap.length)
    (touched : ¬ Untouched python auth bridge nodeConfig) :
    result.1.read (.at root) ≠ .dict nodeConfig := by
  rw [Untouched, not_or, not_and_or, not_not] at touched
  obtain ⟨layered, lists⟩ := touched
  have noRoot {key : String} {other : Heap} {config : Address} {fields : Fields} {base : Entries}
      {own : Value → Set Address}
      (built : ConfigBuilt heap other config (buildSnapshotOverrides python nodeConfig bridge) entries
        part fields base own) : root ∉ own (.str key) := fun inside =>
    (built.reach _ inside).elim (fun fresh => Nat.not_lt_of_le fresh dict.bound) (dict.outside _)
  have notConfig {other : Heap} {config : Address} {fields : Fields} {base : Entries}
      {own : Value → Set Address}
      (built : ConfigBuilt heap other config (buildSnapshotOverrides python nodeConfig bridge) entries
        part fields base own) {place : Address} (old : place < heap.length) : place ≠ config :=
    fun same => Nat.not_lt_of_le built.fresh (same ▸ old)
  have differ : Value.str "query_params" ≠ .str "headers" := by decide
  cases done with
  | unread here starts =>
      refine absurd ?_ layered
      unfold buildEffectiveConfig at here
      split at here
      · assumption
      · cases here
  | noHeaders here built refused =>
      by_cases extended : Extends "headers" auth.1 nodeConfig
      · obtain ⟨_, _, _, _, list⟩ := sharedList dict bounded here built (.inl rfl) extended
        exact absurd refused (addRows_list list.filled list.config auth.1)
      · rw [headers_refuse_iff dict.nodup here extended] at refused
        exact absurd (fun _ => refused) (lists.resolve_left extended)
  | @noParams other final config _ _ base _ own parts here built headers added grows refused =>
      by_cases extended : Extends "headers" auth.1 nodeConfig
      · obtain ⟨items, refs, address, old, list⟩ :=
          sharedList dict bounded here built (.inl rfl) extended
        obtain ⟨more, nonempty, grown⟩ :=
          grows address refs extended.1 list.nonempty list.shared list.object
        refine read_grown ?_ list.entry grown nonempty list.node list.length
        rw [added.frame root (dict.bound.trans_le built.longer) (notConfig built dict.bound)
          fun _ _ => noRoot built, built.frame root dict.bound]
        exact dict.here
      · have params := lists.resolve_left extended
        rw [Classical.not_imp] at params
        obtain ⟨items, refs, address, old, list⟩ :=
          sharedList dict bounded here built (.inr rfl) params.1
        have config := (getField_addRows differ headers).trans list.config
        exact absurd refused (addRows_list list.filled config auth.2)
  | @requested other middle final config _ _ _ base _ _ own parts _ here built headers added grows
      params added' grows' =>
      have ownParams := (added.others _ differ).1
      have inMiddle {place : Address} (old : place < heap.length) : place < middle.length :=
        old.trans_le (built.longer.trans added.longer)
      have sameRoot : final[root]? = some (.dict entries) := by
        rw [added'.frame root (inMiddle dict.bound) (notConfig built dict.bound)
          fun _ _ => ownParams ▸ noRoot built,
          added.frame root (dict.bound.trans_le built.longer) (notConfig built dict.bound)
          fun _ _ => noRoot built, built.frame root dict.bound]
        exact dict.here
      have apart (first : .str "headers" ∈ base.map Prod.fst)
          (second : .str "query_params" ∈ base.map Prod.fst) :
          Disjoint (own (.str "headers")) (own (.str "query_params")) := by
        rw [built.dict.held.keys] at first second
        exact built.dict.held.apart first second differ.symm
      by_cases extended : Extends "headers" auth.1 nodeConfig
      · obtain ⟨items, refs, address, old, list⟩ :=
          sharedList dict bounded here built (.inl rfl) extended
        obtain ⟨more, nonempty, grown⟩ :=
          grows address refs extended.1 list.nonempty list.shared list.object
        refine read_grown sameRoot list.entry ?_ nonempty list.node list.length
        rw [added'.frame address (inMiddle old) (notConfig built old) fun _ inKeys => ?_]
        · exact grown
        · rw [ownParams]
          exact Set.disjoint_left.mp (apart (mem_keys_of_lookup list.shared)
            (mem_keys_of_same (added.others _ differ).2 inKeys)) list.member
      · have params := lists.resolve_left extended
        rw [Classical.not_imp] at params
        obtain ⟨items, refs, address, old, list⟩ :=
          sharedList dict bounded here built (.inr rfl) params.1
        have object : middle[address]? = some (.list refs) := by
          rw [added.frame address (old.trans_le built.longer) (notConfig built old)
            fun _ inKeys => Set.disjoint_right.mp (apart inKeys (mem_keys_of_lookup list.shared))
              list.member]
          exact list.object
        obtain ⟨more, nonempty, grown⟩ := grows' address refs params.1.1 list.nonempty
          ((added.others _ differ).2.trans list.shared) object
        exact read_grown sameRoot list.entry grown nonempty list.node list.length

end Execution

/-!
## Every number of executions
-/

theorem executions_kept {python : Python} {auth : Fields × Fields} {bridge : Option Bridge}
    (reads : ∀ text value, python.loads text = some value → Distinct value)
    (selected : Selected bridge) (plain : PlainFields auth.1 ∧ PlainFields auth.2) {heap : Heap}
    {root : Address} {nodeConfig : Fields} {entries : Entries} {part : Value → Set Address}
    (dict : DictHeld heap root nodeConfig entries part)
    (bounded : ∀ key, part key ⊆ Set.Iio heap.length)
    (untouched : Untouched python auth bridge nodeConfig) (count : Nat) :
    DictHeld (executions python auth (.at root) bridge count heap) root nodeConfig entries part ∧
      heap.length ≤ (executions python auth (.at root) bridge count heap).length := by
  induction count with
  | zero => exact ⟨dict, Nat.le_refl _⟩
  | succ count ih =>
      obtain ⟨dict, longer⟩ := ih
      have bounded (key : Value) : part key ⊆
          Set.Iio (executions python auth (.at root) bridge count heap).length := fun _ member =>
        (bounded key member).trans_le longer
      obtain ⟨more, same⟩ := (executed reads selected plain dict bounded).kept dict.nodup untouched
      exact ⟨dict.frame bounded same, longer.trans more⟩

theorem DictHeld.read {heap : Heap} {root : Address} {nodeConfig : Fields} {entries : Entries}
    {part : Value → Set Address} (dict : DictHeld heap root nodeConfig entries part)
    (bounded : ∀ key, part key ⊆ Set.Iio heap.length) :
    heap.read (.at root) = .dict nodeConfig := by
  refine @Held.read heap _ _ (Set.Iio heap.length) (.dict dict.here dict.bound
    (fun key place inside => ⟨bounded key inside, fun same => ?_⟩) dict.held) (Set.Subset.refl _)
  exact dict.outside key (Set.mem_singleton_iff.mp same ▸ inside)

theorem connector_executions_unaffected_iff (python : Python)
    (reads : ∀ text value, python.loads text = some value → Distinct value)
    (expressions : Expression.Python)
    (readsAuth : ∀ text value, expressions.jsonLoads text = some value → Distinct value)
    (base64 : String → String) (broker : Value → Option Value) {bridge : Option Bridge}
    (selected : Selected bridge) (profile : Option AuthProfile) {nodeConfig : Fields}
    (distinct : Distinct (.dict nodeConfig)) (start : Heap) :
    (∀ count,
        (executions python (authOf expressions base64 broker bridge profile)
          (build (.dict nodeConfig) start).1 bridge count
          (build (.dict nodeConfig) start).2).read (build (.dict nodeConfig) start).1 =
          .dict nodeConfig ∧
        requestConfig python (authOf expressions base64 broker bridge profile)
          (build (.dict nodeConfig) start).1 bridge
          (executions python (authOf expressions base64 broker bridge profile)
            (build (.dict nodeConfig) start).1 bridge count (build (.dict nodeConfig) start).2) =
        requestConfig python (authOf expressions base64 broker bridge profile)
          (build (.dict nodeConfig) start).1 bridge (build (.dict nodeConfig) start).2) ↔
      Untouched python (authOf expressions base64 broker bridge profile) bridge nodeConfig := by
  have plain := plain_authOf readsAuth base64 broker bridge profile
  generalize authOf expressions base64 broker bridge profile = auth at plain ⊢
  obtain ⟨-, held⟩ := built_build distinct start
  generalize build (.dict nodeConfig) start = built at held ⊢
  obtain ⟨ref, heap⟩ := built
  rcases held.dictAt with ⟨_, root, entries, part, same, -, rfl, here, -, inside, held⟩ |
    ⟨noDict, -⟩
  swap
  · exact absurd rfl (noDict nodeConfig)
  cases same
  have dict : DictHeld heap root nodeConfig entries part :=
    ⟨here, fun key member => (inside key member).2 rfl, held⟩
  have bounded (key : Value) : part key ⊆ Set.Iio heap.length := fun _ member =>
    (inside key member).1.2
  constructor
  · intro every
    by_contra touched
    exact (executed reads selected plain dict bounded).touched dict bounded touched (every 1).1
  · intro untouched count
    obtain ⟨dict', longer⟩ :=
      executions_kept reads selected plain dict bounded untouched count
    have bounded' (key : Value) : part key ⊆
        Set.Iio (executions python auth (.at root) bridge count heap).length := fun _ member =>
      (bounded key member).trans_le longer
    refine ⟨dict'.read bounded', ?_⟩
    exact (executed reads selected plain dict' bounded').reads.trans
      (executed reads selected plain dict bounded).reads.symm

def tokenDocument : String := "\x7b\"token\": \"orders\"\x7d"

theorem ne_tokenDocument {text : String} (null : '\x00' ∈ text.toList) : text ≠ tokenDocument := by
  rintro rfl
  have absent : '\x00' ∉ tokenDocument.toList := by decide +kernel
  exact absent null

def readToken (text : String) : Option Value :=
  if text = tokenDocument then some (.dict [(.str "token", .str "orders")]) else none

theorem readToken_null (text : String) (null : '\x00' ∈ text.toList) : readToken text = none :=
  if_neg (ne_tokenDocument null)

/-- Python that reads one document. -/
def tokenPython : Expression.Python :=
  { Expression.textPython with
    jsonLoads := readToken
    jsonLoads_null := readToken_null }

theorem tokenPython_distinct (text : String) (value : Value)
    (parsed : tokenPython.jsonLoads text = some value) : Distinct value := by
  obtain ⟨-, same⟩ := Option.ite_none_right_eq_some.mp parsed
  rw [← Option.some.inj same]
  exact .dict (List.nodup_singleton _) (List.forall_mem_singleton.mpr rfl)
    (List.forall_mem_singleton.mpr (.leaf rfl))

def bearerProfile : AuthProfile where
  authType := .bearer
  secretRefsJson := tokenDocument
  headerTemplateJson := ""
  queryTemplateJson := ""

def bearerAuth : Fields × Fields :=
  authOf tokenPython id (fun _ => some (.str "k")) (some ordersBridge) (some bearerProfile)

def plainConfig : Fields := [(.str "url", .str ""), (.str "query_params", .list [])]

theorem plainConfig_unaffected :
    (executions numberPython bearerAuth (build (.dict plainConfig) []).1 (some ordersBridge) 2
      (build (.dict plainConfig) []).2).read (build (.dict plainConfig) []).1 =
      .dict plainConfig ∧
    requestConfig numberPython bearerAuth (build (.dict plainConfig) []).1 (some ordersBridge)
      (executions numberPython bearerAuth (build (.dict plainConfig) []).1 (some ordersBridge) 2
        (build (.dict plainConfig) []).2) =
    requestConfig numberPython bearerAuth (build (.dict plainConfig) []).1 (some ordersBridge)
      (build (.dict plainConfig) []).2 := by
  refine (connector_executions_unaffected_iff numberPython ?_ tokenPython tokenPython_distinct id
    (fun _ => some (.str "k")) ?_ (some bearerProfile) ?_ []).mpr (.inr ⟨?_, ?_⟩) 2
  · rintro text value ⟨⟩
  · rintro record ⟨⟩ endpoint ⟨⟩
    rfl
  · refine .dict (by decide) ?_ ?_
    · exact List.forall_mem_cons.mpr ⟨rfl, List.forall_mem_singleton.mpr rfl⟩
    · exact List.forall_mem_cons.mpr
        ⟨.leaf rfl, List.forall_mem_singleton.mpr (.list (List.forall_mem_nil _))⟩
  · rintro ⟨-, own, ⟨⟩, -⟩
  · rintro ⟨-, own, found, enabled⟩
    cases found
    cases enabled

def acceptConfig : Fields := [(.str "headers", .list [.dict [(.str "key", .str "Accept"),
  (.str "value", .str "text/plain"), (.str "enabled", .bool true)]])]

/-- After one execution the secret stands in the headers of the node. -/
theorem acceptConfig_keeps_secret :
    ¬ ∀ count,
        (executions numberPython bearerAuth (build (.dict acceptConfig) []).1 (some ordersBridge)
          count (build (.dict acceptConfig) []).2).read (build (.dict acceptConfig) []).1 =
          .dict acceptConfig ∧
        requestConfig numberPython bearerAuth (build (.dict acceptConfig) []).1 (some ordersBridge)
          (executions numberPython bearerAuth (build (.dict acceptConfig) []).1 (some ordersBridge)
            count (build (.dict acceptConfig) []).2) =
        requestConfig numberPython bearerAuth (build (.dict acceptConfig) []).1 (some ordersBridge)
          (build (.dict acceptConfig) []).2 := by
  intro every
  have stored : (executions numberPython bearerAuth (build (.dict acceptConfig) []).1
      (some ordersBridge) 1 (build (.dict acceptConfig) []).2).read (build (.dict acceptConfig) []).1 =
      .dict [(.str "headers", .list [
        .dict [(.str "key", .str "Accept"), (.str "value", .str "text/plain"),
          (.str "enabled", .bool true)],
        .dict [(.str "key", .str "Authorization"), (.str "value", .str "Bearer k"),
          (.str "enabled", .bool true)]])] := by
    decide +kernel
  exact absurd (stored.symm.trans (every 1).1) (by decide)

end WorkflowStudio.Connector

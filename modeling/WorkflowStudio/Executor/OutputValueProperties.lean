import Mathlib.Data.List.ReduceOption
import WorkflowStudio.Executor.MaskingProperties

/-! What normalisation makes of an output: when `json.dumps` takes the result, that normalising
it again changes nothing, and what becomes of a recordset. -/

set_option autoImplicit false

namespace WorkflowStudio.Executor.RawOutput

open Lib Expression

/-!
## JSON
-/

section Json

variable (objects : Objects) (calls : Calls)

/-- The keys that `json.dumps` takes. -/
def JsonKey : Value → Prop
  | .none | .bool _ | .int _ | .str _ => True
  | .object truth identity => objects.form truth identity = .itself
  | .list _ | .tuple _ | .dict _ => False

/-- The outputs that `json.dumps` takes. It calls `items()` on every dictionary. -/
inductive JsonDumps : RawOutput → Prop
  | scalar {output : RawOutput} (single : isScalar output.plain = true) : JsonDumps output
  | float {truth : Bool} {identity : Nat} (form : objects.form truth identity = .itself) :
      JsonDumps (.object truth identity)
  | list {items : List RawOutput} (all : ∀ item ∈ items, JsonDumps item) : JsonDumps (.list items)
  | tuple {items : List RawOutput} (all : ∀ item ∈ items, JsonDumps item) :
      JsonDumps (.tuple items)
  | dict {keyFirst : Bool} {entries pairs : List (Value × RawOutput)}
      (given : items calls keyFirst entries = .ok pairs)
      (keys : ∀ pair ∈ pairs, JsonKey objects pair.1) (all : ∀ pair ∈ pairs, JsonDumps pair.2) :
      JsonDumps (.dict keyFirst entries)

/-- The fields of a reference can be read, and its model can be dumped if it is kept. -/
def RefReady : RawOutput → Prop
  | .dict keyFirst ref => ∃ model id, get calls keyFirst ref "model" = .ok model ∧
      get calls keyFirst ref "id" = .ok id ∧ (model.plain.truthy = true →
        (objects.int id.plain).isSome = true → JsonDumps objects calls model)
  | _ => True

/-- The fields of a marker can be read, its references are a collection, and the models that it
takes over can be dumped. -/
structure MarkerReady (keyFirst : Bool) (entries : List (Value × RawOutput)) : Prop where
  refs : ∃ given refs, get calls keyFirst entries recordRefsKey = .ok given ∧
    iterate objects given.orEmpty = .ok refs ∧ ∀ ref ∈ refs, RefReady objects calls ref
  count : ∃ count, get calls keyFirst entries recordRefsCountKey = .ok count
  model : ∃ model, get calls keyFirst entries recordRefsModelKey = .ok model ∧
    JsonDumps objects calls model
  truncated : ∃ truncated, get calls keyFirst entries recordRefsTruncatedKey = .ok truncated

/-- Down to the depth that is kept, the items of every dictionary can be read, its keys are JSON
keys, and the markers are ready. If asked, no `items` that is called gives the marker key. -/
def JsonReady (unmarked : Prop) : Nat → RawOutput → Prop
  | 0, _ => True
  | levels + 1, .dict keyFirst entries =>
      if (entries.lookup (.str recordRefsKey)).isSome then MarkerReady objects calls keyFirst entries
      else ∃ pairs, items calls keyFirst entries = .ok pairs ∧
        (unmarked → pairs.lookup (.str recordRefsKey) = Option.none) ∧
        ∀ pair ∈ pairs, JsonKey objects pair.1 ∧ JsonReady unmarked levels pair.2
  | levels + 1, .list items | levels + 1, .tuple items =>
      ∀ item ∈ items, JsonReady unmarked levels item
  | levels + 1, .object truth identity => ∀ items, objects.form truth identity = .set items →
      ∀ item ∈ ofItems items, JsonReady unmarked levels item
  | _ + 1, _ => True

variable {objects calls}

@[simp] theorem jsonDumps_list_iff {items : List RawOutput} :
    JsonDumps objects calls (.list items) ↔ ∀ item ∈ items, JsonDumps objects calls item := by
  constructor
  · intro dumps
    cases dumps with
    | scalar single => cases single
    | list all => exact all
  · exact .list

@[simp] theorem jsonDumps_dict_iff {entries : List (Value × RawOutput)} :
    JsonDumps objects calls (.dict false entries) ↔
      ∀ entry ∈ entries, JsonKey objects entry.1 ∧ JsonDumps objects calls entry.2 := by
  constructor
  · intro dumps
    cases dumps with
    | scalar single => cases single
    | dict given keys all =>
        cases given
        exact fun entry member => ⟨keys entry member, all entry member⟩
  · intro both
    exact .dict rfl (fun entry member => (both entry member).1) fun entry member =>
      (both entry member).2

@[simp] theorem jsonDumps_str (text : String) : JsonDumps objects calls (.str text) := .scalar rfl

@[simp] theorem jsonDumps_int (value : Int) : JsonDumps objects calls (.int value) := .scalar rfl

@[simp] theorem jsonDumps_bool (value : Bool) : JsonDumps objects calls (.bool value) := .scalar rfl

@[simp] theorem jsonKey_str (text : String) : JsonKey objects (.str text) := trivial

/-!
## Markers
-/

@[simp] theorem jsonDumps_recordRef {model : RawOutput} {id : Int} :
    JsonDumps objects calls (recordRef model id) ↔ JsonDumps objects calls model := by
  simp [recordRef]

theorem jsonDumps_recordRefsMarker {refs : List RawOutput} {model count : RawOutput}
    {truncated : Bool} (number : isScalar count.plain = true) :
    JsonDumps objects calls (recordRefsMarker refs model count truncated) ↔
      (∀ ref ∈ refs, JsonDumps objects calls ref) ∧ JsonDumps objects calls model := by
  have counted : JsonDumps objects calls count := .scalar number
  simp [recordRefsMarker, counted]

theorem jsonDumps_buildRecordRefsMarker (model : String) (ids : List Int) :
    JsonDumps objects calls (buildRecordRefsMarker model ids) := by
  refine (jsonDumps_recordRefsMarker rfl).mpr ⟨fun ref member => ?_, jsonDumps_str model⟩
  obtain ⟨id, _, rfl⟩ := List.mem_map.mp member
  exact jsonDumps_recordRef.mpr (jsonDumps_str model)

theorem refReady_iff {ref : RawOutput} :
    (∃ kept, normalizeRef objects calls ref = .ok kept ∧
        ∀ single, kept = some single → JsonDumps objects calls single) ↔
      RefReady objects calls ref := by
  cases ref with
  | dict keyFirst ref =>
      simp only [normalizeRef, RefReady, exists_bind_ok_iff]
      refine exists_congr fun model => ?_
      rw [exists_and_left]
      refine and_congr_right fun _ => exists_congr fun id => and_congr_right fun _ => ?_
      split
      · next named =>
          simp only [Except.ok.injEq, exists_eq_left', Option.map_eq_some_iff]
          constructor
          · intro dumps _ isInt
            obtain ⟨number, read⟩ := Option.isSome_iff_exists.mp isInt
            exact jsonDumps_recordRef.mp (dumps _ ⟨number, read, rfl⟩)
          · rintro dumps single ⟨number, read, rfl⟩
            exact jsonDumps_recordRef.mpr (dumps named (by rw [read]; rfl))
      · next unnamed =>
          refine iff_of_true ⟨Option.none, rfl, fun _ same => ?_⟩ fun named => absurd named unnamed
          cases same
  | none | bool | int | str | list | tuple | object =>
      refine iff_of_true ⟨Option.none, rfl, fun _ same => ?_⟩ trivial
      cases same

/-- The number that a marker is given for its count, or that of its references. -/
theorem scalar_count (given : RawOutput) (length : Nat) :
    isScalar (RawOutput.plain (match given with
      | .int count => .int count
      | .bool count => .bool count
      | _ => .int length)) = true := by
  cases given <;> rfl

theorem markerReady_iff {keyFirst : Bool} {entries : List (Value × RawOutput)} :
    (∃ result, normalizeMarker objects calls keyFirst entries = .ok result ∧
        JsonDumps objects calls result) ↔ MarkerReady objects calls keyFirst entries := by
  simp only [normalizeMarker, exists_bind_ok_iff]
  constructor
  · rintro ⟨given, read, refs, iterates, normalized, mapped, count, counted, model, modelRead,
      truncated, truncatedRead, result, ends, dumps⟩
    cases ends
    obtain ⟨kept, modelDumps⟩ := (jsonDumps_recordRefsMarker (scalar_count count _)).mp dumps
    refine ⟨⟨given, refs, read, iterates, fun ref member => refReady_iff.mp ?_⟩, ⟨count, counted⟩,
      ⟨model, modelRead, modelDumps⟩, ⟨truncated, truncatedRead⟩⟩
    obtain ⟨result, among, normalizes⟩ := exists_related_of_mem (mapM_ok_iff.mp mapped) member
    refine ⟨result, normalizes, ?_⟩
    rintro single rfl
    exact kept single (List.reduceOption_mem_iff.mpr among)
  · rintro ⟨⟨given, refs, read, iterates, ready⟩, ⟨count, counted⟩, ⟨model, modelRead, modelDumps⟩,
      ⟨truncated, truncatedRead⟩⟩
    obtain ⟨normalized, mapped, dumps⟩ := exists_mapM_ok_iff.mpr fun ref member =>
      refReady_iff.mpr (ready ref member)
    refine ⟨given, read, refs, iterates, normalized, mapped, count, counted, model, modelRead,
      truncated, truncatedRead, _, rfl,
      (jsonDumps_recordRefsMarker (scalar_count count _)).mpr ⟨fun ref member => ?_, modelDumps⟩⟩
    exact dumps _ (List.reduceOption_mem_iff.mp member) ref rfl

end Json

/-!
## Outputs
-/

section Outputs

variable (python : Python) {objects : Objects} {calls : Calls}

theorem exists_map_list_iff {levels : Nat} {items : List RawOutput} :
    (∃ result, (items.mapM (normalizeLevels python objects calls levels)).map RawOutput.list =
        .ok result ∧ JsonDumps objects calls result) ↔
      ∀ item ∈ items, ∃ result, normalizeLevels python objects calls levels item = .ok result ∧
        JsonDumps objects calls result := by
  rw [← exists_mapM_ok_iff]
  constructor
  · rintro ⟨result, ends, dumps⟩
    obtain ⟨results, mapped, rfl⟩ := map_eq_ok ends
    exact ⟨results, mapped, jsonDumps_list_iff.mp dumps⟩
  · rintro ⟨results, mapped, dumps⟩
    exact ⟨.list results, by rw [mapped]; rfl, jsonDumps_list_iff.mpr dumps⟩

theorem exists_map_dict_iff {levels : Nat} {pairs : List (Value × RawOutput)} :
    (∃ normalized, (pairs.mapM fun pair => (normalizeLevels python objects calls levels pair.2).map
        fun item => (pair.1, item)) = .ok normalized ∧
        JsonDumps objects calls (.dict false normalized)) ↔
      ∀ pair ∈ pairs, JsonKey objects pair.1 ∧
        ∃ result, normalizeLevels python objects calls levels pair.2 = .ok result ∧
          JsonDumps objects calls result := by
  simp only [jsonDumps_dict_iff]
  rw [exists_mapM_ok_iff]
  refine forall₂_congr fun pair _ => ?_
  constructor
  · rintro ⟨target, ends, key, dumps⟩
    obtain ⟨item, normalized, rfl⟩ := map_eq_ok ends
    exact ⟨key, item, normalized, dumps⟩
  · rintro ⟨key, item, normalized, dumps⟩
    exact ⟨(pair.1, item), by rw [normalized]; rfl, key, dumps⟩

theorem jsonReady_iff {levels : Nat} {output : RawOutput} :
    (∃ result, normalizeLevels python objects calls levels output = .ok result ∧
        JsonDumps objects calls result) ↔ JsonReady objects calls False levels output := by
  induction levels generalizing output with
  | zero =>
      rw [normalizeLevels, JsonReady]
      exact iff_of_true ⟨_, rfl, jsonDumps_str _⟩ trivial
  | succ levels ih =>
      cases output with
      | none | bool | int | str =>
          unfold normalizeLevels JsonReady
          exact iff_of_true ⟨_, rfl, .scalar rfl⟩ trivial
      | list items | tuple items =>
          rw [normalizeLevels, JsonReady, exists_map_list_iff]
          simp only [ih]
      | dict keyFirst entries =>
          rw [normalizeLevels, JsonReady]
          split
          · exact markerReady_iff
          · simp only [exists_bind_ok_iff, false_imp_iff, true_and, ← ih, ← exists_map_dict_iff]
            refine exists_congr fun pairs => and_congr_right fun _ => exists_congr fun normalized =>
              and_congr_right fun _ => ?_
            exact ⟨fun ⟨_, ends, dumps⟩ => Except.ok.inj ends ▸ dumps, fun dumps => ⟨_, rfl, dumps⟩⟩
      | object truth identity =>
          rw [normalizeLevels, JsonReady]
          cases form : objects.form truth identity with
          | itself => exact iff_of_true ⟨_, rfl, .float form⟩ (by simp)
          | text printed => exact iff_of_true ⟨_, rfl, jsonDumps_str printed⟩ (by simp)
          | records model ids =>
              exact iff_of_true ⟨_, rfl, jsonDumps_buildRecordRefsMarker model ids⟩ (by simp)
          | set items =>
              rw [exists_map_list_iff]
              simp only [ih, ObjectForm.set.injEq, forall_eq']

/-!
## Normalising twice
-/

section Twice

theorem forall₂_right {Source Target : Type} {related : Source → Target → Prop}
    {same : Target → Target → Prop} {sources : List Source} {targets : List Target}
    (pairs : List.Forall₂ related sources targets)
    (each : ∀ source target, related source target → same target target) :
    List.Forall₂ same targets targets := by
  induction pairs with
  | nil => exact .nil
  | cons first _ ih => exact .cons (each _ _ first) ih

/-- References with a model and an integer id. -/
def AreRefs (refs : List RawOutput) : Prop :=
  ∀ ref ∈ refs, ∃ model id, ref = recordRef model id ∧ model.plain.truthy = true

theorem areRefs_of_normalized {refs : List RawOutput} {normalized : List (Option RawOutput)}
    (mapped : refs.mapM (normalizeRef objects calls) = .ok normalized) :
    AreRefs normalized.reduceOption := by
  intro kept member
  obtain ⟨ref, _, normalizes⟩ := forall₂_mem_right (mapM_ok_iff.mp mapped)
    (List.reduceOption_mem_iff.mp member)
  cases ref with
  | dict keyFirst ref =>
      obtain ⟨model, _, normalizes⟩ := bind_eq_ok normalizes
      obtain ⟨id, _, normalizes⟩ := bind_eq_ok normalizes
      split at normalizes
      · next isNamed =>
          obtain ⟨number, _, rfl⟩ := Option.map_eq_some_iff.mp (Except.ok.inj normalizes)
          exact ⟨model, number, rfl, isNamed⟩
      · cases normalizes
  | none | bool | int | str | list | tuple | object => cases normalizes

theorem areRefs_records {model : String} (named : model ≠ "") (ids : List Int) :
    AreRefs (ids.map (recordRef (.str model))) := by
  intro ref member
  obtain ⟨id, _, rfl⟩ := List.mem_map.mp member
  exact ⟨.str model, id, rfl, decide_eq_true named⟩

theorem normalizeRef_recordRef (ints : ∀ value, objects.int (.int value) = some value)
    {model : RawOutput} (named : model.plain.truthy = true) (id : Int) :
    normalizeRef objects calls (recordRef model id) = .ok (some (recordRef model id)) := by
  have number : objects.int (RawOutput.int id).plain = some id := ints id
  change (if model.plain.truthy then
    Except.ok ((objects.int (RawOutput.int id).plain).map (recordRef model)) else _) = _
  rw [if_pos named, number]
  rfl

theorem mapM_normalizeRef (ints : ∀ value, objects.int (.int value) = some value)
    {refs : List RawOutput} (areRefs : AreRefs refs) :
    refs.mapM (normalizeRef objects calls) = .ok (refs.map some) := by
  refine mapM_ok_iff.mpr (List.forall₂_map_right_iff.mpr (List.forall₂_same.mpr ?_))
  intro ref member
  obtain ⟨model, id, rfl, named⟩ := areRefs ref member
  exact normalizeRef_recordRef ints named id

/-- A marker of references is normalised to itself. -/
theorem normalizeLevels_marker (ints : ∀ value, objects.int (.int value) = some value)
    (levels : Nat) {refs : List RawOutput} (model : RawOutput) {count : RawOutput}
    (truncated : Bool) (areRefs : AreRefs refs)
    (number : (∃ value, count = .int value) ∨ ∃ value, count = .bool value) :
    normalizeLevels python objects calls (levels + 1)
        (recordRefsMarker refs model count truncated) =
      .ok (recordRefsMarker refs model count truncated) := by
  have iterated : iterate objects (RawOutput.list refs).orEmpty = .ok refs := by
    cases refs <;> rfl
  have kept : (refs.map some).reduceOption = refs := by
    rw [List.reduceOption, List.filterMap_map]
    exact List.filterMap_some
  have normalized : normalizeMarker objects calls false [(.str recordRefsKey, .list refs),
      (.str recordRefsModelKey, model), (.str recordRefsCountKey, count),
      (.str recordRefsTruncatedKey, .bool truncated)] =
        .ok (recordRefsMarker refs model count truncated) := by
    change (iterate objects (RawOutput.list refs).orEmpty >>= fun refs =>
      refs.mapM (normalizeRef objects calls) >>= _) = _
    rw [iterated]
    change (refs.mapM (normalizeRef objects calls) >>= _) = _
    rw [mapM_normalizeRef ints areRefs]
    change Except.ok (recordRefsMarker (refs.map some).reduceOption model _ truncated) = _
    rw [kept]
    rcases number with ⟨value, rfl⟩ | ⟨value, rfl⟩ <;> rfl
  rw [recordRefsMarker, normalizeLevels]
  exact (if_pos rfl).trans normalized

theorem mapM_of_normalized {levels : Nat} {items results : List RawOutput}
    (idem : ∀ item ∈ items, ∀ result, normalizeLevels python objects calls levels item = .ok result →
      normalizeLevels python objects calls levels result = .ok result)
    (mapped : items.mapM (normalizeLevels python objects calls levels) = .ok results) :
    results.mapM (normalizeLevels python objects calls levels) = .ok results := by
  have both := (List.forall₂_and_left _ _).mpr ⟨idem, mapM_ok_iff.mp mapped⟩
  exact mapM_ok_iff.mpr (forall₂_right both fun _ result each => each.1 result each.2)

theorem lookup_of_sameKeys {Source Target Key : Type} [BEq Key]
    {entries : List (Key × Source)} {results : List (Key × Target)}
    (pairs : List.Forall₂ (fun entry result => result.1 = entry.1) entries results) (key : Key) :
    (results.lookup key).isSome = (entries.lookup key).isSome := by
  induction pairs with
  | nil => rfl
  | cons first _ ih =>
      rw [List.lookup_cons, List.lookup_cons, first]
      split
      · rfl
      · exact ih

/-- The normalised items of a dictionary without a marker are normalised to themselves. -/
theorem normalizeLevels_dict {levels : Nat} {pairs normalized : List (Value × RawOutput)}
    (unmarked : pairs.lookup (.str recordRefsKey) = Option.none)
    (idem : ∀ pair ∈ pairs, ∀ result,
      normalizeLevels python objects calls levels pair.2 = .ok result →
        normalizeLevels python objects calls levels result = .ok result)
    (mapped : (pairs.mapM fun pair => (normalizeLevels python objects calls levels pair.2).map
      fun item => (pair.1, item)) = .ok normalized) :
    normalizeLevels python objects calls (levels + 1) (.dict false normalized) =
      .ok (.dict false normalized) := by
  have related : List.Forall₂ (fun pair entry => entry.1 = pair.1 ∧
      normalizeLevels python objects calls levels entry.2 = .ok entry.2) pairs normalized := by
    refine ((List.forall₂_and_left _ _).mpr ⟨idem, mapM_ok_iff.mp mapped⟩).imp ?_
    rintro pair entry ⟨stable, ends⟩
    obtain ⟨item, normalizes, rfl⟩ := map_eq_ok ends
    exact ⟨rfl, stable item normalizes⟩
  have free : ¬ (normalized.lookup (.str recordRefsKey)).isSome = true := by
    rw [lookup_of_sameKeys (related.imp fun _ _ both => both.1), unmarked]
    exact Bool.false_ne_true
  have again : (normalized.mapM fun entry => (normalizeLevels python objects calls levels
      entry.2).map fun item => (entry.1, item)) = .ok normalized := by
    refine mapM_ok_iff.mpr (forall₂_right related fun _ entry both => ?_)
    rw [both.2]
    rfl
  rw [normalizeLevels, if_neg free]
  change (normalized.mapM (fun entry => (normalizeLevels python objects calls levels entry.2).map
    fun item => (entry.1, item)) >>= _) = _
  rw [again]
  rfl

/-- What normalisation returns is normalised to itself. -/
theorem normalizeLevels_idem (ints : ∀ value, objects.int (.int value) = some value)
    (named : ∀ truth identity model ids,
      objects.form truth identity = .records model ids → model ≠ "")
    {levels : Nat} {output result : RawOutput}
    (ready : JsonReady objects calls True levels output)
    (ends : normalizeLevels python objects calls levels output = .ok result) :
    normalizeLevels python objects calls levels result = .ok result := by
  induction levels generalizing output result with
  | zero =>
      cases ends
      rw [normalizeLevels, plain, python.str_str]
  | succ levels ih =>
      cases output with
      | none | bool | int | str =>
          cases ends
          rfl
      | list items | tuple items =>
          rw [JsonReady] at ready
          obtain ⟨results, mapped, rfl⟩ := map_eq_ok ends
          rw [normalizeLevels,
            mapM_of_normalized python (fun item member _ => ih (ready item member)) mapped]
          rfl
      | dict keyFirst entries =>
          rw [JsonReady] at ready
          rw [normalizeLevels] at ends
          split at ends
          · obtain ⟨given, _, ends⟩ := bind_eq_ok ends
            obtain ⟨refs, _, ends⟩ := bind_eq_ok ends
            obtain ⟨normalized, mapped, ends⟩ := bind_eq_ok ends
            obtain ⟨count, _, ends⟩ := bind_eq_ok ends
            obtain ⟨model, _, ends⟩ := bind_eq_ok ends
            obtain ⟨truncated, _, ends⟩ := bind_eq_ok ends
            cases ends
            refine normalizeLevels_marker python ints levels _ _ (areRefs_of_normalized mapped) ?_
            split
            · exact .inl ⟨_, rfl⟩
            · exact .inr ⟨_, rfl⟩
            · exact .inl ⟨_, rfl⟩
          · next free =>
            rw [if_neg free] at ready
            obtain ⟨pairs, given, ends⟩ := bind_eq_ok ends
            obtain ⟨normalized, mapped, ends⟩ := bind_eq_ok ends
            cases ends
            obtain ⟨others, read, unmarked, each⟩ := ready
            cases read.symm.trans given
            exact normalizeLevels_dict python (unmarked trivial)
              (fun pair member _ => ih (each pair member).2) mapped
      | object truth identity =>
          rw [JsonReady] at ready
          rw [normalizeLevels] at ends
          split at ends
          · next form =>
              cases ends
              rw [normalizeLevels, form]
          · cases ends
            rfl
          · next model ids form =>
              cases ends
              exact normalizeLevels_marker python ints levels _ _
                (areRefs_records (named _ _ model ids form) _) (.inl ⟨_, rfl⟩)
          · next items form =>
            obtain ⟨results, mapped, rfl⟩ := map_eq_ok ends
            rw [normalizeLevels,
              mapM_of_normalized python (fun item member _ => ih (ready items form item member))
                mapped]
            rfl

end Twice

/-- Without the demand on called `items`, less is demanded. -/
theorem JsonReady.weaken {levels : Nat} {output : RawOutput}
    (ready : JsonReady objects calls True levels output) :
    JsonReady objects calls False levels output := by
  induction levels generalizing output with
  | zero => trivial
  | succ levels ih =>
      cases output with
      | none | bool | int | str => trivial
      | list items | tuple items =>
          rw [JsonReady] at ready ⊢
          exact fun item member => ih (ready item member)
      | dict keyFirst entries =>
          rw [JsonReady] at ready ⊢
          split
          · next marked => rwa [if_pos marked] at ready
          · next free =>
            rw [if_neg free] at ready
            obtain ⟨pairs, read, _, each⟩ := ready
            exact ⟨pairs, read, False.elim, fun pair member =>
              ⟨(each pair member).1, ih (each pair member).2⟩⟩
      | object truth identity =>
          rw [JsonReady] at ready ⊢
          exact fun items form item member => ih (ready items form item member)

end Outputs

/-!
## Outputs without wrapped dictionaries
-/

section Values

variable (python : Python) (objects : Objects) (calls : Calls)

mutual

theorem plain_ofValue : ∀ value : Value, (ofValue value).plain = value
  | .none | .bool _ | .int _ | .str _ | .object _ _ => rfl
  | .list items => congrArg Value.list (plainItems_ofItems items)
  | .tuple items => congrArg Value.tuple (plainItems_ofItems items)
  | .dict entries => congrArg Value.dict (plainEntries_ofEntries entries)

theorem plainItems_ofItems : ∀ items : List Value, plainItems (ofItems items) = items
  | [] => rfl
  | item :: items => congrArg₂ List.cons (plain_ofValue item) (plainItems_ofItems items)

theorem plainEntries_ofEntries : ∀ entries : List (Value × Value),
    plainEntries (ofEntries entries) = entries
  | [] => rfl
  | (key, item) :: entries =>
      congrArg₂ List.cons (congrArg (Prod.mk key) (plain_ofValue item))
        (plainEntries_ofEntries entries)

end

theorem ofItems_eq (items : List Value) : ofItems items = items.map ofValue := by
  induction items with
  | nil => rfl
  | cons item items ih => exact congrArg _ ih

theorem ofEntries_eq (entries : List (Value × Value)) :
    ofEntries entries = entries.map fun entry => (entry.1, ofValue entry.2) := by
  induction entries with
  | nil => rfl
  | cons entry entries ih => exact congrArg _ ih

theorem lookup_ofEntries (key : Value) (entries : List (Value × Value)) :
    (ofEntries entries).lookup key = (entries.lookup key).map ofValue := by
  induction entries with
  | nil => rfl
  | cons entry entries ih =>
      rw [ofEntries, List.lookup_cons, List.lookup_cons]
      split
      · rfl
      · exact ih

theorem get_ofEntries (entries : List (Value × Value)) (key : String) :
    get calls false (ofEntries entries) key = .ok (ofValue (dictGet entries key)) := by
  have found : ((ofEntries entries).lookup (.str key)).getD .none =
      ofValue (dictGet entries key) := by
    rw [lookup_ofEntries, dictGet]
    cases entries.lookup (.str key) with
    | none => rfl
    | some value => rfl
  exact congrArg Except.ok found

theorem orEmpty_ofValue (value : Value) :
    (ofValue value).orEmpty = ofValue (value.orElse (.list [])) := by
  rw [orEmpty, plain_ofValue, Value.orElse]
  split
  · rfl
  · rfl

theorem iterate_ofValue (value : Value) :
    iterate objects (ofValue value) = (Executor.iterate objects value).map ofItems := by
  cases value with
  | none | bool | int | str | list | tuple | object => rfl
  | dict entries =>
      unfold ofValue iterate
      dsimp only
      rw [plain, plainEntries_ofEntries]

theorem normalizeRef_ofValue (ref : Value) :
    normalizeRef objects calls (ofValue ref) =
      .ok ((Executor.normalizeRef objects ref).map ofValue) := by
  cases ref with
  | none | bool | int | str | list | tuple | object => rfl
  | dict fields =>
      rw [ofValue, normalizeRef, get_ofEntries, get_ofEntries, Executor.normalizeRef]
      change (if (ofValue (dictGet fields "model")).plain.truthy = true then _ else _) = _
      rw [plain_ofValue, plain_ofValue]
      split
      · cases objects.int (dictGet fields "id") with
        | none => rfl
        | some id => rfl
      · rfl

theorem buildRecordRefsMarker_ofValue (model : String) (ids : List Int) :
    buildRecordRefsMarker model ids = ofValue (Executor.buildRecordRefsMarker model ids) := by
  have refs : (ids.take maxRecordRefs).map (recordRef (.str model)) =
      ofItems ((ids.take maxRecordRefs).map (Executor.recordRef (.str model))) := by
    rw [ofItems_eq, List.map_map]
    rfl
  unfold buildRecordRefsMarker
  rw [refs]
  rfl

theorem normalizeMarker_ofEntries (entries : List (Value × Value)) :
    normalizeMarker objects calls false (ofEntries entries) =
      (Executor.normalizeMarker objects entries).map ofValue := by
  unfold normalizeMarker Executor.normalizeMarker
  simp only [get_ofEntries]
  change (iterate objects (ofValue (dictGet entries recordRefsKey)).orEmpty >>= _) = _
  rw [orEmpty_ofValue, iterate_ofValue]
  cases Executor.iterate objects ((dictGet entries recordRefsKey).orElse (.list [])) with
  | error error => rfl
  | ok refs =>
      have mapped : (ofItems refs).mapM (normalizeRef objects calls) =
          .ok (refs.map fun ref => (Executor.normalizeRef objects ref).map ofValue) := by
        rw [ofItems_eq]
        refine mapM_ok_iff.mpr ?_
        rw [List.forall₂_map_left_iff, List.forall₂_map_right_iff]
        exact List.forall₂_same.mpr fun ref _ => normalizeRef_ofValue objects calls ref
      have kept : (refs.map fun ref => (Executor.normalizeRef objects ref).map ofValue).reduceOption
          = ofItems (refs.filterMap (Executor.normalizeRef objects)) := by
        rw [ofItems_eq, List.reduceOption, List.filterMap_map, List.map_filterMap]
        rfl
      change ((ofItems refs).mapM (normalizeRef objects calls) >>= _) = _
      rw [mapped]
      change Except.ok (recordRefsMarker (List.reduceOption _) _ _ _) = Except.ok _
      rw [kept, plain_ofValue]
      have counted : (ofItems (refs.filterMap (Executor.normalizeRef objects))).length =
          (refs.filterMap (Executor.normalizeRef objects)).length := by
        rw [ofItems_eq, List.length_map]
      rw [counted]
      cases dictGet entries recordRefsCountKey with
      | none | bool | int | str | list | tuple | dict | object => rfl

variable {python objects calls} in
theorem items_normalized {levels : Nat} (each : ∀ value,
    normalizeLevels python objects calls levels (ofValue value) =
      (Executor.normalizeLevels python objects levels value).map ofValue)
    (entries : List (Value × Value)) :
    entries.mapM ((fun pair => (normalizeLevels python objects calls levels pair.2).map fun item =>
        (pair.1, item)) ∘ fun entry => (entry.1, ofValue entry.2)) =
      (entries.mapM fun entry => (Executor.normalizeLevels python objects levels entry.2).map
        fun item => (entry.1, item)).map (List.map fun entry => (entry.1, ofValue entry.2)) := by
  rw [← mapM_map_eq]
  congr 1
  funext entry
  rw [Function.comp_apply, each]
  cases Executor.normalizeLevels python objects levels entry.2 with
  | error error => rfl
  | ok result => rfl

/-- A value without a `MutableDotDict` is normalised as in the model without them. -/
theorem normalizeLevels_ofValue (levels : Nat) (value : Value) :
    normalizeLevels python objects calls levels (ofValue value) =
      (Executor.normalizeLevels python objects levels value).map ofValue := by
  induction levels generalizing value with
  | zero =>
      rw [normalizeLevels, plain_ofValue]
      rfl
  | succ levels ih =>
      have each (items : List Value) :
          ((ofItems items).mapM (normalizeLevels python objects calls levels)).map RawOutput.list =
            ((items.mapM (Executor.normalizeLevels python objects levels)).map Value.list).map
              ofValue := by
        rw [ofItems_eq, List.mapM_map]
        simp only [Function.comp_def, ih]
        rw [mapM_map_eq]
        cases items.mapM (Executor.normalizeLevels python objects levels) with
        | error error => rfl
        | ok results => exact congrArg (fun items => Except.ok (RawOutput.list items)) (ofItems_eq results).symm
      cases value with
      | none | bool | int | str => rfl
      | list items | tuple items => exact each items
      | dict entries =>
          rw [ofValue, normalizeLevels, Executor.normalizeLevels, lookup_ofEntries,
            Option.isSome_map]
          split
          · exact normalizeMarker_ofEntries objects calls entries
          · change ((ofEntries entries).mapM (fun pair =>
              (normalizeLevels python objects calls levels pair.2).map fun item => (pair.1, item))
                >>= _) = _
            rw [ofEntries_eq, List.mapM_map, items_normalized ih]
            cases entries.mapM (fun entry =>
              (Executor.normalizeLevels python objects levels entry.2).map fun item =>
                (entry.1, item)) with
            | error error => rfl
            | ok results =>
                exact congrArg (fun entries => Except.ok (RawOutput.dict false entries))
                  (ofEntries_eq results).symm
      | object truth identity =>
          rw [ofValue, normalizeLevels, Executor.normalizeLevels]
          cases objects.form truth identity with
          | itself | text => rfl
          | records model ids => exact congrArg Except.ok (buildRecordRefsMarker_ofValue model ids)
          | set items => exact each items

end Values

/-!
## Safe and stable
-/

section Safe

variable (python : Python) (objects : Objects) (calls : Calls)

/-- The output is normalised to a value that `json.dumps` takes and that stays as it is. -/
structure NormalizesTo (output result : RawOutput) : Prop where
  returns : normalizeOutputValue python objects calls output = .ok result
  dumps : JsonDumps objects calls result
  stable : normalizeOutputValue python objects calls result = .ok result

/-- At each level that is kept, a recordset becomes a marker with its size and its first
hundred ids. -/
def MarksRecords : Prop :=
  ∀ levels truth identity model ids, objects.form truth identity = .records model ids →
    normalizeLevels python objects calls (levels + 1) (.object truth identity) = .ok (.dict false [
      (.str recordRefsKey, .list ((ids.take 100).map fun id =>
        .dict false [(.str "model", .str model), (.str "id", .int id)])),
      (.str recordRefsModelKey, .str model),
      (.str recordRefsCountKey, .int ids.length),
      (.str recordRefsTruncatedKey, .bool (decide (100 < ids.length)))])

theorem marksRecords : MarksRecords python objects calls := by
  intro levels truth identity model ids form
  have longer : decide ((ids.take maxRecordRefs).length < ids.length) =
      decide (100 < ids.length) := by
    rw [List.length_take, maxRecordRefs]
    congr 1
    rw [eq_iff_iff]
    omega
  have marked := congrArg (fun truncated => (Except.ok (recordRefsMarker
    ((ids.take maxRecordRefs).map (recordRef (.str model))) (.str model) (.int ids.length)
    truncated) : Except String RawOutput)) longer
  rw [normalizeLevels, form]
  exact marked

/-- The output is normalised to a value that is safe and stable. -/
def Normalizes (output : RawOutput) : Prop :=
  (∃ result, NormalizesTo python objects calls output result) ∧ MarksRecords python objects calls

/-- Normalisation is safe and stable exactly if, down to the depth that is kept, all items can be
read, all keys are JSON keys and the markers have collections of references and models that can
be dumped. An `items` that is called and gives the marker key may be stable or not. -/
theorem normalize_jsonSafe_iff (ints : ∀ value, objects.int (.int value) = some value)
    (named : ∀ truth identity model ids,
      objects.form truth identity = .records model ids → model ≠ "") (output : RawOutput) :
    (Normalizes python objects calls output →
        JsonReady objects calls False (maxNormalizeDepth + 1) output) ∧
      (JsonReady objects calls True (maxNormalizeDepth + 1) output →
        Normalizes python objects calls output) := by
  constructor
  · rintro ⟨⟨result, normalizes⟩, _⟩
    exact (jsonReady_iff python).mp ⟨result, normalizes.returns, normalizes.dumps⟩
  · intro ready
    obtain ⟨result, returns, dumps⟩ := (jsonReady_iff python).mpr ready.weaken
    exact ⟨⟨result, returns, dumps, normalizeLevels_idem python ints named ready returns⟩,
      marksRecords python objects calls⟩

end Safe

/-- One recordset with two partners, and a date. -/
def demoObjects : Objects where
  form
    | _, 0 => .records "res.partner" [7, 9]
    | _, _ => .text "2024-01-31"
  int
    | .int value => some value
    | _ => Option.none
  iterate _ _ := Option.none

/-- No object can be called. -/
def demoCalls : Calls where
  items _ _ := Option.none
  get _ _ _ := Option.none

theorem partners_jsonSafe :
    Normalizes textPython demoObjects demoCalls
      (.dict true [(.str "partners", .list [.object true 0])]) := by
  refine (normalize_jsonSafe_iff textPython demoObjects demoCalls (fun _ => rfl) ?_ _).2 ?_
  · intro truth identity model ids form
    cases identity with
    | zero =>
        cases form
        decide
    | succ identity => cases form
  · refine ⟨_, rfl, fun _ => by decide +kernel, fun pair member => ?_⟩
    rcases List.mem_singleton.mp member with rfl
    refine ⟨trivial, fun item member => ?_⟩
    rcases List.mem_singleton.mp member with rfl
    change ∀ items, demoObjects.form true 0 = .set items → _
    intro items form
    cases form

/-- A dictionary with a date for a key is returned as it is. A marker whose references are a
number raises, and so does a wrapped dictionary with a list under `items`. -/
theorem date_key_marker_number :
    normalizeOutputValue textPython demoObjects demoCalls (.dict false [(.object true 1, .int 3)]) =
        .ok (.dict false [(.object true 1, .int 3)]) ∧
      ¬ JsonDumps demoObjects demoCalls (.dict false [(.object true 1, .int 3)]) ∧
      normalizeOutputValue textPython demoObjects demoCalls
        (.dict false [(.str recordRefsKey, .int 5)]) = .error "'int' object is not iterable" ∧
      normalizeOutputValue textPython demoObjects demoCalls
        (.dict true [(.str "items", .list [.int 1])]) = .error "object is not callable" := by
  refine ⟨rfl, fun dumps => ?_, rfl, rfl⟩
  have key := (jsonDumps_dict_iff.mp dumps _ List.mem_cons_self).1
  cases key

end WorkflowStudio.Executor.RawOutput

import Mathlib.Data.List.ReduceOption
import WorkflowStudio.Expression.TargetRecords
import WorkflowStudio.Expression.InjectionProperties

/-! Which records a node touches: the integer ids of its expression as long as
there is one, and what its domain finds within its limit when there is none. -/

set_option autoImplicit false

namespace WorkflowStudio.Expression

open Lib

/-!
## The ids of a value
-/

/-- The values that the ids of a value are read from. -/
def idItems (integers : Integers) : Value → List Value
  | .int value => [.int value]
  | .bool value => [.bool value]
  | .list items | .tuple items => items
  | .none | .str "" => []
  | value => (integers.members value).getD []

/-- An integer id that a value stands for. -/
def IsId (integers : Integers) (value : Value) (id : Int) : Prop :=
  ∃ item ∈ idItems integers value, integers.int item = .ok id

section Ids

variable (integers : Integers)

theorem tryInt_ok_iff {value : Value} {id : Int} :
    (tryInt integers value).outcome = .ok (some id) ↔ integers.int value = .ok id := by
  unfold tryInt
  split
  · next found int => simp [int, Logged.done]
  · next raised int =>
      split
      · simp [int, Logged.done]
      · simp [int, Logged.fail]

theorem mem_integersOf {items : List Value} {ids : List Int}
    (ends : (integersOf integers items).outcome = .ok ids) (id : Int) :
    id ∈ ids ↔ ∃ item ∈ items, integers.int item = .ok id := by
  obtain ⟨found, each, same⟩ := Logged.bind_ok_iff.mp ends
  cases same
  have related := Logged.each_ok each
  clear each ends
  rw [List.reduceOption_mem_iff]
  induction related with
  | nil => simp
  | @cons item result items found here _ ih =>
      have same : some id = result ↔ integers.int item = .ok id := by
        rw [← tryInt_ok_iff, here, Except.ok.injEq, eq_comm]
      simp [ih, same]

theorem mem_idsOfMembers {members : Option (List Value)} {ids : List Int}
    (ends : (idsOfMembers integers members).outcome = .ok ids) (id : Int) :
    id ∈ ids ↔ ∃ item ∈ members.getD [], integers.int item = .ok id := by
  cases members with
  | none => cases ends
  | some items => exact mem_integersOf integers ends id

theorem idsOf_text {text : String} (some : text ≠ "") :
    idsOf integers (.str text) = idsOfMembers integers (integers.members (.str text)) := by
  rw [idsOf] <;> simp [some]

theorem mem_idsOf {value : Value} {ids : List Int}
    (ends : (idsOf integers value).outcome = .ok ids) (id : Int) :
    id ∈ ids ↔ IsId integers value id := by
  cases value with
  | none =>
      cases ends
      simp [IsId, idItems]
  | int value =>
      cases ends
      simp [IsId, idItems, integers.int_int, eq_comm]
  | bool value =>
      cases ends
      simp [IsId, idItems, integers.int_bool, eq_comm]
  | list items => exact mem_integersOf integers ends id
  | tuple items => exact mem_integersOf integers ends id
  | str text =>
      by_cases empty : text = ""
      · subst empty
        cases ends
        simp [IsId, idItems]
      · rw [idsOf_text integers empty] at ends
        rw [mem_idsOfMembers integers ends]
        simp [IsId, idItems, empty]
  | dict entries => exact mem_idsOfMembers integers ends id
  | object truth identity => exact mem_idsOfMembers integers ends id

/-- The kinds of values that ids are read from. -/
def readsIds : Value → Bool
  | .none | .str "" | .int _ | .bool _ | .list _ | .tuple _ => true
  | value => (integers.members value).isSome

theorem readsIds_text {text : String} (some : text ≠ "") :
    readsIds integers (.str text) = (integers.members (.str text)).isSome := by
  rw [readsIds] <;> simp [some]

theorem isSome_of_idsOfMembers {members : Option (List Value)} {ids : List Int}
    (ends : (idsOfMembers integers members).outcome = .ok ids) : members.isSome = true := by
  cases members with
  | none => cases ends
  | some items => rfl

theorem readsIds_of_ok {value : Value} {ids : List Int}
    (ends : (idsOf integers value).outcome = .ok ids) : readsIds integers value = true := by
  cases value with
  | str text =>
      by_cases empty : text = ""
      · rw [empty]
        rfl
      · rw [idsOf_text integers empty] at ends
        rw [readsIds_text integers empty]
        exact isSome_of_idsOfMembers integers ends
  | dict entries => exact isSome_of_idsOfMembers integers ends
  | object truth identity => exact isSome_of_idsOfMembers integers ends
  | _ => rfl

end Ids

/-!
## Target records
-/

section Targets

variable (python : Python) (integers : Integers) (evaluator : Evaluator)
variable (env : String → Except String Model)

/-- The records are what a search for the domain of the node finds. -/
def FoundBy (config : RecordConfig) (records : List Int) : Prop :=
  ∃ modelName model domain limit,
    (resolveModelName python evaluator config.model).outcome = .ok modelName ∧
      env modelName = .ok model ∧
      (resolveNodeDomain python evaluator config.toNodeConfig).outcome = .ok domain ∧
      (resolveInt python integers evaluator config.limit none).outcome = .ok limit ∧
      model.search domain (limitOrNone limit) = .ok records

variable {env}

theorem FoundBy.limited {config : RecordConfig} {records : List Int}
    (found : FoundBy python integers evaluator env config records) {limit : Int}
    (configured : (resolveInt python integers evaluator config.limit none).outcome =
      .ok (some limit)) (nonzero : limit ≠ 0) : (records.length : Int) ≤ limit := by
  obtain ⟨_, model, domain, resolved, _, _, _, same, search⟩ := found
  rw [configured] at same
  cases same
  have bounded : limitOrNone (some limit) = some limit := by
    unfold limitOrNone
    split
    · next zero => exact absurd (Option.some.inj zero) nonzero
    · rfl
  rw [bounded] at search
  exact model.search_limited _ _ _ search

variable {model : Model} {config : RecordConfig} {records : List Int}

theorem resolveTargetRecords_ok
    (ends : (resolveTargetRecords python integers evaluator model config).outcome =
      .ok records) :
    ∃ ids, (resolveIds python integers evaluator config).outcome = .ok ids ∧
      (ids ≠ [] → records = ids) ∧
      (ids = [] → ∃ domain limit,
        (resolveNodeDomain python evaluator config.toNodeConfig).outcome = .ok domain ∧
          (resolveInt python integers evaluator config.limit none).outcome = .ok limit ∧
          model.search domain (limitOrNone limit) = .ok records) := by
  obtain ⟨ids, resolved, ends⟩ := Logged.bind_ok_iff.mp ends
  refine ⟨ids, resolved, ?_, ?_⟩
  · intro some
    rw [if_pos some] at ends
    cases ends
    rfl
  · intro empty
    rw [if_neg (not_not_intro empty)] at ends
    obtain ⟨domain, here, ends⟩ := Logged.bind_ok_iff.mp ends
    obtain ⟨limit, there, search⟩ := Logged.bind_ok_iff.mp ends
    exact ⟨domain, limit, here, there, search⟩

theorem runWrite_ok
    (ends : (runWrite python integers evaluator model config).outcome = .ok (some records)) :
    records ≠ [] ∧
      (resolveTargetRecords python integers evaluator model config).outcome = .ok records := by
  obtain ⟨vals, _, ends⟩ := Logged.bind_ok_iff.mp ends
  split at ends
  · obtain ⟨found, resolved, touched⟩ := Logged.bind_ok_iff.mp ends
    have same := Except.ok.inj touched
    rw [Option.ite_none_left_eq_some] at same
    obtain ⟨nonempty, same⟩ := same
    cases same
    exact ⟨fun empty => nonempty (List.length_eq_zero_iff.mpr empty), resolved⟩
  · cases ends

theorem runDelete_ok
    (ends : (runDelete python integers evaluator model config).outcome = .ok (some records)) :
    records ≠ [] ∧
      (resolveTargetRecords python integers evaluator model config).outcome = .ok records := by
  obtain ⟨found, resolved, touched⟩ := Logged.bind_ok_iff.mp ends
  have same := Except.ok.inj touched
  rw [Option.ite_none_left_eq_some] at same
  obtain ⟨nonempty, same⟩ := same
  cases same
  refine ⟨?_, resolved⟩
  rintro rfl
  exact nonempty rfl

theorem execute_ok
    (touched : (execute python integers evaluator env config).outcome = .ok (some records)) :
    ∃ modelName model,
      (resolveModelName python evaluator config.model).outcome = .ok modelName ∧
        env modelName = .ok model ∧ records ≠ [] ∧
        (resolveTargetRecords python integers evaluator model config).outcome = .ok records := by
  obtain ⟨modelName, named, touched⟩ := Logged.bind_ok_iff.mp touched
  split at touched
  · cases touched
  · obtain ⟨model, found, touched⟩ := Logged.bind_ok_iff.mp touched
    split at touched
    · cases touched
    · split at touched
      · exact ⟨modelName, model, named, found, runWrite_ok python integers evaluator touched⟩
      · split at touched
        · exact ⟨modelName, model, named, found, runDelete_ok python integers evaluator touched⟩
        · cases touched

/-- A node touches the records that its ids name, and without an id the records that
its domain finds, no more than its limit. -/
theorem touched_records {idsExpr : Value} (set : config.idsExpr = some idsExpr)
    (touched : (execute python integers evaluator env config).outcome = .ok (some records)) :
    records ≠ [] ∧
      ∃ value, (resolve python evaluator idsExpr).outcome = .ok value ∧
        readsIds integers value = true ∧
        ((∃ id, IsId integers value id) → ∀ id, id ∈ records ↔ IsId integers value id) ∧
        ((∀ id, ¬ IsId integers value id) →
          FoundBy python integers evaluator env config records ∧
            ∀ limit, (resolveInt python integers evaluator config.limit none).outcome =
              .ok (some limit) → limit ≠ 0 → (records.length : Int) ≤ limit) := by
  obtain ⟨modelName, model, named, known, nonempty, ends⟩ :=
    execute_ok python integers evaluator touched
  obtain ⟨ids, resolved, chosen, searched⟩ :=
    resolveTargetRecords_ok python integers evaluator ends
  unfold resolveIds at resolved
  rw [set, Option.getD_some] at resolved
  obtain ⟨value, here, read⟩ := Logged.bind_ok_iff.mp resolved
  refine ⟨nonempty, value, here, readsIds_of_ok integers read, ?_, ?_⟩
  · rintro ⟨id, isId⟩
    have some : ids ≠ [] := List.ne_nil_of_mem ((mem_idsOf integers read id).mpr isId)
    rw [chosen some]
    exact mem_idsOf integers read
  · intro none
    have empty : ids = [] := by
      refine List.eq_nil_iff_forall_not_mem.mpr fun id member => ?_
      exact none id ((mem_idsOf integers read id).mp member)
    obtain ⟨domain, limit, domainOk, limitOk, search⟩ := searched empty
    have found : FoundBy python integers evaluator env config records :=
      ⟨modelName, model, domain, limit, named, known, domainOk, limitOk, search⟩
    exact ⟨found, fun limit configured => found.limited python integers evaluator configured⟩

/-- Every record that a node touches is named by its ids, and there are no more of
them than its limit. -/
def NamedAndLimited (env : String → Except String Model) (config : RecordConfig) : Prop :=
  ∀ idsExpr value records, config.idsExpr = some idsExpr →
    (resolve python evaluator idsExpr).outcome = .ok value →
    (execute python integers evaluator env config).outcome = .ok (some records) →
    (∀ id ∈ records, IsId integers value id) ∧
      ∀ limit, (resolveInt python integers evaluator config.limit none).outcome =
        .ok (some limit) → (records.length : Int) ≤ limit

end Targets

/-- Integers that are read from integers only. -/
def plainIntegers : Integers where
  int
    | .int value => .ok value
    | .bool value => .ok (if value then 1 else 0)
    | _ => .error "TypeError"
  members _ := none
  int_int _ := rfl
  int_bool _ := rfl

/-- A model with three records, all of them in every domain. -/
def threeRecords : Model where
  coerceFieldValue _ value := value
  search
    | _, none => .ok [1, 2, 3]
    | _, some limit =>
        if limit < 0 then .error "LIMIT must not be negative"
        else .ok ([1, 2, 3].take limit.toNat)
  search_limited := by
    intro domain limit records found
    simp only at found
    split at found
    · cases found
    · cases found
      have short := List.length_take_le limit.toNat [(1 : Int), 2, 3]
      omega

def threeEnv : String → Except String Model := fun _ => .ok threeRecords

/-- The deletion of what an earlier node found. -/
def deletion (limit : Value) : RecordConfig where
  domainExpr := .str "[]"
  valsExpr := .none
  operation := .str "delete"
  model := .str "res.partner"
  idsExpr := some (.str "=\x7b\x7b found \x7d\x7d")
  limit := limit

def foundIds (ids : List Int) : Value := .list (ids.map .int)

/-- The ids that were found are deleted, and no others. -/
theorem found_touched :
    [2, 3] ≠ ([] : List Int) ∧
      ∃ value, (resolve textPython (constantly (foundIds [2, 3]))
          (.str "=\x7b\x7b found \x7d\x7d")).outcome = .ok value ∧
        readsIds plainIntegers value = true ∧
        ((∃ id, IsId plainIntegers value id) → ∀ id, id ∈ [2, 3] ↔ IsId plainIntegers value id) ∧
        ((∀ id, ¬ IsId plainIntegers value id) →
          FoundBy textPython plainIntegers (constantly (foundIds [2, 3])) threeEnv
              (deletion (.int 1)) [2, 3] ∧
            ∀ limit, (resolveInt textPython plainIntegers (constantly (foundIds [2, 3]))
              (deletion (.int 1)).limit none).outcome = .ok (some limit) → limit ≠ 0 →
                (([2, 3] : List Int).length : Int) ≤ limit) :=
  touched_records textPython plainIntegers (constantly (foundIds [2, 3])) rfl (by decide +kernel)

/-- When nothing was found, everything is deleted; a limit of zero does not hold it
back, and ids are not limited. -/
theorem nothing_found_deletes_all :
    (execute textPython plainIntegers (constantly (foundIds [])) threeEnv
        (deletion .none)).outcome = .ok (some [1, 2, 3]) ∧
      ¬ NamedAndLimited textPython plainIntegers (constantly (foundIds [])) threeEnv
        (deletion .none) ∧
      (execute textPython plainIntegers (constantly (foundIds [])) threeEnv
        (deletion (.int 0))).outcome = .ok (some [1, 2, 3]) ∧
      ¬ NamedAndLimited textPython plainIntegers (constantly (foundIds [1, 2])) threeEnv
        (deletion (.int 1)) := by
  have all : (execute textPython plainIntegers (constantly (foundIds [])) threeEnv
      (deletion .none)).outcome = .ok (some [1, 2, 3]) := by decide +kernel
  have zero : (execute textPython plainIntegers (constantly (foundIds [])) threeEnv
      (deletion (.int 0))).outcome = .ok (some [1, 2, 3]) := by decide +kernel
  have two : (execute textPython plainIntegers (constantly (foundIds [1, 2])) threeEnv
      (deletion (.int 1))).outcome = .ok (some [1, 2]) := by decide +kernel
  have one : (resolveInt textPython plainIntegers (constantly (foundIds [1, 2]))
      (deletion (.int 1)).limit none).outcome = .ok (some 1) := by decide +kernel
  refine ⟨all, fun named => ?_, zero, fun limited => ?_⟩
  · have isId := (named _ (foundIds []) _ rfl (by decide +kernel) all).1 1 List.mem_cons_self
    obtain ⟨item, member, _⟩ := isId
    cases member
  · have short := (limited _ (foundIds [1, 2]) _ rfl (by decide +kernel) two).2 1 one
    exact absurd short (by decide)

end WorkflowStudio.Expression

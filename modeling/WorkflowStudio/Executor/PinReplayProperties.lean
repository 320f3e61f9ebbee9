import WorkflowStudio.Executor.OutputValue
import WorkflowStudio.Executor.PreviewProperties
import WorkflowStudio.Lib.Attempts

/-! When the routing of a pinned value repeats the routing of the result that was pinned. -/

set_option autoImplicit false

namespace WorkflowStudio.Executor

open Lib Expression

/-!
## Values
-/

section Values

variable {python : Python} {objects : Objects}

/-- The items of a value that is normalised to a list. -/
inductive Normalizes (python : Python) (objects : Objects) : Value → Value → Prop
  | plain (value : Value) (single : ∀ items, value ≠ .list items ∧ value ≠ .tuple items)
      (itself : ∀ truth identity, value = .object truth identity →
        objects.form truth identity = .itself) :
      Normalizes python objects value value
  | text (value : Value) (printed : String) : Normalizes python objects value (.str printed)
  | dict (value : Value) (entries : List (Value × Value)) :
      Normalizes python objects value (.dict entries)
  | items (value : Value) (levels : Nat) (items results : List Value)
      (collected : items.mapM (normalizeLevels python objects levels) = .ok results)
      (listed : value = .list items ∨ value = .tuple items ∨
        ∃ truth identity, value = .object truth identity ∧
          objects.form truth identity = .set items) :
      Normalizes python objects value (.list results)

theorem normalizes {levels : Nat} {value result : Value}
    (normalized : normalizeLevels python objects levels value = .ok result) :
    Normalizes python objects value result := by
  cases levels with
  | zero =>
      cases normalized
      exact .text value _
  | succ levels =>
      unfold normalizeLevels at normalized
      cases value with
      | none | bool | int | str =>
          cases normalized
          exact .plain _ (by simp) (by simp)
      | list items =>
          obtain ⟨results, collected, rfl⟩ := map_eq_ok normalized
          exact .items _ levels items results collected (.inl rfl)
      | tuple items =>
          obtain ⟨results, collected, rfl⟩ := map_eq_ok normalized
          exact .items _ levels items results collected (.inr (.inl rfl))
      | dict entries =>
          dsimp only at normalized
          split at normalized
          · obtain ⟨_, _, rfl⟩ := map_eq_ok normalized
            exact .dict _ _
          · obtain ⟨_, _, rfl⟩ := map_eq_ok normalized
            exact .dict _ _
      | object truth identity =>
          dsimp only at normalized
          split at normalized
          · rename_i form
            cases normalized
            refine .plain _ (by simp) ?_
            rintro _ _ ⟨⟩
            exact form
          · cases normalized
            exact .text _ _
          · cases normalized
            exact .dict _ _
          · rename_i items form
            obtain ⟨results, collected, rfl⟩ := map_eq_ok normalized
            exact .items _ levels items results collected (.inr (.inr ⟨_, _, rfl, form⟩))

/-- No value is normalised to the list of itself. -/
theorem normalizeLevels_ne_singleton (levels : Nat) (value : Value) :
    normalizeLevels python objects levels value ≠ .ok (.list [value]) := by
  intro normalized
  generalize listed : Value.list [value] = result at normalized
  cases normalizes normalized with
  | plain single _ => exact (single [value]).1 listed.symm
  | text | dict => cases listed
  | items inner items results collected origin =>
      cases listed
      obtain ⟨item, rfl, kept⟩ : ∃ item, items = [item] ∧
          normalizeLevels python objects inner item = .ok value := by
        cases mapM_ok_iff.mp collected with
        | cons first rest =>
            cases rest with
            | nil => exact ⟨_, rfl, first⟩
      obtain rfl | rfl | ⟨truth, identity, rfl, form⟩ := origin
      · exact normalizeLevels_ne_singleton inner item kept
      · generalize same : Value.tuple [item] = tupled at kept
        cases normalizes kept with
        | plain single _ => exact (single [item]).2 same.symm
        | text | dict | items => cases same
      · generalize same : Value.object truth identity = object at kept
        cases normalizes kept with
        | plain _ itself =>
            rw [itself truth identity same.symm] at form
            cases form
        | text | dict | items => cases same
  termination_by sizeOf value

/-- A value that a pin passes on as it is: normalisation leaves it alone, and it is
neither null nor a list without items or with a single one. -/
def PinPasses (python : Python) (objects : Objects) (value : Value) : Prop :=
  normalizeOutputValue python objects value = .ok value ∧ value ≠ .none ∧ value ≠ .list [] ∧
    ∀ item, value ≠ .list [item]

/-- What a routed socket hands on of its items. -/
def handedOn : List Value → Option Value
  | [] => none
  | first :: rest => some (inputOf first rest)

/-- The items of the socket of a pinned value. -/
def pinnedItems : Value → List Value
  | .none => []
  | .list items => items
  | value => [value]

theorem pinnedOutputs_eq (outputIndex : Nat) (value : Value) :
    (pinnedOutputs outputIndex value).1 = List.replicate outputIndex [] ++ [pinnedItems value] := by
  cases value with
  | none | bool | int | str | list | tuple | dict | object => rfl

theorem handedOn_pinned_iff {value normalized : Value}
    (outcome : normalizeOutputValue python objects value = .ok normalized) :
    handedOn (pinnedItems normalized) = some value ↔ PinPasses python objects value := by
  unfold PinPasses
  rw [outcome, Except.ok.injEq]
  constructor
  · intro passed
    cases normalized with
    | none => cases passed
    | list items =>
        cases items with
        | nil => cases passed
        | cons first rest =>
            cases rest with
            | nil =>
                cases passed
                exact absurd outcome (normalizeLevels_ne_singleton _ _)
            | cons second rest =>
                cases passed
                exact ⟨rfl, by simp [inputOf], by simp [inputOf], by simp [inputOf]⟩
    | bool | int | str | tuple | dict | object =>
        cases passed
        exact ⟨rfl, by simp [inputOf], by simp [inputOf], by simp [inputOf]⟩
  · rintro ⟨rfl, some, empty, single⟩
    cases normalized with
    | none => exact absurd rfl some
    | list items =>
        cases items with
        | nil => exact absurd rfl empty
        | cons first rest =>
            cases rest with
            | nil => exact absurd rfl (single first)
            | cons second rest => rfl
    | bool | int | str | tuple | dict | object => rfl

end Values

/-!
## Routing
-/

/-- The outputs have one value, at one socket. -/
def OnlyAt (index : Nat) (value : Value) (outputs : List (List Value)) : Prop :=
  outputs[index]? = some [value] ∧ ∀ other, other ≠ index → outputs[other]?.getD [] = []

/-- A connection of the node with a target leaves from the socket. -/
def Leaves (executor : WorkflowExecutor) (nodeId : String) (sockets : List String)
    (index : Nat) : Prop :=
  ∃ conn ∈ executor.snapshot.connectionsBySource nodeId,
    (present conn.target).isSome = true ∧
      socketToIndex sockets (conn.sourceHandle.getD (some "output")) = some index

/-- The result of a pin is built and is routed as the live result is. -/
def PinReplays (executor : WorkflowExecutor) (entry : StackEntry)
    (built : Except String NodeOutput) (live : NodeOutput) : Prop :=
  ∃ pinned, built = .ok pinned ∧
    ∀ stack executedConnections,
      (routeOutputs executor entry pinned stack executedConnections).stack =
        (routeOutputs executor entry live stack executedConnections).stack

theorem nodup_outputSockets (schema : OrderedMap String Value) :
    (outputSockets schema).Nodup :=
  schema.keys_nodup.filter _

theorem pinnedIndex_getElem {schema : OrderedMap String Value} {index : Nat} {name : String}
    (named : (outputSockets schema)[index]? = some name) :
    pinnedIndex (outputSockets schema) (some name) = index := by
  obtain ⟨within, same⟩ := List.getElem?_eq_some_iff.mp named
  have member : name ∈ outputSockets schema := List.mem_of_getElem? named
  have nonempty : name ≠ "" := by
    simpa using (List.mem_filter.mp member).2
  have named_ : present (some name) = some name := present_eq_some.mpr ⟨rfl, nonempty⟩
  unfold pinnedIndex socketToIndex
  rw [named_, Option.getD_some, named_]
  dsimp only
  rw [if_pos member, Option.getD_some, ← same]
  exact (nodup_outputSockets schema).idxOf_getElem index within

section Routing

variable {executor : WorkflowExecutor} {entry : StackEntry} {sockets : List String}

/-- What a connection pushes when only one socket has items. -/
theorem entryPushedBy_alone {outputs : List (List Value)} {index : Nat} {items : List Value}
    (at_ : outputs[index]? = some items) (others : ∀ other, other ≠ index →
      outputs[other]?.getD [] = []) (conn : Connection) :
    entryPushedBy sockets entry outputs conn =
      match present conn.target with
      | none => none
      | some target =>
          if socketToIndex sockets (conn.sourceHandle.getD (some "output")) = some index then
            (handedOn items).map fun inputData =>
              { nodeId := target, inputData := inputData, origin := entry.origin }
          else none := by
  unfold entryPushedBy
  cases present conn.target with
  | none => rfl
  | some target =>
      cases socketToIndex sockets (conn.sourceHandle.getD (some "output")) with
      | none => rfl
      | some reached =>
          dsimp only
          by_cases same : reached = index
          · rw [same, at_, if_pos rfl]
            cases items with
            | nil => rfl
            | cons first rest => rfl
          · have empty := others reached same
            rw [if_neg (by simpa using same)]
            cases found : outputs[reached]? with
            | none => rfl
            | some parts =>
                rw [found] at empty
                cases empty
                rfl

theorem replicate_only (index : Nat) (items : List Value) :
    (List.replicate index [] ++ [items])[index]? = some items ∧
      ∀ other, other ≠ index → (List.replicate index [] ++ [items])[other]?.getD [] = [] := by
  constructor
  · simp
  · intro other different
    rcases Nat.lt_or_gt_of_ne different with before | after
    · rw [List.getElem?_append_left (by simpa using before)]
      simp [before]
    · rw [List.getElem?_eq_none (by simp; omega)]
      rfl

/-- The connections that hand on what one socket has. -/
def pushedFrom (sockets : List String) (entry : StackEntry) (index : Nat)
    (handed : Option Value) (conns : List Connection) : List StackEntry :=
  conns.filterMap fun conn =>
    match present conn.target with
    | none => none
    | some target =>
        if socketToIndex sockets (conn.sourceHandle.getD (some "output")) = some index then
          handed.map fun inputData =>
            { nodeId := target, inputData := inputData, origin := entry.origin }
        else none

theorem pushedFrom_eq_nil {index : Nat} {handed : Option Value} {conns : List Connection}
    (silent : ¬ ∃ conn ∈ conns, (present conn.target).isSome = true ∧
      socketToIndex sockets (conn.sourceHandle.getD (some "output")) = some index) :
    pushedFrom sockets entry index handed conns = [] := by
  unfold pushedFrom
  rw [List.filterMap_eq_nil_iff]
  intro conn member
  cases target : present conn.target with
  | none => rfl
  | some target =>
      dsimp only
      rw [if_neg]
      intro reached
      exact silent ⟨conn, member, by rw [target]; rfl, reached⟩

theorem mem_pushedFrom {index : Nat} {handed : Option Value} {conns : List Connection}
    {pushed : StackEntry} (member : pushed ∈ pushedFrom sockets entry index handed conns) :
    handed = some pushed.inputData := by
  obtain ⟨conn, _, selected⟩ := List.mem_filterMap.mp member
  split at selected
  · cases selected
  · split at selected
    · obtain ⟨inputData, same, rfl⟩ := Option.map_eq_some_iff.mp selected
      exact same
    · cases selected

theorem pushedFrom_ne_nil {index : Nat} {value : Value} {conns : List Connection}
    (leaves : ∃ conn ∈ conns, (present conn.target).isSome = true ∧
      socketToIndex sockets (conn.sourceHandle.getD (some "output")) = some index) :
    pushedFrom sockets entry index (some value) conns ≠ [] := by
  obtain ⟨conn, member, targeted, reached⟩ := leaves
  obtain ⟨target, found⟩ := Option.isSome_iff_exists.mp targeted
  unfold pushedFrom
  intro empty
  have nothing := List.filterMap_eq_nil_iff.mp empty conn member
  rw [found] at nothing
  dsimp only at nothing
  rw [if_pos reached] at nothing
  cases nothing

variable (entry) in
theorem routeOutputs_alone {node : Node} {result : NodeOutput} {outputs : List (List Value)}
    {index : Nat} {items : List Value}
    (found : executor.snapshot.nodesById.get? entry.nodeId = some node)
    (declared : executor.nodeOutputSockets node.type = sockets)
    (routed : result.outputs = some outputs) (at_ : outputs[index]? = some items)
    (others : ∀ other, other ≠ index → outputs[other]?.getD [] = [])
    (stack : List StackEntry) (executedConnections : List ConnectionEvent) :
    (routeOutputs executor entry result stack executedConnections).stack =
      (pushedFrom sockets entry index (handedOn items)
        (executor.snapshot.connectionsBySource entry.nodeId)).reverse ++ stack := by
  unfold routeOutputs
  dsimp only
  rw [found, routed, Option.getD_some]
  dsimp only
  rw [declared, routeConnections_stack]
  unfold pushedFrom
  simp only [entryPushedBy_alone at_ others]

end Routing

/-- Two sockets push the same exactly when they hand on the same or nothing leaves. -/
theorem pushedFrom_eq_iff {sockets : List String} (entry : StackEntry) {index : Nat}
    {handed : Option Value} {value : Value} {conns : List Connection} :
    pushedFrom sockets entry index handed conns =
        pushedFrom sockets entry index (some value) conns ↔
      ((∃ conn ∈ conns, (present conn.target).isSome = true ∧
        socketToIndex sockets (conn.sourceHandle.getD (some "output")) = some index) →
        handed = some value) := by
  constructor
  · intro same leaves
    obtain ⟨pushed, member⟩ := List.exists_mem_of_ne_nil _ (pushedFrom_ne_nil leaves)
    rw [mem_pushedFrom member]
    rw [← same] at member
    exact mem_pushedFrom member
  · intro alike
    by_cases leaves : ∃ conn ∈ conns, (present conn.target).isSome = true ∧
        socketToIndex sockets (conn.sourceHandle.getD (some "output")) = some index
    · rw [alike leaves]
    · rw [pushedFrom_eq_nil leaves, pushedFrom_eq_nil leaves]

section Pinned

variable (python : Python) (objects : Objects) (executor : WorkflowExecutor)
  (entry : StackEntry) (node : Node) (schema : OrderedMap String Value) (index : Nat)
  (name : String) (value : Value) (live : NodeOutput) (outputs : List (List Value))

theorem normalized_pin_replays_iff
    (found : executor.snapshot.nodesById.get? entry.nodeId = some node)
    (declared : executor.nodeOutputSockets node.type = outputSockets schema)
    (routed : live.outputs = some outputs) (only : OnlyAt index value outputs)
    (metaFields : Value) :
    PinReplays executor entry
        ((normalizeOutputValue python objects value).map fun normalized =>
          { outputs := some (pinnedOutputs index normalized).1
            json := some (pinnedOutputs index normalized).2
            metaFields := some metaFields }) live ↔
      (∃ normalized, normalizeOutputValue python objects value = .ok normalized) ∧
        (Leaves executor entry.nodeId (outputSockets schema) index →
          PinPasses python objects value) := by
  cases outcome : normalizeOutputValue python objects value with
  | error error =>
      constructor
      · rintro ⟨_, raised, _⟩
        cases raised
      · rintro ⟨⟨_, raised⟩, _⟩
        cases raised
  | ok normalized =>
      have liveStack := routeOutputs_alone entry found declared routed only.1 only.2
      obtain ⟨at_, others⟩ := replicate_only index (pinnedItems normalized)
      rw [← pinnedOutputs_eq] at at_ others
      have pinnedStack (result : NodeOutput)
          (has : result.outputs = some (pinnedOutputs index normalized).1) :=
        routeOutputs_alone entry found declared has at_ others
      rw [← handedOn_pinned_iff outcome]
      unfold Leaves
      rw [← pushedFrom_eq_iff entry]
      constructor
      · rintro ⟨pinned, built, same⟩
        have unstacked := same [] []
        rw [pinnedStack pinned (by rw [← Except.ok.inj built]), liveStack, List.append_nil,
          List.append_nil] at unstacked
        exact ⟨⟨normalized, rfl⟩, List.reverse_injective unstacked⟩
      · rintro ⟨_, same⟩
        refine ⟨_, rfl, fun stack executedConnections => ?_⟩
        rw [pinnedStack _ rfl, liveStack, same]
        rfl

/-- A pin of a value that a result has at a socket repeats the routing of the result
exactly when the value can be normalised and, if a connection leaves the socket, is
passed on by the pin as it is. -/
theorem pin_replays_iff (found : executor.snapshot.nodesById.get? entry.nodeId = some node)
    (declared : executor.nodeOutputSockets node.type = outputSockets schema)
    (named : (outputSockets schema)[index]? = some name)
    (routed : live.outputs = some outputs) (only : OnlyAt index value outputs) (runId : Nat) :
    (PinReplays executor entry
        (buildInlinePinResult python objects (outputSockets schema) ⟨value, some name⟩) live ↔
      (∃ normalized, normalizeOutputValue python objects value = .ok normalized) ∧
        (Leaves executor entry.nodeId (outputSockets schema) index →
          PinPasses python objects value)) ∧
    (PinReplays executor entry
        (buildPinnedResult python objects (outputSockets schema)
          ⟨runId, none, value, some name⟩) live ↔
      (∃ normalized, normalizeOutputValue python objects value = .ok normalized) ∧
        (Leaves executor entry.nodeId (outputSockets schema) index →
          PinPasses python objects value)) := by
  have replays := normalized_pin_replays_iff python objects executor entry node schema index
    value live outputs found declared routed only
  have at_ := pinnedIndex_getElem named
  constructor
  · unfold buildInlinePinResult
    dsimp only
    rw [at_]
    exact replays _
  · unfold buildPinnedResult
    rw [show present (none : Option String) = none from rfl]
    dsimp only
    rw [at_]
    exact replays _

end Pinned

def floatObjects : Objects where
  form _ _ := .itself
  int _ := none
  iterate _ _ := none

def resultSchema : OrderedMap String Value := OrderedMap.ofList [("result", .none)]

def liveResult (value : Value) : NodeOutput where
  outputs := some [[value]]
  json := some value

theorem onlyAt_liveResult (value : Value) : OnlyAt 0 value [[value]] := by
  refine ⟨rfl, fun other different => ?_⟩
  rw [List.getElem?_eq_none (by simp; omega)]
  rfl

theorem pin_replays_iff_pair :
    PinReplays twoRoots ⟨"n_1", .none, "n_1"⟩
      (buildInlinePinResult textPython floatObjects (outputSockets resultSchema)
        ⟨.list [.int 1, .int 2], some "result"⟩) (liveResult (.list [.int 1, .int 2])) :=
  (pin_replays_iff textPython floatObjects twoRoots ⟨"n_1", .none, "n_1"⟩
    ⟨"n_1", "noop", none, [], []⟩ resultSchema 0 "result" (.list [.int 1, .int 2])
    (liveResult (.list [.int 1, .int 2])) _ (by decide) rfl (by decide) rfl
    (onlyAt_liveResult _) 1).1.mpr ⟨⟨_, rfl⟩, fun _ => ⟨rfl, by simp, by simp, by simp⟩⟩

theorem pinned_null_is_not_replayed :
    (routeOutputs twoRoots ⟨"n_1", .none, "n_1"⟩ (liveResult .none) [] []).stack =
        [⟨"n_2", .none, "n_1"⟩] ∧
      (buildInlinePinResult textPython floatObjects (outputSockets resultSchema)
        ⟨.none, some "result"⟩).map (fun pinned =>
          (routeOutputs twoRoots ⟨"n_1", .none, "n_1"⟩ pinned [] []).stack) = .ok [] ∧
      ¬ PinReplays twoRoots ⟨"n_1", .none, "n_1"⟩
        (buildInlinePinResult textPython floatObjects (outputSockets resultSchema)
          ⟨.none, some "result"⟩) (liveResult .none) := by
  have pushed : (routeOutputs twoRoots ⟨"n_1", .none, "n_1"⟩ (liveResult .none) [] []).stack =
      [⟨"n_2", .none, "n_1"⟩] := by decide
  have built : (buildInlinePinResult textPython floatObjects (outputSockets resultSchema)
      ⟨.none, some "result"⟩).map (fun pinned =>
        (routeOutputs twoRoots ⟨"n_1", .none, "n_1"⟩ pinned [] []).stack) = .ok [] := by decide
  refine ⟨pushed, built, ?_⟩
  rintro ⟨pinned, same, replayed⟩
  rw [same, Except.map, Except.ok.injEq, replayed, pushed] at built
  cases built

end WorkflowStudio.Executor

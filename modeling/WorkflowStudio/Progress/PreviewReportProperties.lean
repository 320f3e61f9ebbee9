import WorkflowStudio.Executor.ConservationProperties
import WorkflowStudio.Executor.MaskingProperties
import WorkflowStudio.Progress.PreviewReport

/-! What a preview shows: masking covers the values of the outputs, and everything else
is shown as it is, the json of every node in the context snapshot too. -/

set_option autoImplicit false

namespace WorkflowStudio.Progress

open Lib Expression Executor

/-!
## Dictionaries
-/

section Dictionaries

variable {isWord : Char → Bool} {objects : Objects}

theorem clean_dictOf_iff {fields : List (String × Value)} :
    Clean isWord objects (dictOf fields) ↔
      ∀ field ∈ fields, Unmatched isWord field.1 ∧ Clean isWord objects field.2 := by
  rw [dictOf, clean_dict_iff, List.forall_mem_map]
  simp only [clean_str_iff]

/-- The keys of the response and of its parts. -/
def reportKeys : List String :=
  ["status", "error", "error_node_id", "target_node_id", "execution_count", "executed_order",
    "node_outputs", "context_snapshot", "outputs", "json", "meta", "title", "node", "vars",
    "node_context", "execution", "workflow", "now", "today", "id", "name", "active", "completed",
    "failed"]

theorem unmatched_reportKeys {key : String} (among : key ∈ reportKeys) : Unmatched isWord key := by
  have plain : reportKeys.all isPlainText = true := by decide +kernel
  exact unmatched_of_plain isWord (List.all_eq_true.mp plain key among)

/-- Only the values matter under keys of the response. -/
theorem clean_report_iff {fields : List (String × Value)}
    (keys : ∀ field ∈ fields, field.1 ∈ reportKeys) :
    Clean isWord objects (dictOf fields) ↔
      ∀ field ∈ fields, Clean isWord objects field.2 := by
  rw [clean_dictOf_iff]
  constructor
  · exact fun clean field member => (clean field member).2
  · exact fun clean field member => ⟨unmatched_reportKeys (keys field member), clean field member⟩

theorem clean_textOrNone_iff {text : Option String} :
    Clean isWord objects (textOrNone text) ↔
      ∀ shown, text = some shown → Unmatched isWord shown := by
  cases text <;> simp [textOrNone]

theorem unmatched_iso {text : String} (iso : text.toList.all isoLetters.contains = true) :
    Unmatched isWord text := by
  have letters : isoLetters.all (fun letter => !(isLetter 'k' letter || letter == '@')) = true := by
    decide +kernel
  have plain : ∀ letter ∈ text.toList, isLetter 'k' letter = false ∧ (letter == '@') = false := by
    intro letter member
    have known := List.contains_iff_mem.mp (List.all_eq_true.mp iso letter member)
    have here := List.all_eq_true.mp letters letter known
    rwa [Bool.not_eq_true', Bool.or_eq_false_iff] at here
  exact unmatched_of_without isWord (by simp) (fun letter member => (plain letter member).1)
    fun letter member => (plain letter member).2

end Dictionaries

/-!
## The outputs of the endpoint
-/

/-- The output that the endpoint reads, as the dictionary that it is. -/
def outputDict (output : PreviewOutput) : Value :=
  dictOf [
    ("outputs", (output.outputs.map fun sockets => .list (sockets.map .list)).getD .none),
    ("json", output.json),
    ("error", textOrNone output.error),
    ("meta", output.metaFields.getD .none),
    ("title", textOrNone output.title)]

section Endpoint

variable {python : Python} {objects : Objects} {isWord : Char → Bool}
  {shouldUnmaskForUser : Run → String → Bool} {executor : WorkflowExecutor}

theorem mask_outputsValue (output : NodeOutput) :
    maskSensitiveData isWord (outputsValue output) =
      ((output.outputs.map fun sockets => sockets.map fun items =>
        items.map (maskSensitiveData isWord)).map fun sockets =>
          .list (sockets.map .list)).getD .none := by
  unfold outputsValue maskSensitiveData
  cases output.outputs with
  | none => rfl
  | some sockets =>
      simp only [Option.map_some, Option.getD_some, mapTexts, mapItemTexts_eq, List.map_map]
      congr 1
      refine List.map_congr_left fun items _ => ?_
      simp only [Function.comp, mapTexts, mapItemTexts_eq]

theorem maskOutputs_eq (outputs : Option (List (List Value))) :
    maskOutputs (fun value => .ok (maskSensitiveData isWord value)) outputs =
      .ok (outputs.map fun sockets => sockets.map fun items =>
        items.map (maskSensitiveData isWord)) := by
  cases outputs with
  | none => rfl
  | some sockets =>
      have each (items : List Value) :
          items.mapM (fun value => (pure (maskSensitiveData isWord value) : Except String Value)) =
            pure (items.map (maskSensitiveData isWord)) := List.mapM_pure
      change Except.map some (sockets.mapM (List.mapM fun value =>
        pure (maskSensitiveData isWord value))) = _
      rw [funext each, List.mapM_pure]
      rfl

theorem reportOutput_eq (noRun : executor.run = none) (title : Option String) (nodeId : String)
    (output : NodeOutput) :
    reportOutput python objects isWord shouldUnmaskForUser executor title nodeId output =
      (enrichOutput (redactOutput python objects isWord false)
        (fun value => .ok (maskSensitiveData isWord value)) title output).map outputDict := by
  have masked : executor.canUnmaskOutput shouldUnmaskForUser nodeId = false := by
    rw [WorkflowExecutor.canUnmaskOutput, noRun]
  unfold reportOutput enrichOutput
  rw [masked, maskOutputs_eq, mask_outputsValue, nodeJson]
  cases redactOutput python objects isWord false (output.json.getD .none) with
  | error error => rfl
  | ok display => rfl

/-- The report has the outputs that the endpoint reads. -/
theorem reportOutputs_eq (noRun : executor.run = none) (nodeOutputs : OrderedMap String NodeOutput) :
    reportOutputs python objects isWord shouldUnmaskForUser executor nodeOutputs =
      (enrichOutputs (redactOutput python objects isWord false)
        (fun value => .ok (maskSensitiveData isWord value)) executor.snapshot nodeOutputs).map
        (List.map fun entry => (entry.1, outputDict entry.2)) := by
  unfold reportOutputs enrichOutputs
  rw [← mapM_map_eq]
  refine congrArg (fun attempt => List.mapM attempt nodeOutputs.entries) (funext fun entry => ?_)
  rw [reportOutput_eq noRun]
  cases enrichOutput (redactOutput python objects isWord false)
      (fun value => .ok (maskSensitiveData isWord value))
      ((labelsById executor.snapshot).get? entry.1) entry.2 with
  | error error => rfl
  | ok shown => rfl

end Endpoint

/-!
## The response
-/

/-- What the response shows of the output of a node as it is. -/
structure HarmlessOutput (isWord : Char → Bool) (objects : Objects) (title : Option String)
    (nodeId : String) (output : NodeOutput) : Prop where
  nodeId : Unmatched isWord nodeId
  title : ∀ shown, title = some shown → Unmatched isWord shown
  error : ∀ shown, output.error = some shown → Unmatched isWord shown
  metaFields : Clean isWord objects (output.metaFields.getD .none)
  json : Clean isWord objects (nodeJson output)
  kept : ∀ text, Kept objects text (outputsValue output) → Unmatched isWord text

/-- What the response shows as it is: everything but the values of the outputs. -/
structure Harmless {World : Type} (isWord : Char → Bool) (objects : Objects)
    (contextOf : World → SnapshotContext) (workflow : WorkflowRecord) (snapshot : Snapshot)
    (targetNodeId : String) (state : State World) (status : PreviewStatus) : Prop where
  target : Unmatched isWord targetNodeId
  executed : ∀ nodeId ∈ state.executedOrder, Unmatched isWord nodeId
  failure : ∀ nodeId error, status = .failed nodeId error →
    Unmatched isWord nodeId ∧ Unmatched isWord error
  outputs : ∀ entry ∈ state.nodeOutputs.entries,
    HarmlessOutput isWord objects ((labelsById snapshot).get? entry.1) entry.1 entry.2
  result : ∀ output, status = .completed output → Clean isWord objects (nodeJson output)
  vars : Clean isWord objects (toPlain (contextOf state.side.world).vars)
  nodeContext : Clean isWord objects (contextOf state.side.world).nodeContext
  workflow : Unmatched isWord workflow.name

section Report

variable {python : Python} {objects : Objects} {isWord : Char → Bool}
  {shouldUnmaskForUser : Run → String → Bool} {executor : WorkflowExecutor}

theorem clean_outputs_iff {display errorText metaFields titleText outputs : Value} :
    Clean isWord objects (dictOf [("outputs", outputs), ("json", display), ("error", errorText),
        ("meta", metaFields), ("title", titleText)]) ↔
      Clean isWord objects outputs ∧ Clean isWord objects display ∧
        Clean isWord objects errorText ∧ Clean isWord objects metaFields ∧
        Clean isWord objects titleText := by
  rw [clean_report_iff]
  · simp
  · simp [reportKeys]

/-- Without a run no output is unmasked. -/
theorem redactOutput_of_reportOutput (noRun : executor.run = none) {title : Option String}
    {nodeId : String} {output : NodeOutput} {report : Value}
    (ends : reportOutput python objects isWord shouldUnmaskForUser executor title nodeId output =
      .ok report) :
    ∃ display, redactOutput python objects isWord false (nodeJson output) = .ok display ∧
      report = dictOf [
        ("outputs", maskSensitiveData isWord (outputsValue output)),
        ("json", display),
        ("error", textOrNone output.error),
        ("meta", output.metaFields.getD .none),
        ("title", textOrNone title)] := by
  obtain ⟨display, redacted, rfl⟩ := map_eq_ok ends
  have masked : executor.canUnmaskOutput shouldUnmaskForUser nodeId = false := by
    rw [WorkflowExecutor.canUnmaskOutput, noRun]
  rw [masked] at redacted
  exact ⟨display, redacted, rfl⟩

/-- The report of an output is clean with the json of the output and with what the
report shows as it is. -/
theorem harmlessOutput_iff (noRun : executor.run = none) {title : Option String}
    {nodeId : String} {output : NodeOutput} {report : Value}
    (ends : reportOutput python objects isWord shouldUnmaskForUser executor title nodeId output =
      .ok report) :
    HarmlessOutput isWord objects title nodeId output ↔
      Unmatched isWord nodeId ∧ Clean isWord objects (nodeJson output) ∧
        Clean isWord objects report := by
  obtain ⟨display, redacted, rfl⟩ := redactOutput_of_reportOutput noRun ends
  rw [clean_outputs_iff, clean_mask_iff, clean_textOrNone_iff, clean_textOrNone_iff]
  constructor
  · intro harmless
    exact ⟨harmless.nodeId, harmless.json, harmless.kept, clean_redactOutput redacted harmless.json,
      harmless.error, harmless.metaFields, harmless.title⟩
  · rintro ⟨nodeId, json, kept, _, error, metaFields, title⟩
    exact ⟨nodeId, title, error, metaFields, json, kept⟩

theorem reportOutputs_ok {nodeOutputs : OrderedMap String NodeOutput}
    {reports : List (String × Value)}
    (ends : reportOutputs python objects isWord shouldUnmaskForUser executor nodeOutputs =
      .ok reports) :
    List.Forall₂ (fun entry report => report.1 = entry.1 ∧
      reportOutput python objects isWord shouldUnmaskForUser executor
        ((labelsById executor.snapshot).get? entry.1) entry.1 entry.2 = .ok report.2)
      nodeOutputs.entries reports := by
  refine (mapM_ok_iff.mp ends).imp ?_
  intro entry report mapped
  obtain ⟨value, reported, rfl⟩ := map_eq_ok mapped
  exact ⟨rfl, reported⟩

/-- The outputs and the json of all nodes. -/
theorem harmlessOutputs_iff (noRun : executor.run = none)
    {nodeOutputs : OrderedMap String NodeOutput} {reports : List (String × Value)}
    (ends : reportOutputs python objects isWord shouldUnmaskForUser executor nodeOutputs =
      .ok reports) :
    (∀ entry ∈ nodeOutputs.entries, HarmlessOutput isWord objects
        ((labelsById executor.snapshot).get? entry.1) entry.1 entry.2) ↔
      (∀ entry ∈ nodeOutputs.entries,
        Unmatched isWord entry.1 ∧ Clean isWord objects (nodeJson entry.2)) ∧
        ∀ report ∈ reports, Unmatched isWord report.1 ∧ Clean isWord objects report.2 := by
  have pairs := reportOutputs_ok ends
  clear ends
  generalize nodeOutputs.entries = entries at pairs
  induction pairs with
  | nil => simp
  | cons here _ ih =>
      obtain ⟨sameId, reported⟩ := here
      rw [List.forall_mem_cons, List.forall_mem_cons, List.forall_mem_cons, sameId]
      refine (and_congr (harmlessOutput_iff noRun reported) ih).trans ?_
      tauto

theorem clean_buildSnapshot_iff {workflow : WorkflowRecord} {context : SnapshotContext}
    {nodeOutputs : OrderedMap String NodeOutput} {target : Value} :
    Clean isWord objects (buildSnapshot workflow context nodeOutputs target) ↔
      Clean isWord objects target ∧
        (∀ entry ∈ nodeOutputs.entries,
          Unmatched isWord entry.1 ∧ Clean isWord objects (nodeJson entry.2)) ∧
        Clean isWord objects (toPlain context.vars) ∧
        Clean isWord objects context.nodeContext ∧ Unmatched isWord workflow.name := by
  have now : Unmatched isWord context.now := unmatched_iso context.isoNow
  have today : Unmatched isWord context.today := unmatched_iso context.isoToday
  have named : Clean isWord objects (workflowContext workflow) ↔
      Unmatched isWord workflow.name := by
    rw [workflowContext, clean_report_iff (by simp [reportKeys])]
    simp
  have nodes : Clean isWord objects
      (dictOf (nodeOutputs.entries.map fun entry => (entry.1, nodeJson entry.2))) ↔
      ∀ entry ∈ nodeOutputs.entries,
        Unmatched isWord entry.1 ∧ Clean isWord objects (nodeJson entry.2) := by
    rw [clean_dictOf_iff, List.forall_mem_map]
  rw [buildSnapshot, clean_report_iff (by simp [reportKeys])]
  simp [nodes, named, now, today]

variable {World : Type} {contextOf : World → SnapshotContext} {workflow : WorkflowRecord}

/-- The data of a preview is clean exactly when what it shows as it is is. -/
theorem clean_previewReport_iff (noRun : executor.run = none) {targetNodeId : String}
    {state : State World} {status : PreviewStatus} {data : Value}
    (ends : previewReport python objects isWord shouldUnmaskForUser contextOf workflow executor
      targetNodeId state status = .ok data) :
    Clean isWord objects data ↔
      Harmless isWord objects contextOf workflow executor.snapshot targetNodeId state status := by
  obtain ⟨reports, reported, rfl⟩ := map_eq_ok ends
  have outputs := harmlessOutputs_iff noRun reported
  rw [clean_report_iff (by simp [reportKeys])]
  simp only [List.forall_mem_cons, clean_str_iff, clean_int, clean_list_iff,
    List.forall_mem_map, clean_textOrNone_iff, clean_dictOf_iff, clean_buildSnapshot_iff]
  have known : Unmatched isWord (untilResult targetNodeId state status).status.text := by
    cases status <;>
      exact unmatched_reportKeys (by simp [untilResult, ProgressStatus.text, reportKeys])
  constructor
  · rintro ⟨_, error, errorNode, target, _, executed, shown,
      ⟨targetJson, jsons, vars, nodeContext, named⟩, _⟩
    exact {
      target := target
      executed := executed
      failure := by
        rintro nodeId message rfl
        exact ⟨errorNode nodeId rfl, error message rfl⟩
      outputs := outputs.mpr ⟨jsons, shown⟩
      result := by
        rintro output rfl
        exact targetJson
      vars := vars
      nodeContext := nodeContext
      workflow := named }
  · intro harmless
    obtain ⟨jsons, shown⟩ := outputs.mp harmless.outputs
    refine ⟨known, ?_, ?_, harmless.target, trivial, harmless.executed, shown,
      ⟨?_, jsons, harmless.vars, harmless.nodeContext, harmless.workflow⟩, by simp⟩
    · intro message raised
      cases status with
      | completed result => cases raised
      | failed nodeId error =>
          cases raised
          exact (harmless.failure nodeId message rfl).2
    · intro nodeId failed
      cases status with
      | completed result => cases failed
      | failed failedId error =>
          cases failed
          exact (harmless.failure nodeId error rfl).1
    · cases status with
      | completed result => exact harmless.result result rfl
      | failed nodeId error => exact clean_none isWord objects

variable (python objects isWord shouldUnmaskForUser contextOf workflow)

/-- The data of a preview has no key and no address in it exactly when nothing has that
the preview does not mask. -/
theorem preview_masked_iff (runtime : Runtime World) (sockets : String → List String)
    (world : World) (draft : Option Snapshot) (request : PreviewRequest) {data : Value}
    (returned : executePreviewReport python objects isWord shouldUnmaskForUser contextOf workflow
      runtime sockets world draft request = .ok data) :
    ∃ snapshot state status, workingSnapshot draft request = .ok snapshot ∧
      executeUntil (previewExecutor sockets snapshot) runtime world request.targetNodeId
        (request.inputData.orElse (.dict [])) = (state, .ok status) ∧
      (Clean isWord objects data ↔
        Harmless isWord objects contextOf workflow snapshot request.targetNodeId state status) := by
  unfold executePreviewReport at returned
  split at returned
  · cases returned
  · next snapshot starts =>
      dsimp only at returned
      split at returned
      · cases returned
      · next state status reached =>
          exact ⟨snapshot, state, status, starts, reached, clean_previewReport_iff rfl returned⟩

end Report

def wordCharacter (value : Char) : Bool := value.isAlphanum || value == '_'

def plainObjects : Objects where
  form _ _ := .itself
  int _ := none
  iterate _ _ := none

def emptyContext : Unit → SnapshotContext := fun _ => {
  vars := .dict []
  nodeContext := .dict []
  now := "2024-05-17T08:30:00"
  today := "2024-05-17"
  isoNow := by decide +kernel
  isoToday := by decide +kernel }

def demoWorkflow : WorkflowRecord := ⟨1, "Demo", true⟩

/-- The preview of a node that returns its input. -/
def echoRequest (inputData : Value) : PreviewRequest where
  targetNodeId := "n_1"
  inputData := inputData
  configOverrides := .none
  snapshot := some {
    nodes := [⟨"n_1", "noop", none, [], []⟩]
    connections := [] }

/-- What the preview of a value returns, with what it shows of the value. -/
def echoData (masked raw : Value) : Value :=
  dictOf [
    ("status", .str "completed"),
    ("error", .none),
    ("error_node_id", .none),
    ("target_node_id", .str "n_1"),
    ("execution_count", .int 1),
    ("executed_order", .list [.str "n_1"]),
    ("node_outputs", dictOf [("n_1", dictOf [
      ("outputs", .list [.list [masked]]),
      ("json", masked),
      ("error", .none),
      ("meta", .none),
      ("title", .str "noop")])]),
    ("context_snapshot", dictOf [
      ("json", raw),
      ("node", dictOf [("n_1", raw)]),
      ("vars", .dict []),
      ("node_context", .dict []),
      ("execution", .none),
      ("workflow", dictOf [("id", .int 1), ("name", .str "Demo"), ("active", .bool true)]),
      ("now", .str "2024-05-17T08:30:00"),
      ("today", .str "2024-05-17")])]

def echoReport (inputData : Value) : Except String Value :=
  executePreviewReport textPython plainObjects wordCharacter (fun _ _ => false) emptyContext
    demoWorkflow echoRuntime (fun _ => ["result"]) () none (echoRequest inputData)

theorem preview_masked_iff_number :
    ∃ snapshot state status, workingSnapshot none (echoRequest (.int 7)) = .ok snapshot ∧
      executeUntil (previewExecutor (fun _ => ["result"]) snapshot) echoRuntime () "n_1"
        (.int 7) = (state, .ok status) ∧
      (Clean wordCharacter plainObjects (echoData (.int 7) (.int 7)) ↔
        Harmless wordCharacter plainObjects emptyContext demoWorkflow snapshot "n_1" state
          status) :=
  preview_masked_iff textPython plainObjects wordCharacter (fun _ _ => false) emptyContext
    demoWorkflow echoRuntime (fun _ => ["result"]) () none (echoRequest (.int 7))
    (by decide +kernel)

/-- An address is masked in the outputs and shown in the context snapshot. -/
theorem snapshot_shows_address :
    echoReport (.str "ann@example.com") =
        .ok (echoData (.str "***@***.***") (.str "ann@example.com")) ∧
      ¬ Clean wordCharacter plainObjects
        (echoData (.str "***@***.***") (.str "ann@example.com")) := by
  refine ⟨by decide +kernel, fun clean => ?_⟩
  have shown : Unmatched wordCharacter "ann@example.com" :=
    clean "ann@example.com" (by simp [echoData, dictOf])
  have found : (emailPattern.matchAt wordCharacter none "ann@example.com".toList).isSome := by
    decide +kernel
  obtain ⟨address, search⟩ := Option.isSome_iff_exists.mp found
  exact shown emailPattern (by simp [secretPatterns])
    (Substitution.Pattern.occurs_of_matchAt wordCharacter search)

end WorkflowStudio.Progress

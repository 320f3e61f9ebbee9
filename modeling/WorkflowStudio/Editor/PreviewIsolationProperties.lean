import WorkflowStudio.Lib.GuardedRun
import WorkflowStudio.Editor.LoadProperties
import WorkflowStudio.Editor.UndoProperties

/-! Read-only previews leave the loaded workflow alone. A session of previews,
views, loads and saves refines an abstract session, in which a preview never
touches the graph, when workflows are loaded and saved only while no preview is
open and the previews are ended with the original restored. -/

set_option autoImplicit false

namespace WorkflowStudio.Editor

open Lib GuardedRun

/-!
## Reloading a graph
-/

/-- A node without a label has a class without a label. -/
def WorkflowEditor.Labelled (registry : Registry) (editor : WorkflowEditor) : Prop :=
  ∀ nodeId node nodeClass, editor.nodes.get? nodeId = some node → node.label = "" →
    registry node.type = some nodeClass → nodeClass.label = ""

variable {registry : Registry}

theorem Node.fromJSON_toJSON {node : Node} (fits : node.Shaped registry)
    (labelled : ∀ nodeClass, node.label = "" → registry node.type = some nodeClass →
      nodeClass.label = "") :
    Node.fromJSON registry node.toJSON = .ok node := by
  have ⟨nodeClass, registered, _, _, metaKeys⟩ := fits
  obtain ⟨controls, hidden⟩ := fits.config registered
  have label : Node.labelFrom node.toJSON nodeClass.label = node.label := by
    unfold Node.labelFrom Node.toJSON
    dsimp only
    split
    · next empty => rw [empty, labelled nodeClass empty registered]
    · rfl
  have metaFields : defaultNodeMeta.merge node.metaFields = node.metaFields :=
    OrderedMap.merge_eq_right metaKeys
  have quiet : (Node.read nodeClass node.toJSON).setConfigThrows node.getConfig = false :=
    fits.quiet registered rfl
  have read : (Node.read nodeClass node.toJSON).setConfig node.getConfig = node := by
    simp only [Node.read, NodeClass.new, Node.setConfig, label]
    simp only [Node.toJSON, controls, hidden, metaFields, Option.getD_some]
  have type : node.toJSON.type = node.type := rfl
  have config : node.toJSON.config = some node.getConfig := rfl
  unfold Node.fromJSON
  rw [type, registered, config]
  dsimp only
  rw [quiet, read]
  rfl

theorem Node.label_fromJSON {data : NodeData} {node : Node} {nodeClass : NodeClass}
    (loaded : Node.fromJSON registry data = .ok node) (empty : node.label = "")
    (registered : registry node.type = some nodeClass) : nodeClass.label = "" := by
  obtain ⟨_, type, _⟩ := Node.fromJSON_ok loaded
  rw [type] at registered
  have label : node.label = Node.labelFrom data nodeClass.label := by
    rw [Node.fromJSON_of_registered registered loaded]
    cases data.config <;> rfl
  rw [label] at empty
  unfold Node.labelFrom at empty
  split at empty
  · exact empty
  · split at empty
    · exact empty
    · next named => exact absurd empty named

theorem Connection.fromJSON_toJSON {conn : Connection} (shaped : conn.Shaped) :
    Connection.fromJSON conn.toJSON = conn := by
  have metaFields : defaultConnectionMeta.merge conn.metaFields = conn.metaFields :=
    OrderedMap.merge_eq_right shaped.2
  simp only [Connection.fromJSON, Connection.toJSON, Connection.new, shaped.1, ↓reduceIte,
    metaFields]

variable (registry) in
theorem loadNodes_toJSON (entries : List (String × Node)) (nodes : OrderedMap String Node)
    (maxId : Nat) (own : ∀ entry ∈ entries, entry.2.id = entry.1)
    (reloads : ∀ entry ∈ entries, Node.fromJSON registry entry.2.toJSON = .ok entry.2)
    (distinct : ((nodes.entries ++ entries).map Prod.fst).Nodup) :
    ∃ result largest,
      WorkflowEditor.loadNodes registry (entries.map fun entry => entry.2.toJSON) nodes maxId =
        (result, largest, none) ∧ result.entries = nodes.entries ++ entries := by
  induction entries generalizing nodes maxId with
  | nil => exact ⟨nodes, maxId, rfl, (List.append_nil _).symm⟩
  | cons entry rest ih =>
      have here := reloads entry List.mem_cons_self
      have key := own entry List.mem_cons_self
      have absent : entry.1 ∉ nodes.keys := by
        intro listed
        rw [List.map_append, List.nodup_append] at distinct
        exact distinct.2.2 entry.1 listed entry.1 List.mem_cons_self rfl
      have appended : (nodes.set entry.2.id entry.2).entries = nodes.entries ++ [entry] := by
        rw [key]
        exact OrderedMap.keys_set_of_absent absent entry.2
      obtain ⟨result, largest, loaded, final⟩ := ih (nodes.set entry.2.id entry.2)
        (max maxId ((idNumber entry.2.id).getD 0))
        (fun other member => own other (List.mem_cons_of_mem _ member))
        (fun other member => reloads other (List.mem_cons_of_mem _ member))
        (by rw [appended, List.append_assoc]; exact distinct)
      refine ⟨result, largest, ?_, ?_⟩
      · rw [List.map_cons, WorkflowEditor.loadNodes, here]
        exact loaded
      · rw [final, appended, List.append_assoc, List.singleton_append]

/-- The graph comes back as it was saved, but for the counter. -/
theorem reloaded {adapter : WorkflowAdapter} (formed : adapter.WellFormed registry)
    (labelled : adapter.editor.Labelled registry) :
    ∃ counter, WorkflowAdapter.fromJSON registry adapter.toJSON =
      (WorkflowAdapter.synced { adapter.editor with idCounter := counter }, none) := by
  have stored : ∀ entry ∈ adapter.editor.nodes.entries,
      adapter.editor.nodes.get? entry.1 = some entry.2 := fun entry member =>
    OrderedMap.get?_eq_some_iff.mpr member
  obtain ⟨result, largest, loaded, entries⟩ := loadNodes_toJSON registry
    adapter.editor.nodes.entries OrderedMap.empty 0
    (fun entry member => (formed.shaped entry.1 entry.2 (stored entry member)).1)
    (fun entry member => Node.fromJSON_toJSON
      (formed.shaped entry.1 entry.2 (stored entry member)).2
      fun nodeClass => labelled entry.1 entry.2 nodeClass (stored entry member))
    adapter.editor.nodes.distinct
  have nodes : result = adapter.editor.nodes := OrderedMap.ext_entries entries
  have connections : (adapter.editor.connections.map Connection.toJSON).map Connection.fromJSON =
      adapter.editor.connections := by
    rw [List.map_map]
    conv_rhs => rw [← List.map_id adapter.editor.connections]
    refine List.map_congr_left fun conn member => ?_
    exact Connection.fromJSON_toJSON (formed.connected conn member)
  have read : adapter.toJSON.nodes =
      adapter.editor.nodes.entries.map fun entry => entry.2.toJSON := by
    simp only [WorkflowAdapter.toJSON, WorkflowEditor.toJSON, OrderedMap.values, List.map_map]
    rfl
  refine ⟨largest, ?_⟩
  unfold WorkflowAdapter.fromJSON WorkflowEditor.fromJSON
  rw [read, loaded]
  dsimp only
  simp only [WorkflowAdapter.toJSON, WorkflowEditor.toJSON, nodes, connections]

theorem fromJSON_toJSON {adapter : WorkflowAdapter} (formed : adapter.WellFormed registry)
    (labelled : adapter.editor.Labelled registry) :
    (WorkflowAdapter.fromJSON registry adapter.toJSON).1.toJSON = adapter.toJSON := by
  obtain ⟨counter, loaded⟩ := reloaded formed labelled
  rw [loaded]
  rfl

variable (registry) in
theorem fromJSON_labelled (nodes : List NodeData) (loaded : OrderedMap String Node) (maxId : Nat)
    (before : ∀ nodeId node nodeClass, loaded.get? nodeId = some node → node.label = "" →
      registry node.type = some nodeClass → nodeClass.label = "") :
    ∀ nodeId node nodeClass,
      (WorkflowEditor.loadNodes registry nodes loaded maxId).1.get? nodeId = some node →
      node.label = "" → registry node.type = some nodeClass → nodeClass.label = "" := by
  induction nodes generalizing loaded maxId with
  | nil => exact before
  | cons data rest ih =>
      unfold WorkflowEditor.loadNodes
      cases read : Node.fromJSON registry data with
      | error error => exact before
      | ok node =>
          refine ih _ _ fun nodeId other nodeClass found empty registered => ?_
          rw [OrderedMap.get?_set] at found
          split at found
          · cases found
            exact Node.label_fromJSON read empty registered
          · exact before nodeId other nodeClass found empty registered

variable (registry) in
theorem loaded_labelled (data : Snapshot) :
    (WorkflowAdapter.fromJSON registry data).1.editor.Labelled registry := by
  have loaded := fromJSON_labelled registry data.nodes OrderedMap.empty 0
    fun _ _ _ found => nomatch found
  unfold WorkflowAdapter.fromJSON WorkflowEditor.fromJSON
  cases result : WorkflowEditor.loadNodes registry data.nodes OrderedMap.empty 0 with
  | mk nodes left =>
      rw [result] at loaded
      obtain ⟨maxId, error⟩ := left
      cases error <;> exact loaded

/-!
## Sessions
-/

inductive SessionOperation where
  | startHistoryPreview (revisionId : Option Nat) (snapshot : Snapshot)
  | endHistoryPreview (restoreOriginal : Bool)
  | startExecutionView (runId : Option Nat) (snapshot : Snapshot)
  | endExecutionView (restoreOriginal : Bool)
  | loadWorkflow (id : Nat) (draft : Draft) (versionHash : Option String)
  | saveWorkflow (answer : Option (Option String))

def SessionOperation.apply (registry : Registry) (store : Store) : SessionOperation → Store
  | .startHistoryPreview revisionId snapshot =>
      store.startHistoryPreview registry revisionId snapshot
  | .endHistoryPreview restoreOriginal => store.endHistoryPreview registry restoreOriginal
  | .startExecutionView runId snapshot => store.startExecutionView registry runId snapshot
  | .endExecutionView restoreOriginal => store.endExecutionView registry restoreOriginal
  | .loadWorkflow id draft versionHash => store.loadWorkflow registry id draft versionHash
  | .saveWorkflow answer => store.saveWorkflow answer

def SaveRequest.content (request : SaveRequest) : Option Nat × Snapshot :=
  (request.workflowId, request.draft.snapshot)

theorem Store.sent_saveWorkflow (store : Store) (answer : Option (Option String)) :
    (store.saveWorkflow answer).sent.map SaveRequest.content =
      store.sent.map SaveRequest.content ++
        [(store.workflowId, sanitizeConnectorRequestSnapshot store.adapter.toJSON)] := by
  unfold Store.saveWorkflow
  cases answer <;> rw [List.map_append] <;> rfl

def Store.Idle (store : Store) : Prop :=
  store.historyPreview.active = false ∧ store.executionView.active = false

/-- Loads and saves happen while nothing is previewed, every node of a loaded
draft loads, and open previews are ended with the original restored. -/
def SessionOperation.Isolated (registry : Registry) (store : Store) : SessionOperation → Prop
  | .startHistoryPreview _ _ | .startExecutionView _ _ => True
  | .endHistoryPreview restoreOriginal =>
      restoreOriginal = true ∨ store.historyPreview.active = false
  | .endExecutionView restoreOriginal =>
      restoreOriginal = true ∨ store.executionView.active = false
  | .loadWorkflow _ draft _ => store.Idle ∧ draft.snapshot.Loadable registry
  | .saveWorkflow _ => store.Idle

inductive Viewing where
  | history
  | execution
  deriving DecidableEq

/-- What a session is for: a workflow with its graph, which previews cover but
never change, and the graphs that were sent for it. -/
structure Session where
  workflowId : Option Nat
  graph : Snapshot
  viewing : Option Viewing
  sent : List (Option Nat × Snapshot)

namespace Session

def of (store : Store) : Session where
  workflowId := store.workflowId
  graph := store.adapter.toJSON
  viewing := none
  sent := store.sent.map SaveRequest.content

def step (registry : Registry) (session : Session) : SessionOperation → Session
  | .startHistoryPreview _ _ => { session with viewing := some .history }
  | .startExecutionView _ _ => { session with viewing := some .execution }
  | .endHistoryPreview _ =>
      if session.viewing = some .history then { session with viewing := none } else session
  | .endExecutionView _ =>
      if session.viewing = some .execution then { session with viewing := none } else session
  | .loadWorkflow id draft _ =>
      { session with
        workflowId := some id
        graph := (WorkflowAdapter.fromJSON registry draft.snapshot).1.toJSON }
  | .saveWorkflow _ =>
      { session with
        sent := session.sent ++
          [(session.workflowId, sanitizeConnectorRequestSnapshot session.graph)] }

end Session

/-- The store keeps the graph of the session: in the adapter while nothing is
previewed, and in the snapshot of the open preview otherwise. -/
def Store.Keeps (store : Store) (session : Session) : Prop :=
  match session.viewing with
  | none => store.Idle ∧ store.adapter.toJSON = session.graph
  | some .history => store.historyPreview.active = true ∧ store.executionView.active = false ∧
      store.historyPreview.originalSnapshot = some session.graph
  | some .execution => store.executionView.active = true ∧ store.historyPreview.active = false ∧
      store.executionView.originalSnapshot = some session.graph

structure Represents (registry : Registry) (store : Store) (session : Session) : Prop where
  workflowId : store.workflowId = session.workflowId
  sent : store.sent.map SaveRequest.content = session.sent
  reloads : (WorkflowAdapter.fromJSON registry session.graph).1.toJSON = session.graph
  keeps : store.Keeps session

namespace Represents

variable {store : Store} {session : Session}

theorem idle {after : Store} (represents : Represents registry store session)
    (workflowId : after.workflowId = store.workflowId) (sent : after.sent = store.sent)
    (isIdle : after.Idle) (graph : after.adapter.toJSON = session.graph) :
    Represents registry after { session with viewing := none } :=
  ⟨workflowId.trans represents.workflowId, (by rw [sent]; exact represents.sent),
    represents.reloads, isIdle, graph⟩

theorem endHistoryPreview (represents : Represents registry store session)
    {restoreOriginal : Bool}
    (isolated : restoreOriginal = true ∨ store.historyPreview.active = false) :
    Represents registry (store.endHistoryPreview registry restoreOriginal)
      (session.step registry (.endHistoryPreview restoreOriginal)) := by
  obtain ⟨workflow, graph, viewing, sent⟩ := session
  have keeps := represents.keeps
  cases viewing with
  | none =>
      obtain ⟨⟨inactive, other⟩, shown⟩ := keeps
      have same : (store.endHistoryPreview registry restoreOriginal).adapter = store.adapter := by
        simp only [Store.endHistoryPreview, inactive]
        split <;> simp
      exact represents.idle rfl rfl ⟨rfl, other⟩ (by rw [same]; exact shown)
  | some mode =>
      cases mode with
      | history =>
          obtain ⟨active, other, original⟩ := keeps
          have restores : restoreOriginal = true := by
            rcases isolated with restores | inactive
            · exact restores
            · rw [active] at inactive
              cases inactive
          have restored : (store.endHistoryPreview registry restoreOriginal).adapter =
              (WorkflowAdapter.fromJSON registry graph).1 := by
            simp only [Store.endHistoryPreview, original, active, restores, and_self, ↓reduceIte]
          exact represents.idle rfl rfl ⟨rfl, other⟩ (by rw [restored]; exact represents.reloads)
      | execution =>
          obtain ⟨active, _, original⟩ := keeps
          exact ⟨represents.workflowId, represents.sent, represents.reloads, active, rfl, original⟩

theorem endExecutionView (represents : Represents registry store session)
    {restoreOriginal : Bool}
    (isolated : restoreOriginal = true ∨ store.executionView.active = false) :
    Represents registry (store.endExecutionView registry restoreOriginal)
      (session.step registry (.endExecutionView restoreOriginal)) := by
  obtain ⟨workflow, graph, viewing, sent⟩ := session
  have keeps := represents.keeps
  cases viewing with
  | none =>
      obtain ⟨⟨other, inactive⟩, shown⟩ := keeps
      have same : (store.endExecutionView registry restoreOriginal).adapter = store.adapter := by
        simp only [Store.endExecutionView, inactive]
        split <;> simp
      exact represents.idle rfl rfl ⟨other, rfl⟩ (by rw [same]; exact shown)
  | some mode =>
      cases mode with
      | execution =>
          obtain ⟨active, other, original⟩ := keeps
          have restores : restoreOriginal = true := by
            rcases isolated with restores | inactive
            · exact restores
            · rw [active] at inactive
              cases inactive
          have restored : (store.endExecutionView registry restoreOriginal).adapter =
              (WorkflowAdapter.fromJSON registry graph).1 := by
            simp only [Store.endExecutionView, original, active, restores, and_self, ↓reduceIte]
          exact represents.idle rfl rfl ⟨other, rfl⟩ (by rw [restored]; exact represents.reloads)
      | history =>
          obtain ⟨active, _, original⟩ := keeps
          exact ⟨represents.workflowId, represents.sent, represents.reloads, active, rfl, original⟩

theorem startHistoryPreview (represents : Represents registry store session)
    (revisionId : Option Nat) (snapshot : Snapshot) :
    Represents registry (store.startHistoryPreview registry revisionId snapshot)
      { session with viewing := some .history } := by
  have keeps := represents.keeps
  unfold Store.Keeps at keeps
  unfold Store.startHistoryPreview
  split at keeps
  · obtain ⟨⟨inactive, other⟩, shown⟩ := keeps
    simp only [other, Bool.false_eq_true, ↓reduceIte, inactive]
    exact ⟨represents.workflowId, represents.sent, represents.reloads, rfl, other,
      congrArg some shown⟩
  · obtain ⟨active, other, original⟩ := keeps
    simp only [other, Bool.false_eq_true, ↓reduceIte, active]
    exact ⟨represents.workflowId, represents.sent, represents.reloads, rfl, other, original⟩
  · next viewing =>
      obtain ⟨active, inactive, original⟩ := keeps
      have ended := represents.endExecutionView (.inl rfl : true = true ∨ _)
      have closed : session.step registry (.endExecutionView true) =
          { session with viewing := none } := by
        simp [Session.step, viewing]
      rw [closed] at ended
      obtain ⟨⟨quiet, closedView⟩, shown⟩ := ended.keeps
      simp only [active, ↓reduceIte, quiet, Bool.false_eq_true]
      exact ⟨represents.workflowId, represents.sent, represents.reloads, rfl, closedView,
        congrArg some shown⟩

theorem startExecutionView (represents : Represents registry store session)
    (runId : Option Nat) (snapshot : Snapshot) :
    Represents registry (store.startExecutionView registry runId snapshot)
      { session with viewing := some .execution } := by
  have keeps := represents.keeps
  unfold Store.Keeps at keeps
  unfold Store.startExecutionView
  split at keeps
  · obtain ⟨⟨other, inactive⟩, shown⟩ := keeps
    simp only [other, Bool.false_eq_true, ↓reduceIte, inactive]
    exact ⟨represents.workflowId, represents.sent, represents.reloads, rfl, other,
      congrArg some shown⟩
  · next viewing =>
      obtain ⟨active, inactive, original⟩ := keeps
      have ended := represents.endHistoryPreview (.inl rfl : true = true ∨ _)
      have closed : session.step registry (.endHistoryPreview true) =
          { session with viewing := none } := by
        simp [Session.step, viewing]
      rw [closed] at ended
      obtain ⟨⟨closedView, quiet⟩, shown⟩ := ended.keeps
      simp only [active, ↓reduceIte, quiet, Bool.false_eq_true]
      exact ⟨represents.workflowId, represents.sent, represents.reloads, rfl, closedView,
        congrArg some shown⟩
  · obtain ⟨active, other, original⟩ := keeps
    simp only [other, Bool.false_eq_true, ↓reduceIte, active]
    exact ⟨represents.workflowId, represents.sent, represents.reloads, rfl, other, original⟩

theorem graph_of_idle (represents : Represents registry store session) (isIdle : store.Idle) :
    session.viewing = none ∧ store.adapter.toJSON = session.graph := by
  have keeps := represents.keeps
  unfold Store.Keeps at keeps
  split at keeps
  · next viewing => exact ⟨viewing, keeps.2⟩
  · rw [isIdle.1] at keeps
    cases keeps.1
  · rw [isIdle.2] at keeps
    cases keeps.1

theorem step (represents : Represents registry store session) {operation : SessionOperation}
    (isolated : operation.Isolated registry store) :
    Represents registry (operation.apply registry store) (session.step registry operation) := by
  cases operation with
  | startHistoryPreview revisionId snapshot => exact represents.startHistoryPreview _ _
  | startExecutionView runId snapshot => exact represents.startExecutionView _ _
  | endHistoryPreview restoreOriginal => exact represents.endHistoryPreview isolated
  | endExecutionView restoreOriginal => exact represents.endExecutionView isolated
  | loadWorkflow id draft versionHash =>
      obtain ⟨isIdle, loadable⟩ := isolated
      obtain ⟨viewing, _⟩ := represents.graph_of_idle isIdle
      have loads := loadable.returns
      have formed := WorkflowAdapter.WellFormed.fromJSON registry draft.snapshot
      have labelled := loaded_labelled registry draft.snapshot
      have reloads := fromJSON_toJSON formed labelled
      simp only [SessionOperation.apply, Store.loadWorkflow, Session.step]
      cases result : WorkflowAdapter.fromJSON registry draft.snapshot with
      | mk adapter error =>
          rw [result] at loads reloads
          cases loads
          refine ⟨rfl, represents.sent, reloads, ?_⟩
          unfold Store.Keeps
          rw [viewing]
          exact ⟨isIdle, rfl⟩
  | saveWorkflow answer =>
      obtain ⟨viewing, shown⟩ := represents.graph_of_idle isolated
      have sent : (store.saveWorkflow answer).sent.map SaveRequest.content =
          session.sent ++ [(session.workflowId, sanitizeConnectorRequestSnapshot session.graph)] := by
        rw [Store.sent_saveWorkflow, represents.sent, represents.workflowId, shown]
      have keeps : ∀ after : Store, after.Idle → after.adapter = store.adapter →
          after.Keeps (session.step registry (.saveWorkflow answer)) := by
        intro after isIdle same
        unfold Store.Keeps Session.step
        dsimp only
        rw [viewing]
        exact ⟨isIdle, by rw [same]; exact shown⟩
      cases answer with
      | none => exact ⟨represents.workflowId, sent, represents.reloads, keeps _ isolated rfl⟩
      | some versionHash =>
          exact ⟨represents.workflowId, sent, represents.reloads, keeps _ isolated rfl⟩

end Represents

/-- In every isolated session from every idle store that operations reach, with
labels that survive a reload, the workflow and the graphs that were sent are
those of the abstract session, and so is the graph whenever no preview is open. -/
theorem previews_keep_graph (registry : Registry) (operations : List Operation)
    (isIdle : (Store.run registry operations).Idle)
    (labelled : (Store.run registry operations).adapter.editor.Labelled registry)
    (session : List SessionOperation)
    (isolated : Meets (SessionOperation.apply registry) (SessionOperation.Isolated registry)
      (Store.run registry operations) session) :
    let store := run (SessionOperation.apply registry) (Store.run registry operations) session
    let expected := run (Session.step registry) (Session.of (Store.run registry operations)) session
    store.workflowId = expected.workflowId ∧
      store.sent.map SaveRequest.content = expected.sent ∧
      (store.Idle ↔ expected.viewing = none) ∧
      (store.Idle → store.adapter.toJSON = expected.graph) := by
  have started : Represents registry (Store.run registry operations)
      (Session.of (Store.run registry operations)) :=
    ⟨rfl, rfl, fromJSON_toJSON (Store.run_formed registry operations) labelled, isIdle, rfl⟩
  have keeps : ∀ store session operation, Represents registry store session →
      SessionOperation.Isolated registry store operation →
      Represents registry (operation.apply registry store) (session.step registry operation) :=
    fun _ _ _ represents meets => represents.step meets
  have represents := simulation keeps started isolated
  refine ⟨represents.workflowId, represents.sent, ⟨fun idle => ?_, fun viewing => ?_⟩,
    fun idle => (represents.graph_of_idle idle).2⟩
  · exact (represents.graph_of_idle idle).1
  · have keeps := represents.keeps
    unfold Store.Keeps at keeps
    rw [viewing] at keeps
    exact keeps.1

/-!
## A preview that is ended, and one that outlives its workflow
-/

def noNodes : Snapshot where
  nodes := []
  connections := []

def lookAndSave : List SessionOperation := [
  .startHistoryPreview (some 3) noNodes,
  .startExecutionView (some 8) noNodes,
  .endExecutionView true,
  .saveWorkflow none]

theorem previews_keep_graph_connectedNodes :
    (run (SessionOperation.apply noopRegistry) (Store.run noopRegistry connectedNodes)
      lookAndSave).adapter.toJSON = (Store.run noopRegistry connectedNodes).adapter.toJSON := by
  have labelled : (Store.run noopRegistry connectedNodes).adapter.editor.Labelled noopRegistry := by
    intro nodeId node nodeClass found empty
    have member := OrderedMap.get?_eq_some_iff.mp found
    have named : ∀ entry ∈ (Store.run noopRegistry connectedNodes).adapter.editor.nodes.entries,
        entry.2.label ≠ "" := by decide
    exact absurd empty (named _ member)
  have kept := previews_keep_graph noopRegistry connectedNodes ⟨rfl, rfl⟩ labelled lookAndSave
    ⟨trivial, trivial, .inl rfl, ⟨rfl, rfl⟩, trivial⟩
  exact kept.2.2.2 ⟨rfl, rfl⟩

def oneNode : Draft where
  snapshot := {
    nodes := [{ noopClass.new "noop" with id := "n_1" : Node }.toJSON]
    connections := [] }
  metadata := OrderedMap.empty

def emptyDraft : Draft where
  snapshot := noNodes
  metadata := OrderedMap.empty

/-- Workflow 2 is loaded while a revision of workflow 1 is previewed: the end
of the preview brings back the graph of workflow 1, which a save sends for
workflow 2. -/
theorem preview_outlives_workflow :
    (run (SessionOperation.apply noopRegistry) Store.initial [.loadWorkflow 1 oneNode (some "a"),
      .startHistoryPreview (some 3) noNodes, .loadWorkflow 2 emptyDraft (some "b"),
      .endHistoryPreview true]).workflowId = some 2 ∧
    (run (SessionOperation.apply noopRegistry) Store.initial [.loadWorkflow 1 oneNode (some "a"),
      .startHistoryPreview (some 3) noNodes, .loadWorkflow 2 emptyDraft (some "b"),
      .endHistoryPreview true]).adapter.toJSON ≠
        (WorkflowAdapter.fromJSON noopRegistry emptyDraft.snapshot).1.toJSON ∧
    (run (SessionOperation.apply noopRegistry) Store.initial [.loadWorkflow 1 oneNode (some "a"),
      .startHistoryPreview (some 3) noNodes, .loadWorkflow 2 emptyDraft (some "b"),
      .endHistoryPreview true, .saveWorkflow none]).sent.map SaveRequest.content =
        [(some 2, oneNode.snapshot)] := by
  refine ⟨rfl, by decide, by decide⟩

end WorkflowStudio.Editor

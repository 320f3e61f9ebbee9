import WorkflowStudio.Workflow.PublishingProperties
import WorkflowStudio.Workflow.Triggers

/-! Active triggers match the published snapshot as long as no operation takes
the node of an active trigger out of it, or activates a node it does not have:
publishing leaves the triggers alone. -/

set_option autoImplicit false

namespace WorkflowStudio.Workflow

open Lib

/-- The snapshot has the node, with that type of trigger. -/
def Names (snapshot : Value) (nodeId : String) (triggerType : TriggerType) : Prop :=
  ∃ nodes node, snapshotNodes snapshot = .ok nodes ∧ node ∈ nodes ∧
    getKey node "id" = .ok (.str nodeId) ∧ resolveTriggerType node = triggerType

/-- The linked cron job or automation rule is active just when the trigger is;
one that is left from an earlier type of the trigger is not. -/
structure Trigger.Armed (trigger : Trigger) : Prop where
  cron : trigger.cron = some true ↔ trigger.active = true ∧ trigger.triggerType = .schedule
  automation : trigger.automation = some true ↔
    trigger.active = true ∧ trigger.triggerType = .recordEvent

namespace TriggeredWorkflow

def NamedIn (workflow : TriggeredWorkflow) (snapshot : Value) : Prop :=
  ∀ nodeId trigger, workflow.triggers.get? nodeId = some trigger → trigger.active = true →
    Names snapshot nodeId trigger.triggerType

def AllArmed (triggers : OrderedMap String Trigger) : Prop :=
  ∀ nodeId trigger, triggers.get? nodeId = some trigger → trigger.Armed

structure Matches (workflow : TriggeredWorkflow) : Prop where
  named : workflow.NamedIn workflow.publishedSnapshot
  armed : AllArmed workflow.triggers
  activated : workflow.isActivated = true ↔
    ∃ nodeId trigger, workflow.triggers.get? nodeId = some trigger ∧ trigger.active = true

end TriggeredWorkflow

/-- A save of these fields raises nothing. -/
structure IrWorkflow.AcceptsSave (digests : Digests) (workflow : IrWorkflow)
    (fields : List (Value × Value)) (expectedHash failure : Option String) : Prop where
  current : expectedHash = none ∨ workflow.versionHash digests = none ∨
    expectedHash = workflow.versionHash digests
  fits : (nodesOf fields).length ≤ maxNodes
  synchronised : failure = none

/-- Publishing the draft with these entries raises nothing. -/
structure IrWorkflow.AcceptsPublish (entries : List (Value × Value)) (failure : Option String) :
    Prop where
  nodes : ((lookupField entries "nodes").getD .none).truthy = true
  synchronised : failure = none

/-- What is published, if the operation is accepted, names every active trigger;
and a node that can be activated is one of the published snapshot, with the type
of its trigger. -/
def TriggerOperation.Covers (digests : Digests) (env : TriggerEnv) (workflow : TriggeredWorkflow) :
    TriggerOperation → Prop
  | .saveWorkflow _ snapshot expectedHash failure => ∀ fields, snapshot = .dict fields →
      nodesOf fields ≠ [] → workflow.AcceptsSave digests fields expectedHash failure →
      workflow.NamedIn snapshot
  | .actionPublish failure => ∀ entries, workflow.draftSnapshot = .dict entries →
      IrWorkflow.AcceptsPublish entries failure → workflow.NamedIn workflow.draftSnapshot
  | .actionUnpublish =>
      ∀ nodeId trigger, workflow.triggers.get? nodeId = some trigger → trigger.active = false
  | .activateTriggerNode nodeId => workflow.isPublished = true →
      ∀ trigger linked, workflow.ensureTriggerRecord nodeId = .ok trigger →
        trigger.link env (workflow.getNodeConfig nodeId) = .ok linked →
        Names workflow.publishedSnapshot nodeId trigger.triggerType
  | .restoreVersion _ _ | .actionActivateTriggers | .actionDeactivateTriggers
  | .deactivateTriggerNode _ => True

/-!
## Accepted requests
-/

namespace IrWorkflow

variable {digests : Digests} {author : Author} {workflow : IrWorkflow}

theorem saveWorkflow_accepted_iff {fields : List (Value × Value)}
    {expectedHash failure : Option String} :
    (∃ answer, workflow.saveWorkflow digests author (.dict fields) expectedHash failure =
      .ok answer) ↔ workflow.AcceptsSave digests fields expectedHash failure := by
  unfold saveWorkflow
  split
  · next conflict =>
      refine iff_of_false (fun accepted => ?_) fun accepted => ?_
      · obtain ⟨answer, same⟩ := accepted
        cases same
      · rcases accepted.current with none | none | same
        · exact conflict.1 none
        · exact conflict.2.1 none
        · exact conflict.2.2 same
  · next current =>
      dsimp only
      rw [nodesOf_ensureRequiredKeys]
      split
      · next many =>
          refine iff_of_false (fun accepted => ?_) fun accepted => ?_
          · obtain ⟨answer, same⟩ := accepted
            cases same
          · exact absurd accepted.fits (by omega)
      · next few =>
          cases failure with
          | some message =>
              refine iff_of_false (fun accepted => ?_) fun accepted => ?_
              · obtain ⟨answer, same⟩ := accepted
                cases same
              · cases accepted.synchronised
          | none =>
              refine iff_of_true ⟨_, rfl⟩ ?_
              constructor
              · by_contra changed
                rw [not_or, not_or] at changed
                exact current changed
              · omega
              · rfl

theorem actionPublish_accepted_iff {entries : List (Value × Value)} {failure : Option String}
    (draft : workflow.draftSnapshot = .dict entries) :
    (∃ published, workflow.actionPublish failure = .ok published) ↔
      AcceptsPublish entries failure := by
  unfold actionPublish
  rw [draft]
  split
  · next empty =>
      have none : entries = [] := by simpa [Value.truthy] using empty
      subst none
      refine iff_of_false (fun accepted => ?_) fun accepted => ?_
      · obtain ⟨answer, same⟩ := accepted
        cases same
      · cases accepted.nodes
  · dsimp only
    split
    · next unlisted =>
        refine iff_of_false (fun accepted => ?_) fun accepted => ?_
        · obtain ⟨answer, same⟩ := accepted
          cases same
        · cases unlisted.symm.trans accepted.nodes
    · next listed =>
        cases failure with
        | some message =>
            refine iff_of_false (fun accepted => ?_) fun accepted => ?_
            · obtain ⟨answer, same⟩ := accepted
              cases same
            · cases accepted.synchronised
        | none => exact iff_of_true ⟨_, rfl⟩ ⟨Bool.not_eq_false _ ▸ listed, rfl⟩

end IrWorkflow

/-!
## One trigger
-/

namespace Trigger

variable {env : TriggerEnv} {config : Except WorkflowError Value} {trigger after : Trigger}

theorem new_armed (triggerType : TriggerType) : (Trigger.new triggerType).Armed := by
  constructor
  · simp [Trigger.new]
  · simp [Trigger.new]

theorem actionDeactivate_inactive (trigger : Trigger) :
    trigger.actionDeactivate.active = false ∧
      trigger.actionDeactivate.triggerType = trigger.triggerType := by
  unfold actionDeactivate
  split
  · exact ⟨rfl, rfl⟩
  · exact ⟨rfl, rfl⟩
  · exact ⟨rfl, rfl⟩
  · exact ⟨rfl, rfl⟩

theorem Armed.deactivated (armed : trigger.Armed) : trigger.actionDeactivate.Armed := by
  obtain ⟨cron, automation⟩ := armed
  unfold actionDeactivate
  cases type : trigger.triggerType with
  | schedule =>
      rw [type] at automation
      constructor
      · simp
      · simpa using automation
  | recordEvent =>
      rw [type] at cron
      constructor
      · simpa using cron
      · simp
  | manual =>
      rw [type] at cron automation
      constructor
      · simpa using cron
      · simpa using automation
  | webhook =>
      rw [type] at cron automation
      constructor
      · simpa using cron
      · simpa using automation

theorem Armed.retyped (armed : trigger.Armed) (inactive : trigger.active = false)
    (triggerType : TriggerType) : Armed { trigger with triggerType := triggerType } := by
  obtain ⟨cron, automation⟩ := armed
  rw [inactive] at cron automation
  constructor
  · simpa [inactive] using cron
  · simpa [inactive] using automation

/-- What linking a backend record can change. -/
theorem link_cases (links : trigger.link env config = .ok after) :
    (trigger.triggerType = .manual ∧ after = trigger) ∨
    (trigger.triggerType = .webhook ∧ after = { trigger with webhookUuid := true }) ∨
    (trigger.triggerType = .schedule ∧ after = { trigger with cron := some true }) ∨
    (trigger.triggerType = .recordEvent ∧ after = { trigger with automation := some true }) := by
  unfold link at links
  cases type : trigger.triggerType with
  | manual =>
      rw [type] at links
      cases links
      exact .inl ⟨rfl, rfl⟩
  | webhook =>
      rw [type] at links
      cases links
      exact .inr (.inl ⟨rfl, rfl⟩)
  | schedule =>
      rw [type] at links
      dsimp only at links
      split at links
      · cases links
      · cases links
        exact .inr (.inr (.inl ⟨rfl, rfl⟩))
  | recordEvent =>
      rw [type] at links
      dsimp only at links
      split at links
      · cases links
      · cases links
        exact .inr (.inr (.inr ⟨rfl, rfl⟩))

/-- The panel of a trigger that is activated can be shown: its backend record is linked. -/
theorem showPanel_activated (isPublished : Bool)
    (activates : trigger.actionActivate env config = .ok after) :
    ∃ shown, after.showPanel env config isPublished = .ok shown := by
  unfold actionActivate at activates
  split at activates
  · cases activates
  · next linked links =>
      cases activates
      have linkable : ∃ shown, ensureLinkedBackendRecord env config { linked with active := true } =
          .ok shown := by
        rcases link_cases links with ⟨type, rfl⟩ | ⟨type, rfl⟩ | ⟨type, rfl⟩ | ⟨type, rfl⟩
        · simp [ensureLinkedBackendRecord, type]
        · simp [ensureLinkedBackendRecord, type]
        · simp [ensureLinkedBackendRecord, type]
        · simp [ensureLinkedBackendRecord, type]
      obtain ⟨shown, shows⟩ := linkable
      unfold showPanel
      split
      · rw [shows]
        exact ⟨shown, rfl⟩
      · exact ⟨_, rfl⟩

theorem actionActivate_links (activates : trigger.actionActivate env config = .ok after) :
    ∃ linked, trigger.link env config = .ok linked := by
  unfold actionActivate at activates
  split at activates
  · cases activates
  · next linked links => exact ⟨linked, links⟩

theorem Armed.activated (armed : trigger.Armed)
    (activates : trigger.actionActivate env config = .ok after) :
    after.Armed ∧ after.active = true ∧ after.triggerType = trigger.triggerType := by
  obtain ⟨cron, automation⟩ := armed
  unfold actionActivate at activates
  split at activates
  · cases activates
  · next linked links =>
      cases activates
      rcases link_cases links with ⟨type, rfl⟩ | ⟨type, rfl⟩ | ⟨type, rfl⟩ | ⟨type, rfl⟩
      · refine ⟨⟨?_, ?_⟩, rfl, rfl⟩
        · simpa [type] using cron
        · simpa [type] using automation
      · refine ⟨⟨?_, ?_⟩, rfl, rfl⟩
        · simpa [type] using cron
        · simpa [type] using automation
      · refine ⟨⟨?_, ?_⟩, rfl, rfl⟩
        · simp [type]
        · simpa [type] using automation
      · refine ⟨⟨?_, ?_⟩, rfl, rfl⟩
        · simpa [type] using cron
        · simp [type]

/-- What showing the panel can change: a backend record that is missing is
linked, as active as the trigger. -/
theorem showPanel_cases {isPublished : Bool}
    (shows : trigger.showPanel env config isPublished = .ok after) :
    after = trigger ∨ after = { trigger with webhookUuid := true } ∨
    (trigger.triggerType = .schedule ∧ trigger.cron = none ∧
      after = { trigger with cron := some trigger.active }) ∨
    (trigger.triggerType = .recordEvent ∧ trigger.automation = none ∧
      after = { trigger with automation := some trigger.active }) := by
  unfold showPanel at shows
  split at shows
  · split at shows
    · cases shows
      exact .inl rfl
    · unfold ensureLinkedBackendRecord at shows
      cases type : trigger.triggerType with
      | manual =>
          rw [type] at shows
          cases shows
          exact .inl rfl
      | webhook =>
          rw [type] at shows
          cases shows
          exact .inr (.inl rfl)
      | schedule =>
          rw [type] at shows
          dsimp only at shows
          split at shows
          · next missing =>
              split at shows
              · cases shows
              · next linked links =>
                  cases shows
                  rcases link_cases links with
                    ⟨other, _⟩ | ⟨other, _⟩ | ⟨_, rfl⟩ | ⟨other, _⟩
                  · exact absurd (type.symm.trans other) (by decide)
                  · exact absurd (type.symm.trans other) (by decide)
                  · exact .inr (.inr (.inl ⟨rfl, missing, by simp [type]⟩))
                  · exact absurd (type.symm.trans other) (by decide)
          · cases shows
            exact .inl rfl
      | recordEvent =>
          rw [type] at shows
          dsimp only at shows
          split at shows
          · next missing =>
              split at shows
              · cases shows
              · next linked links =>
                  cases shows
                  rcases link_cases links with
                    ⟨other, _⟩ | ⟨other, _⟩ | ⟨other, _⟩ | ⟨_, rfl⟩
                  · exact absurd (type.symm.trans other) (by decide)
                  · exact absurd (type.symm.trans other) (by decide)
                  · exact absurd (type.symm.trans other) (by decide)
                  · exact .inr (.inr (.inr ⟨rfl, missing, by simp [type]⟩))
          · cases shows
            exact .inl rfl
  · cases shows
    exact .inl rfl

theorem Armed.shown (armed : trigger.Armed) {isPublished : Bool}
    (shows : trigger.showPanel env config isPublished = .ok after) :
    after.Armed ∧ after.active = trigger.active ∧ after.triggerType = trigger.triggerType := by
  obtain ⟨cron, automation⟩ := armed
  rcases showPanel_cases shows with rfl | rfl | ⟨type, missing, rfl⟩ | ⟨type, missing, rfl⟩
  · exact ⟨⟨cron, automation⟩, rfl, rfl⟩
  · exact ⟨⟨cron, automation⟩, rfl, rfl⟩
  · refine ⟨⟨?_, automation⟩, rfl, rfl⟩
    simp [type]
  · refine ⟨⟨cron, ?_⟩, rfl, rfl⟩
    simp [type]

/-- Deactivating twice is deactivating once. -/
theorem actionDeactivate_again (trigger : Trigger) :
    trigger.actionDeactivate.actionDeactivate = trigger.actionDeactivate := by
  cases type : trigger.triggerType with
  | schedule => simp [actionDeactivate, type, Function.comp_def]
  | recordEvent => simp [actionDeactivate, type, Function.comp_def]
  | manual => simp [actionDeactivate, type]
  | webhook => simp [actionDeactivate, type]

end Trigger

/-!
## Nodes of a snapshot
-/

theorem snapshotNodes_withoutPinData (entries : List (Value × Value)) :
    snapshotNodes (withoutPinData entries) = snapshotNodes (.dict entries) := by
  unfold withoutPinData
  split
  · simp only [snapshotNodes, lookupField_setEntries]
    rfl
  · rfl

theorem snapshotNodes_ensureRequiredKeys {fields : List (Value × Value)}
    (given : nodesOf fields ≠ []) :
    snapshotNodes (.dict (ensureRequiredKeys fields)) = snapshotNodes (.dict fields) := by
  have kept : lookupField (ensureRequiredKeys fields) "nodes" = lookupField fields "nodes" := by
    unfold ensureRequiredKeys
    rw [lookupField_ensureField (by decide), lookupField_ensureField (by decide)]
    unfold ensureField
    split
    · rfl
    · next unlisted =>
        unfold nodesOf at given
        split at given
        · next nodes listed =>
            rw [listed] at unlisted
            cases unlisted
        · exact absurd rfl given
  simp only [snapshotNodes, kept]

theorem Names.congr {left right : Value} (same : snapshotNodes left = snapshotNodes right)
    {nodeId : String} {triggerType : TriggerType} :
    Names left nodeId triggerType ↔ Names right nodeId triggerType := by
  unfold Names
  rw [same]

theorem mem_extractTriggerNodes {env : TriggerEnv} {nodes triggerNodes : List Value}
    (extracts : extractTriggerNodes env nodes = .ok triggerNodes) {node : Value}
    (member : node ∈ triggerNodes) : node ∈ nodes := by
  induction nodes generalizing triggerNodes with
  | nil =>
      cases extracts
      cases member
  | cons first rest ih =>
      unfold extractTriggerNodes at extracts
      split at extracts
      · next isTrigger others _ extracted =>
          cases extracts
          split at member
          · rcases List.mem_cons.mp member with rfl | later
            · exact List.mem_cons_self
            · exact List.mem_cons_of_mem _ (ih extracted later)
          · exact List.mem_cons_of_mem _ (ih extracted member)
      · cases extracts
      · cases extracts

/-!
## The triggers of a workflow
-/

namespace TriggeredWorkflow

variable {env : TriggerEnv} {workflow : TriggeredWorkflow}

theorem AllArmed.set {triggers : OrderedMap String Trigger} {trigger : Trigger}
    (armed : AllArmed triggers) (here : trigger.Armed) (nodeId : String) :
    AllArmed (triggers.set nodeId trigger) := by
  intro other found present
  rw [OrderedMap.get?_set] at present
  split at present
  · cases present
    exact here
  · exact armed other found present

theorem get?_deactivateOne (triggers : OrderedMap String Trigger) (nodeId other : String) :
    (deactivateOne triggers nodeId).get? other =
      if other = nodeId then (triggers.get? nodeId).map Trigger.actionDeactivate
      else triggers.get? other := by
  unfold deactivateOne
  split
  · next absent =>
      by_cases same : other = nodeId
      · simp [same, absent]
      · simp [same]
  · next trigger found =>
      rw [found]
      exact OrderedMap.get?_set triggers nodeId other trigger.actionDeactivate

theorem get?_foldl_deactivateOne (nodeIds : List String) (triggers : OrderedMap String Trigger)
    (other : String) :
    (nodeIds.foldl deactivateOne triggers).get? other =
      if other ∈ nodeIds then (triggers.get? other).map Trigger.actionDeactivate
      else triggers.get? other := by
  induction nodeIds generalizing triggers with
  | nil => simp
  | cons nodeId rest ih =>
      rw [List.foldl_cons, ih, get?_deactivateOne]
      by_cases same : other = nodeId
      · subst same
        simp [Option.map_map, Function.comp_def, Trigger.actionDeactivate_again]
      · simp [same]

/-- A record that is deactivated is found as it was, or deactivated. -/
theorem foldl_deactivateOne_cases {nodeIds : List String} {triggers : OrderedMap String Trigger}
    {nodeId : String} {trigger : Trigger}
    (found : (nodeIds.foldl deactivateOne triggers).get? nodeId = some trigger) :
    (nodeId ∉ nodeIds ∧ triggers.get? nodeId = some trigger) ∨
      ∃ before, triggers.get? nodeId = some before ∧ trigger = before.actionDeactivate := by
  rw [get?_foldl_deactivateOne] at found
  split at found
  · obtain ⟨before, present, rfl⟩ := Option.map_eq_some_iff.mp found
    exact .inr ⟨before, present, rfl⟩
  · next outside => exact .inl ⟨outside, found⟩

theorem AllArmed.foldl {triggers : OrderedMap String Trigger} (armed : AllArmed triggers)
    (nodeIds : List String) : AllArmed (nodeIds.foldl deactivateOne triggers) := by
  intro nodeId trigger found
  rcases foldl_deactivateOne_cases found with ⟨_, present⟩ | ⟨before, present, rfl⟩
  · exact armed nodeId trigger present
  · exact (armed nodeId before present).deactivated

/-- What the loop over the trigger nodes has reached: the identifiers it has
seen have active triggers of the type of their node, the others their old records. -/
structure Activated (workflow : TriggeredWorkflow) (nodes : List Value)
    (triggers : OrderedMap String Trigger) (seen : List String) : Prop where
  armed : AllArmed triggers
  unseen : ∀ nodeId, nodeId ∉ seen → triggers.get? nodeId = workflow.triggers.get? nodeId
  active : ∀ nodeId ∈ seen, ∃ trigger, triggers.get? nodeId = some trigger ∧
    trigger.active = true ∧ ∃ node ∈ nodes, getKey node "id" = .ok (.str nodeId) ∧
      resolveTriggerType node = trigger.triggerType

theorem recordFor_armed {existing : List String} {triggers : OrderedMap String Trigger}
    {nodeId : String} {triggerType : TriggerType} {trigger : Trigger} (armed : AllArmed triggers)
    (records : recordFor existing triggers nodeId triggerType = .ok trigger) :
    trigger.Armed ∧ trigger.triggerType = triggerType := by
  unfold recordFor at records
  split at records
  · cases records
    exact ⟨Trigger.new_armed triggerType, rfl⟩
  · next before present =>
      split at records
      · split at records
        · next same =>
            cases records
            exact ⟨armed nodeId _ present, same⟩
        · cases records
          have off := (armed nodeId before present).deactivated
          exact ⟨off.retyped (before.actionDeactivate_inactive.1) triggerType, rfl⟩
      · cases records

theorem Activated.loop {nodes rest : List Value} {triggers after : OrderedMap String Trigger}
    {seen seenAfter : List String} (state : Activated workflow nodes triggers seen)
    (listed : ∀ node ∈ rest, node ∈ nodes)
    (activates : activateNodes env workflow rest triggers seen = .ok (after, seenAfter)) :
    Activated workflow nodes after seenAfter ∧
      seenAfter.length = seen.length + rest.length := by
  induction rest generalizing triggers seen with
  | nil =>
      cases activates
      exact ⟨state, rfl⟩
  | cons node rest ih =>
      unfold activateNodes at activates
      split at activates
      · next nodeId identified =>
          split at activates
          · cases activates
          · next trigger records =>
              split at activates
              · cases activates
              · next activated turned =>
                  obtain ⟨recorded, type⟩ := recordFor_armed state.armed records
                  obtain ⟨armed, active, same⟩ := recorded.activated turned
                  have next : Activated workflow nodes (triggers.set nodeId activated)
                      (seen ++ [nodeId]) := by
                    constructor
                    · exact state.armed.set armed nodeId
                    · intro other outside
                      rw [List.mem_append, List.mem_singleton, not_or] at outside
                      rw [OrderedMap.get?_set_of_ne _ _ outside.2]
                      exact state.unseen other outside.1
                    · intro other member
                      by_cases here : other = nodeId
                      · subst here
                        exact ⟨activated, OrderedMap.get?_set_self _ _ _, active, node,
                          listed node List.mem_cons_self, identified, (same.trans type).symm⟩
                      · rw [List.mem_append, List.mem_singleton] at member
                        rw [OrderedMap.get?_set_of_ne _ _ here]
                        exact state.active other (member.resolve_right here)
                  obtain ⟨reached, counted⟩ := ih next
                    (fun other member => listed other (List.mem_cons_of_mem _ member)) activates
                  refine ⟨reached, ?_⟩
                  rw [counted, List.length_append]
                  simp only [List.length_cons, List.length_nil]
                  omega
      · cases activates

variable {after : TriggeredWorkflow}

theorem actionActivateTriggers_matches (armed : AllArmed workflow.triggers)
    (activates : workflow.actionActivateTriggers env = .ok after) : after.Matches := by
  unfold actionActivateTriggers at activates
  split at activates
  · cases activates
  · split at activates
    · cases activates
    · cases activates
    · next triggerNodes some extracts =>
        split at activates
        · cases activates
        · next triggers seen loops =>
            cases activates
            obtain ⟨nodes, read, extracted⟩ : ∃ nodes,
                snapshotNodes workflow.publishedSnapshot = .ok nodes ∧
                  extractTriggerNodes env nodes = .ok triggerNodes := by
              cases read : snapshotNodes workflow.publishedSnapshot with
              | error error =>
                  rw [read] at extracts
                  cases extracts
              | ok nodes =>
                  rw [read] at extracts
                  exact ⟨nodes, rfl, extracts⟩
            have started : Activated workflow nodes workflow.triggers [] := by
              constructor
              · exact armed
              · exact fun _ _ => rfl
              · intro nodeId member
                cases member
            obtain ⟨state, counted⟩ := started.loop
              (fun node member => mem_extractTriggerNodes extracted member) loops
            have stale : ∀ nodeId,
                nodeId ∈ workflow.triggers.keys.filter (fun nodeId => nodeId ∉ seen) ↔
                  nodeId ∈ workflow.triggers.keys ∧ nodeId ∉ seen := by
              intro nodeId
              rw [List.mem_filter, decide_eq_true_iff]
            constructor
            · intro nodeId trigger found active
              rcases foldl_deactivateOne_cases found with ⟨kept, present⟩ | ⟨before, _, rfl⟩
              · by_cases visited : nodeId ∈ seen
                · obtain ⟨other, same, _, node, listed, identified, type⟩ :=
                    state.active nodeId visited
                  cases present.symm.trans same
                  exact ⟨nodes, node, read, listed, identified, type⟩
                · have old := (state.unseen nodeId visited).symm.trans present
                  have known := OrderedMap.mem_keys_iff.mpr ⟨trigger, old⟩
                  exact absurd ((stale nodeId).mpr ⟨known, visited⟩) kept
              · rw [before.actionDeactivate_inactive.1] at active
                cases active
            · exact state.armed.foldl _
            · refine iff_of_true rfl ?_
              obtain ⟨nodeId, visited⟩ : ∃ nodeId, nodeId ∈ seen := by
                refine List.exists_mem_of_length_pos ?_
                rw [counted]
                exact Nat.add_pos_right _ (List.length_pos_iff.mpr fun none => some none)
              obtain ⟨trigger, found, active, _⟩ := state.active nodeId visited
              refine ⟨nodeId, trigger, ?_, active⟩
              rw [get?_foldl_deactivateOne, if_neg fun gone => ((stale nodeId).mp gone).2 visited]
              exact found

theorem actionDeactivateTriggers_matches (armed : AllArmed workflow.triggers) :
    workflow.actionDeactivateTriggers.Matches := by
  have inactive : ∀ nodeId trigger,
      workflow.actionDeactivateTriggers.triggers.get? nodeId = some trigger →
        trigger.active = false := by
    intro nodeId trigger found
    rcases foldl_deactivateOne_cases found with ⟨outside, present⟩ | ⟨before, _, rfl⟩
    · exact absurd (OrderedMap.mem_keys_iff.mpr ⟨trigger, present⟩) outside
    · exact before.actionDeactivate_inactive.1
  constructor
  · intro nodeId trigger found active
    exact absurd ((inactive nodeId trigger found).symm.trans active) (by decide)
  · exact armed.foldl _
  · refine iff_of_false Bool.false_ne_true ?_
    intro some
    obtain ⟨nodeId, trigger, found, active⟩ := some
    exact absurd ((inactive nodeId trigger found).symm.trans active) (by decide)

theorem anyActive_iff (triggers : OrderedMap String Trigger) :
    (triggers.values.any fun trigger => trigger.active) = true ↔
      ∃ nodeId trigger, triggers.get? nodeId = some trigger ∧ trigger.active = true := by
  simp only [OrderedMap.values, List.any_map, List.any_eq_true, Function.comp_apply, Prod.exists,
    OrderedMap.get?_eq_some_iff]

theorem active_set_iff {triggers : OrderedMap String Trigger} {nodeId : String}
    {trigger : Trigger} :
    (∃ other found, (triggers.set nodeId trigger).get? other = some found ∧ found.active = true) ↔
      trigger.active = true ∨
        ∃ other found, other ≠ nodeId ∧ triggers.get? other = some found ∧ found.active = true := by
  constructor
  · intro some
    obtain ⟨other, found, present, active⟩ := some
    by_cases here : other = nodeId
    · subst here
      cases (OrderedMap.get?_set_self _ _ _).symm.trans present
      exact .inl active
    · exact .inr ⟨other, found, here, (OrderedMap.get?_set_of_ne _ _ here).symm.trans present,
        active⟩
  · intro either
    rcases either with active | ⟨other, found, elsewhere, present, active⟩
    · exact ⟨nodeId, trigger, OrderedMap.get?_set_self _ _ _, active⟩
    · exact ⟨other, found, (OrderedMap.get?_set_of_ne _ _ elsewhere).trans present, active⟩

theorem withTrigger_matches {nodeId : String} {trigger : Trigger} (before : workflow.Matches)
    (armed : trigger.Armed) (stores : workflow.withTrigger env nodeId trigger = .ok after) :
    after.Matches ↔
      (trigger.active = true → Names workflow.publishedSnapshot nodeId trigger.triggerType) := by
  unfold withTrigger at stores
  split at stores
  · cases stores
  · next shown shows =>
      cases stores
      obtain ⟨panelArmed, sameActive, sameType⟩ := armed.shown shows
      constructor
      · intro holds active
        have named := holds.named nodeId shown (OrderedMap.get?_set_self _ _ _)
          (sameActive.trans active)
        rwa [sameType] at named
      · intro named
        constructor
        · intro other found present active
          by_cases here : other = nodeId
          · subst here
            cases (OrderedMap.get?_set_self _ _ _).symm.trans present
            rw [sameType]
            exact named (sameActive.symm.trans active)
          · exact before.named other found
              ((OrderedMap.get?_set_of_ne _ _ here).symm.trans present) active
        · exact before.armed.set panelArmed nodeId
        · dsimp only
          rw [anyActive_iff, active_set_iff, active_set_iff, sameActive]

theorem ensureTriggerRecord_armed {nodeId : String} {trigger : Trigger}
    (armed : AllArmed workflow.triggers)
    (records : workflow.ensureTriggerRecord nodeId = .ok trigger) : trigger.Armed := by
  unfold ensureTriggerRecord at records
  split at records
  · cases records
  · cases records
  · split at records
    · next found present =>
        cases records
        exact armed nodeId _ present
    · cases records
      exact Trigger.new_armed _

theorem activateTriggerNode_accepted {nodeId : String} {trigger linked : Trigger}
    (published : workflow.isPublished = true)
    (records : workflow.ensureTriggerRecord nodeId = .ok trigger)
    (links : trigger.link env (workflow.getNodeConfig nodeId) = .ok linked) :
    ∃ after, workflow.activateTriggerNode env nodeId = .ok after := by
  have activates : workflow.activate env nodeId trigger = .ok { linked with active := true } := by
    unfold activate Trigger.actionActivate
    rw [links]
  obtain ⟨shown, shows⟩ := Trigger.showPanel_activated workflow.isPublished activates
  unfold activateTriggerNode
  rw [if_neg (by simp [published]), records]
  simp only [activates, withTrigger, shows]
  exact ⟨_, rfl⟩

theorem activateTriggerNode_matches {nodeId : String} (before : workflow.Matches)
    (activates : workflow.activateTriggerNode env nodeId = .ok after) :
    workflow.isPublished = true ∧ ∃ trigger linked,
      workflow.ensureTriggerRecord nodeId = .ok trigger ∧
      trigger.link env (workflow.getNodeConfig nodeId) = .ok linked ∧
      (after.Matches ↔ Names workflow.publishedSnapshot nodeId trigger.triggerType) := by
  unfold activateTriggerNode at activates
  split at activates
  · cases activates
  · next published =>
      split at activates
      · cases activates
      · next trigger records =>
          split at activates
          · cases activates
          · next activated turned =>
              obtain ⟨armed, active, type⟩ :=
                (ensureTriggerRecord_armed before.armed records).activated turned
              obtain ⟨linked, links⟩ := Trigger.actionActivate_links turned
              have matched := withTrigger_matches before armed activates
              rw [type] at matched
              exact ⟨Bool.eq_true_of_not_eq_false published, trigger, linked, records, links,
                matched.trans (forall_prop_of_true active)⟩

theorem deactivateTriggerNode_matches {nodeId : String} (before : workflow.Matches)
    (deactivates : workflow.deactivateTriggerNode env nodeId = .ok after) : after.Matches := by
  unfold deactivateTriggerNode at deactivates
  split at deactivates
  · cases deactivates
  · next trigger records =>
      have armed := (ensureTriggerRecord_armed before.armed records).deactivated
      refine (withTrigger_matches before armed deactivates).mpr fun active => ?_
      rw [trigger.actionDeactivate_inactive.1] at active
      cases active

/-- An operation on the workflow alone matters only by what it publishes. -/
theorem Matches.onWorkflow {changed : IrWorkflow} (before : workflow.Matches) :
    Matches { workflow with toIrWorkflow := changed } ↔
      workflow.NamedIn changed.publishedSnapshot := by
  constructor
  · exact fun holds => holds.named
  · intro named
    constructor
    · exact named
    · exact before.armed
    · exact before.activated

theorem NamedIn.congr {left right : Value} (same : snapshotNodes left = snapshotNodes right) :
    workflow.NamedIn left ↔ workflow.NamedIn right := by
  unfold NamedIn
  simp only [Names.congr same]

end TriggeredWorkflow

/-!
## Runs
-/

namespace TriggerOperation

open TriggeredWorkflow

variable {digests : Digests} {env : TriggerEnv} {workflow : TriggeredWorkflow}

theorem settled_matches {answer : Except WorkflowError TriggeredWorkflow}
    (before : workflow.Matches) (succeeds : ∀ changed, answer = .ok changed → changed.Matches) :
    (settled workflow answer).Matches := by
  cases answer with
  | error error => exact before
  | ok changed => exact succeeds changed rfl

theorem saveWorkflow_covers (before : workflow.Matches) (author : Author) (snapshot : Value)
    (expectedHash failure : Option String) :
    (saveWorkflow author snapshot expectedHash failure).Covers digests env workflow ↔
      workflow.NamedIn ((WorkflowOperation.saveWorkflow author snapshot expectedHash failure).apply
        digests workflow.toIrWorkflow).publishedSnapshot := by
  cases answer : workflow.saveWorkflow digests author snapshot expectedHash failure with
  | error error =>
      simp only [WorkflowOperation.apply, answer]
      refine iff_of_true ?_ before.named
      intro fields given _ accepted
      subst given
      obtain ⟨result, accepts⟩ := IrWorkflow.saveWorkflow_accepted_iff.mpr accepted
      cases answer.symm.trans accepts
  | ok result =>
      obtain ⟨fields, saved⟩ := IrWorkflow.saveWorkflow_saved answer
      have published := saved.published
      rw [nodesOf_ensureRequiredKeys] at published
      have given := saved.given
      subst given
      simp only [WorkflowOperation.apply, answer, published]
      by_cases none : nodesOf fields = []
      · rw [if_pos none]
        refine iff_of_true ?_ before.named
        intro others same nodes
        cases same
        exact absurd none nodes
      · have same := (snapshotNodes_withoutPinData _).trans (snapshotNodes_ensureRequiredKeys none)
        rw [if_neg none, NamedIn.congr same]
        constructor
        · intro covered
          exact covered fields rfl none (IrWorkflow.saveWorkflow_accepted_iff.mp ⟨result, answer⟩)
        · intro named others given _ _
          exact named

theorem actionPublish_covers (before : workflow.Matches) (failure : Option String) :
    (actionPublish failure).Covers digests env workflow ↔
      workflow.NamedIn ((WorkflowOperation.actionPublish failure).apply digests
        workflow.toIrWorkflow).publishedSnapshot := by
  cases answer : workflow.actionPublish failure with
  | error error =>
      simp only [WorkflowOperation.apply, answer, Workflow.settled]
      refine iff_of_true ?_ before.named
      intro entries draft accepted
      obtain ⟨result, accepts⟩ := (IrWorkflow.actionPublish_accepted_iff draft).mpr accepted
      cases answer.symm.trans accepts
  | ok result =>
      obtain ⟨entries, draft, rfl⟩ := IrWorkflow.actionPublish_ok answer
      simp only [WorkflowOperation.apply, answer, Workflow.settled]
      rw [NamedIn.congr (snapshotNodes_withoutPinData entries)]
      constructor
      · intro covered
        have named := covered entries draft
          ((IrWorkflow.actionPublish_accepted_iff draft).mp ⟨_, answer⟩)
        rwa [draft] at named
      · intro named _ _ _
        rwa [draft]

theorem actionUnpublish_covers :
    actionUnpublish.Covers digests env workflow ↔
      workflow.NamedIn workflow.actionUnpublish.publishedSnapshot := by
  constructor
  · intro none nodeId trigger found active
    exact absurd ((none nodeId trigger found).symm.trans active) (by decide)
  · intro named nodeId trigger found
    cases active : trigger.active with
    | false => rfl
    | true =>
        obtain ⟨nodes, _, read, _⟩ := named nodeId trigger found active
        cases read

theorem activateTriggerNode_covers (before : workflow.Matches) (nodeId : String) :
    (activateTriggerNode nodeId).Covers digests env workflow ↔
      (settled workflow (workflow.activateTriggerNode env nodeId)).Matches := by
  cases answer : workflow.activateTriggerNode env nodeId with
  | error error =>
      refine iff_of_true ?_ before
      intro published trigger linked records links
      obtain ⟨result, accepts⟩ := activateTriggerNode_accepted published records links
      cases answer.symm.trans accepts
  | ok result =>
      obtain ⟨published, trigger, linked, records, links, matched⟩ :=
        activateTriggerNode_matches before answer
      refine Iff.trans ?_ matched.symm
      constructor
      · intro covered
        exact covered published trigger linked records links
      · intro named _ other _ same _
        cases records.symm.trans same
        exact named

/-- From a state in which the triggers match, they match after the operation
just when it covers them. -/
theorem covers_iff (before : workflow.Matches) (operation : TriggerOperation) :
    operation.Covers digests env workflow ↔ (operation.apply digests env workflow).Matches := by
  cases operation with
  | saveWorkflow author snapshot expectedHash failure =>
      exact (saveWorkflow_covers before author snapshot expectedHash failure).trans
        before.onWorkflow.symm
  | actionPublish failure =>
      exact (actionPublish_covers before failure).trans before.onWorkflow.symm
  | actionUnpublish => exact actionUnpublish_covers.trans before.onWorkflow.symm
  | restoreVersion author revisionId =>
      refine iff_of_true trivial (before.onWorkflow.mpr ?_)
      refine settled_cases (fun changed => workflow.NamedIn changed.publishedSnapshot) before.named
        fun restored succeeds => ?_
      rw [(IrWorkflow.restoreVersion_ok succeeds).1]
      exact before.named
  | actionActivateTriggers =>
      exact iff_of_true trivial (settled_matches before fun changed activates =>
        actionActivateTriggers_matches before.armed activates)
  | actionDeactivateTriggers =>
      exact iff_of_true trivial (actionDeactivateTriggers_matches before.armed)
  | activateTriggerNode nodeId => exact activateTriggerNode_covers before nodeId
  | deactivateTriggerNode nodeId =>
      exact iff_of_true trivial (settled_matches before fun changed deactivates =>
        deactivateTriggerNode_matches before deactivates)

end TriggerOperation

theorem TriggeredWorkflow.ofWorkflow_matches (workflow : IrWorkflow) :
    (ofWorkflow workflow).Matches := by
  constructor
  · intro nodeId trigger found
    cases found
  · intro nodeId trigger found
    cases found
  · refine iff_of_false Bool.false_ne_true ?_
    intro some
    obtain ⟨nodeId, trigger, found, _⟩ := some
    cases found

/-- The triggers of a workflow match what is published in every state of a run
just when each of its operations covers the triggers that are active. -/
theorem active_triggers_match_iff (digests : Digests) (env : TriggerEnv) (workflow : IrWorkflow)
    (operations : List TriggerOperation) :
    GuardedRun.Meets (TriggerOperation.apply digests env) (TriggerOperation.Covers digests env)
        (TriggeredWorkflow.ofWorkflow workflow) operations ↔
      ∀ before, before <+: operations →
        (GuardedRun.run (TriggerOperation.apply digests env)
          (TriggeredWorkflow.ofWorkflow workflow) before).Matches := by
  have keeps : ∀ (state : TriggeredWorkflow) (operation : TriggerOperation), state.Matches →
      (operation.Covers digests env state ↔ (operation.apply digests env state).Matches) :=
    fun state operation before => TriggerOperation.covers_iff before operation
  exact GuardedRun.meets_iff keeps (TriggeredWorkflow.ofWorkflow_matches workflow)

def scheduledDraft : Value :=
  .dict [
    (.str "nodes", .list [.dict [(.str "id", .str "n_1"), (.str "type", .str "schedule_trigger")]]),
    (.str "connections", .list []), (.str "metadata", .dict [])]

def plainDraft : Value :=
  .dict [(.str "nodes", .list [.dict [(.str "id", .str "n_2"), (.str "type", .str "http")]]),
    (.str "connections", .list []), (.str "metadata", .dict [])]

def triggerEnv : TriggerEnv where
  triggerTypes := ["manual_trigger", "schedule_trigger", "webhook_trigger", "record_event_trigger"]
  baseAutomation := true
  knowsModel := fun _ => true
  automationError := fun _ => none

def savedWithoutTrigger : List TriggerOperation := [
  .saveWorkflow ⟨0, 7, "Admin"⟩ scheduledDraft none none,
  .actionActivateTriggers,
  .saveWorkflow ⟨1, 7, "Admin"⟩ plainDraft none none]

/-- A save that removes the node of an active trigger publishes a graph without
it, and leaves the trigger and its cron job active. -/
theorem removed_trigger_stays_active :
    ¬ (GuardedRun.run (TriggerOperation.apply nodeDigests triggerEnv)
      (TriggeredWorkflow.ofWorkflow newWorkflow) savedWithoutTrigger).Matches := by
  intro holds
  obtain ⟨nodes, node, read, member, identified, _⟩ := holds.named "n_1"
    { triggerType := .schedule, active := true, cron := some true, automation := none,
      webhookUuid := false } (by decide) rfl
  cases read
  rcases List.mem_singleton.mp member with rfl
  exact absurd identified (by decide)

end WorkflowStudio.Workflow

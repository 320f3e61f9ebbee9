import Mathlib.Data.List.Induction
import WorkflowStudio.Connector.BridgeSync
import WorkflowStudio.Lib.Attempts

/-! After a sync the active bridges are those of the request nodes of the snapshot, all others
are kept, no binding is replaced, and a second sync changes nothing. -/

set_option autoImplicit false

namespace WorkflowStudio.Connector.BridgeSync

open Lib

/-- What is bound stays bound to the same record. -/
structure Bindings.Keeps (before after : Bindings) : Prop where
  connector : ∀ id, before.connectorId = some id → after.connectorId = some id
  endpoint : ∀ id, before.endpointId = some id → after.endpointId = some id
  profile : ∀ id, before.authProfileId = some id → after.authProfileId = some id

section Sync

variable {env : Environment}

/-!
## Bindings
-/

/-- The fields that are not bound yet take what is offered. -/
def Bindings.filled (env : Environment) (bindings : Bindings) (offered : BindingVals) : Bindings where
  connectorId := bindings.connectorId.or (offered.connectorId.bind env.toId)
  endpointId := bindings.endpointId.or (offered.endpointId.bind env.toId)
  authProfileId := bindings.authProfileId.or (offered.authProfileId.bind env.toId)

/-- What is offered for a field that is not bound yet. -/
def BindingVals.unboundIn (offered : BindingVals) (bindings : Bindings) : BindingVals where
  connectorId := if bindings.connectorId = none then offered.connectorId else none
  endpointId := if bindings.endpointId = none then offered.endpointId else none
  authProfileId := if bindings.authProfileId = none then offered.authProfileId else none

/-- Nothing that is offered changes the bindings, or fails their check. -/
structure Settled (env : Environment) (bindings : Bindings) (offered : BindingVals) : Prop where
  filled : bindings.filled env offered = bindings
  checked : (offered.unboundIn bindings).any = true → checkConnectorAlignment env bindings = .ok ()

variable {bindings updated : Bindings} {offered : BindingVals} {config : Config}

theorem prepareSyncVals_eq (prepared : prepareCreateVals env config = .ok offered)
    (bindings : Bindings) :
    prepareSyncVals env bindings config = .ok (offered.unboundIn bindings) := by
  unfold prepareCreateVals at prepared
  cases resolved : resolveConnectorBindingId env config with
  | error error =>
      rw [resolved] at prepared
      cases prepared
  | ok connector =>
      rw [resolved] at prepared
      obtain rfl := Except.ok.inj prepared
      unfold prepareSyncVals BindingVals.unboundIn
      rw [resolved]
      by_cases unbound : bindings.connectorId = none
      · simp only [unbound, ↓reduceIte]
        rfl
      · simp only [unbound, ↓reduceIte]
        rfl

theorem writeVals_unbound (env : Environment) (bindings : Bindings) (offered : BindingVals) :
    writeVals env bindings (offered.unboundIn bindings) = bindings.filled env offered := by
  have field : ∀ (current : Option Nat) (value : Option Value),
      writeField env current (if current = none then value else none) =
        current.or (value.bind env.toId) := by
    intro current value
    cases current <;> cases value <;> rfl
  unfold writeVals Bindings.filled BindingVals.unboundIn
  dsimp only
  rw [field, field, field]

theorem filled_keeps : bindings.Keeps (bindings.filled env offered) where
  connector id bound := by rw [Bindings.filled, bound, Option.some_or]
  endpoint id bound := by rw [Bindings.filled, bound, Option.some_or]
  profile id bound := by rw [Bindings.filled, bound, Option.some_or]

theorem Bindings.Keeps.trans {third : Bindings} (first : bindings.Keeps updated)
    (second : updated.Keeps third) : bindings.Keeps third where
  connector id bound := second.connector id (first.connector id bound)
  endpoint id bound := second.endpoint id (first.endpoint id bound)
  profile id bound := second.profile id (first.profile id bound)

/-- A write that succeeds fills the fields, and was checked if it had values. -/
theorem writeBindings_unbound
    (done : writeBindings env bindings (offered.unboundIn bindings) = .ok updated) :
    updated = bindings.filled env offered ∧ ((offered.unboundIn bindings).any = true →
      checkConnectorAlignment env updated = .ok ()) := by
  unfold writeBindings at done
  rw [writeVals_unbound] at done
  cases some : (offered.unboundIn bindings).any with
  | false =>
      rw [some] at done
      obtain rfl := Except.ok.inj done
      exact ⟨rfl, fun absent => nomatch absent⟩
  | true =>
      rw [some] at done
      cases checked : checkConnectorAlignment env (bindings.filled env offered) with
      | error error =>
          simp only [checked, ↓reduceIte] at done
          cases done
      | ok _ =>
          simp only [checked, ↓reduceIte] at done
          obtain rfl := Except.ok.inj done
          exact ⟨rfl, fun _ => checked⟩

theorem filled_filled : (bindings.filled env offered).filled env offered =
    bindings.filled env offered := by
  simp only [Bindings.filled, Option.or_assoc, Option.or_self]

/-- What is offered in vain is offered in vain after other values were filled in. -/
theorem filled_other {other : BindingVals} (vain : bindings.filled env offered = bindings) :
    (bindings.filled env other).filled env offered = bindings.filled env other := by
  have field : ∀ {current new old : Option Nat}, current.or old = current →
      (current.or new).or old = current.or new := by
    intro current new old same
    cases current with
    | none =>
        rw [Option.none_or] at same
        rw [same, Option.or_none]
    | some id => rfl
  exact Bindings.ext (field (congrArg Bindings.connectorId vain))
    (field (congrArg Bindings.endpointId vain)) (field (congrArg Bindings.authProfileId vain))

/-- Nothing is filled in where nothing is written. -/
theorem filled_of_not_any (none : (offered.unboundIn bindings).any = false) :
    bindings.filled env offered = bindings := by
  have field : ∀ {current : Option Nat} {value : Option Value},
      (if current = .none then value else .none).isSome = false →
      current.or (value.bind env.toId) = current := by
    intro current value silent
    cases current with
    | none =>
        cases value with
        | none => rfl
        | some value => cases silent
    | some id => rfl
  unfold BindingVals.any BindingVals.unboundIn at none
  simp only [Bool.or_eq_false_iff] at none
  obtain ⟨⟨connector, endpoint⟩, profile⟩ := none
  exact Bindings.ext (field connector) (field endpoint) (field profile)

/-- The more is bound, the less is written. -/
theorem unboundIn_any (keeps : bindings.Keeps updated)
    (some : (offered.unboundIn updated).any = true) : (offered.unboundIn bindings).any = true := by
  have field : ∀ {before after : Option Nat} {value : Option Value},
      (∀ id, before = .some id → after = .some id) →
      (if after = none then value else none).isSome = true →
      (if before = none then value else none).isSome = true := by
    intro before after value keeps written
    cases before with
    | none =>
        rw [if_pos rfl]
        split at written
        · exact written
        · cases written
    | some id =>
        rw [keeps id rfl] at written
        cases written
  unfold BindingVals.any BindingVals.unboundIn at some ⊢
  simp only [Bool.or_eq_true] at some ⊢
  rcases some with (connector | endpoint) | profile
  · exact .inl (.inl (field keeps.connector connector))
  · exact .inl (.inr (field keeps.endpoint endpoint))
  · exact .inr (field keeps.profile profile)

theorem settled_of_write
    (done : writeBindings env bindings (offered.unboundIn bindings) = .ok updated) :
    Settled env updated offered := by
  obtain ⟨rfl, checked⟩ := writeBindings_unbound done
  exact ⟨filled_filled, fun some => checked (unboundIn_any filled_keeps some)⟩

/-- A later write leaves the bindings settled for what was offered before. -/
theorem Settled.write {other : BindingVals} (settled : Settled env bindings offered)
    (done : writeBindings env bindings (other.unboundIn bindings) = .ok updated) :
    Settled env updated offered := by
  obtain ⟨rfl, checked⟩ := writeBindings_unbound done
  refine ⟨filled_other settled.filled, fun some => ?_⟩
  cases any : (other.unboundIn bindings).any with
  | true => exact checked any
  | false =>
      -- nothing was written, so that the bindings are those that were settled
      rw [filled_of_not_any any] at some ⊢
      exact settled.checked some

theorem settled_of_create (done : createBindings env offered = .ok bindings) :
    Settled env bindings offered := by
  have stored : writeVals env ⟨none, none, none⟩ offered =
      Bindings.filled env ⟨none, none, none⟩ offered := writeVals_unbound env ⟨none, none, none⟩ offered
  unfold createBindings at done
  rw [stored] at done
  cases checked : checkConnectorAlignment env (Bindings.filled env ⟨none, none, none⟩ offered) with
  | error error =>
      simp only [checked] at done
      cases done
  | ok _ =>
      simp only [checked] at done
      obtain rfl := Except.ok.inj done
      exact ⟨filled_filled, fun _ => checked⟩

theorem Settled.writeBindings (settled : Settled env bindings offered) :
    writeBindings env bindings (offered.unboundIn bindings) = .ok bindings := by
  unfold BridgeSync.writeBindings
  rw [writeVals_unbound, settled.filled]
  cases some : (offered.unboundIn bindings).any with
  | false => rfl
  | true =>
      simp only [settled.checked some, ↓reduceIte]
      rfl

/-!
## One round
-/

variable {bridges before : Bridges} {request : String × Config}

/-- The bridge of the round is active, holds what was read off the node and is settled for
what the node offers. All other bridges are as they were. -/
structure Round (env : Environment) (before : Bridges) (request : String × Config)
    (after : Bridges) : Prop where
  others : ∀ nodeId, nodeId ≠ request.1 →
    after.records.get? nodeId = before.records.get? nodeId
  own : ∃ bridge, after.records.get? request.1 = some bridge ∧ bridge.active = true ∧
    bridge.cached = cachedOf env request.2 ∧
    (∃ offered, prepareCreateVals env request.2 = .ok offered ∧
      Settled env bridge.bindings offered) ∧
    ∀ earlier, before.records.get? request.1 = some earlier → bridge.id = earlier.id ∧
      earlier.bindings.Keeps bridge.bindings ∧ ∀ offered,
        Settled env earlier.bindings offered → Settled env bridge.bindings offered

theorem syncRequest_round {after : Bridges} (done : syncRequest env before request = .ok after) :
    Round env before request after := by
  unfold syncRequest at done
  cases prepared : prepareCreateVals env request.2 with
  | error error =>
      rw [prepared] at done
      cases done
  | ok offered =>
      rw [prepared] at done
      cases found : before.records.get? request.1 with
      | some bridge =>
          simp only [found, prepareSyncVals_eq prepared, bind, Except.bind] at done
          cases wrote : writeBindings env bridge.bindings (offered.unboundIn bridge.bindings) with
          | error error =>
              simp only [wrote] at done
              cases done
          | ok bindings =>
              simp only [wrote] at done
              obtain rfl := Except.ok.inj done
              refine ⟨fun nodeId other => OrderedMap.get?_set_of_ne _ _ other, _,
                OrderedMap.get?_set_self .., rfl, rfl, ⟨offered, prepared, settled_of_write wrote⟩, ?_⟩
              rintro earlier same
              obtain rfl := Option.some.inj (found.symm.trans same)
              refine ⟨rfl, ?_, fun _ settled => settled.write wrote⟩
              exact (writeBindings_unbound wrote).1 ▸ filled_keeps
      | none =>
          simp only [found, bind, Except.bind] at done
          cases stored : createBindings env offered with
          | error error =>
              simp only [stored] at done
              cases done
          | ok bindings =>
              simp only [stored] at done
              obtain rfl := Except.ok.inj done
              refine ⟨fun nodeId other => OrderedMap.get?_set_of_ne _ _ other, _,
                OrderedMap.get?_set_self .., rfl, rfl,
                ⟨offered, prepared, settled_of_create stored⟩, ?_⟩
              intro earlier present
              rw [found] at present
              cases present

/-!
## The whole pass
-/

/-- The configuration of the last of the requests with the node id. -/
def latest (requests : List (String × Config)) (nodeId : String) : Option Config :=
  requests.reverse.lookup nodeId

variable {requests : List (String × Config)} {after : Bridges} {nodeId : String}

theorem latest_concat (requests : List (String × Config)) (request : String × Config)
    (nodeId : String) : latest (requests ++ [request]) nodeId =
      if nodeId = request.1 then some request.2 else latest requests nodeId := by
  obtain ⟨id, config⟩ := request
  rw [latest, List.reverse_concat, OrderedMap.lookup_cons_eq]
  rfl

theorem latest_eq_none (absent : nodeId ∉ requests.map Prod.fst) : latest requests nodeId = none := by
  rw [latest, List.lookup_eq_none_iff]
  intro request member
  have differs : nodeId ≠ request.1 := fun same =>
    absent (same ▸ List.mem_map_of_mem (List.mem_reverse.mp member))
  simpa using differs

/-- What a run of rounds has done. -/
structure Pass (env : Environment) (before : Bridges) (requests : List (String × Config))
    (after : Bridges) : Prop where
  untouched : ∀ nodeId, nodeId ∉ requests.map Prod.fst →
    after.records.get? nodeId = before.records.get? nodeId
  kept : ∀ nodeId earlier, before.records.get? nodeId = some earlier →
    ∃ bridge, after.records.get? nodeId = some bridge ∧ bridge.id = earlier.id ∧
      earlier.bindings.Keeps bridge.bindings
  seen : ∀ request ∈ requests, ∃ bridge, after.records.get? request.1 = some bridge ∧
    bridge.active = true ∧ ∃ offered, prepareCreateVals env request.2 = .ok offered ∧
      Settled env bridge.bindings offered
  current : ∀ nodeId config, latest requests nodeId = some config →
    ∃ bridge, after.records.get? nodeId = some bridge ∧ bridge.cached = cachedOf env config

theorem Pass.nil (before : Bridges) : Pass env before [] before where
  untouched _ _ := rfl
  kept _ earlier found := ⟨earlier, found, rfl, fun _ => id, fun _ => id, fun _ => id⟩
  seen request absent := absurd absent List.not_mem_nil
  current nodeId config none := by cases none

theorem Pass.concat {middle : Bridges} (pass : Pass env before requests middle)
    (round : Round env middle request after) : Pass env before (requests ++ [request]) after := by
  obtain ⟨bridge, found, active, cached, offers, keeps⟩ := round.own
  constructor
  · intro nodeId absent
    rw [List.map_append, List.map_singleton, List.mem_append, List.mem_singleton, not_or] at absent
    rw [round.others nodeId absent.2, pass.untouched nodeId absent.1]
  · intro nodeId earlier was
    obtain ⟨between, there, identity, kept⟩ := pass.kept nodeId earlier was
    by_cases own : nodeId = request.1
    · subst own
      obtain ⟨same, further, -⟩ := keeps between there
      exact ⟨bridge, found, same.trans identity, kept.trans further⟩
    · exact ⟨between, (round.others nodeId own).trans there, identity, kept⟩
  · intro other member
    rcases List.mem_append.mp member with earlier | last
    · obtain ⟨between, there, wasActive, offered, prepared, settled⟩ := pass.seen other earlier
      by_cases own : other.1 = request.1
      · rw [own] at there ⊢
        obtain ⟨-, -, settles⟩ := keeps between there
        exact ⟨bridge, found, active, offered, prepared, settles offered settled⟩
      · exact ⟨between, (round.others _ own).trans there, wasActive, offered, prepared, settled⟩
    · obtain rfl := List.mem_singleton.mp last
      exact ⟨bridge, found, active, offers⟩
  · intro nodeId config is
    rw [latest_concat] at is
    by_cases own : nodeId = request.1
    · rw [if_pos own] at is
      obtain rfl := Option.some.inj is
      exact ⟨bridge, own ▸ found, cached⟩
    · rw [if_neg own] at is
      obtain ⟨between, there, same⟩ := pass.current nodeId config is
      exact ⟨between, (round.others nodeId own).trans there, same⟩

theorem foldlM_pass (done : requests.foldlM (syncRequest env) before = .ok after) :
    Pass env before requests after := by
  induction requests using List.reverseRecOn generalizing after with
  | nil =>
      obtain rfl := Except.ok.inj done
      exact .nil before
  | append_singleton requests request ih =>
      simp only [List.foldlM_append, List.foldlM_cons, List.foldlM_nil, bind_pure] at done
      cases ran : requests.foldlM (syncRequest env) before with
      | error error =>
          rw [ran] at done
          cases done
      | ok middle =>
          rw [ran] at done
          exact (ih ran).concat (syncRequest_round done)

/-!
## The second pass
-/

/-- A bridge once the requests are cached again. -/
def refreshed (env : Environment) (requests : List (String × Config)) (nodeId : String)
    (bridge : Bridge) : Bridge :=
  { bridge with cached := ((latest requests nodeId).map (cachedOf env)).getD bridge.cached }

/-- The bridges of a finished sync, some rounds into the next one. -/
structure Again (env : Environment) (settled : Bridges) (done : List (String × Config))
    (bridges : Bridges) : Prop where
  nextId : bridges.nextId = settled.nextId
  keys : bridges.records.keys = settled.records.keys
  records : ∀ nodeId, bridges.records.get? nodeId =
    (settled.records.get? nodeId).map (refreshed env done nodeId)

theorem Again.round {settled : Bridges} {done : List (String × Config)}
    (again : Again env settled done bridges) {bridge : Bridge}
    (found : settled.records.get? request.1 = some bridge) (active : bridge.active = true)
    (prepared : prepareCreateVals env request.2 = .ok offered)
    (stable : Settled env bridge.bindings offered) :
    ∃ next, syncRequest env bridges request = .ok next ∧
      Again env settled (done ++ [request]) next := by
  have there : bridges.records.get? request.1 = some (refreshed env done request.1 bridge) := by
    rw [again.records, found, Option.map_some]
  have same : writeBindings env (refreshed env done request.1 bridge).bindings
      (offered.unboundIn bridge.bindings) = .ok bridge.bindings := stable.writeBindings
  have vals : prepareSyncVals env (refreshed env done request.1 bridge).bindings request.2 =
      .ok (offered.unboundIn bridge.bindings) := prepareSyncVals_eq prepared _
  let updated : Bridge := { bridge with cached := cachedOf env request.2, active := true }
  let next : Bridges := { bridges with records := bridges.records.set request.1 updated }
  refine ⟨next, ?_, again.nextId, ?_, ?_⟩
  · unfold syncRequest
    simp only [prepared, there, vals, same, bind, Except.bind]
    rfl
  · have known : (bridges.records.get? request.1).isSome = true := by rw [there, Option.isSome_some]
    exact (OrderedMap.keys_set_of_get? known updated).trans again.keys
  · intro nodeId
    show (bridges.records.set request.1 updated).get? nodeId = _
    rw [OrderedMap.get?_set, again.records]
    by_cases own : nodeId = request.1
    · rw [if_pos own, own, found, Option.map_some, refreshed, latest_concat, if_pos rfl,
        Option.map_some, Option.getD_some, active]
    · have unchanged : refreshed env (done ++ [request]) nodeId = refreshed env done nodeId := by
        funext other
        rw [refreshed, refreshed, latest_concat, if_neg own]
      rw [if_neg own, unchanged]

theorem foldlM_again {settled : Bridges}
    (seen : ∀ request ∈ requests, ∃ bridge, settled.records.get? request.1 = some bridge ∧
      bridge.active = true ∧ ∃ offered, prepareCreateVals env request.2 = .ok offered ∧
        Settled env bridge.bindings offered) :
    ∃ next, requests.foldlM (syncRequest env) settled = .ok next ∧
      Again env settled requests next := by
  induction requests using List.reverseRecOn with
  | nil =>
      refine ⟨settled, rfl, rfl, rfl, fun nodeId => ?_⟩
      cases settled.records.get? nodeId <;> rfl
  | append_singleton requests request ih =>
      obtain ⟨middle, ran, again⟩ := ih fun other member =>
        seen other (List.mem_append_left _ member)
      obtain ⟨bridge, found, active, offered, prepared, stable⟩ :=
        seen request (List.mem_append_right _ (List.mem_singleton_self _))
      obtain ⟨next, done, further⟩ := again.round found active prepared stable
      refine ⟨next, ?_, further⟩
      simp only [List.foldlM_append, List.foldlM_cons, List.foldlM_nil, bind_pure, ran]
      exact done

/-- Where every bridge holds what its last request says, nothing is changed. -/
theorem Again.eq {settled next : Bridges} (again : Again env settled requests next)
    (current : ∀ nodeId config, latest requests nodeId = some config →
      ∃ bridge, settled.records.get? nodeId = some bridge ∧ bridge.cached = cachedOf env config) :
    next = settled := by
  have records : next.records = settled.records := by
    refine OrderedMap.ext_keys again.keys fun nodeId _ => ?_
    rw [again.records]
    cases is : latest requests nodeId with
    | none =>
        have unchanged : refreshed env requests nodeId = id := by
          funext bridge
          rw [refreshed, is]
          rfl
        rw [unchanged, Option.map_id, id]
    | some config =>
        obtain ⟨bridge, found, cached⟩ := current nodeId config is
        rw [found, Option.map_some, refreshed, is, Option.map_some, Option.getD_some, ← cached]
  exact Bridges.ext records again.nextId

/-!
## The other bridges
-/

/-- What becomes of a bridge when the loop is over. -/
def deactivated (seen : List String) (nodeId : String) (bridge : Bridge) : Bridge :=
  if nodeId ∈ seen then bridge else { bridge with active := false }

theorem get?_deactivateOthers (seen : List String) (bridges : Bridges) (nodeId : String) :
    (deactivateOthers seen bridges).records.get? nodeId =
      (bridges.records.get? nodeId).map (deactivated seen nodeId) :=
  OrderedMap.get?_mapValues _ _ _

theorem deactivated_of_mem {seen : List String} (member : nodeId ∈ seen) (bridge : Bridge) :
    deactivated seen nodeId bridge = bridge :=
  if_pos member

theorem deactivated_keeps (seen : List String) (nodeId : String) (bridge : Bridge) :
    (deactivated seen nodeId bridge).id = bridge.id ∧
      (deactivated seen nodeId bridge).bindings = bridge.bindings := by
  unfold deactivated
  split <;> exact ⟨rfl, rfl⟩

theorem deactivateOthers_twice (seen : List String) (bridges : Bridges) :
    deactivateOthers seen (deactivateOthers seen bridges) = deactivateOthers seen bridges := by
  have twice : ∀ nodeId bridge,
      deactivated seen nodeId (deactivated seen nodeId bridge) = deactivated seen nodeId bridge := by
    intro nodeId bridge
    unfold deactivated
    split <;> rfl
  have records : (deactivateOthers seen (deactivateOthers seen bridges)).records =
      (deactivateOthers seen bridges).records := by
    refine OrderedMap.ext_entries ?_
    simp only [deactivateOthers, OrderedMap.mapValues, List.map_map]
    exact List.map_congr_left fun entry _ => congrArg _ (twice entry.1 entry.2)
  exact Bridges.ext records rfl

/-- The state after a sync, compared with the one before. -/
structure FollowsSnapshot (env : Environment) (snapshot : List Node) (before after : Bridges) :
    Prop where
  active : ∀ nodeId, (∃ bridge, after.records.get? nodeId = some bridge ∧ bridge.active = true) ↔
    nodeId ∈ (BridgeSync.requests snapshot).map Prod.fst
  kept : ∀ nodeId earlier, before.records.get? nodeId = some earlier →
    ∃ bridge, after.records.get? nodeId = some bridge ∧ bridge.id = earlier.id ∧
      earlier.bindings.Keeps bridge.bindings
  others : ∀ nodeId earlier, nodeId ∉ (BridgeSync.requests snapshot).map Prod.fst →
    before.records.get? nodeId = some earlier →
      after.records.get? nodeId = some { earlier with active := false }
  again : syncHttpRequestRecords env after snapshot = .ok after

/-- When a sync returns, the active bridges are those of the request nodes of the snapshot, all
others are kept and inactive, what was bound is bound as before, and a second sync with the
same snapshot returns the same bridges. -/
theorem sync_follows_snapshot {snapshot : List Node} {before after : Bridges}
    (returned : syncHttpRequestRecords env before snapshot = .ok after) :
    FollowsSnapshot env snapshot before after := by
  unfold syncHttpRequestRecords at returned
  extract_lets requests at returned
  cases ran : requests.foldlM (syncRequest env) before with
  | error error =>
      rw [ran] at returned
      cases returned
  | ok synced =>
      rw [ran] at returned
      obtain rfl := Except.ok.inj returned
      have pass := foldlM_pass ran
      have found : ∀ nodeId, (deactivateOthers (requests.map Prod.fst) synced).records.get? nodeId =
          (synced.records.get? nodeId).map (deactivated (requests.map Prod.fst) nodeId) :=
        get?_deactivateOthers _ synced
      have seenAt : ∀ nodeId ∈ requests.map Prod.fst,
          (deactivateOthers (requests.map Prod.fst) synced).records.get? nodeId =
            synced.records.get? nodeId := by
        intro nodeId member
        rw [found, funext (deactivated_of_mem member)]
        exact Option.map_id'
      constructor
      · intro nodeId
        constructor
        · rintro ⟨bridge, there, active⟩
          rw [found] at there
          obtain ⟨earlier, -, rfl⟩ := Option.map_eq_some_iff.mp there
          by_contra absent
          rw [deactivated, if_neg absent] at active
          cases active
        · intro member
          obtain ⟨request, listed, rfl⟩ := List.mem_map.mp member
          obtain ⟨bridge, there, active, -⟩ := pass.seen request listed
          exact ⟨bridge, (seenAt _ member).trans there, active⟩
      · intro nodeId earlier was
        obtain ⟨bridge, there, identity, keeps⟩ := pass.kept nodeId earlier was
        obtain ⟨same, bindings⟩ := deactivated_keeps (requests.map Prod.fst) nodeId bridge
        exact ⟨_, (found nodeId).trans (congrArg _ there), same.trans identity, bindings ▸ keeps⟩
      · intro nodeId earlier absent was
        rw [found, pass.untouched nodeId absent, was, Option.map_some]
        exact congrArg some (if_neg absent)
      · obtain ⟨next, repeated, again⟩ := foldlM_again fun request member => by
          obtain ⟨bridge, there, rest⟩ := pass.seen request member
          exact ⟨bridge, (seenAt _ (List.mem_map_of_mem member)).trans there, rest⟩
        have same := again.eq fun nodeId config is => by
          obtain ⟨bridge, there, cached⟩ := pass.current nodeId config is
          refine ⟨bridge, (seenAt nodeId ?_).trans there, cached⟩
          by_contra absent
          rw [latest_eq_none absent] at is
          cases is
        unfold syncHttpRequestRecords
        extract_lets
        rw [repeated, same]
        exact congrArg Except.ok (deactivateOthers_twice _ _)

end Sync

/-- Every endpoint belongs to the third connector. -/
def storefront : Environment where
  toId
    | .int id => some id.toNat
    | _ => none
  toText
    | .str text => some text
    | _ => none
  endpointConnector _ := .ok (some 3)
  authProfileConnector _ := .ok none
  dumps _ := "config"
  md5 text := text

/-- A bridge that was inactive and one whose node is gone. -/
def curated : Bridges where
  records := OrderedMap.ofList
    [("orders", ⟨0, ⟨none, none, some 8⟩, ⟨none, none, none⟩, false⟩),
      ("retired", ⟨1, ⟨some 4, none, none⟩, ⟨none, none, none⟩, true⟩)]
  nextId := 2

/-- Two nodes with one id, and one that is derived from an endpoint. -/
def shopSnapshot : List Node :=
  [⟨some "orders", some "connector_request", .ofList [("endpoint_id", .int 5)]⟩,
    ⟨some "orders", some "connector_request", .ofList [("operation_code", .str "create")]⟩,
    ⟨some "stock", some "endpoint_stock",
      .ofList [("_runtime_node_type", .str "connector_request")]⟩]

def shopBridges : Bridges where
  records := OrderedMap.ofList
    [("orders", ⟨0, ⟨some 3, some 5, some 8⟩, ⟨some "create", some "config", some "config"⟩, true⟩),
      ("retired", ⟨1, ⟨some 4, none, none⟩, ⟨none, none, none⟩, false⟩),
      ("stock", ⟨2, ⟨none, none, none⟩, ⟨none, some "config", some "config"⟩, true⟩)]
  nextId := 3

theorem shop_follows_snapshot :
    syncHttpRequestRecords storefront curated shopSnapshot = .ok shopBridges ∧
      FollowsSnapshot storefront shopSnapshot curated shopBridges := by
  have returned : syncHttpRequestRecords storefront curated shopSnapshot = .ok shopBridges := by
    rfl
  exact ⟨returned, sync_follows_snapshot returned⟩

end WorkflowStudio.Connector.BridgeSync

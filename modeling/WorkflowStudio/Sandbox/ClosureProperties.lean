import WorkflowStudio.Lib.GuardedRun
import WorkflowStudio.Sandbox.Proxies

/-! What a chain of operations can get out of the sandbox. The proxies check a
model only where it is named, so a chain stays inside exactly when the object
layer answers it with nothing but allowed models, bare of containers, and the
script leaves the attributes of the proxies alone that hold recordsets. -/

set_option autoImplicit false

namespace WorkflowStudio.Sandbox

open Lib GuardedRun

mutual

/-- No unwrapped recordset, and no proxy over a model that is not allowed. -/
def Object.Safe (policy : SafeEnvProxy) : Object → Prop
  | .records _ _ => False
  | .collection items => Object.AllSafe policy items
  | .modelProxy _ _ model =>
      match model with
      | .records name _ => policy.isModelAllowed name = .ok true
      | _ => model.Safe policy
  | .boundMethod _ _ method => method.Safe policy
  | .ownMethod owner _ => owner.Safe policy
  | .plain _ | .environment _ | .other _ | .function | .envProxy _ _ | .policyList _ _
  | .blockedMethods | .hooks _ => True

def Object.AllSafe (policy : SafeEnvProxy) : List Object → Prop
  | [] => True
  | item :: rest => item.Safe policy ∧ Object.AllSafe policy rest

end

/-- What a model proxy may stand for: a recordset of an allowed model, or what is safe itself. -/
def Object.Passable (policy : SafeEnvProxy) : Object → Prop
  | .records model _ => policy.isModelAllowed model = .ok true
  | object => object.Safe policy

/-- The lists allow no model that the policy does not allow. -/
def SafeEnvProxy.Within (policy proxy : SafeEnvProxy) : Prop :=
  ∀ model, proxy.isModelAllowed model = .ok true → policy.isModelAllowed model = .ok true

structure Security.Confined (policy : SafeEnvProxy) (security : Security) : Prop where
  narrow : policy.Within security.toSafeEnvProxy
  context : security.context.Safe policy

structure Script.Confined (policy : SafeEnvProxy) (script : Script) : Prop where
  safe : ∀ object ∈ script.obtained, object.Safe policy
  securities : ∀ security ∈ script.securities, security.Confined policy

/-!
## When an operation stays inside
-/

section Conditions

variable (host : Host) (policy : SafeEnvProxy) (script : Script)

/-- An attribute of an environment proxy yields no recordset, and one of a model proxy that
is not the recordset itself yields one of an allowed model, or what is safe. -/
def Object.ConfinedGetattr (name : String) : Object → Prop
  | .envProxy _ wrapped =>
      (name = "ref" → ∀ value, host.orm.ref wrapped = some value → value.Safe policy) ∧
      (name ∈ exposedNames → ∀ value, wrapped.getattr host script name = some value →
        value.Safe policy)
  | .modelProxy _ _ model =>
      (name = "_model" → model.Safe policy) ∧
      (name ∈ ["ids", "id", "_name"] → ∀ value,
        recordAttribute (model.getattr host script name) model name = some value →
          value.Safe policy) ∧
      (name ∉ ownNames → name ∉ script.blockedMethods → ∀ attr,
        model.getattr host script name = some attr → attr.Passable policy)
  | .boundMethod _ _ _ | .ownMethod _ _ | .policyList _ _ | .blockedMethods | .hooks _ => True
  | object => ∀ value, host.orm.getattr object name = some value → value.Safe policy

/-- A call of a method that a proxy has itself, where the result has to be accepted. What
`from_workflow` makes has no wider lists, and its hooks see no records. -/
def OwnCall.Confined (owner : Object) (accepts : Object → Prop) : OwnCall → Prop
  | .ensureOne model => model.isSingle host = true → accepts owner
  | .exists security wrapped model => ∀ found, model.existing host = some found →
      accepts (.modelProxy security wrapped found)
  | .wrapMethod security wrapped method => accepts (.boundMethod security wrapped method)
  | .isModelAllowed security key => ∀ allowed, script.admits security key = some allowed →
      accepts (.plain (.bool allowed))
  | .fromWorkflow env workflow context => ∀ security,
      madeSecurity host script workflow context = some security →
        security.Confined policy ∧ accepts (.envProxy script.securities.length env)
  | .register hook => accepts hook

/-- A call passes nothing unsafe to the functions and hooks of the script, and its result is
accepted: as a bound method, with a recordset among its results in a proxy. -/
def Object.ConfinedCall (arguments : List Object) : Object → (Object → Prop) → Prop
  | .boundMethod security wrapped method, accepts =>
      method.ConfinedCall arguments fun result =>
        (script.hooked security = true → result.Safe policy) ∧
          accepts (wrap security wrapped result)
  | .ownMethod owner name, accepts => ∀ own, ownCall owner name arguments = some own →
      own.Confined host policy script owner accepts
  | .function, _ => True
  | .envProxy _ _, _ | .modelProxy _ _ _, _ | .policyList _ _, _ | .blockedMethods, _
  | .hooks _, _ => True
  | object, accepts =>
      (∀ value ∈ host.orm.passed object arguments, value.Safe policy) ∧
        ∀ result, host.orm.call object arguments = some result → accepts result

def Object.ConfinedItem (key : Value) : Object → Prop
  | .envProxy security wrapped =>
      match wrapped with
      | .environment _ => True
      | _ => script.admits security key = some true → ∀ value,
          wrapped.item host script key = some value → value.Passable policy
  | .modelProxy _ _ model => ∀ value, model.item host script key = some value →
      value.Passable policy
  | object => ∀ value, object.item host script key = some value → value.Safe policy

def Object.ConfinedIterate : Object → Prop
  | .modelProxy _ _ model =>
      match model with
      | .records _ _ => True
      | _ => ∀ value ∈ model.iterate host, value.Passable policy
  | object => ∀ value ∈ object.iterate host, value.Safe policy

def Operation.Confined (object : Object) : Operation → Prop
  | .getattr name => hasDoubleUnderscore name.toList = false →
      object.ConfinedGetattr host policy script name
  | .call arguments => object.ConfinedCall host policy script arguments (Object.Safe policy)
  | .item key => object.ConfinedItem host policy script key
  | .iterate => object.ConfinedIterate host policy
  | .replace contents =>
      match object with
      | .policyList security part => ∀ settings, script.securities[security]? = some settings →
          policy.Within (settings.replace contents part).toSafeEnvProxy
      | _ => True
  | .addHook => True

/-- The operation stays inside, if the script has the object it is applied to. -/
def Action.Confined (action : Action) : Prop :=
  ∀ object, script.obtained[action.position]? = some object →
    action.operation.Confined host policy script object

end Conditions

/-!
## Objects
-/

section Objects

variable {policy : SafeEnvProxy}

theorem safe_modelProxy {security : Nat} {wrapped model : Object} :
    (Object.modelProxy security wrapped model).Safe policy ↔ model.Passable policy := by
  cases model <;> simp [Object.Safe, Object.Passable]

theorem safe_ownMethod {owner : Object} {name : String} :
    (Object.ownMethod owner name).Safe policy ↔ owner.Safe policy := by
  simp [Object.Safe]

theorem safe_wrap {security : Nat} {wrapped object : Object} :
    (wrap security wrapped object).Safe policy ↔ object.Passable policy := by
  cases object <;> simp [wrap, Object.Safe, Object.Passable]

theorem hookContext_safe (context : HookContext) : context.object.Safe policy := by
  simp [HookContext.object, Object.Safe, Object.AllSafe]

theorem safe_option_map {answer : Option Object} {convert : Object → Object}
    {holds : Object → Prop} (converts : ∀ object, (convert object).Safe policy ↔ holds object) :
    (∀ object, answer.map convert = some object → object.Safe policy) ↔
      ∀ object, answer = some object → holds object := by
  cases answer with
  | none => simp
  | some object => simp [converts]

end Objects

/-!
## One operation
-/

section Operations

variable {host : Host} {policy : SafeEnvProxy} {script : Script}

theorem Script.Confined.obtain (confined : script.Confined policy) (objects : List Object) :
    (script.obtain objects).Confined policy ↔ ∀ object ∈ objects, object.Safe policy := by
  constructor
  · intro after object member
    exact after.safe object (List.mem_append_right _ member)
  · intro safe
    refine ⟨fun object member => ?_, confined.securities⟩
    rcases List.mem_append.mp member with before | new
    · exact confined.safe object before
    · exact safe object new

theorem Script.Confined.obtain_option (confined : script.Confined policy)
    (answer : Option Object) :
    (script.obtain answer.toList).Confined policy ↔
      ∀ object, answer = some object → object.Safe policy := by
  rw [confined.obtain]
  simp only [Option.mem_toList]

theorem Script.Confined.context_safe (confined : script.Confined policy) {security : Nat}
    {context : Object} (found : script.context security = some context) :
    context.Safe policy := by
  unfold Script.context at found
  obtain ⟨settings, listed, rfl⟩ := Option.map_eq_some_iff.mp found
  exact (confined.securities settings (List.mem_of_getElem? listed)).context

theorem Script.Confined.allowed (confined : script.Confined policy) {security : Nat}
    {model : String} (admitted : script.admits security (.str model) = some true) :
    policy.isModelAllowed model = .ok true := by
  unfold Script.admits at admitted
  obtain ⟨settings, listed, allows⟩ := Option.bind_eq_some_iff.mp admitted
  refine (confined.securities settings (List.mem_of_getElem? listed)).narrow model ?_
  unfold Security.admits at allows
  dsimp only at allows
  cases checked : settings.isModelAllowed model with
  | error error =>
      rw [checked] at allows
      cases allows
  | ok answer =>
      rw [checked] at allows
      cases allows
      rfl

/-- The attributes of an environment proxy itself hold no records. -/
theorem envAttribute_safe (confined : script.Confined policy) {security : Nat} {wrapped : Object}
    {name : String} {shown : Object}
    (found : envAttribute script security wrapped name = some shown) : shown.Safe policy := by
  unfold envAttribute at found
  split at found
  · cases found
    trivial
  · cases found
    trivial
  · exact confined.context_safe found
  · cases found
    trivial
  · cases found
    trivial
  · cases found
    trivial
  · cases found
    trivial
  · cases found
    trivial
  · cases found

/-- The attributes of a model proxy itself hold no records, but for the recordset and what
the object behind the proxy gives for its properties. -/
theorem ownAttribute_safe (confined : script.Confined policy) (security : Nat) (wrapped : Object)
    {model : Object} (answer : Option Object) {name : String} (own : name ∈ ownNames)
    (passable : model.Passable policy) :
    (∀ shown, ownAttribute script security wrapped model answer name = some shown →
        shown.Safe policy) ↔
      (name = "_model" → model.Safe policy) ∧
        (name ∈ ["ids", "id", "_name"] → ∀ value,
          recordAttribute answer model name = some value → value.Safe policy) := by
  have method (name : String) :
      (Object.ownMethod (.modelProxy security wrapped model) name).Safe policy :=
    safe_ownMethod.mpr (safe_modelProxy.mpr passable)
  unfold ownAttribute
  split
  · simp
  · simp [Object.Safe]
  · simp [Object.Safe]
  · simp [Object.Safe]
  · exact iff_of_true (fun shown found => confined.context_safe found) ⟨by simp, by simp⟩
  · simp [Object.Safe]
  · simpa using method _
  · simpa using method _
  · simpa using method _
  · have named : name = "ids" ∨ name = "id" ∨ name = "_name" := by
      simp only [ownNames, List.mem_cons, List.not_mem_nil, or_false] at own
      tauto
    simp only [List.mem_cons, List.not_mem_nil, or_false, named, forall_const]
    refine (and_iff_right ?_).symm
    rintro rfl
    simp at named

theorem proxyGetattr_safe (security : Nat) (wrapped : Object) (answer : Option Object)
    (name : String) :
    (∀ shown, proxyGetattr host script security wrapped answer name = some shown →
        shown.Safe policy) ↔
      (name ∉ script.blockedMethods → ∀ attr, answer = some attr → attr.Passable policy) := by
  unfold proxyGetattr
  split
  · next blocked => simp [blocked]
  · next free =>
      simp only [free, not_false_eq_true, forall_const]
      cases answer with
      | none => simp
      | some attr =>
          simp only [Option.some.injEq, forall_eq']
          cases attr with
          | records related relatedIds => simp [Object.Safe, Object.Passable]
          | _ =>
              dsimp only
              split
              · simp [Object.Safe, Object.Passable]
              · simp [Object.Passable]

theorem getattr_safe (confined : script.Confined policy) {object : Object}
    (safe : object.Safe policy) (name : String) :
    (∀ shown, object.getattr host script name = some shown → shown.Safe policy) ↔
      object.ConfinedGetattr host policy script name := by
  cases object with
  | envProxy security wrapped =>
      simp only [Object.getattr, Object.ConfinedGetattr]
      split
      · next named => simp [named, exposedNames]
      · next other =>
          simp only [other, false_implies, true_and]
          split
          · next exposed => simp only [exposed, forall_const]
          · next hidden =>
              simp only [hidden, false_implies, iff_true]
              exact fun shown found => envAttribute_safe confined found
  | modelProxy security wrapped model =>
      simp only [Object.getattr, Object.ConfinedGetattr]
      have passable := safe_modelProxy.mp safe
      split
      · next own =>
          rw [ownAttribute_safe confined security wrapped _ own passable]
          simp only [own, not_true_eq_false, false_implies, and_true]
      · next other =>
          rw [proxyGetattr_safe]
          have named : name ≠ "_model" ∧ name ∉ ["ids", "id", "_name"] := by
            simp only [ownNames, List.mem_cons, List.not_mem_nil, or_false, not_or] at other ⊢
            tauto
          simp only [named, false_implies, true_and, other, not_false_eq_true, forall_const]
  | boundMethod security wrapped method => simp [Object.getattr, Object.ConfinedGetattr]
  | ownMethod owner name => simp [Object.getattr, Object.ConfinedGetattr]
  | policyList security part => simp [Object.getattr, Object.ConfinedGetattr]
  | blockedMethods => simp [Object.getattr, Object.ConfinedGetattr]
  | hooks security => simp [Object.getattr, Object.ConfinedGetattr]
  | _ => exact Iff.rfl

/-- After a call, all that the script gets to see is safe, its result is accepted, and so are
the settings of the proxies. -/
structure Called.Confined (policy : SafeEnvProxy) (accepts : Object → Prop) (called : Called) :
    Prop where
  shown : ∀ object ∈ called.shown, object.Safe policy
  result : ∀ object, called.result = some object → accepts object
  securities : ∀ security ∈ called.script.securities, security.Confined policy

theorem confined_of_unchanged (confined : script.Confined policy) {accepts : Object → Prop}
    {result : Option Object} :
    Called.Confined policy accepts ⟨script, [], result⟩ ↔
      ∀ object, result = some object → accepts object :=
  ⟨fun called => called.result, fun accepted =>
    ⟨List.forall_mem_nil _, accepted, confined.securities⟩⟩

theorem ownCall_confined (confined : script.Confined policy) (owner : Object)
    (accepts : Object → Prop) (own : OwnCall) :
    own.Confined host policy script owner accepts ↔
      (own.perform host script owner).Confined policy accepts := by
  cases own with
  | ensureOne model =>
      rw [OwnCall.perform, confined_of_unchanged confined, OwnCall.Confined]
      split
      · next single => simp [single]
      · next several => simp [several]
  | «exists» security wrapped model =>
      rw [OwnCall.perform, confined_of_unchanged confined, OwnCall.Confined]
      cases model.existing host with
      | none => simp
      | some found => simp
  | wrapMethod security wrapped method =>
      rw [OwnCall.perform, confined_of_unchanged confined, OwnCall.Confined]
      simp
  | isModelAllowed security key =>
      rw [OwnCall.perform, confined_of_unchanged confined, OwnCall.Confined]
      cases script.admits security key with
      | none => simp
      | some allowed => simp
  | fromWorkflow env workflow context =>
      dsimp only [OwnCall.perform, OwnCall.Confined]
      cases madeSecurity host script workflow context with
      | none =>
          dsimp only
          rw [confined_of_unchanged confined]
          simp
      | some security =>
          simp only [Option.some.injEq, forall_eq']
          constructor
          · rintro ⟨narrow, accepted⟩
            refine ⟨List.forall_mem_nil _, by simpa using accepted, ?_⟩
            intro settings member
            rcases List.mem_append.mp member with before | new
            · exact confined.securities settings before
            · exact List.mem_singleton.mp new ▸ narrow
          · intro called
            refine ⟨called.securities security ?_, called.result _ rfl⟩
            exact List.mem_append_right _ (List.mem_singleton_self _)
  | register hook =>
      refine ⟨fun accepted => ⟨List.forall_mem_nil _, ?_, confined.securities⟩,
        fun called => called.result hook rfl⟩
      rintro object ⟨⟩
      exact accepted

/-- What the object layer answers to a call. -/
theorem layerCall_confined (confined : script.Confined policy) (shown : List Object)
    (result : Option Object) (accepts : Object → Prop) :
    ((∀ value ∈ shown, value.Safe policy) ∧ ∀ value, result = some value → accepts value) ↔
      Called.Confined policy accepts ⟨script, shown, result⟩ :=
  ⟨fun ⟨safe, accepted⟩ => ⟨safe, accepted, confined.securities⟩,
    fun called => ⟨called.shown, called.result⟩⟩

/-- A bound method calls what it is bound to, and wraps the result. -/
theorem boundCall_confined (confined : script.Confined policy) (security : Nat) (wrapped : Object)
    (called : Called) (accepts : Object → Prop) :
    called.Confined policy (fun result =>
        (script.hooked security = true → result.Safe policy) ∧
          accepts (wrap security wrapped result)) ↔
      Called.Confined policy accepts {
        script := called.script
        shown := called.shown ++ if script.hooked security then
          (script.context security).toList ++ called.result.toList else []
        result := called.result.map (wrap security wrapped) } := by
  have context : ∀ object ∈ (script.context security).toList, object.Safe policy := by
    intro object member
    exact confined.context_safe (Option.mem_toList.mp member)
  constructor
  · intro inner
    refine ⟨?_, ?_, inner.securities⟩
    · refine List.forall_mem_append.mpr ⟨inner.shown, ?_⟩
      split
      · next hooked =>
          refine List.forall_mem_append.mpr ⟨context, ?_⟩
          intro object member
          exact (inner.result object (Option.mem_toList.mp member)).1 hooked
      · exact List.forall_mem_nil _
    · intro object found
      obtain ⟨result, returned, rfl⟩ := Option.map_eq_some_iff.mp found
      exact (inner.result result returned).2
  · intro outer
    obtain ⟨shown, hooks⟩ := List.forall_mem_append.mp outer.shown
    refine ⟨shown, ?_, outer.securities⟩
    intro result returned
    refine ⟨fun hooked => ?_, outer.result _ ?_⟩
    · rw [if_pos hooked] at hooks
      refine (List.forall_mem_append.mp hooks).2 result ?_
      exact Option.mem_toList.mpr returned
    · dsimp only
      rw [returned]
      rfl

theorem call_confined (confined : script.Confined policy) (arguments : List Object) :
    (object : Object) → (accepts : Object → Prop) →
      (object.ConfinedCall host policy script arguments accepts ↔
        (object.call host script arguments).Confined policy accepts)
  | .boundMethod security wrapped method, accepts =>
      (call_confined confined arguments method _).trans
        (boundCall_confined confined security wrapped _ accepts)
  | .ownMethod owner name, accepts => by
      unfold Object.ConfinedCall Object.call
      cases ownCall owner name arguments with
      | none => simp [confined_of_unchanged confined]
      | some own =>
          simp only [Option.some.injEq, forall_eq']
          exact ownCall_confined confined owner accepts own
  | .function, _ | .envProxy _ _, _ | .modelProxy _ _ _, _ | .policyList _ _, _
  | .blockedMethods, _ | .hooks _, _ => by
      simp [Object.ConfinedCall, Object.call, confined_of_unchanged confined]
  | .plain _, accepts | .records _ _, accepts | .environment _, accepts | .collection _, accepts
  | .other _, accepts => layerCall_confined confined _ _ accepts

theorem item_safe (confined : script.Confined policy) (object : Object) (key : Value) :
    (∀ shown, object.item host script key = some shown → shown.Safe policy) ↔
      object.ConfinedItem host policy script key := by
  cases object with
  | envProxy security wrapped =>
      have proxied : (∀ shown, (Object.envProxy security wrapped).item host script key = some shown →
          shown.Safe policy) ↔ (script.admits security key = some true → ∀ value,
            wrapped.item host script key = some value → value.Passable policy) := by
        change (∀ shown, (if script.admits security key = some true then
          (wrapped.item host script key).map (Object.modelProxy security wrapped) else none) =
            some shown → _) ↔ _
        split
        · next admitted =>
            rw [safe_option_map fun _ => safe_modelProxy]
            simp only [admitted, forall_const]
        · next refused => simp [refused]
      refine proxied.trans ?_
      cases wrapped with
      | environment identity =>
          refine iff_of_true ?_ trivial
          -- The environment gives the model that was asked for, which has just been checked.
          intro admitted value found
          unfold Object.item at found
          cases key with
          | str model =>
              dsimp only at found
              split at found
              · cases found
                exact confined.allowed admitted
              · cases found
          | _ => cases found
      | _ => exact Iff.rfl
  | modelProxy security wrapped model => exact safe_option_map fun _ => safe_wrap
  | _ => exact Iff.rfl

theorem iterate_safe {object : Object} (safe : object.Safe policy) :
    (∀ shown ∈ object.iterate host, shown.Safe policy) ↔ object.ConfinedIterate host policy := by
  cases object with
  | modelProxy security wrapped model =>
      have proxied : (∀ shown ∈ (Object.modelProxy security wrapped model).iterate host,
          shown.Safe policy) ↔ ∀ value ∈ model.iterate host, value.Passable policy := by
        change (∀ shown ∈ (model.iterate host).map (Object.modelProxy security wrapped), _) ↔ _
        rw [List.forall_mem_map]
        simp only [safe_modelProxy]
      refine proxied.trans ?_
      cases model with
      | records name ids =>
          refine iff_of_true ?_ trivial
          intro value member
          obtain ⟨id, _, rfl⟩ := List.mem_map.mp member
          exact safe
      | _ => exact Iff.rfl
  | _ => exact Iff.rfl

theorem call_obtained (arguments : List Object) : (object : Object) →
    (object.call host script arguments).script.obtained = script.obtained
  | .boundMethod _ _ method => call_obtained arguments method
  | .ownMethod owner name => by
      unfold Object.call
      cases ownCall owner name arguments with
      | none => rfl
      | some own =>
          cases own with
          | fromWorkflow env workflow context =>
              dsimp only [OwnCall.perform]
              cases madeSecurity host script workflow context with
              | none => rfl
              | some security => rfl
          | _ => rfl
  | .function | .envProxy _ _ | .modelProxy _ _ _ | .policyList _ _ | .blockedMethods
  | .hooks _ | .plain _ | .records _ _ | .environment _ | .collection _ | .other _ => rfl

theorem called_confined (confined : script.Confined policy) {called : Called}
    (kept : called.script.obtained = script.obtained) :
    called.Confined policy (Object.Safe policy) ↔
      (called.script.obtain (called.shown ++ called.result.toList)).Confined policy := by
  constructor
  · intro accepted
    refine ⟨?_, accepted.securities⟩
    change ∀ object ∈ called.script.obtained ++ (called.shown ++ called.result.toList),
      object.Safe policy
    rw [kept]
    refine List.forall_mem_append.mpr ⟨confined.safe, List.forall_mem_append.mpr
      ⟨accepted.shown, ?_⟩⟩
    intro object member
    exact accepted.result object (Option.mem_toList.mp member)
  · intro after
    obtain ⟨_, gained⟩ := List.forall_mem_append.mp after.safe
    obtain ⟨shown, result⟩ := List.forall_mem_append.mp gained
    refine ⟨shown, ?_, after.securities⟩
    intro object returned
    exact result object (Option.mem_toList.mpr returned)

theorem forall_mem_modify {Item : Type} {items : List Item} {position : Nat}
    {change : Item → Item} {holds : Item → Prop} (all : ∀ item ∈ items, holds item) :
    (∀ item ∈ items.modify position change, holds item) ↔
      ∀ item, items[position]? = some item → holds (change item) := by
  constructor
  · intro after item found
    refine after (change item) (List.mem_of_getElem? (i := position) ?_)
    rw [List.getElem?_modify_eq, found]
    rfl
  · intro changed item member
    obtain ⟨index, found⟩ := List.mem_iff_getElem?.mp member
    by_cases here : position = index
    · subst here
      rw [List.getElem?_modify_eq] at found
      obtain ⟨before, listed, rfl⟩ := Option.map_eq_some_iff.mp found
      exact changed before listed
    · rw [List.getElem?_modify_ne _ _ here] at found
      exact all item (List.mem_of_getElem? found)

theorem replace_confined (confined : script.Confined policy) (security : Nat) (part : PolicyPart)
    (contents : Value) :
    (∀ settings, script.securities[security]? = some settings →
        policy.Within (settings.replace contents part).toSafeEnvProxy) ↔
      (script.replace security part contents).Confined policy := by
  have kept (settings : Security) : (settings.replace contents part).context = settings.context := by
    cases part <;> rfl
  have modified : (∀ settings ∈ (script.replace security part contents).securities,
      settings.Confined policy) ↔ ∀ settings, script.securities[security]? = some settings →
        (settings.replace contents part).Confined policy :=
    forall_mem_modify confined.securities
  constructor
  · intro narrow
    refine ⟨confined.safe, modified.mpr fun settings found => ⟨narrow settings found, ?_⟩⟩
    rw [kept]
    exact (confined.securities settings (List.mem_of_getElem? found)).context
  · intro after settings found
    exact (modified.mp after.securities settings found).narrow

theorem addHook_confined (confined : script.Confined policy) (security : Nat) :
    (script.addHook security).Confined policy := by
  refine ⟨confined.safe, (forall_mem_modify confined.securities).mpr ?_⟩
  intro settings found
  have before := confined.securities settings (List.mem_of_getElem? found)
  exact ⟨before.narrow, before.context⟩

/-- From a confined script, an operation leads to a confined one exactly when
it stays inside. -/
theorem perform_confined (confined : script.Confined policy) {object : Object}
    (safe : object.Safe policy) (operation : Operation) :
    operation.Confined host policy script object ↔
      (operation.perform host script object).Confined policy := by
  cases operation with
  | getattr name =>
      simp only [Operation.perform, Operation.Confined]
      split
      · next rejected => simp [rejected, confined]
      · next accepted =>
          rw [confined.obtain_option, getattr_safe confined safe]
          simp only [Bool.not_eq_true] at accepted
          simp only [accepted, forall_const]
  | call arguments =>
      exact (call_confined confined arguments object _).trans
        (called_confined confined (call_obtained arguments object))
  | item key =>
      simp only [Operation.perform]
      rw [confined.obtain_option, item_safe confined]
      rfl
  | iterate =>
      simp only [Operation.perform]
      rw [confined.obtain, iterate_safe safe]
      rfl
  | replace contents =>
      simp only [Operation.Confined, Operation.perform]
      cases object with
      | policyList security part => exact replace_confined confined security part contents
      | blockedMethods => exact iff_of_true trivial ⟨confined.safe, confined.securities⟩
      | _ => exact iff_of_true trivial confined
  | addHook =>
      simp only [Operation.Confined, true_iff, Operation.perform]
      cases object with
      | hooks security => exact addHook_confined confined security
      | _ => exact confined

theorem action_confined (confined : script.Confined policy) (action : Action) :
    action.Confined host policy script ↔ (action.perform host script).Confined policy := by
  unfold Action.Confined Action.perform
  cases found : script.obtained[action.position]? with
  | none => simp [confined]
  | some object =>
      simp only [Option.some.injEq, forall_eq']
      exact perform_confined confined (confined.safe object (List.mem_of_getElem? found))
        action.operation

end Operations

theorem start_confined (host : Host) (policy : SafeEnvProxy) :
    (Script.start host policy).Confined policy := by
  constructor
  · intro object member
    rw [List.mem_singleton.mp member]
    trivial
  · intro security member
    rw [List.mem_singleton.mp member]
    exact ⟨fun _ allowed => allowed, hookContext_safe host.context⟩

def partnerOrm : Orm where
  hasModel := fun model => model == "res.partner"
  existing := fun _ ids => ids
  getattr := fun object name =>
    match object, name with
    | .environment _, "user" => some (.records "res.users" [2])
    | .environment _, "get" => some (.other 1)
    | .records "res.partner" _, "attachment_ids" => some (.records "ir.attachment" [7])
    | _, _ => none
  ref := fun _ => none
  callable := fun _ => false
  call := fun object _ =>
    match object with
    | .other 1 => some (.records "ir.model" [])
    | _ => none
  passed := fun _ _ => []
  item := fun object _ =>
    match object with
    | .collection (environment :: _) => some environment
    | _ => none
  members := fun _ => none

def partnerHost : Host where
  orm := partnerOrm
  context := { runId := .int 1, nodeId := .none, workflowId := .int 1, persist := true }
  jsonLoads := fun _ => none

def systemDenied : SafeEnvProxy := .new .none .none

def partners : Object := .modelProxy 0 (.environment 0) (.records "res.partner" [])

/-- From the wrapper for methods of a proxy and the environment of its context, a method of
the environment that gives any model. -/
def wrapGet : List Action :=
  [⟨0, .item (.str "res.partner")⟩, ⟨1, .getattr "_wrap_method"⟩, ⟨0, .getattr "_context"⟩,
    ⟨3, .item (.str "env")⟩, ⟨4, .getattr "get"⟩, ⟨2, .call [.plain (.str "get"), .other 1]⟩,
    ⟨6, .call [.plain (.str "ir.model")]⟩]

end WorkflowStudio.Sandbox

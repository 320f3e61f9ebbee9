import WorkflowStudio.Data.Value
import WorkflowStudio.Sandbox.ModelPolicy

/-! The proxies that a code node gets: `SafeEnvProxy` around the environment and
`SafeModelProxy` around recordsets, over an object layer that is a parameter. A
script is a sequence of operations on the objects it has obtained so far. -/

set_option autoImplicit false

namespace WorkflowStudio.Sandbox

/-- A list that a script reaches through an attribute of a proxy and may change. -/
inductive PolicyPart where
  | allowlist
  | denylist

/-- An object. What is no proxy belongs to the object layer, but for the functions of
the script itself: the methods, registries and fields there are objects. Environments
are numbered, and the proxies have the number of their security settings. A bound method
is the function that `_wrap_method` returns, an own method one that a proxy class defines. -/
inductive Object where
  | plain (value : Value)
  | records (model : String) (ids : List Nat)
  | environment (identity : Nat)
  | collection (items : List Object)
  | other (identity : Nat)
  | function
  | envProxy (security : Nat) (wrapped : Object)
  | modelProxy (security : Nat) (wrapped model : Object)
  | boundMethod (security : Nat) (wrapped method : Object)
  | ownMethod (owner : Object) (name : String)
  | policyList (security : Nat) (part : PolicyPart)
  | blockedMethods
  | hooks (security : Nat)

/-- The object layer. `passed` are the values that a call hands to functions of the
script among its arguments, and `ref` is that method of an environment, bound. -/
structure Orm where
  hasModel : String → Bool
  existing : String → List Nat → List Nat
  getattr : Object → String → Option Object
  ref : Object → Option Object
  callable : Object → Bool
  call : Object → List Object → Option Object
  passed : Object → List Object → List Object
  item : Object → Value → Option Object
  members : Object → Option (List Object)

/-- The context for the hooks, with the environment of the executor. -/
structure HookContext where
  runId : Value
  nodeId : Value
  workflowId : Value
  persist : Bool

def HookContext.object (context : HookContext) : Object :=
  .collection [.environment 1, .plain context.runId, .plain context.nodeId,
    .plain context.workflowId, .plain (.bool context.persist)]

structure Host where
  orm : Orm
  context : HookContext
  jsonLoads : String → Option Value

/-- What an environment proxy shares with the model proxies that it makes: the lists of
the policy, whether the script has hooks of its own there, and the context of the hooks. -/
structure Security extends SafeEnvProxy where
  hooked : Bool
  context : Object

/-- The state that scripts can change. The blocked methods and the registered hooks
belong to the classes, whatever the proxy. -/
structure Script where
  securities : List Security
  blockedMethods : List String := ["sudo", "with_user"]
  registered : Bool := false
  obtained : List Object

/-- A script has the proxy around the environment of the user. -/
def Script.start (host : Host) (policy : SafeEnvProxy) : Script where
  securities := [{ policy with hooked := false, context := host.context.object }]
  obtained := [.envProxy 0 (.environment 0)]

def Script.hooked (script : Script) (security : Nat) : Bool :=
  (script.securities[security]?).any Security.hooked

def Script.context (script : Script) (security : Nat) : Option Object :=
  (script.securities[security]?).map Security.context

/-!
## Attributes
-/

/-- `safe_eval` rejects names with a double underscore. -/
def hasDoubleUnderscore : List Char → Bool
  | '_' :: '_' :: _ => true
  | _ :: rest => hasDoubleUnderscore rest
  | [] => false

/-- The attributes that `SafeEnvProxy` takes from the wrapped environment. -/
def exposedNames : List String := ["user", "uid", "company", "companies", "context", "lang"]

/-- Recordsets are wrapped, everything else is passed on. -/
def wrap (security : Nat) (wrapped : Object) : Object → Object
  | .records model ids => .modelProxy security wrapped (.records model ids)
  | object => object

/-- The attributes of a `SafeEnvProxy` itself. -/
def envAttribute (script : Script) (security : Nat) (wrapped : Object) (name : String) :
    Option Object :=
  match name with
  | "_allowlist" => some (.policyList security .allowlist)
  | "_denylist" => some (.policyList security .denylist)
  | "_context" => script.context security
  | "_hooks" => some (.hooks security)
  | "_is_model_allowed" | "from_workflow" | "pre_hook" | "post_hook" =>
      some (.ownMethod (.envProxy security wrapped) name)
  | _ => none

/-- The attributes that a `SafeModelProxy` has itself. -/
def ownNames : List String :=
  ["_model", "_env_proxy", "env", "_hooks", "_context", "BLOCKED_METHODS", "ids", "id", "_name",
    "ensure_one", "exists", "_wrap_method"]

/-- The properties `ids`, `id` and `_name` of an object that has them as the answer. -/
def recordAttribute (answer : Option Object) : Object → String → Option Object
  | .records _ ids, "ids" => some (.plain (.list (ids.map fun id => .int id)))
  | .records _ ids, "id" =>
      match ids with
      | [] => some (.plain (.bool false))
      | [id] => some (.plain (.int id))
      | _ => none
  | .records model _, "_name" => some (.plain (.str model))
  | _, _ => answer

def ownAttribute (script : Script) (security : Nat) (wrapped model : Object)
    (answer : Option Object) (name : String) : Option Object :=
  match name with
  | "_model" => some model
  | "_env_proxy" | "env" => some (.envProxy security wrapped)
  | "_hooks" => some (.hooks security)
  | "_context" => script.context security
  | "BLOCKED_METHODS" => some .blockedMethods
  | "ensure_one" | "exists" | "_wrap_method" =>
      some (.ownMethod (.modelProxy security wrapped model) name)
  | name => recordAttribute answer model name

def Object.isCallable (host : Host) : Object → Bool
  | .boundMethod _ _ _ | .ownMethod _ _ | .function => true
  | .envProxy _ _ | .modelProxy _ _ _ | .policyList _ _ | .blockedMethods | .hooks _ => false
  | object => host.orm.callable object

/-- `SafeModelProxy.__getattr__`, given the answer of the wrapped object. -/
def proxyGetattr (host : Host) (script : Script) (security : Nat) (wrapped : Object)
    (answer : Option Object) (name : String) : Option Object :=
  if name ∈ script.blockedMethods then none
  else
    match answer with
    | none => none
    | some (.records model ids) => some (.modelProxy security wrapped (.records model ids))
    | some attr =>
        if attr.isCallable host then some (.boundMethod security wrapped attr) else some attr

def Object.getattr (host : Host) (script : Script) (name : String) : Object → Option Object
  | .envProxy security wrapped =>
      if name = "ref" then host.orm.ref wrapped
      else if name ∈ exposedNames then wrapped.getattr host script name
      else envAttribute script security wrapped name
  | .modelProxy security wrapped model =>
      if name ∈ ownNames then
        ownAttribute script security wrapped model (model.getattr host script name) name
      else proxyGetattr host script security wrapped (model.getattr host script name) name
  | .boundMethod _ _ _ | .ownMethod _ _ | .policyList _ _ | .blockedMethods | .hooks _ => none
  | object => host.orm.getattr object name

/-!
## Calls
-/

/-- What becomes of the script with a call, what the functions and the hooks of the
script get to see during it, and the result of a call that does not raise. -/
structure Called where
  script : Script
  shown : List Object
  result : Option Object

/-- Whether `ensure_one` of an object does not raise. -/
def Object.isSingle (host : Host) : Object → Bool
  | .records _ ids => ids.length == 1
  | .modelProxy _ _ model => model.isSingle host
  | .envProxy _ _ | .boundMethod _ _ _ | .ownMethod _ _ | .policyList _ _ | .blockedMethods
  | .hooks _ => false
  | object => ((host.orm.getattr object "ensure_one").bind (host.orm.call · [])).isSome

/-- What `exists` of an object returns. -/
def Object.existing (host : Host) : Object → Option Object
  | .records model ids => some (.records model (host.orm.existing model ids))
  | .modelProxy security wrapped model => (model.existing host).map (.modelProxy security wrapped)
  | .envProxy _ _ | .boundMethod _ _ _ | .ownMethod _ _ | .policyList _ _ | .blockedMethods
  | .hooks _ => none
  | object => (host.orm.getattr object "exists").bind (host.orm.call · [])

/-- `_is_model_allowed` without exceptions; `fnmatch` raises at a name that is no text. -/
def Security.admits (security : Security) : Value → Option Bool
  | .str model => (security.isModelAllowed model).toOption
  | _ =>
      if patternsOf security.denylist = .ok [] ∧ security.allowlist.truthy = false then some true
      else none

def Script.admits (script : Script) (security : Nat) (key : Value) : Option Bool :=
  (script.securities[security]?).bind (·.admits key)

def Object.text : Object → Option String
  | .plain (.str text) => some text
  | _ => none

/-- `context or {}`. -/
def Object.orEmpty : Object → Object
  | .plain value => .plain (value.orElse (.dict []))
  | object => object

/-- The settings of the proxy that `from_workflow` makes of its arguments. -/
def madeSecurity (host : Host) (script : Script) (workflow : Object) (context : Object) :
    Option Security :=
  match workflow.getattr host script "model_allowlist",
      workflow.getattr host script "model_denylist" with
  | some allowlist, some denylist =>
      (SafeEnvProxy.fromWorkflow host.jsonLoads allowlist.text denylist.text).toOption.map
        fun proxy => { proxy with hooked := script.registered, context := context.orEmpty }
  | _, _ => none

/-- A call of a method of the proxy classes, with what the method takes. -/
inductive OwnCall where
  | ensureOne (model : Object)
  | exists (security : Nat) (wrapped model : Object)
  | wrapMethod (security : Nat) (wrapped method : Object)
  | isModelAllowed (security : Nat) (key : Value)
  | fromWorkflow (env workflow context : Object)
  | register (hook : Object)

def ownCall (owner : Object) (name : String) (arguments : List Object) : Option OwnCall :=
  match owner with
  | .modelProxy security wrapped model =>
      match name, arguments with
      | "ensure_one", [] => some (.ensureOne model)
      | "exists", [] => some (.exists security wrapped model)
      | "_wrap_method", [_, method] => some (.wrapMethod security wrapped method)
      | _, _ => none
  | .envProxy security _ =>
      match name, arguments with
      | "_is_model_allowed", [.plain key] => some (.isModelAllowed security key)
      | "from_workflow", [env, workflow] => some (.fromWorkflow env workflow (.plain .none))
      | "from_workflow", [env, workflow, context] => some (.fromWorkflow env workflow context)
      | "pre_hook", [hook] | "post_hook", [hook] => some (.register hook)
      | _, _ => none
  | _ => none

def OwnCall.perform (host : Host) (script : Script) (owner : Object) : OwnCall → Called
  | .ensureOne model => ⟨script, [], if model.isSingle host then some owner else none⟩
  | .exists security wrapped model =>
      ⟨script, [], (model.existing host).map (.modelProxy security wrapped)⟩
  | .wrapMethod security wrapped method => ⟨script, [], some (.boundMethod security wrapped method)⟩
  | .isModelAllowed security key =>
      ⟨script, [], (script.admits security key).map fun allowed => .plain (.bool allowed)⟩
  | .fromWorkflow env workflow context =>
      match madeSecurity host script workflow context with
      | none => ⟨script, [], none⟩
      | some security =>
          ⟨{ script with securities := script.securities ++ [security] }, [],
            some (.envProxy script.securities.length env)⟩
  -- A hook that is registered with the class serves the proxies that are made later.
  | .register hook => ⟨{ script with registered := true }, [], some hook⟩

def Object.call (host : Host) (script : Script) (arguments : List Object) : Object → Called
  | .boundMethod security wrapped method =>
      let called := method.call host script arguments
      { script := called.script
        shown := called.shown ++ if script.hooked security then
          (script.context security).toList ++ called.result.toList else []
        result := called.result.map (wrap security wrapped) }
  | .ownMethod owner name =>
      match ownCall owner name arguments with
      | none => ⟨script, [], none⟩
      | some own => own.perform host script owner
  -- A function of the script has only what the script has.
  | .function => ⟨script, [], none⟩
  | .envProxy _ _ | .modelProxy _ _ _ | .policyList _ _ | .blockedMethods | .hooks _ =>
      ⟨script, [], none⟩
  | object => ⟨script, host.orm.passed object arguments, host.orm.call object arguments⟩

/-!
## Items
-/

def Object.item (host : Host) (script : Script) (key : Value) : Object → Option Object
  | .envProxy security wrapped =>
      if script.admits security key = some true then
        (wrapped.item host script key).map (.modelProxy security wrapped)
      else none
  | .modelProxy security wrapped model => (model.item host script key).map (wrap security wrapped)
  | .environment _ =>
      match key with
      | .str model => if host.orm.hasModel model then some (.records model []) else none
      | _ => none
  | .boundMethod _ _ _ | .ownMethod _ _ | .function | .policyList _ _ | .blockedMethods
  | .hooks _ => none
  | object => host.orm.item object key

def Object.iterate (host : Host) : Object → List Object
  | .modelProxy security wrapped model => (model.iterate host).map (.modelProxy security wrapped)
  | .records model ids => ids.map fun id => .records model [id]
  | .envProxy _ _ | .boundMethod _ _ _ | .ownMethod _ _ | .function | .policyList _ _
  | .blockedMethods | .hooks _ => []
  | object => (host.orm.members object).getD []

/-!
## Scripts
-/

inductive Operation where
  | getattr (name : String)
  | call (arguments : List Object)
  | item (key : Value)
  | iterate
  /-- Change a list of the policy in place. -/
  | replace (contents : Value)
  | addHook

/-- An operation on the object that the script obtained at the position. -/
structure Action where
  position : Nat
  operation : Operation

def Security.replace (security : Security) (contents : Value) : PolicyPart → Security
  | .allowlist => { security with allowlist := contents }
  | .denylist => { security with denylist := contents }

def Script.replace (script : Script) (security : Nat) (part : PolicyPart) (contents : Value) :
    Script :=
  { script with securities := script.securities.modify security fun settings =>
    settings.replace contents part }

def Script.addHook (script : Script) (security : Nat) : Script :=
  { script with securities := script.securities.modify security fun settings =>
    { settings with hooked := true } }

def methodNames : Value → List String
  | .list names => names.filterMap fun name => (Object.plain name).text
  | _ => []

def Script.obtain (script : Script) (objects : List Object) : Script :=
  { script with obtained := script.obtained ++ objects }

/-- An operation that raises shows nothing to the script. -/
def Operation.perform (host : Host) (script : Script) (object : Object) : Operation → Script
  | .getattr name =>
      if hasDoubleUnderscore name.toList then script
      else script.obtain (object.getattr host script name).toList
  | .call arguments =>
      let called := object.call host script arguments
      called.script.obtain (called.shown ++ called.result.toList)
  | .item key => script.obtain (object.item host script key).toList
  | .iterate => script.obtain (object.iterate host)
  | .replace contents =>
      match object with
      | .policyList security part => script.replace security part contents
      | .blockedMethods => { script with blockedMethods := methodNames contents }
      | _ => script
  | .addHook =>
      match object with
      | .hooks security => script.addHook security
      | _ => script

def Action.perform (host : Host) (script : Script) (action : Action) : Script :=
  match script.obtained[action.position]? with
  | none => script
  | some object => action.operation.perform host script object

end WorkflowStudio.Sandbox

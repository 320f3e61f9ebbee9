import Mathlib.Algebra.Order.Group.Unbundled.Basic
import Mathlib.Algebra.Order.Group.Int
import Mathlib.Data.String.Basic
import WorkflowStudio.Lib.Ordered
import WorkflowStudio.Workflow.ExecutionRegistry

/-! Whatever the calls, an event has every function that is registered for it once. They are
listed by priority and then by name, both descending, exactly if no name begins another one of
the same priority: the key sorts such a name first. -/

set_option autoImplicit false

namespace WorkflowStudio.Workflow

open Lib

/-!
## What the calls register
-/

/-- The entries of each event, in the order of registration. -/
abbrev Registrations := String → List HandlerEntry

namespace Registrations

variable (registered : Registrations)

def register (eventName : String) (func : Func) (priority : Int) : Registrations :=
  if (registered eventName).any (·.runs func) then registered
  else fun other =>
    if other = eventName then registered eventName ++ [⟨priority, func.displayName, func⟩]
    else registered other

def unregister (eventName : String) (func : Func) : Registrations := fun other =>
  if other = eventName then (registered eventName).filter fun entry => !entry.runs func
  else registered other

def unregisterModel (modelName : Option String) : Registrations := fun other =>
  (registered other).filter fun entry => !(entry.func.modelName == modelName)

def call (registered : Registrations) : RegistryCall → Registrations
  | .register eventName func priority => register registered eventName func priority
  | .unregister eventName func => unregister registered eventName func
  | .unregisterModel modelName => unregisterModel registered modelName

end Registrations

def registrations (calls : List RegistryCall) : Registrations :=
  calls.foldl Registrations.call fun _ => []

/-!
## The order of handlers
-/

/-- Greater priorities come first, then greater names. -/
def HandlerEntry.Before (first second : HandlerEntry) : Prop :=
  second.priority < first.priority ∨
    first.priority = second.priority ∧ second.qualname ≤ first.qualname

/-- The name of the one begins the name of the other, at the same priority. -/
structure HandlerEntry.Begins (short long : HandlerEntry) : Prop where
  priority : short.priority = long.priority
  name : short.qualname.toList <+: long.qualname.toList
  apart : short.qualname ≠ long.qualname

/-- The registered functions, each one once and in order. -/
structure HandlerOrder (registered handlers : List HandlerEntry) : Prop where
  listed : handlers.Perm registered
  once : (handlers.map fun entry => entry.func.identity).Nodup
  ordered : handlers.Pairwise HandlerEntry.Before

variable {first second : HandlerEntry}

theorem letterCode_lt {small great : Char} (less : small < great) :
    -(great.toNat : Int) < -(small.toNat : Int) := by
  have codes : small.toNat < great.toNat := less
  simpa using codes

theorem letterCodes_lt_iff (left right : List Char) :
    left.map (fun letter => -(letter.toNat : Int)) <
        right.map (fun letter => -(letter.toNat : Int)) ↔
      (∃ letter rest, right = left ++ letter :: rest) ∨ right < left ∧ ¬ right <+: left :=
  map_lt_map_iff (fun _ _ less => letterCode_lt less) left right

theorem letterCode_injective : Function.Injective fun letter : Char => -(letter.toNat : Int) :=
  StrictAnti.injective fun _ _ less => letterCode_lt less

theorem HandlerEntry.Begins.split (begins : first.Begins second) :
    ∃ letter rest, second.qualname.toList = first.qualname.toList ++ letter :: rest := by
  obtain ⟨rest, same⟩ := begins.name
  cases rest with
  | nil =>
      rw [List.append_nil] at same
      exact absurd (String.toList_injective same) begins.apart
  | cons letter rest => exact ⟨letter, rest, same.symm⟩

theorem HandlerEntry.Begins.key_lt (begins : first.Begins second) :
    executionSortKey first < executionSortKey second := by
  refine Prod.Lex.toLex_lt_toLex.mpr (.inr ⟨by rw [begins.priority], ?_⟩)
  exact (letterCodes_lt_iff _ _).mpr (.inl begins.split)

theorem HandlerEntry.Begins.not_before (begins : first.Begins second) : ¬ first.Before second := by
  obtain ⟨letter, rest, longer⟩ := begins.split
  rintro (greater | ⟨-, atLeast⟩)
  · exact greater.ne begins.priority.symm
  · rw [String.le_iff_toList_le, longer] at atLeast
    exact absurd (lt_append_cons _ letter rest) (not_lt.mpr atLeast)

/-- The key sorts by priority and name, except for names that begin others. -/
theorem before_or_begins (sorted : executionSortKey first ≤ executionSortKey second) :
    first.Before second ∨ first.Begins second := by
  rcases Prod.Lex.toLex_le_toLex.mp sorted with priority | ⟨priority, names⟩
  · exact .inl (.inl (neg_lt_neg_iff.mp priority))
  have same : first.priority = second.priority := neg_inj.mp priority
  rcases names.lt_or_eq with less | equal
  · rcases (letterCodes_lt_iff _ _).mp less with ⟨letter, rest, longer⟩ | ⟨less, -⟩
    · refine .inr ⟨same, ⟨_, longer.symm⟩, fun equal => ?_⟩
      rw [equal] at longer
      exact (lt_append_cons _ letter rest).ne longer
    · exact .inl (.inr ⟨same, String.le_iff_toList_le.mpr less.le⟩)
  · have names := List.map_injective_iff.mpr letterCode_injective equal
    exact .inl (.inr ⟨same, (String.toList_injective names).ge⟩)

/-- Of the handlers sorted by the key, all are in order exactly if no name begins another. -/
theorem ordered_iff {handlers : List HandlerEntry}
    (sorted : handlers.Pairwise fun first second =>
      executionSortKey first ≤ executionSortKey second) :
    handlers.Pairwise HandlerEntry.Before ↔
      ∀ short ∈ handlers, ∀ long ∈ handlers, ¬ short.Begins long := by
  constructor
  · intro ordered short shorter long longer begins
    have apart : short ≠ long := fun same => begins.apart (congrArg _ same)
    rcases either_order (sorted.and ordered) shorter longer apart with ⟨-, before⟩ | ⟨late, -⟩
    · exact begins.not_before before
    · exact absurd begins.key_lt (not_lt.mpr late)
  · intro free
    refine sorted.imp_of_mem fun {first second} member among key => ?_
    exact (before_or_begins key).resolve_right (free first member second among)

/-!
## What the calls keep
-/

/-- The registry holds the registrations, sorted by the key and each function once. -/
structure Holds (registry : ExecutionRegistry) (registered : Registrations) : Prop where
  listed : ∀ eventName, (registry.getHandlers eventName).Perm (registered eventName)
  once : ∀ eventName,
    ((registry.getHandlers eventName).map fun entry => entry.func.identity).Nodup
  sorted : ∀ eventName, (registry.getHandlers eventName).Pairwise fun first second =>
    executionSortKey first ≤ executionSortKey second

variable {registry : ExecutionRegistry} {registered : Registrations}
  {eventName other : String} {handlers : List HandlerEntry}

theorem getHandlers_set : (ExecutionRegistry.getHandlers (registry.set eventName handlers) other) =
    if other = eventName then handlers else registry.getHandlers other := by
  unfold ExecutionRegistry.getHandlers
  rw [OrderedMap.get?_set]
  split <;> rfl

/-- Removing some functions leaves the others as they are. -/
theorem Holds.filter (holds : Holds registry registered) {registry' : ExecutionRegistry}
    {registered' : Registrations} (keep : String → HandlerEntry → Bool)
    (handlers : ∀ eventName,
      registry'.getHandlers eventName = (registry.getHandlers eventName).filter (keep eventName))
    (entries : ∀ eventName,
      registered' eventName = (registered eventName).filter (keep eventName)) :
    Holds registry' registered' where
  listed eventName := by
    rw [handlers, entries]
    exact (holds.listed eventName).filter _
  once eventName := by
    rw [handlers]
    exact (List.filter_sublist.map _).nodup (holds.once eventName)
  sorted eventName := by
    rw [handlers]
    exact (holds.sorted eventName).filter _

theorem once_concat {entries : List HandlerEntry} {entry : HandlerEntry}
    (once : (entries.map fun entry => entry.func.identity).Nodup)
    (fresh : entries.any (·.runs entry.func) = false) :
    ((entries ++ [entry]).map fun entry => entry.func.identity).Nodup := by
  rw [List.map_append, List.map_singleton, ← List.concat_eq_append, List.nodup_concat]
  refine ⟨fun listed => ?_, once⟩
  obtain ⟨other, member, same⟩ := List.mem_map.mp listed
  have differs := List.any_eq_false.mp fresh other member
  simp [HandlerEntry.runs, same] at differs

theorem Holds.register (holds : Holds registry registered) (event : String) (func : Func)
    (priority : Int) :
    Holds (registry.register event func priority)
      (Registrations.register registered event func priority) := by
  let entry : HandlerEntry := ⟨priority, func.displayName, func⟩
  let handlers := registry.getHandlers event
  have known : handlers.any (·.runs func) = (registered event).any (·.runs func) :=
    (holds.listed event).any_eq
  unfold ExecutionRegistry.register Registrations.register
  rw [← known]
  by_cases present : handlers.any (·.runs func) = true
  · rw [if_pos present, if_pos present]
    exact holds
  · rw [if_neg present, if_neg present]
    let sorted := (handlers ++ [entry]).insertionSort fun first second =>
      executionSortKey first ≤ executionSortKey second
    have permuted : sorted.Perm (handlers ++ [entry]) := List.perm_insertionSort _ _
    constructor
    all_goals
      intro other
      rw [getHandlers_set]
      by_cases same : other = event
    · rw [if_pos same, if_pos same]
      exact permuted.trans ((holds.listed event).append_right _)
    · rw [if_neg same, if_neg same]
      exact holds.listed other
    · rw [if_pos same]
      refine (permuted.map _).nodup_iff.mpr (once_concat (holds.once event) ?_)
      exact Bool.not_eq_true _ ▸ present
    · rw [if_neg same]
      exact holds.once other
    · rw [if_pos same]
      exact List.pairwise_insertionSort _ _
    · rw [if_neg same]
      exact holds.sorted other

theorem Holds.unregister (holds : Holds registry registered) (event : String) (func : Func) :
    Holds (registry.unregister event func) (Registrations.unregister registered event func) := by
  refine holds.filter (fun other entry => !(decide (other = event) && entry.runs func)) ?_ ?_
  · intro other
    unfold ExecutionRegistry.unregister
    by_cases none : registry.getHandlers event = []
    · rw [if_pos none]
      by_cases same : other = event
      · rw [same, none, List.filter_nil]
      · simp [same]
    · rw [if_neg none, getHandlers_set]
      by_cases same : other = event
      · simp [same]
      · simp [same]
  · intro other
    unfold Registrations.unregister
    split
    case isTrue same => simp [same]
    case isFalse different => simp [different]

theorem Holds.unregisterModel (holds : Holds registry registered) (modelName : Option String) :
    Holds (registry.unregisterModel modelName)
      (Registrations.unregisterModel registered modelName) := by
  refine holds.filter (fun _ entry => !(entry.func.modelName == modelName)) ?_ fun _ => rfl
  intro other
  unfold ExecutionRegistry.unregisterModel ExecutionRegistry.getHandlers
  rw [OrderedMap.get?_mapValues]
  cases registry.get? other <;> rfl

theorem Holds.call (holds : Holds registry registered) (call : RegistryCall) :
    Holds (call.run registry) (Registrations.call registered call) := by
  cases call with
  | register eventName func priority => exact holds.register eventName func priority
  | unregister eventName func => exact holds.unregister eventName func
  | unregisterModel modelName => exact holds.unregisterModel modelName

/-- The registry holds what was registered after every run of calls. -/
theorem runCalls_holds (calls : List RegistryCall) :
    Holds (runCalls calls) (registrations calls) := by
  have run : ∀ (calls : List RegistryCall) registry registered, Holds registry registered →
      Holds (calls.foldl RegistryCall.run registry)
        (calls.foldl Registrations.call registered) := by
    intro calls
    induction calls with
    | nil => exact fun _ _ holds => holds
    | cons call calls ih => exact fun _ _ holds => ih _ _ (holds.call call)
  refine run calls OrderedMap.empty (fun _ => []) ?_
  exact ⟨fun _ => .refl _, fun _ => List.nodup_nil, fun _ => List.Pairwise.nil⟩

/-- The handlers of an event are the registered ones in order, after every run of calls,
exactly if no name of one begins that of another with the same priority. -/
theorem handlers_ordered_iff (calls : List RegistryCall) (eventName : String) :
    HandlerOrder (registrations calls eventName) ((runCalls calls).getHandlers eventName) ↔
      ∀ short ∈ registrations calls eventName, ∀ long ∈ registrations calls eventName,
        ¬ short.Begins long := by
  have holds := runCalls_holds calls
  have ordered := ordered_iff (holds.sorted eventName)
  simp only [(holds.listed eventName).mem_iff] at ordered
  rw [← ordered]
  exact ⟨fun order => order.ordered,
    fun order => ⟨holds.listed eventName, holds.once eventName, order⟩⟩

def handlerNamed (identity : Nat) (qualname : String) : Func := ⟨identity, some qualname, none, none⟩

/-- The shorter of two names comes first. -/
theorem short_name_first :
    ¬ ∀ (calls : List RegistryCall) (eventName : String),
      HandlerOrder (registrations calls eventName) ((runCalls calls).getHandlers eventName) := by
  intro order
  let short := handlerNamed 0 "sync"
  let long := handlerNamed 1 "sync_all"
  have ordered := (order [.register "execution" long 5, .register "execution" short 5]
    "execution").ordered
  have listed : (runCalls [.register "execution" long 5,
      .register "execution" short 5]).getHandlers "execution" =
        [⟨5, "sync", short⟩, ⟨5, "sync_all", long⟩] := by decide
  rw [listed] at ordered
  have begins : HandlerEntry.Begins ⟨5, "sync", short⟩ ⟨5, "sync_all", long⟩ :=
    ⟨rfl, by decide, by decide⟩
  exact begins.not_before ((List.pairwise_cons.mp ordered).1 _ List.mem_cons_self)

end WorkflowStudio.Workflow

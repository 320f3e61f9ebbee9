import WorkflowStudio.Expression.Resolver
import WorkflowStudio.Expression.StaticProperties
import WorkflowStudio.Lib.FormatString
import WorkflowStudio.Lib.OrderedMap

/-! The path parameters of an HTTP node, which are put into its URL with Python's format
strings. -/

set_option autoImplicit false

namespace WorkflowStudio.Expression

open Lib FormatString

/-- Whether a value of a node configuration can be the key of a dictionary. -/
def isHashable : Value → Bool
  | .list _ | .dict _ => false
  | _ => true

section Http

variable {Obj : Type} (python : Python) (evaluator : Evaluator) (formatter : Formatter Obj)

def resolveStr (value : Value) : Resolution String :=
  (resolve python evaluator value).bind fun result =>
    .done (if result = .none then "" else python.str result)

/-- The key of an item of `path_params`, or nothing where the item is passed over. -/
def pathParamKey (row : List (Value × Value)) : Option Value :=
  let key := (row.lookup (.str "key")).getD (.str "")
  if ((row.lookup (.str "enabled")).getD (.bool true)).truthy && key.truthy then some key else none

def pathParamValue (row : List (Value × Value)) : Value :=
  (row.lookup (.str "value")).getD (.str "")

def addPathParam (paramDict : OrderedMap Value String) :
    Value → Resolution (OrderedMap Value String)
  | .dict row =>
      match pathParamKey row with
      | none => .done paramDict
      | some key =>
          (resolveStr python evaluator (pathParamValue row)).bind fun resolvedValue =>
            if resolvedValue = "" then .done paramDict
            else if isHashable key then .done (paramDict.set key resolvedValue)
            else .fail ("unhashable type: '" ++ typeName key ++ "'")
  | _ => .done paramDict

/-- The loop over `path_params`. -/
def collectPathParams : OrderedMap Value String → List Value → Resolution (OrderedMap Value String)
  | paramDict, [] => .done paramDict
  | paramDict, item :: items =>
      (addPathParam python evaluator paramDict item).bind fun paramDict =>
        collectPathParams paramDict items

/-- The value that the dictionary has for a name in the URL. -/
def paramOf (paramDict : OrderedMap Value String) (name : List Char) : Option (List Char) :=
  (paramDict.get? (.str (String.ofList name))).map String.toList

/-- `url.format_map(SafeDict(param_dict))`; only two kinds of error are caught. -/
def substitutePathParams (url : String) (paramDict : OrderedMap Value String) :
    Resolution String :=
  match formatMap formatter (orPlaceholder (paramOf paramDict)) url.toList with
  | .ok resolvedUrl => .done (String.ofList resolvedUrl)
  | .error (.value _) | .error (.key _) => .done url
  | .error (.other message) => .fail message

def resolvePathParams (url : String) (pathParams : Value) : Resolution String :=
  if url = "" then .done url
  else
    match pathParams with
    | .list items =>
        (collectPathParams python evaluator OrderedMap.empty items).bind fun paramDict =>
          if paramDict.keys = [] then .done url
          else substitutePathParams formatter url paramDict
    | _ => .done url

end Http

end WorkflowStudio.Expression

/-! When the path parameters of an HTTP node replace exactly their placeholders. -/

namespace WorkflowStudio.Expression

open Lib FormatString

/-!
## Parameters
-/

section Params

variable (python : Python) (evaluator : Evaluator)

/-- The text of the value of an item. -/
def paramText (row : List (Value × Value)) : String :=
  match (resolveStr python evaluator (pathParamValue row)).outcome with
  | .ok value => value
  | .error _ => ""

/-- The item is enabled, with this key and a value that is not empty. -/
def Fills (row : List (Value × Value)) (key : Value) : Prop :=
  pathParamKey row = some key ∧ paramText python evaluator row ≠ ""

instance (row : List (Value × Value)) (key : Value) : Decidable (Fills python evaluator row key) :=
  inferInstanceAs (Decidable (_ ∧ _))

/-- The value that an item gives for a key. -/
def givenBy (key : String) : Value → Option String
  | .dict row =>
      if Fills python evaluator row (.str key) then some (paramText python evaluator row) else none
  | _ => none

/-- The last value that is given for a key. -/
def lastGiven (items : List Value) (key : String) : Option String :=
  items.reverse.findSome? (givenBy python evaluator key)

def knownParam (items : List Value) (name : List Char) : Option (List Char) :=
  (lastGiven python evaluator items (String.ofList name)).map String.toList

variable {python evaluator}

theorem resolveStr_paramText (row : List (Value × Value)) :
    (resolveStr python evaluator (pathParamValue row)).outcome =
      .ok (paramText python evaluator row) := by
  obtain ⟨_, text, resolved⟩ := (resolve_logs python evaluator (pathParamValue row)).bind_done
    fun result => if result = .none then "" else python.str result
  have outcome : (resolveStr python evaluator (pathParamValue row)).outcome = .ok text := resolved
  rw [paramText, outcome]

theorem addPathParam_filled {row : List (Value × Value)} {key : Value}
    (fills : Fills python evaluator row key) (hashable : isHashable key = true)
    (paramDict : OrderedMap Value String) :
    (addPathParam python evaluator paramDict (.dict row)).outcome =
      .ok (paramDict.set key (paramText python evaluator row)) := by
  rw [addPathParam, fills.1]
  refine Logged.bind_ok_iff.mpr ⟨_, resolveStr_paramText row, ?_⟩
  rw [if_neg fills.2, if_pos hashable]
  rfl

theorem addPathParam_unfilled {item : Value}
    (unfilled : ∀ row key, item = .dict row → ¬ Fills python evaluator row key)
    (paramDict : OrderedMap Value String) :
    (addPathParam python evaluator paramDict item).outcome = .ok paramDict := by
  cases item with
  | dict row =>
      rw [addPathParam]
      cases named : pathParamKey row with
      | none => rfl
      | some key =>
          refine Logged.bind_ok_iff.mpr ⟨_, resolveStr_paramText row, ?_⟩
          have empty : paramText python evaluator row = "" := by
            by_contra some
            exact unfilled row key rfl ⟨named, some⟩
          rw [if_pos empty]
          rfl
  | none | bool | int | str | list | tuple | object => rfl

theorem givenBy_unfilled {item : Value}
    (unfilled : ∀ row key, item = .dict row → ¬ Fills python evaluator row key) (key : String) :
    givenBy python evaluator key item = none := by
  cases item with
  | dict row => exact if_neg (unfilled row _ rfl)
  | none | bool | int | str | list | tuple | object => rfl

theorem givenBy_filled {row : List (Value × Value)} {key : Value}
    (fills : Fills python evaluator row key) (name : String) :
    givenBy python evaluator name (.dict row) =
      if .str name = key then some (paramText python evaluator row) else none := by
  rw [givenBy]
  by_cases same : .str name = key
  · rw [if_pos same, same, if_pos fills]
  · rw [if_neg same, if_neg fun other => same ?_]
    exact Option.some.inj (other.1.symm.trans fills.1)

/-- What fills the dictionary can be one of its keys. -/
def KeysHashable (python : Python) (evaluator : Evaluator) (items : List Value) : Prop :=
  ∀ row key, .dict row ∈ items → Fills python evaluator row key → isHashable key = true

/-- The dictionary has the last value that is given for each key, and is empty if
nothing fills it. -/
theorem collectPathParams_ok {items : List Value} (hashable : KeysHashable python evaluator items)
    (paramDict : OrderedMap Value String) :
    ∃ final, (collectPathParams python evaluator paramDict items).outcome = .ok final ∧
      (∀ key, final.get? (.str key) =
        (lastGiven python evaluator items key).or (paramDict.get? (.str key))) ∧
      ((∀ row key, .dict row ∈ items → ¬ Fills python evaluator row key) → final = paramDict) := by
  induction items generalizing paramDict with
  | nil => exact ⟨paramDict, rfl, fun _ => rfl, fun _ => rfl⟩
  | cons item items ih =>
      have later : KeysHashable python evaluator items := fun row key member =>
        hashable row key (List.mem_cons_of_mem _ member)
      have split (key : String) : lastGiven python evaluator (item :: items) key =
          (lastGiven python evaluator items key).or (givenBy python evaluator key item) := by
        unfold lastGiven
        rw [List.reverse_cons, List.findSome?_append]
        simp
      by_cases filled : ∃ row key, item = .dict row ∧ Fills python evaluator row key
      · obtain ⟨row, key, rfl, fills⟩ := filled
        have added := addPathParam_filled fills (hashable row key List.mem_cons_self fills) paramDict
        obtain ⟨final, ends, values, _⟩ := ih later
          (paramDict.set key (paramText python evaluator row))
        refine ⟨final, Logged.bind_ok_iff.mpr ⟨_, added, ends⟩, ?_, ?_⟩
        · intro name
          rw [values, split, givenBy_filled fills, OrderedMap.get?_set, Option.or_assoc]
          split <;> rfl
        · intro none
          exact absurd fills (none row key List.mem_cons_self)
      · have unfilled : ∀ row key, item = .dict row → ¬ Fills python evaluator row key :=
          fun row key same fills => filled ⟨row, key, same, fills⟩
        obtain ⟨final, ends, values, empty⟩ := ih later paramDict
        refine ⟨final, Logged.bind_ok_iff.mpr ⟨_, addPathParam_unfilled unfilled _, ends⟩, ?_, ?_⟩
        · intro name
          rw [values, split, givenBy_unfilled unfilled, Option.or_none]
        · exact fun none => empty fun row key member => none row key (List.mem_cons_of_mem _ member)

end Params

/-!
## URLs
-/

section Urls

variable {Obj : Type} (python : Python) (evaluator : Evaluator) (formatter : Formatter Obj)
  (items : List Value) (url : String)

def HasPlaceholder (name : List Char) : Prop :=
  ∃ front after, url.toList = front ++ '{' :: (name ++ '}' :: after)

/-- No item fills the dictionary. Or the braces of the URL are those of plain fields, and the
known ones among them have no brace in their name. Or the URL has no known placeholder, and a
place that raises an error which is caught. -/
def OnlyPlaceholders : Prop :=
  (∀ row key, .dict row ∈ items → ¬ Fills python evaluator row key) ∨
  (Plain formatter url.toList ∧ ∀ name, HasPlaceholder url name →
    knownParam python evaluator items name ≠ none → '}' ∉ name) ∨
  (Rejected formatter (orPlaceholder (knownParam python evaluator items))
      (buildString formatter (orPlaceholder (knownParam python evaluator items)) 1) url.toList ∧
    ∀ name, HasPlaceholder url name → knownParam python evaluator items name = none)

variable {python evaluator items url}

theorem paramOf_eq {paramDict : OrderedMap Value String}
    (values : ∀ key, paramDict.get? (.str key) = lastGiven python evaluator items key) :
    paramOf paramDict = knownParam python evaluator items := by
  funext name
  rw [paramOf, values, knownParam]

theorem knownParam_of_empty {paramDict : OrderedMap Value String} (empty : paramDict.keys = [])
    (values : ∀ key, paramDict.get? (.str key) = lastGiven python evaluator items key)
    (name : List Char) : knownParam python evaluator items name = none := by
  have absent : paramDict.get? (.str (String.ofList name)) = none := by
    rw [OrderedMap.get?_eq_none_iff, empty]
    exact List.not_mem_nil
  rw [knownParam, ← values, absent]
  rfl

variable {formatter}

theorem substitutePathParams_ok {paramDict : OrderedMap Value String}
    (values : ∀ key, paramDict.get? (.str key) = lastGiven python evaluator items key)
    (only : (Plain formatter url.toList ∧ ∀ name, HasPlaceholder url name →
        knownParam python evaluator items name ≠ none → '}' ∉ name) ∨
      (Rejected formatter (orPlaceholder (knownParam python evaluator items))
          (buildString formatter (orPlaceholder (knownParam python evaluator items)) 1)
          url.toList ∧
        ∀ name, HasPlaceholder url name → knownParam python evaluator items name = none)) :
    ∃ result, (substitutePathParams formatter url paramDict).outcome = .ok result ∧
      Substituted (knownParam python evaluator items) url.toList result.toList := by
  unfold substitutePathParams formatMap buildString
  rw [paramOf_eq values]
  rcases only with ⟨plain, braceless⟩ | ⟨rejected, unknown⟩
  · obtain ⟨result, formatted, substituted⟩ := plain.substituted
      (fun front key after same => braceless key ⟨front, after, same⟩) (Nat.le_refl _)
    refine ⟨String.ofList result, ?_, ?_⟩
    · rw [formatted]
      rfl
    · rwa [String.toList_ofList]
  · obtain ⟨error, raised, caught⟩ := rejected.raises (Nat.le_refl _)
    refine ⟨url, ?_, Substituted.unchanged fun front key after same =>
      unknown key ⟨front, after, same⟩⟩
    rw [raised]
    cases error with
    | value message | key message => rfl
    | other message => cases caught

/-- The placeholders of the given keys are replaced, and nothing else is. -/
theorem pathParams_replaced (hashable : KeysHashable python evaluator items)
    (only : OnlyPlaceholders python evaluator formatter items url) :
    ∃ result, (resolvePathParams python evaluator formatter url (.list items)).outcome =
        .ok result ∧
      Substituted (knownParam python evaluator items) url.toList result.toList := by
  obtain ⟨paramDict, collected, given, unfilled⟩ :=
    collectPathParams_ok hashable OrderedMap.empty
  have values (key : String) : paramDict.get? (.str key) =
      lastGiven python evaluator items key := by
    rw [given]
    exact Option.or_none
  by_cases none : url = ""
  · subst none
    exact ⟨"", rfl, .nil⟩
  · unfold resolvePathParams
    rw [if_neg none]
    by_cases empty : paramDict.keys = []
    · refine ⟨url, Logged.bind_ok_iff.mpr ⟨_, collected, by rw [if_pos empty]; rfl⟩, ?_⟩
      exact Substituted.unchanged fun _ key _ _ => knownParam_of_empty empty values key
    · have rest := only.resolve_left fun unfills => empty (by rw [unfilled unfills]; rfl)
      obtain ⟨result, ends, substituted⟩ := substitutePathParams_ok values rest
      refine ⟨result, Logged.bind_ok_iff.mpr ⟨_, collected, ?_⟩, substituted⟩
      rw [if_neg empty]
      exact ends

end Urls

/-- Texts with ASCII digits; they have no attributes, and no format but their own. -/
def asciiFormatter : Formatter (List Char) where
  decimal letter := if letter.isDigit then some (letter.toNat - 48) else none
  text value := value
  access _ _ := .error (.other "'str' object has no such attribute")
  convert _ value := .ok value
  format value spec := if spec = [] then .ok value else .error (.value "Invalid format specifier")
  format_text _ := rfl

def noEvaluator : Evaluator := fun _ => .error "NameError"

/-- The parameter `id` with the value `7`. -/
def idParams : List Value := [.dict [(.str "key", .str "id"), (.str "value", .str "7")]]

theorem idParams_hashable : KeysHashable textPython noEvaluator idParams := by
  intro row key member fills
  obtain rfl := Value.dict.inj (List.mem_singleton.mp member)
  have named : some (Value.str "id") = some key := fills.1
  cases named
  rfl

theorem id_replaced :
    ∃ result, (resolvePathParams textPython noEvaluator asciiFormatter "/\x7bid\x7d"
        (.list idParams)).outcome = .ok result ∧
      Substituted (knownParam textPython noEvaluator idParams) "/\x7bid\x7d".toList
        result.toList := by
  refine pathParams_replaced idParams_hashable (.inr (.inl ⟨?_, ?_⟩))
  · have name : PlainName asciiFormatter ['i', 'd'] := ⟨by simp, rfl⟩
    exact .letter (by decide) (by decide) (.field name .nil)
  · rintro name ⟨front, after, same⟩ _ member
    have counted := congrArg (List.count '}') same
    have inName : 0 < List.count '}' name := List.count_pos_iff.mpr member
    have once : List.count '}' "/\x7bid\x7d".toList = 1 := by decide +kernel
    rw [once, List.count_append, List.count_cons, List.count_append, List.count_cons_self] at counted
    omega

/-- A dot in a placeholder raises, and doubled braces are halved. -/
theorem dot_raises_braces_halved :
    (¬ ∃ result, (resolvePathParams textPython noEvaluator asciiFormatter "/\x7bid.x\x7d"
        (.list idParams)).outcome = .ok result) ∧
      (resolvePathParams textPython noEvaluator asciiFormatter "/\x7b\x7bid\x7d\x7d"
        (.list idParams)).outcome = .ok "/\x7bid\x7d" := by
  constructor
  · rintro ⟨result, ends⟩
    have raised : (resolvePathParams textPython noEvaluator asciiFormatter "/\x7bid.x\x7d"
        (.list idParams)).outcome = .error "'str' object has no such attribute" := by
      decide +kernel
    rw [raised] at ends
    cases ends
  · decide +kernel

end WorkflowStudio.Expression

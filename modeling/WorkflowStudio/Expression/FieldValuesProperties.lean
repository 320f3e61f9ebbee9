import WorkflowStudio.Expression.FieldValues
import WorkflowStudio.Expression.StaticProperties

/-! What becomes of field values that are opened in the editor and saved again: the fields that
keep their names, and the values whose texts are read as the same values. -/

set_option autoImplicit false

namespace WorkflowStudio.Expression

open Editor Lib

/-!
## The values of the backend
-/

/-- What a resolution ends with. -/
def resultOf (resolution : Resolution Value) : Value :=
  match resolution.outcome with
  | .ok value => value
  | .error _ => .none

theorem outcome_eq {resolution : Resolution Value} {entries : List String}
    (logs : resolution.Logs entries) : resolution.outcome = .ok (resultOf resolution) := by
  obtain ⟨-, value, ends⟩ := logs
  rw [resultOf, ends]

section Resolved

variable (python : Python) (evaluator : Evaluator)

/-- The field under which a value is written. -/
def resolvedName (key : String) : String :=
  if resultOf (resolveString python evaluator key) = .none then ""
  else python.str (resultOf (resolveString python evaluator key))

def resolvedItem (value : Value) : Value := resultOf (resolveValItem python evaluator value)

variable (coercion : Coercion)

/-- The entry that an entry of the values becomes. -/
def fieldEntry (entry : String × Value) : Value × Value :=
  (.str (resolvedName python evaluator entry.1),
    coerceFieldValue coercion (.str (resolvedName python evaluator entry.1))
      (resolvedItem python evaluator entry.2))

def jsonObject (fields : List (String × Value)) : Value :=
  .dict (fields.map fun entry => (.str entry.1, entry.2))

theorem resolveValKey_outcome (key : String) :
    (resolveValKey python evaluator (.str key)).outcome =
      .ok (.str (resolvedName python evaluator key)) :=
  Logged.bind_ok_iff.mpr ⟨_, outcome_eq (resolveString_logs python evaluator key), rfl⟩

theorem resolveValEntries_outcome (fields : List (String × Value)) :
    (resolveValEntries python evaluator (fields.map fun entry => (.str entry.1, entry.2))).outcome =
      .ok (fields.map fun entry =>
        (.str (resolvedName python evaluator entry.1), resolvedItem python evaluator entry.2)) := by
  induction fields with
  | nil =>
      rw [List.map_nil, resolveValEntries]
      rfl
  | cons entry rest ih =>
      rw [List.map_cons, resolveValEntries]
      exact Logged.bind_ok_iff.mpr ⟨_, resolveValKey_outcome python evaluator entry.1,
        Logged.bind_ok_iff.mpr ⟨_, outcome_eq (resolveValItem_logs python evaluator entry.2),
          Logged.bind_ok_iff.mpr ⟨_, ih, rfl⟩⟩⟩

theorem evalValExpressions_outcome (fields : List (String × Value)) :
    (evalValExpressions python evaluator coercion
        (fields.map fun entry => (.str entry.1, entry.2))).outcome =
      .ok (.dict (assemble (fields.map (fieldEntry python evaluator coercion)))) := by
  refine Logged.bind_ok_iff.mpr ⟨_, resolveValEntries_outcome python evaluator fields, ?_⟩
  rw [List.map_map]
  rfl

theorem isExpressionMode_opening {text : String} {first : Char}
    (opens : (stripChars text.toList).head? = some first) (other : first ≠ '=') :
    isExpressionMode text = false := by
  cases mode : isExpressionMode text with
  | false => rfl
  | true =>
      have start : text.toList.head? = some '=' := beq_iff_eq.mp mode
      have same := opens.symm.trans (head?_trim start rfl)
      exact absurd (Option.some.inj same) other

/-- The values of a text that holds an object. -/
theorem resolveVals_object {config : NodeConfig} {text : String} {fields : List (String × Value)}
    (source : config.valsExpr = .str text) (opens : (stripChars text.toList).head? = some '\x7b')
    (loads : python.jsonLoads (strip text) = some (jsonObject fields))
    (empty : strip text = "\x7b\x7d" → fields = []) :
    (resolveVals python evaluator coercion config).outcome =
      .ok (.dict (assemble (fields.map (fieldEntry python evaluator coercion)))) := by
  have stripped : (strip text).toList.head? = some '\x7b' := by
    rw [strip, String.toList_ofList, opens]
  have notEmpty : strip text ≠ "" := by
    intro same
    rw [same] at stripped
    cases stripped
  have notList : strip text ≠ "[]" := by
    intro same
    rw [same] at stripped
    cases stripped
  have truthy : text ≠ "" := by
    rintro rfl
    cases opens
  have plain := isExpressionMode_opening opens (by decide)
  have raw : config.valsExpr.orElse (.str "\x7b\x7d") = .str text := by
    rw [source, Value.orElse, Value.truthy, decide_eq_true truthy, if_pos rfl]
  rw [resolveVals_eq, raw, resolve_plain python plain]
  change (resolveValsText python evaluator coercion (.str text) text).outcome = _
  rw [resolveValsText]
  by_cases braces : strip text = "\x7b\x7d"
  · rw [if_pos (.inr (.inl braces)), empty braces]
    rfl
  · rw [if_neg (by simp [notEmpty, braces, notList]), not_literalPrefixed plain,
      if_neg Bool.false_ne_true, loads]
    exact evalValExpressions_outcome python evaluator coercion fields

end Resolved

/-!
## The fields that are written back
-/

theorem objectOrder_perm {Content : Type} (entries : List (String × Content)) :
    (objectOrder entries).Perm entries :=
  ((List.perm_insertionSort _ _).append_right _).trans (List.filter_append_perm _ _)

/-- A name that is written as it stands. -/
def KeptName (name : String) : Prop := scriptTrim name = name ∧ name ≠ "" ∧ name ≠ "__proto__"

theorem scriptTrim_scriptTrim (text : String) : scriptTrim (scriptTrim text) = scriptTrim text := by
  rw [scriptTrim, scriptTrim, String.toList_ofList, trim_trim]

theorem mem_assignField {out : List (String × String)} {row : FieldRow} {name : String}
    (member : name ∈ (assignField out row).map Prod.fst) :
    name ∈ out.map Prod.fst ∨ KeptName name ∧ name = scriptTrim row.field := by
  unfold assignField at member
  by_cases dropped : scriptTrim row.field = "" ∨ scriptTrim row.field = "__proto__"
  · rw [if_pos dropped] at member
    exact .inl member
  · rw [if_neg dropped, OrderedMap.mem_keys_setEntries] at member
    rw [not_or] at dropped
    rcases member with rfl | before
    · exact .inr ⟨⟨scriptTrim_scriptTrim _, dropped⟩, rfl⟩
    · exact .inl before

/-- Only kept names are written, and each is that of a row. -/
theorem mem_fieldsOf {rows : List FieldRow} {name : String}
    (member : name ∈ (fieldsOf rows).map Prod.fst) :
    KeptName name ∧ ∃ row ∈ rows, name = scriptTrim row.field := by
  have listed : ∀ (rows : List FieldRow) (out : List (String × String)),
      name ∈ (rows.foldl assignField out).map Prod.fst →
        name ∈ out.map Prod.fst ∨ KeptName name ∧ ∃ row ∈ rows, name = scriptTrim row.field := by
    intro rows
    induction rows with
    | nil => exact fun _ member => .inl member
    | cons row rest ih =>
        intro out member
        rcases ih _ member with here | ⟨kept, other, among, same⟩
        · rcases mem_assignField here with before | ⟨kept, same⟩
          · exact .inl before
          · exact .inr ⟨kept, row, List.mem_cons_self, same⟩
        · exact .inr ⟨kept, other, List.mem_cons_of_mem _ among, same⟩
  rcases listed rows [] (((objectOrder_perm _).map Prod.fst).mem_iff.mp member) with none | found
  · cases none
  · exact found

/-- Rows with kept names that are distinct are written one after the other. -/
theorem foldl_assignField {rows : List FieldRow} {out : List (String × String)}
    (kept : ∀ row ∈ rows, KeptName row.field)
    (distinct : (out.map Prod.fst ++ rows.map FieldRow.field).Nodup) :
    rows.foldl assignField out = out ++ rows.map fun row => (row.field, row.value) := by
  induction rows generalizing out with
  | nil => exact (List.append_nil out).symm
  | cons row rest ih =>
      obtain ⟨⟨same, notBlank, notProto⟩, later⟩ := List.forall_mem_cons.mp kept
      have absent : row.field ∉ out.map Prod.fst := fun member =>
        (List.disjoint_of_nodup_append distinct) member List.mem_cons_self
      have assigned : assignField out row = out ++ [(row.field, row.value)] := by
        rw [assignField, same, if_neg (not_or.mpr ⟨notBlank, notProto⟩),
          OrderedMap.setEntries_of_absent absent]
      rw [List.foldl_cons, assigned, ih later, List.append_assoc]
      · rfl
      · rw [List.map_append, List.append_assoc]
        exact distinct

section Rows

variable (numbers : FieldNumbers) (parse : String → Option Value) (nextId : Nat)

/-- The rows of an object, without their ids. -/
theorem parseToRows_object {text : String} {fields : List (String × Value)} (some : text ≠ "")
    (nonempty : fields ≠ []) (reads : parse text = .some (jsonObject fields)) :
    (parseToRows numbers parse nextId text).map (fun row => (row.field, row.value)) =
      objectOrder (fields.map fun entry => (entry.1, rowText numbers entry.2)) := by
  cases fields with
  | nil => exact absurd rfl nonempty
  | cons entry rest =>
      rw [parseToRows, if_neg some, reads]
      change (((objectOrder (((entry :: rest).map fun entry => (Value.str entry.1, entry.2)).map
        fun entry => (entry.1.keyText, rowText numbers entry.2))).zipIdx nextId).map
          fun row => FieldRow.mk row.2 row.1.1 row.1.2).map
            (fun row => (row.field, row.value)) = _
      rw [List.map_map, List.map_map]
      exact List.zipIdx_map_fst _ _

theorem field_of_row {text : String} {fields : List (String × Value)} (some : text ≠ "")
    (reads : parse text = .some (jsonObject fields)) {row : FieldRow}
    (member : row ∈ parseToRows numbers parse nextId text) :
    row.field = "" ∨ ∃ entry ∈ fields, row.field = entry.1 := by
  by_cases nonempty : fields = []
  · subst nonempty
    rw [parseToRows, if_neg some, reads] at member
    rw [List.mem_singleton.mp member]
    exact .inl rfl
  · have listed : (row.field, row.value) ∈ (parseToRows numbers parse nextId text).map
        fun row => (row.field, row.value) := List.mem_map.mpr ⟨row, member, rfl⟩
    rw [parseToRows_object numbers parse nextId some nonempty reads,
      (objectOrder_perm _).mem_iff] at listed
    obtain ⟨entry, among, same⟩ := List.mem_map.mp listed
    exact .inr ⟨entry, among, (congrArg Prod.fst same).symm⟩

/-- Kept names come back with the texts of their values. -/
theorem fieldsOf_parseToRows {text : String} {fields : List (String × Value)} (some : text ≠ "")
    (reads : parse text = .some (jsonObject fields)) (distinct : (fields.map Prod.fst).Nodup)
    (kept : ∀ entry ∈ fields, KeptName entry.1) :
    (fieldsOf (parseToRows numbers parse nextId text)).Perm
      (fields.map fun entry => (entry.1, rowText numbers entry.2)) := by
  by_cases nonempty : fields = []
  · subst nonempty
    rw [parseToRows, if_neg some, reads]
    exact .refl _
  · have rows := parseToRows_object numbers parse nextId some nonempty reads
    have ordered := objectOrder_perm (fields.map fun entry => (entry.1, rowText numbers entry.2))
    have names : ((parseToRows numbers parse nextId text).map FieldRow.field).Perm
        (fields.map Prod.fst) := by
      have first := congrArg (List.map Prod.fst) rows
      rw [List.map_map] at first
      refine (List.Perm.of_eq first).trans ((ordered.map Prod.fst).trans ?_)
      rw [List.map_map]
      exact .refl _
    rw [fieldsOf, foldl_assignField, List.nil_append, rows]
    · exact (objectOrder_perm _).trans ordered
    · intro row member
      obtain ⟨entry, among, same⟩ :=
        List.mem_map.mp (names.mem_iff.mp (List.mem_map.mpr ⟨row, member, rfl⟩))
      rw [← same]
      exact kept entry among
    · exact names.nodup_iff.mpr distinct

end Rows

/-- The text that is written back is an object again. -/
theorem serialize_opens (rows : List FieldRow) :
    (stripChars (serialize rows).toList).head? = some '\x7b' := by
  rw [serialize, String.toList_ofList]
  exact head?_trim rfl rfl

theorem strip_serialize (rows : List FieldRow) : strip (serialize rows) = serialize rows := by
  have solid : stripChars (serialize rows).toList = (serialize rows).toList := by
    refine trim_eq_self ?_ ?_
    · intro letter first
      rw [serialize, String.toList_ofList] at first
      cases first
      rfl
    · intro letter last
      rw [serialize, String.toList_ofList, jsonEntries, jsonItems, ← List.cons_append,
        List.getLast?_concat] at last
      cases last
      rfl
  rw [strip, solid, String.ofList_toList]

/-!
## Values that survive
-/

/-- Two values that are the same, or equal numbers. -/
def SameValue (numbers : FieldNumbers) (left right : Value) : Prop :=
  left = right ∨ numbers.equal left right = true

def numberTypes : List String := ["integer", "many2one", "float", "boolean"]

/-- The field type reads the text of the number as an equal number. -/
def ReadsBack (numbers : FieldNumbers) (ftype : Option String) (number : Value) : Prop :=
  ∃ name ∈ numberTypes, ftype = some name ∧
    SameValue numbers (coerceTo numbers name number) (coerceText numbers name (numbers.written number))

/-- The values that a field of this type keeps when they are edited as texts. -/
def Survives (numbers : FieldNumbers) (ftype : Option String) : Value → Prop
  | .str _ => True
  | .bool true => ftype = some "boolean"
  | .bool false => ftype = some "boolean" ∨ ftype = some "integer" ∨ ftype = some "many2one"
  | .int value => ReadsBack numbers ftype (.int value)
  | .object truth identity => ReadsBack numbers ftype (.object truth identity)
  | .none | .list _ | .tuple _ | .dict _ => False

/-- A value that a JSON text can hold. -/
def IsJson (numbers : FieldNumbers) : Value → Prop
  | .tuple _ => False
  | .object truth identity => numbers.isFloat (.object truth identity) = true
  | _ => True

section Values

variable {numbers : FieldNumbers}

theorem SameValue.refl (value : Value) : SameValue numbers value value := .inl rfl

theorem isNumber_str (lawful : numbers.Lawful) (text : String) :
    isNumber numbers (.str text) = false := by
  cases number : isNumber numbers (.str text) with
  | false => rfl
  | true =>
      obtain ⟨_, _, same⟩ := lawful.isFloat_object _ number
      cases same

theorem not_sameValue_text (lawful : numbers.Lawful) {value : Value} {text : String}
    (other : value ≠ .str text) : ¬ SameValue numbers value (.str text) := by
  rintro (same | equal)
  · exact other same
  · have number := (lawful.equal_numbers _ _ equal).2
    rw [isNumber_str lawful] at number
    cases number

/-- A text that no field type but the boolean one reads as anything else. -/
structure Unread (numbers : FieldNumbers) (text : String) : Prop where
  stripped : strip text = text
  int : numbers.int text = none
  float : numbers.float text = none
  word : lower text ∉ ["false", "none", "true", "1", "yes", "0", "no", ""]
  nonempty : text ≠ ""

theorem coerceText_unread {text : String} (unread : Unread numbers text) (ftype : String) :
    coerceText numbers ftype text = if ftype = "boolean" then .bool true else .str text := by
  have word := unread.word
  simp only [List.mem_cons, List.not_mem_nil, or_false, not_or] at word
  obtain ⟨notFalse, notNone, notTrue, notOne, notYes, notZero, notNo, notBlank⟩ := word
  unfold coerceText
  simp only [unread.stripped, unread.int, unread.float, unread.nonempty, notFalse, notNone, notTrue,
    notOne, notYes, notZero, notNo, notBlank, List.mem_cons, List.not_mem_nil, or_false, if_false,
    Option.map_none, Option.getD_none]
  by_cases boolean : ftype = "boolean"
  · simp [boolean, unread.nonempty]
  · rw [if_neg boolean, if_neg boolean, ite_self, ite_self]

theorem unread_null (lawful : numbers.Lawful) : Unread numbers "null" where
  stripped := by decide +kernel
  int := (lawful.words "null" (by simp)).1
  float := (lawful.words "null" (by simp)).2
  word := by decide +kernel
  nonempty := by decide

theorem strip_jsonItems {opening closing : Char} (first : isSpace opening = false)
    (last : isSpace closing = false) (items : List (List Char)) :
    strip (String.ofList (jsonItems opening closing items)) =
      String.ofList (jsonItems opening closing items) := by
  refine congrArg String.ofList ?_
  rw [String.toList_ofList]
  refine trim_eq_self ?_ ?_
  · intro letter start
    cases start
    exact first
  · intro letter stop
    rw [jsonItems, ← List.cons_append, List.getLast?_concat] at stop
    cases stop
    exact last

theorem head?_lower (text : String) : (lower text).toList.head? = text.toList.head?.map Char.toLower := by
  rw [lower, String.toList_ofList, List.head?_map]

theorem unread_items (lawful : numbers.Lawful) {opening closing : Char}
    (brackets : opening = '[' ∧ closing = ']' ∨ opening = '\x7b' ∧ closing = '\x7d')
    (items : List (List Char)) :
    Unread numbers (String.ofList (jsonItems opening closing items)) := by
  have start : (String.ofList (jsonItems opening closing items)).toList.head? = some opening := by
    rw [String.toList_ofList]
    rfl
  have bracket : opening = '[' ∨ opening = '\x7b' := brackets.imp And.left And.left
  have unreadable := lawful.brackets (String.ofList (jsonItems opening closing items)) <| by
    rw [start]
    rcases bracket with rfl | rfl
    · exact .inl rfl
    · exact .inr rfl
  refine ⟨?_, unreadable.1, unreadable.2, ?_, ?_⟩
  · refine strip_jsonItems ?_ ?_ items
    · rcases bracket with rfl | rfl <;> rfl
    · rcases brackets with ⟨-, rfl⟩ | ⟨-, rfl⟩ <;> rfl
  · intro member
    have lowered := head?_lower (String.ofList (jsonItems opening closing items))
    rw [start] at lowered
    generalize lower (String.ofList (jsonItems opening closing items)) = word at member lowered
    simp only [List.mem_cons, List.not_mem_nil, or_false] at member
    rcases bracket with rfl | rfl
    all_goals
      rcases member with rfl | rfl | rfl | rfl | rfl | rfl | rfl | rfl <;>
        exact absurd lowered (by decide +kernel)
  · intro blank
    rw [blank] at start
    cases start

theorem coerceText_true (lawful : numbers.Lawful) (ftype : String) :
    coerceText numbers ftype "true" = if ftype = "boolean" then .bool true else .str "true" := by
  have stripped : strip "true" = "true" := by decide +kernel
  have lowered : lower "true" = "true" := by decide +kernel
  obtain ⟨int, float⟩ := lawful.words "true" (by simp)
  unfold coerceText
  simp only [stripped, lowered, int, float]
  by_cases boolean : ftype = "boolean"
  · simp [boolean]
  · simp [boolean]

theorem coerceText_false (lawful : numbers.Lawful) (ftype : String) :
    coerceText numbers ftype "false" =
      if ftype = "boolean" ∨ ftype = "integer" ∨ ftype = "many2one" then .bool false
      else .str "false" := by
  have stripped : strip "false" = "false" := by decide +kernel
  have lowered : lower "false" = "false" := by decide +kernel
  obtain ⟨int, float⟩ := lawful.words "false" (by simp)
  unfold coerceText
  simp only [stripped, lowered, int, float]
  by_cases number : ftype = "integer" ∨ ftype = "many2one"
  · simp [number]
  · by_cases boolean : ftype = "boolean"
    · simp [boolean]
    · simp [number, boolean]

variable (python : Python) (evaluator : Evaluator) (types : String → Option String)

theorem resolvedItem_plain {text : String} (plain : isExpressionMode text = false) :
    resolvedItem python evaluator (.str text) = .str text := by
  rw [resolvedItem, resolveValItem, resolveString, plain, if_neg Bool.false_ne_true]
  rfl

/-- The value of a field from a value that is no text. -/
def typed (numbers : FieldNumbers) (ftype : Option String) (value : Value) : Value :=
  match ftype with
  | none => value
  | some name => coerceTo numbers name value

theorem coerceFieldValue_typed (name : String) (value : Value) :
    coerceFieldValue (modelCoercion numbers types) (.str name) value =
      typed numbers (types name) value := by
  cases found : types name with
  | none => simp only [coerceFieldValue, modelCoercion, typed, found]
  | some ftype => simp only [coerceFieldValue, modelCoercion, typed, found]

/-- Nothing that is written in words or brackets is kept. -/
theorem not_sameValue_unread (lawful : numbers.Lawful) {value : Value} {text : String}
    (unread : Unread numbers text) (ftype : Option String)
    (fixed : ∀ name, coerceTo numbers name value = value) (notNumber : isNumber numbers value = false)
    (notText : ∀ text, value ≠ .str text) :
    ¬ SameValue numbers (typed numbers ftype value) (typed numbers ftype (.str text)) := by
  have notBool : ¬ SameValue numbers value (.bool true) := by
    rintro (same | equal)
    · rw [same] at notNumber
      cases notNumber
    · rw [(lawful.equal_numbers _ _ equal).1] at notNumber
      cases notNumber
  cases ftype with
  | none => exact not_sameValue_text lawful (notText text)
  | some name =>
      rw [typed, typed, fixed, coerceTo, coerceText_unread unread]
      split
      · exact notBool
      · exact not_sameValue_text lawful (notText text)

theorem isNumber_none (lawful : numbers.Lawful) {value : Value}
    (plain : ∀ truth identity, value ≠ .object truth identity)
    (noBool : ∀ flag, value ≠ .bool flag) (noInt : ∀ whole, value ≠ .int whole) :
    isNumber numbers value = false := by
  cases number : isNumber numbers value with
  | false => rfl
  | true =>
      cases value with
      | bool flag => exact absurd rfl (noBool flag)
      | int whole => exact absurd rfl (noInt whole)
      | _ =>
          obtain ⟨_, _, same⟩ := lawful.isFloat_object _ number
          exact absurd same (plain _ _)

/-- A number is kept if its text reads back. -/
theorem sameValue_number_iff (lawful : numbers.Lawful) {number : Value} (ftype : Option String)
    (notText : ∀ text, number ≠ .str text)
    (other : ∀ name, name ∉ numberTypes → coerceTo numbers name number = number) :
    SameValue numbers (typed numbers ftype number)
        (typed numbers ftype (.str (numbers.written number))) ↔
      ReadsBack numbers ftype number := by
  cases ftype with
  | none =>
      refine iff_of_false (not_sameValue_text lawful (notText _)) ?_
      rintro ⟨name, -, same, -⟩
      cases same
  | some name =>
      by_cases listed : name ∈ numberTypes
      · constructor
        · exact fun same => ⟨name, listed, rfl, same⟩
        · rintro ⟨_, -, found, same⟩
          cases found
          exact same
      · have apart := listed
        simp only [numberTypes, List.mem_cons, List.not_mem_nil, or_false, not_or] at apart
        obtain ⟨notInteger, notRelation, notFloat, notBoolean⟩ := apart
        have text : coerceText numbers name (numbers.written number) =
            .str (numbers.written number) := by
          simp [coerceText, notInteger, notRelation, notFloat, notBoolean]
        rw [typed, typed, other name listed, coerceTo, text]
        refine iff_of_false (not_sameValue_text lawful (notText _)) ?_
        rintro ⟨_, member, same, -⟩
        cases same
        exact listed member

/-- What is edited as a word or in brackets is lost. -/
theorem not_sameValue_written (lawful : numbers.Lawful) {value resolved : Value} {text : String}
    (ftype : Option String) (keeps : resolvedItem python evaluator value = resolved)
    (written : rowText numbers value = text) (unread : Unread numbers text)
    (plain : isExpressionMode text = false)
    (fixed : ∀ name, coerceTo numbers name resolved = resolved)
    (notNumber : isNumber numbers resolved = false) (notText : ∀ text, resolved ≠ .str text) :
    ¬ SameValue numbers (typed numbers ftype (resolvedItem python evaluator value))
      (typed numbers ftype (resolvedItem python evaluator (.str (rowText numbers value)))) := by
  rw [keeps, written, resolvedItem_plain python evaluator plain]
  exact not_sameValue_unread lawful unread ftype fixed notNumber notText

theorem isExpressionMode_jsonItems {opening closing : Char} (other : opening ≠ '=')
    (items : List (List Char)) :
    isExpressionMode (String.ofList (jsonItems opening closing items)) = false := by
  rw [isExpressionMode, String.toList_ofList, jsonItems, List.head?_cons]
  exact beq_eq_false_iff_ne.mpr fun same => other (Option.some.inj same)

theorem resolvedItem_list (items : List Value) :
    ∃ resolved, resolvedItem python evaluator (.list items) = .list resolved := by
  have ends := outcome_eq (resolveValItem_logs python evaluator (.list items))
  rw [resolveValItem] at ends
  obtain ⟨resolved, -, same⟩ := Logged.bind_ok_iff.mp ends
  refine ⟨resolved, ?_⟩
  rw [resolvedItem, resolveValItem]
  exact (Except.ok.inj same).symm

theorem resolvedItem_dict (entries : List (Value × Value)) :
    ∃ resolved, resolvedItem python evaluator (.dict entries) = .dict resolved := by
  have ends := outcome_eq (resolveValItem_logs python evaluator (.dict entries))
  rw [resolveValItem] at ends
  obtain ⟨resolved, -, same⟩ := Logged.bind_ok_iff.mp ends
  refine ⟨assemble resolved, ?_⟩
  rw [resolvedItem, resolveValItem]
  exact (Except.ok.inj same).symm

/-- A value is the same after its text was edited exactly if its field type keeps it. -/
theorem sameValue_iff_survives (lawful : numbers.Lawful) {value : Value} (json : IsJson numbers value)
    (ftype : Option String) :
    SameValue numbers (typed numbers ftype (resolvedItem python evaluator value))
        (typed numbers ftype (resolvedItem python evaluator (.str (rowText numbers value)))) ↔
      Survives numbers ftype value := by
  cases value with
  | str text => exact iff_of_true (SameValue.refl _) trivial
  | none =>
      refine iff_of_false ?_ not_false
      have keeps : resolvedItem python evaluator .none = .none := rfl
      have written : rowText numbers .none = "null" := rfl
      exact not_sameValue_written python evaluator lawful ftype keeps written
        (unread_null lawful) (by decide +kernel) (fun _ => rfl)
        (isNumber_none lawful (by simp) (by simp) (by simp)) (by simp)
  | bool flag =>
      have keeps : resolvedItem python evaluator (.bool flag) = .bool flag := rfl
      have bool : typed numbers ftype (.bool flag) = .bool flag := by
        cases ftype <;> rfl
      rw [keeps, bool]
      cases flag with
      | true =>
          have written : rowText numbers (.bool true) = "true" := rfl
          rw [written, resolvedItem_plain python evaluator (by decide +kernel)]
          cases ftype with
          | none => exact iff_of_false (not_sameValue_text lawful (by simp)) (by simp [Survives])
          | some name =>
              rw [typed, coerceTo, coerceText_true lawful, Survives, Option.some.injEq]
              split
              next boolean => exact iff_of_true (SameValue.refl _) boolean
              next other => exact iff_of_false (not_sameValue_text lawful (by simp)) other
      | false =>
          have written : rowText numbers (.bool false) = "false" := rfl
          rw [written, resolvedItem_plain python evaluator (by decide +kernel)]
          cases ftype with
          | none => exact iff_of_false (not_sameValue_text lawful (by simp)) (by simp [Survives])
          | some name =>
              rw [typed, coerceTo, coerceText_false lawful, Survives]
              simp only [Option.some.injEq]
              split
              next among => exact iff_of_true (SameValue.refl _) among
              next other => exact iff_of_false (not_sameValue_text lawful (by simp)) other
  | int number =>
      have keeps : resolvedItem python evaluator (.int number) = .int number := rfl
      have written : rowText numbers (.int number) = numbers.written (.int number) :=
        String.ofList_toList
      rw [keeps, written, resolvedItem_plain python evaluator (lawful.written_literal _ rfl)]
      refine sameValue_number_iff lawful ftype (by simp) fun name other => ?_
      rw [coerceTo, if_neg]
      rintro rfl
      exact other (by simp [numberTypes])
  | list items =>
      refine iff_of_false ?_ not_false
      obtain ⟨resolved, keeps⟩ := resolvedItem_list python evaluator items
      exact not_sameValue_written python evaluator lawful ftype keeps rfl
        (unread_items lawful (.inl ⟨rfl, rfl⟩) _) (isExpressionMode_jsonItems (by decide) _)
        (fun _ => rfl) (isNumber_none lawful (by simp) (by simp) (by simp)) (by simp)
  | tuple items => cases json
  | dict entries =>
      refine iff_of_false ?_ not_false
      obtain ⟨resolved, keeps⟩ := resolvedItem_dict python evaluator entries
      exact not_sameValue_written python evaluator lawful ftype keeps rfl
        (unread_items lawful (.inr ⟨rfl, rfl⟩) _) (isExpressionMode_jsonItems (by decide) _)
        (fun _ => rfl) (isNumber_none lawful (by simp) (by simp) (by simp)) (by simp)
  | object truth identity =>
      have keeps : resolvedItem python evaluator (.object truth identity) = .object truth identity :=
        rfl
      have written : rowText numbers (.object truth identity) =
          numbers.written (.object truth identity) := String.ofList_toList
      have number : isNumber numbers (.object truth identity) = true := json
      rw [keeps, written, resolvedItem_plain python evaluator (lawful.written_literal _ number)]
      exact sameValue_number_iff lawful ftype (by simp) fun _ _ => rfl

end Values

/-!
## Opening and saving
-/

theorem assemble_eq (entries : List (Value × Value)) :
    assemble entries = (OrderedMap.ofList entries).entries := by
  have every : ∀ map : OrderedMap Value Value,
      entries.foldl (fun built entry => OrderedMap.setEntries entry.1 entry.2 built) map.entries =
        (entries.foldl (fun built entry => built.set entry.1 entry.2) map).entries := by
    induction entries with
    | nil => exact fun _ => rfl
    | cons entry rest ih => exact fun map => ih (map.set entry.1 entry.2)
  exact every .empty

/-- The same fields with the same values. -/
def SameFields (numbers : FieldNumbers) (left right : List (Value × Value)) : Prop :=
  ∀ name, Option.Rel (SameValue numbers) (left.lookup name) (right.lookup name)

theorem sameFields_iff {numbers : FieldNumbers} {Entry : Type} {entries : List Entry}
    {name before after : Entry → Value} {left right : List (Value × Value)}
    (distinct : (entries.map name).Nodup)
    (leftIs : left = entries.map fun entry => (name entry, before entry))
    (rightIs : right.Perm (entries.map fun entry => (name entry, after entry))) :
    SameFields numbers (assemble left) (assemble right) ↔
      ∀ entry ∈ entries, SameValue numbers (before entry) (after entry) := by
  subst leftIs
  have leftDistinct : ((entries.map fun entry => (name entry, before entry)).map Prod.fst).Nodup := by
    rw [List.map_map]
    exact distinct
  have rightDistinct : (right.map Prod.fst).Nodup := by
    refine (rightIs.map Prod.fst).nodup_iff.mpr ?_
    rw [List.map_map]
    exact distinct
  have inLeft : ∀ key value, (assemble (entries.map fun entry => (name entry, before entry))).lookup
      key = some value ↔ ∃ entry ∈ entries, name entry = key ∧ before entry = value := by
    intro key value
    rw [assemble_eq]
    refine (OrderedMap.get?_ofList_iff leftDistinct).trans ?_
    simp [List.mem_map]
  have inRight : ∀ key value, (assemble right).lookup key = some value ↔
      ∃ entry ∈ entries, name entry = key ∧ after entry = value := by
    intro key value
    rw [assemble_eq]
    refine (OrderedMap.get?_ofList_iff rightDistinct).trans ?_
    rw [rightIs.mem_iff]
    simp [List.mem_map]
  constructor
  · intro same entry member
    have related := same (name entry)
    rw [(inLeft _ _).mpr ⟨entry, member, rfl, rfl⟩] at related
    cases found : (assemble right).lookup (name entry) with
    | none =>
        rw [found] at related
        cases related
    | some value =>
        rw [found] at related
        obtain ⟨other, among, sameName, rfl⟩ := (inRight _ _).mp found
        obtain rfl := List.inj_on_of_nodup_map distinct among member sameName
        cases related
        assumption
  · intro same key
    cases found : (assemble (entries.map fun entry => (name entry, before entry))).lookup key with
    | some value =>
        obtain ⟨entry, member, sameName, rfl⟩ := (inLeft _ _).mp found
        rw [(inRight _ _).mpr ⟨entry, member, sameName, rfl⟩]
        exact .some (same entry member)
    | none =>
        cases other : (assemble right).lookup key with
        | none => exact .none
        | some value =>
            obtain ⟨entry, member, sameName, -⟩ := (inRight _ _).mp other
            rw [(inLeft _ _).mpr ⟨entry, member, sameName, rfl⟩] at found
            cases found

section Saved

variable (python : Python) (evaluator : Evaluator) (numbers : FieldNumbers)
variable (types : String → Option String) (parse : String → Option Value) (nextId : Nat)

/-- A text that both sides read as the object with these fields. -/
structure ObjectText (text : String) (fields : List (String × Value)) : Prop where
  opens : (stripChars text.toList).head? = some '\x7b'
  reads : parse text = some (jsonObject fields)
  loads : python.jsonLoads (strip text) = some (jsonObject fields)
  distinct : (fields.map Prod.fst).Nodup
  json : ∀ entry ∈ fields, IsJson numbers entry.2

def savedText (text : String) : String := serialize (parseToRows numbers parse nextId text)

def savedFields (text : String) : List (String × Value) :=
  (fieldsOf (parseToRows numbers parse nextId text)).map fun entry => (entry.1, .str entry.2)

/-- The values of the backend for a text. -/
def valuesOf (text : String) : Except String Value :=
  (resolveVals python evaluator (modelCoercion numbers types)
    { domainExpr := .none, valsExpr := .str text }).outcome

/-- The backend reads the same fields from a text after it was opened and saved. -/
def FieldsKept (text : String) : Prop :=
  ∃ before after, valuesOf python evaluator numbers types text = .ok (.dict before) ∧
    valuesOf python evaluator numbers types (savedText numbers parse nextId text) =
      .ok (.dict after) ∧ SameFields numbers before after

/-- Every field keeps its name and its value. -/
structure EveryField (fields : List (String × Value)) : Prop where
  names : ∀ entry ∈ fields, KeptName entry.1
  distinct : (fields.map fun entry => resolvedName python evaluator entry.1).Nodup
  values : ∀ entry ∈ fields,
    Survives numbers (types (resolvedName python evaluator entry.1)) entry.2

variable {python evaluator numbers types parse nextId}

theorem eq_nil_of_jsonObject {fields : List (String × Value)}
    (same : some (jsonObject fields) = some (jsonObject [])) : fields = [] :=
  List.map_eq_nil_iff.mp (Value.dict.inj (Option.some.inj same))

theorem valuesOf_object {text : String} {fields : List (String × Value)}
    (opens : (stripChars text.toList).head? = some '\x7b')
    (loads : python.jsonLoads (strip text) = some (jsonObject fields))
    (empty : python.jsonLoads "\x7b\x7d" = some (jsonObject [])) :
    valuesOf python evaluator numbers types text =
      .ok (.dict (assemble (fields.map
        (fieldEntry python evaluator (modelCoercion numbers types))))) := by
  refine resolveVals_object python evaluator _ rfl opens loads fun braces => ?_
  rw [braces] at loads
  exact eq_nil_of_jsonObject (loads.symm.trans empty)

theorem fieldsKept_iff_same {text : String} {fields : List (String × Value)}
    (document : ObjectText python numbers parse text fields)
    (empty : python.jsonLoads "\x7b\x7d" = some (jsonObject []))
    (back : python.jsonLoads (savedText numbers parse nextId text) =
      some (jsonObject (savedFields numbers parse nextId text))) :
    FieldsKept python evaluator numbers types parse nextId text ↔
      SameFields numbers
        (assemble (fields.map (fieldEntry python evaluator (modelCoercion numbers types))))
        (assemble ((savedFields numbers parse nextId text).map
          (fieldEntry python evaluator (modelCoercion numbers types)))) := by
  have opened : valuesOf python evaluator numbers types text = _ :=
    valuesOf_object document.opens document.loads empty
  have saved : valuesOf python evaluator numbers types (savedText numbers parse nextId text) = _ :=
    valuesOf_object (serialize_opens _) (by rw [savedText, strip_serialize]; exact back) empty
  constructor
  · rintro ⟨before, after, first, second, same⟩
    obtain rfl := Value.dict.inj (Except.ok.inj (opened.symm.trans first))
    obtain rfl := Value.dict.inj (Except.ok.inj (saved.symm.trans second))
    exact same
  · exact fun same => ⟨_, _, opened, saved, same⟩

theorem fieldEntry_value (entry : String × Value) :
    (fieldEntry python evaluator (modelCoercion numbers types) entry).2 =
      typed numbers (types (resolvedName python evaluator entry.1))
        (resolvedItem python evaluator entry.2) :=
  coerceFieldValue_typed types _ _

/-- Fields with kept names are the same exactly if each value survives. -/
theorem fieldsKept_iff_survives {text : String} {fields : List (String × Value)}
    (lawful : numbers.Lawful) (document : ObjectText python numbers parse text fields)
    (empty : python.jsonLoads "\x7b\x7d" = some (jsonObject []))
    (back : python.jsonLoads (savedText numbers parse nextId text) =
      some (jsonObject (savedFields numbers parse nextId text)))
    (names : ∀ entry ∈ fields, KeptName entry.1)
    (distinct : (fields.map fun entry => resolvedName python evaluator entry.1).Nodup) :
    FieldsKept python evaluator numbers types parse nextId text ↔
      ∀ entry ∈ fields, Survives numbers (types (resolvedName python evaluator entry.1)) entry.2 := by
  have some : text ≠ "" := by
    rintro rfl
    cases document.opens
  have written := fieldsOf_parseToRows numbers parse nextId some document.reads document.distinct names
  have distinctNames : (fields.map fun entry =>
      Value.str (resolvedName python evaluator entry.1)).Nodup := by
    have mapped := distinct.map (f := Value.str) fun _ _ same => Value.str.inj same
    rwa [List.map_map] at mapped
  have saved : ((savedFields numbers parse nextId text).map
      (fieldEntry python evaluator (modelCoercion numbers types))).Perm
      (fields.map fun entry => (Value.str (resolvedName python evaluator entry.1),
        (fieldEntry python evaluator (modelCoercion numbers types)
          (entry.1, .str (rowText numbers entry.2))).2)) := by
    have rows : (savedFields numbers parse nextId text).Perm ((fields.map fun entry =>
        (entry.1, rowText numbers entry.2)).map fun entry => (entry.1, Value.str entry.2)) :=
      written.map _
    rw [List.map_map] at rows
    have entries := rows.map (fieldEntry python evaluator (modelCoercion numbers types))
    rw [List.map_map] at entries
    exact entries
  refine (fieldsKept_iff_same document empty back).trans
    ((@sameFields_iff _ _ fields (fun entry => .str (resolvedName python evaluator entry.1))
      (fun entry => (fieldEntry python evaluator (modelCoercion numbers types) entry).2)
      _ _ _ distinctNames rfl saved).trans ?_)
  refine forall₂_congr fun entry member => ?_
  rw [fieldEntry_value, fieldEntry_value]
  exact sameValue_iff_survives python evaluator lawful (document.json entry member) _

theorem resolvedName_plain {key : String} (plain : isExpressionMode key = false) :
    resolvedName python evaluator key = key := by
  rw [resolvedName, resolveString, plain, if_neg Bool.false_ne_true]
  exact (if_neg (fun same => Value.noConfusion same)).trans (python.str_str key)

theorem isExpressionMode_scriptTrim {key : String}
    (plain : isExpressionMode (scriptTrim key) = false) : isExpressionMode key = false := by
  cases mode : isExpressionMode key with
  | false => rfl
  | true =>
      have start := @head?_trim _ isScriptSpace _ _ (beq_iff_eq.mp mode) rfl
      rw [isExpressionMode, scriptTrim, String.toList_ofList, start] at plain
      cases plain

/-- A field that is found again has a kept name. -/
theorem keptName_of_fieldsKept {text : String} {fields : List (String × Value)}
    (document : ObjectText python numbers parse text fields)
    (empty : python.jsonLoads "\x7b\x7d" = some (jsonObject []))
    (back : python.jsonLoads (savedText numbers parse nextId text) =
      some (jsonObject (savedFields numbers parse nextId text)))
    (plain : ∀ entry ∈ fields, isExpressionMode (scriptTrim entry.1) = false)
    (kept : FieldsKept python evaluator numbers types parse nextId text)
    {entry : String × Value} (member : entry ∈ fields) : KeptName entry.1 := by
  have some : text ≠ "" := by
    rintro rfl
    cases document.opens
  have same := (fieldsKept_iff_same document empty back).mp kept (.str entry.1)
  have present : (assemble (fields.map
      (fieldEntry python evaluator (modelCoercion numbers types)))).lookup (.str entry.1) ≠ none := by
    intro absent
    rw [assemble_eq] at absent
    refine OrderedMap.get?_eq_none_iff.mp absent (OrderedMap.mem_keys_ofList.mpr ?_)
    rw [List.map_map]
    refine List.mem_map.mpr ⟨entry, member, ?_⟩
    exact congrArg Value.str (resolvedName_plain (isExpressionMode_scriptTrim (plain entry member)))
  cases found : (assemble ((savedFields numbers parse nextId text).map
      (fieldEntry python evaluator (modelCoercion numbers types)))).lookup (.str entry.1) with
  | none =>
      rw [found] at same
      cases left : (assemble (fields.map
          (fieldEntry python evaluator (modelCoercion numbers types)))).lookup (.str entry.1) with
      | none => exact absurd left present
      | some value =>
          rw [left] at same
          cases same
  | some value =>
      rw [assemble_eq] at found
      obtain ⟨saved, among, written⟩ := List.mem_map.mp (OrderedMap.mem_of_get?_ofList found)
      obtain ⟨row, listed, rfl⟩ := List.mem_map.mp among
      obtain ⟨keptName, origin, fromRow, named⟩ := mem_fieldsOf (List.mem_map_of_mem listed)
      have plainName : isExpressionMode row.1 = false := by
        rw [named]
        rcases field_of_row numbers parse nextId some document.reads fromRow with blank | ⟨source, from', same⟩
        · rw [blank]
          rfl
        · rw [same]
          exact plain source from'
      have name : row.1 = entry.1 := by
        have first := Value.str.inj (congrArg Prod.fst written)
        rwa [resolvedName_plain plainName] at first
      rwa [← name]

/-- Field values mean the same after they were opened and saved if every field keeps its name and
every value is one that its field type reads back from a text; and where no name is an expression,
or all names are kept and lead to different fields, only then. -/
theorem opened_and_saved_iff {text : String} {fields : List (String × Value)}
    (lawful : numbers.Lawful) (document : ObjectText python numbers parse text fields)
    (empty : python.jsonLoads "\x7b\x7d" = some (jsonObject []))
    (back : python.jsonLoads (savedText numbers parse nextId text) =
      some (jsonObject (savedFields numbers parse nextId text))) :
    (EveryField python evaluator numbers types fields →
        FieldsKept python evaluator numbers types parse nextId text) ∧
      ((∀ entry ∈ fields, isExpressionMode (scriptTrim entry.1) = false) ∨
          (∀ entry ∈ fields, KeptName entry.1) ∧
            (fields.map fun entry => resolvedName python evaluator entry.1).Nodup →
        FieldsKept python evaluator numbers types parse nextId text →
          EveryField python evaluator numbers types fields) := by
  constructor
  · rintro ⟨names, distinct, values⟩
    exact (fieldsKept_iff_survives lawful document empty back names distinct).mpr values
  · rintro keys kept
    have names : ∀ entry ∈ fields, KeptName entry.1 := by
      rcases keys with plain | ⟨names, -⟩
      · exact fun entry member => keptName_of_fieldsKept document empty back plain kept member
      · exact names
    have distinct : (fields.map fun entry => resolvedName python evaluator entry.1).Nodup := by
      rcases keys with plain | ⟨-, distinct⟩
      · have same : (fields.map fun entry => resolvedName python evaluator entry.1) =
            fields.map Prod.fst := List.map_congr_left fun entry member =>
          resolvedName_plain (isExpressionMode_scriptTrim (plain entry member))
        rw [same]
        exact document.distinct
      · exact distinct
    exact ⟨names, distinct,
      (fieldsKept_iff_survives lawful document empty back names distinct).mp kept⟩

end Saved

/-!
## A contact
-/

/-- Numbers of which only the three is read and written. -/
def threeNumbers : FieldNumbers where
  int text := if text = "3" then some 3 else none
  float _ := none
  zero := .object false 0
  isFloat _ := false
  equal _ _ := false
  written value := if value = .int 3 then "3" else "0"

theorem threeNumbers_lawful : threeNumbers.Lawful where
  isFloat_object := by
    rintro value ⟨⟩
  words := by decide +kernel
  brackets := by
    intro text start
    refine ⟨if_neg ?_, rfl⟩
    rintro rfl
    rcases start with start | start <;> exact absurd start (by decide +kernel)
  equal_numbers := by
    rintro left right ⟨⟩
  written_literal := by
    intro number _
    by_cases three : number = .int 3
    · subst three
      rfl
    · have written : threeNumbers.written number = "0" := if_neg three
      rw [written]
      rfl

def contactText : String := "\x7b\"name\":\"Ada\",\"active\":true,\"children\":3\x7d"

def contactFields : List (String × Value) :=
  [("name", .str "Ada"), ("active", .bool true), ("children", .int 3)]

def contactParse (text : String) : Option Value :=
  if text = contactText then some (jsonObject contactFields) else none

def contactTypes (name : String) : Option String :=
  if name = "name" then some "char"
  else if name = "active" then some "boolean"
  else if name = "children" then some "integer"
  else none

/-- A reader of the three texts. -/
def contactLoads (text : String) : Option Value :=
  if text = contactText then some (jsonObject contactFields)
  else if text = "\x7b\x7d" then some (jsonObject [])
  else if text = savedText threeNumbers contactParse 1 contactText then
    some (jsonObject (savedFields threeNumbers contactParse 1 contactText))
  else none

theorem contactLoads_null (text : String) (null : '\x00' ∈ text.toList) :
    contactLoads text = none := by
  rw [contactLoads, if_neg, if_neg, if_neg]
  all_goals
    rintro rfl
    exact absurd null (by decide +kernel)

def contactPython : Python :=
  { textPython with jsonLoads := contactLoads, jsonLoads_null := contactLoads_null }

theorem contact_document :
    ObjectText contactPython threeNumbers contactParse contactText contactFields where
  opens := by decide +kernel
  reads := by decide +kernel
  loads := by decide +kernel
  distinct := by decide +kernel
  json := by
    rintro entry member
    simp only [contactFields, List.mem_cons, List.not_mem_nil, or_false] at member
    rcases member with rfl | rfl | rfl <;> trivial

theorem opened_and_saved_contact :
    FieldsKept contactPython (fun _ => .error "NameError") threeNumbers contactTypes contactParse 1
      contactText := by
  refine (opened_and_saved_iff threeNumbers_lawful contact_document (by decide +kernel)
    (by decide +kernel)).1 ⟨?_, by decide +kernel, ?_⟩
  · intro entry member
    simp only [contactFields, List.mem_cons, List.not_mem_nil, or_false] at member
    rcases member with rfl | rfl | rfl <;>
      exact ⟨by decide +kernel, by decide +kernel, by decide +kernel⟩
  · intro entry member
    simp only [contactFields, List.mem_cons, List.not_mem_nil, or_false] at member
    rcases member with rfl | rfl | rfl
    · trivial
    · exact (by decide +kernel : contactTypes (resolvedName contactPython
        (fun _ => .error "NameError") "active") = some "boolean")
    · exact ⟨"integer", by decide +kernel, by decide +kernel, .inl (by decide +kernel)⟩

end WorkflowStudio.Expression

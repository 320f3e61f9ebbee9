import WorkflowStudio.Data.Equality
import WorkflowStudio.Editor.LiteralSeed
import WorkflowStudio.Expression.RecordOperation

/-! The field values of a record operation: the rows that the editor makes of them, the text that it
writes back, and the types that the backend gives to the texts of the fields. -/

set_option autoImplicit false

namespace WorkflowStudio.Expression

open Editor Lib

/-!
## Numbers
-/

/-- The numbers of the backend and of the browser. A float is an object. -/
structure FieldNumbers where
  /-- `int(text)`, or nothing where it raises. -/
  int : String → Option Int
  /-- `float(text)`, or nothing where it raises. -/
  float : String → Option Value
  /-- `0.0`. -/
  zero : Value
  isFloat : Value → Bool
  /-- `left == right`. -/
  equal : Value → Value → Bool
  /-- What the browser writes for the number that it reads in place of this one. -/
  written : Value → String

def isNumber (numbers : FieldNumbers) : Value → Bool
  | .bool _ | .int _ => true
  | value => numbers.isFloat value

/-- No text that starts as a word or in a bracket is a number, and only numbers equal another. -/
structure FieldNumbers.Lawful (numbers : FieldNumbers) : Prop where
  isFloat_object : ∀ value, numbers.isFloat value = true →
    ∃ truth identity, value = .object truth identity
  words : ∀ word ∈ ["true", "false", "null"], numbers.int word = none ∧ numbers.float word = none
  brackets : ∀ text : String, text.toList.head? = some '[' ∨ text.toList.head? = some '\x7b' →
    numbers.int text = none ∧ numbers.float text = none
  equal_numbers : ∀ left right, numbers.equal left right = true →
    isNumber numbers left = true ∧ isNumber numbers right = true
  written_literal : ∀ number, isNumber numbers number = true →
    isExpressionMode (numbers.written number) = false

/-!
## Rows
-/

/-- The number under which a key stands before all keys that are no numbers. -/
def arrayIndex (key : String) : Option Nat :=
  let digits := key.toList
  let index := Nat.ofDigitChars 10 digits 0
  if digits ≠ [] ∧ digits.all Char.isDigit ∧ (digits = ['0'] ∨ digits.head? ≠ some '0') ∧
      index < 4294967295 then some index
  else none

/-- The entries of an object of the browser in its own order. -/
def objectOrder {Content : Type} (entries : List (String × Content)) : List (String × Content) :=
  (entries.filter fun entry => (arrayIndex entry.1).isSome).insertionSort
      (fun left right => (arrayIndex left.1).getD 0 ≤ (arrayIndex right.1).getD 0) ++
    entries.filter fun entry => !(arrayIndex entry.1).isSome

def jsonItems (opening closing : Char) (items : List (List Char)) : List Char :=
  opening :: ([','].intercalate items ++ [closing])

def jsonEntries (entries : List (String × List Char)) : List Char :=
  jsonItems '\x7b' '\x7d' (entries.map fun entry => jsonString entry.1.toList ++ ':' :: entry.2)

section Rows

variable (numbers : FieldNumbers)

mutual

/-- `JSON.stringify(value)`. -/
def jsonStringify : Value → List Char
  | .none => ['n', 'u', 'l', 'l']
  | .bool true => ['t', 'r', 'u', 'e']
  | .bool false => ['f', 'a', 'l', 's', 'e']
  | .str text => jsonString text.toList
  | .list items | .tuple items => jsonItems '[' ']' (stringifyItems items)
  | .dict entries => jsonEntries (objectOrder (stringifyEntries entries))
  | number => (numbers.written number).toList

def stringifyItems : List Value → List (List Char)
  | [] => []
  | item :: rest => jsonStringify item :: stringifyItems rest

def stringifyEntries : List (Value × Value) → List (String × List Char)
  | [] => []
  | (key, value) :: rest => (key.keyText, jsonStringify value) :: stringifyEntries rest

end

structure FieldRow where
  id : Nat
  field : String
  value : String

/-- The text in which a value is edited. -/
def rowText : Value → String
  | .str text => text
  | value => String.ofList (jsonStringify numbers value)

/-- The rows of an object; the rows of anything else are one without a field. -/
def parseToRows (parse : String → Option Value) (nextId : Nat) (valueStr : String) :
    List FieldRow :=
  match parse (if valueStr = "" then "\x7b\x7d" else valueStr) with
  | some (.dict (entry :: rest)) =>
      ((objectOrder ((entry :: rest).map fun entry => (entry.1.keyText, rowText numbers entry.2))
        ).zipIdx nextId).map fun row => ⟨row.2, row.1.1, row.1.2⟩
  | _ => [⟨nextId, "", ""⟩]

end Rows

/-- `out[name] = value`; the prototype of an object is not set to a text. -/
def assignField (out : List (String × String)) (row : FieldRow) : List (String × String) :=
  let name := scriptTrim row.field
  if name = "" ∨ name = "__proto__" then out else OrderedMap.setEntries name row.value out

def fieldsOf (rows : List FieldRow) : List (String × String) :=
  objectOrder (rows.foldl assignField [])

def serialize (rows : List FieldRow) : String :=
  String.ofList (jsonEntries ((fieldsOf rows).map fun entry => (entry.1, jsonString entry.2.toList)))

/-!
## Types of fields
-/

/-- `text.lower()` as far as it is compared. -/
def lower (text : String) : String := String.ofList (text.toList.map Char.toLower)

section Coercion

variable (numbers : FieldNumbers)

def coerceText (ftype text : String) : Value :=
  let stripped := strip text
  if ftype = "integer" ∨ ftype = "many2one" then
    if stripped = "" ∨ lower stripped = "false" ∨ lower stripped = "none" then .bool false
    else ((numbers.int stripped).map Value.int).getD (.str text)
  else if ftype = "float" then
    if stripped = "" then numbers.zero else (numbers.float stripped).getD (.str text)
  else if ftype = "boolean" then
    if lower stripped ∈ ["true", "1", "yes"] then .bool true
    else if lower stripped ∈ ["false", "0", "no", ""] then .bool false
    else .bool (decide (stripped ≠ ""))
  else .str text

/-- A value for a field of this type. -/
def coerceTo (ftype : String) : Value → Value
  | .none => .none
  | .str text => coerceText numbers ftype text
  | .bool value => .bool value
  | .int value => if ftype = "boolean" then .bool (decide (value ≠ 0)) else .int value
  | value => value

/-- `_coerce_field_value` for the types of the model's fields. -/
def modelCoercion (fields : String → Option String) : Coercion :=
  some fun fieldName value =>
    match fields fieldName with
    | none => value
    | some ftype => coerceTo numbers ftype value

end Coercion

end WorkflowStudio.Expression

import WorkflowStudio.Editor.ConnectorRequest
import WorkflowStudio.Lib.Quoting

/-! The value editor of a domain: the expression that it makes of a literal, and the literal that
it makes of an expression. -/

set_option autoImplicit false

namespace WorkflowStudio.Editor

open Lib Lib.Scanning Lib.Quoting

/-!
## Numbers
-/

/-- A number by its decimal digits, without zeros at the end of the fraction. -/
@[ext] structure Decimal where
  negative : Bool
  whole : Nat
  fraction : List (Fin 10)
  trimmed : fraction.getLast? ≠ some 0
  signed : negative = true → ¬ (whole = 0 ∧ fraction = [])

def dropZeros (fraction : List (Fin 10)) : List (Fin 10) :=
  (fraction.reverse.dropWhile (· = 0)).reverse

theorem getLast?_dropZeros (fraction : List (Fin 10)) :
    (dropZeros fraction).getLast? ≠ some 0 := by
  intro zero
  rw [dropZeros, List.getLast?_reverse] at zero
  have stops := List.head?_dropWhile_not (· = 0) fraction.reverse
  rw [zero] at stops
  simp at stops

theorem signed_nonzero {negative : Bool} {whole : Nat} {fraction : List (Fin 10)}
    (sign : (negative && !(whole == 0 && fraction.isEmpty)) = true) :
    ¬ (whole = 0 ∧ fraction = []) := by
  rintro ⟨rfl, rfl⟩
  rw [Bool.and_eq_true] at sign
  exact absurd sign.2 (by decide)

/-- The number with these digits; there is one zero. -/
def Decimal.of (negative : Bool) (whole : Nat) (fraction : List (Fin 10)) : Decimal where
  negative := negative && !(whole == 0 && (dropZeros fraction).isEmpty)
  whole := whole
  fraction := dropZeros fraction
  trimmed := getLast?_dropZeros fraction
  signed := signed_nonzero

def digitText (digit : Fin 10) : Char := Nat.digitChar digit

def digitOf (letter : Char) : Fin 10 := Fin.ofNat 10 (letter.toNat - 48)

/-- `String(value)`. -/
def Decimal.render (value : Decimal) : List Char :=
  (if value.negative then ['-'] else []) ++ Nat.toDigits 10 value.whole ++
    (if value.fraction = [] then [] else '.' :: value.fraction.map digitText)

/-- `Number(text)` if the text has the form `/^-?\d+(\.\d+)?$/`. -/
def readNumber (text : List Char) : Option Decimal :=
  let unsigned := if text.head? = some '-' then text.tail else text
  let whole := unsigned.takeWhile Char.isDigit
  if whole = [] then none
  else match unsigned.dropWhile Char.isDigit with
    | [] => some (.of (text.head? = some '-') (Nat.ofDigitChars 10 whole 0) [])
    | '.' :: fraction =>
        if fraction ≠ [] ∧ fraction.all Char.isDigit then
          some (.of (text.head? = some '-') (Nat.ofDigitChars 10 whole 0) (fraction.map digitOf))
        else none
    | _ => none

/-!
## JSON strings
-/

/-- A letter between the quotes of a JSON string. -/
def jsonEscape (letter : Char) : List Char :=
  match letter with
  | '"' => ['\\', '"']
  | '\\' => ['\\', '\\']
  | '\x08' => ['\\', 'b']
  | '\x0c' => ['\\', 'f']
  | '\n' => ['\\', 'n']
  | '\r' => ['\\', 'r']
  | '\t' => ['\\', 't']
  | _ =>
      if letter.toNat < 32 then
        ['\\', 'u', '0', '0', hexDigit (letter.toNat / 16), hexDigit (letter.toNat % 16)]
      else [letter]

/-- `JSON.stringify(text)`. -/
def jsonString (text : List Char) : List Char := '"' :: (text.flatMap jsonEscape ++ ['"'])

def jsonUnescape : Char → Option Char
  | '"' => some '"'
  | '\\' => some '\\'
  | '/' => some '/'
  | 'b' => some '\x08'
  | 'f' => some '\x0c'
  | 'n' => some '\n'
  | 'r' => some '\r'
  | 't' => some '\t'
  | _ => none

def hexFour : List Char → Option Nat
  | a :: b :: c :: d :: _ => do
      let a ← hexValue a
      let b ← hexValue b
      let c ← hexValue c
      let d ← hexValue d
      return ((a * 16 + b) * 16 + c) * 16 + d
  | _ => none

/-- What the start of a text says within a JSON string. Two surrogates make one letter; a
surrogate alone is not a letter. -/
def jsonUnit : Matcher Char (List Char)
  | '\\' :: 'u' :: rest => do
      let unit ← hexFour rest
      if unit.isValidChar then return ([Char.ofNat unit], 6)
      else match rest.drop 4 with
        | '\\' :: 'u' :: others => do
            let low ← hexFour others
            if unit < 0xDC00 ∧ 0xDC00 ≤ low ∧ low < 0xE000 then
              return ([Char.ofNat (0x10000 + (unit - 0xD800) * 0x400 + (low - 0xDC00))], 12)
            else none
        | _ => none
  | '\\' :: letter :: _ => (jsonUnescape letter).map fun plain => ([plain], 2)
  | letter :: _ => if letter = '\\' ∨ letter.toNat < 32 then none else some ([letter], 1)
  | [] => none

def isJsonSpace (letter : Char) : Bool := [' ', '\t', '\n', '\r'].contains letter

/-- `JSON.parse` of a text that starts with a quote; `none` if it throws. -/
def jsonParseString : List Char → Option (List Char)
  | '"' :: rest =>
      (read jsonUnit ['"'] rest).bind fun parsed =>
        if parsed.2.all isJsonSpace then some parsed.1 else none
  | _ => none

/-!
## Literals and expressions
-/

inductive Literal where
  | null
  | bool (value : Bool)
  | number (value : Decimal)
  | str (value : String)
  | list (items : List Literal)

mutual

/-- `JSON.stringify`. -/
def Literal.stringify : Literal → List Char
  | .null => ['n', 'u', 'l', 'l']
  | .bool true => ['t', 'r', 'u', 'e']
  | .bool false => ['f', 'a', 'l', 's', 'e']
  | .number value => value.render
  | .str value => jsonString value.toList
  | .list items => '[' :: (stringifyItems items ++ [']'])

def Literal.stringifyItems : List Literal → List Char
  | [] => []
  | [item] => item.stringify
  | item :: rest => item.stringify ++ ',' :: stringifyItems rest

end

def isExpressionMode (text : String) : Bool := text.toList.head? = some '='

def stripExpressionPrefix (text : String) : String :=
  if isExpressionMode text then String.ofList text.toList.tail else text

def ensureExpressionPrefix (text : String) : String :=
  if isExpressionMode text then text else String.ofList ('=' :: text.toList)

def isNameLetter (letter : Char) : Bool := letter.isAlphanum || letter == '_'

def isNameStart (letter : Char) : Bool := letter.isAlpha || letter == '_'

/-- `(?:\.[A-Za-z_][A-Za-z0-9_]*|\[\d+\])*$` -/
def isAccessChain : Nat → List Char → Bool
  | _, [] => true
  | 0, _ => false
  | fuel + 1, '.' :: first :: rest =>
      isNameStart first && isAccessChain fuel (rest.dropWhile isNameLetter)
  | fuel + 1, '[' :: rest =>
      !(rest.takeWhile Char.isDigit).isEmpty &&
        (rest.dropWhile Char.isDigit).head? == some ']' &&
        isAccessChain fuel (rest.dropWhile Char.isDigit).tail
  | _ + 1, _ => false

/-- `/^[A-Za-z_][A-Za-z0-9_]*(?:\.[A-Za-z_][A-Za-z0-9_]*|\[\d+\])*$/` -/
def isAccessPath : List Char → Bool
  | [] => false
  | first :: rest =>
      isNameStart first && isAccessChain rest.length (rest.dropWhile isNameLetter)

def shouldWrapAsRawExpression (text : String) : Bool := isAccessPath (scriptTrim text).toList

def template (body : List Char) : String :=
  String.ofList (['{', '{', ' '] ++ body ++ [' ', '}', '}'])

def toExpressionSeed : Literal → String
  | .str text =>
      if isExpressionMode text then text
      else if shouldWrapAsRawExpression text then
        ensureExpressionPrefix (template (scriptTrim text).toList)
      else ensureExpressionPrefix (template (jsonString text.toList))
  | value => ensureExpressionPrefix (template value.stringify)

/-- `/^\{\{([\s\S]*)\}\}$/` -/
def templateBody (text : List Char) : Option (List Char) :=
  if ['{', '{'].isPrefixOf text ∧ ['}', '}'].isSuffixOf text ∧ 4 ≤ text.length then
    some ((text.drop 2).take (text.length - 4))
  else none

def unwrapExpressionBody : Literal → Option String
  | .str text =>
      (templateBody (scriptTrim (stripExpressionPrefix text)).toList).map fun body =>
        scriptTrim (String.ofList body)
  | _ => none

/-- A number, one of the words of Python, or the text itself. -/
def unquotedLiteral (inner : String) : Literal :=
  match readNumber inner.toList with
  | some number => .number number
  | none =>
      if inner = "True" then .bool true
      else if inner = "False" then .bool false
      else if inner = "None" then .null
      else .str inner

/-- The literal that the body of a template stands for. -/
def literalOf (inner : String) : Literal :=
  if inner.toList.head? = some '"' ∧ inner.toList.getLast? = some '"' then
    match jsonParseString inner.toList with
    | some text => .str (String.ofList text)
    | none => .str (String.ofList inner.toList.tail.dropLast)
  else if inner.toList.head? = some '\'' ∧ inner.toList.getLast? = some '\'' then
    .str (String.ofList inner.toList.tail.dropLast)
  else unquotedLiteral inner

def toLiteralSeed (expressionValue fallbackValue : Literal) : Literal :=
  match unwrapExpressionBody expressionValue with
  | some inner => literalOf inner
  | none =>
      match expressionValue with
      | .str text => .str (stripExpressionPrefix text)
      | _ => fallbackValue

/-!
## The editor
-/

inductive Mode where
  | literal
  | expression
  deriving DecidableEq

/-- The mode of the editor and the value that its owner holds. -/
structure ValueEditor where
  mode : Mode
  value : Literal

def isExpressionLike : Literal → Bool
  | .str text => isExpressionMode text
  | _ => false

/-- The values of which no expression is made. -/
def staysLiteral : Literal → Bool
  | .bool value => !value
  | .str text => text = "" || isExpressionMode text
  | _ => false

def ValueEditor.toggleMode (editor : ValueEditor) (defaultValue : Literal) : ValueEditor :=
  match editor.mode with
  | .literal =>
      { mode := .expression
        value := if staysLiteral editor.value then editor.value
          else .str (toExpressionSeed editor.value) }
  | .expression =>
      { mode := .literal, value := toLiteralSeed editor.value defaultValue }

end WorkflowStudio.Editor

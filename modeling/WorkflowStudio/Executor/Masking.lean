import WorkflowStudio.Executor.OutputValue
import WorkflowStudio.Lib.Substitution

/-! The masking of sensitive texts in node outputs, and what the user who looks at an
output gets to see of it. -/

set_option autoImplicit false

namespace WorkflowStudio.Executor

open Lib Expression Substitution

/-!
## Patterns
-/

/-- The letters outside ASCII that a letter of a pattern matches when case is ignored. -/
def foldedLetters : List (Char × Char) := [('s', '\u017f'), ('k', '\u212a')]

def isLetter (wanted value : Char) : Bool :=
  value.toLower == wanted || foldedLetters.contains (wanted, value)

/-- `[a-zA-Z]`, with the four letters outside ASCII that it matches when case is ignored. -/
def isAlpha (value : Char) : Bool :=
  value.isAlpha || ['\u0130', '\u0131', '\u017f', '\u212a'].contains value

def isAlnum (value : Char) : Bool := isAlpha value || value.isDigit

/-- `["\s:=]`. -/
def isAssignment (value : Char) : Bool := isSpace value || ['"', ':', '='].contains value

/-- `[^\s,"]`. -/
def isAssigned (value : Char) : Bool := !(isSpace value || ['"', ','].contains value)

/-- `[A-Za-z0-9._%+-]`. -/
def isLocalPart (value : Char) : Bool := isAlnum value || ['.', '_', '%', '+', '-'].contains value

/-- `[A-Za-z0-9.-]`. -/
def isDomainPart (value : Char) : Bool := isAlnum value || ['.', '-'].contains value

/-- `[A-Z|a-z]`. -/
def isTopLevelPart (value : Char) : Bool := isAlpha value || value == '|'

def word (text : String) : List (Item Char) := text.toList.map fun letter => .one (isLetter letter)

def keyPattern (start : String) : Pattern Char where
  wordEdges := false
  kept := []
  hidden := word start ++ [.many isAlnum 20]
  replacement := "********".toList

def assignmentPattern (name : String) : Pattern Char where
  wordEdges := false
  kept := word name ++ [.many isAssignment 1]
  hidden := [.many isAssigned 1]
  replacement := "********".toList

def emailPattern : Pattern Char where
  wordEdges := true
  kept := []
  hidden := [.many isLocalPart 1, .one (· == '@'), .many isDomainPart 1, .one (· == '.'),
    .many isTopLevelPart 2]
  replacement := "***@***.***".toList

def maskPatterns : List (Pattern Char) :=
  [keyPattern "sk-", keyPattern "key-", assignmentPattern "password", assignmentPattern "token",
    assignmentPattern "secret", emailPattern]

/-!
## Values
-/

mutual

/-- A value with other texts; its keys and its objects stay, and tuples become lists. -/
def mapTexts (change : String → String) : Value → Value
  | .dict entries => .dict (mapEntryTexts change entries)
  | .list items | .tuple items => .list (mapItemTexts change items)
  | .str text => .str (change text)
  | value => value

def mapItemTexts (change : String → String) : List Value → List Value
  | [] => []
  | item :: items => mapTexts change item :: mapItemTexts change items

def mapEntryTexts (change : String → String) : List (Value × Value) → List (Value × Value)
  | [] => []
  | (key, item) :: entries => (key, mapTexts change item) :: mapEntryTexts change entries

end

def toPlain (value : Value) : Value := mapTexts id value

section Mask

-- `str.isalnum` of a letter, or the underscore.
variable (isWord : Char → Bool)

def maskChars (text : List Char) : List Char :=
  maskPatterns.foldl (fun result pattern => pattern.sub isWord result) text

def maskText (text : String) : String := String.ofList (maskChars isWord text.toList)

def maskSensitiveData (value : Value) : Value := mapTexts (maskText isWord) value

end Mask

/-- Whether the user may see the output of a node: never without a run. -/
def WorkflowExecutor.canUnmaskOutput (executor : WorkflowExecutor)
    (shouldUnmaskForUser : Run → String → Bool) (nodeId : String) : Bool :=
  match executor.run with
  | none => false
  | some run => nodeId != "" && shouldUnmaskForUser run nodeId

/-- The display of an output. -/
def redactOutput (python : Python) (objects : Objects) (isWord : Char → Bool) (unmask : Bool)
    (output : Value) : Except String Value :=
  (normalizeOutputValue python objects (toPlain output)).bind fun outputRaw =>
    normalizeOutputValue python objects
      (if unmask then outputRaw else maskSensitiveData isWord outputRaw)

end WorkflowStudio.Executor

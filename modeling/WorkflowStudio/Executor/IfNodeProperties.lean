import WorkflowStudio.Executor.IfNode

/-! When an `if` node that compares texts sends its input to the right socket. -/

set_option autoImplicit false

namespace WorkflowStudio.Executor

open Lib Expression

inductive TextOperator where
  | contains
  | startsWith
  | endsWith
  deriving DecidableEq

namespace TextOperator

def name : TextOperator → String
  | .contains => "contains"
  | .startsWith => "startsWith"
  | .endsWith => "endsWith"

/-- The right text is a part, a prefix or a suffix of the left one. -/
def Holds (operator : TextOperator) (left right : String) : Prop :=
  match operator with
  | .contains => right.toList <:+: left.toList
  | .startsWith => right.toList <+: left.toList
  | .endsWith => right.toList <:+ left.toList

instance (operator : TextOperator) (left right : String) :
    Decidable (operator.Holds left right) :=
  match operator with
  | .contains => inferInstanceAs (Decidable (right.toList <:+: left.toList))
  | .startsWith => inferInstanceAs (Decidable (right.toList <+: left.toList))
  | .endsWith => inferInstanceAs (Decidable (right.toList <:+ left.toList))

end TextOperator

/-- The input leaves by the true socket if the operator holds, and by the false one
if it does not. -/
def RoutesByText (operator : TextOperator) (left right : String) (inputData : Value)
    (outcome : Except String IfOutput) : Prop :=
  (operator.Holds left right → outcome.map IfOutput.outputs = .ok [[inputData], []]) ∧
    (¬ operator.Holds left right → outcome.map IfOutput.outputs = .ok [[], [inputData]])

theorem routesByText_iff (operator : TextOperator) (left right : String) (inputData : Value)
    (taken : Bool) :
    RoutesByText operator left right inputData (.ok (branchOutput inputData taken)) ↔
      (taken = true ↔ operator.Holds left right) := by
  unfold RoutesByText branchOutput
  cases taken with
  | true => simp [Except.map]
  | false => simp [Except.map]

section Operands

variable (python : Python) (numbers : PythonNumbers)

/-- The number that a text is read as, blanks around it aside. -/
def numberOf (text : String) : Option Value :=
  if strip text = "" then none else numbers.float (strip text)

/-- Where both texts are read as numbers, the operator does not tell the texts from
the numbers as they are printed. -/
def PrintedAlike (operator : TextOperator) (left right : String) : Prop :=
  ∀ leftNum rightNum, numberOf numbers left = some leftNum →
    numberOf numbers right = some rightNum →
    (operator.Holds (python.str leftNum) (python.str rightNum) ↔ operator.Holds left right)

variable {python numbers}

theorem isFloat_text (text : String) : numbers.isFloat (.str text) = false := by
  by_contra number
  obtain ⟨_, truth, identity, same⟩ :=
    numbers.float_object (.str text) (eq_true_of_ne_false number)
  cases same

theorem isNumber_of_numberOf {text : String} {number : Value}
    (read : numberOf numbers text = some number) : isNumber numbers number = true := by
  unfold numberOf at read
  split at read
  · cases read
  · have float := numbers.isFloat_float _ _ read
    obtain ⟨_, truth, identity, rfl⟩ := numbers.float_object _ float
    exact float

theorem maybeNumber_text (text : String) :
    maybeNumber numbers (.str text) = (numberOf numbers text).getD (.str text) := by
  unfold maybeNumber numberOf
  rw [show isNumber numbers (.str text) = numbers.isFloat (.str text) from rfl, isFloat_text]
  by_cases blank : strip text = ""
  · simp [blank]
  · simp [blank]

/-- Texts stay texts unless both are read as numbers. -/
theorem coerceNumbers_texts (left right : String) :
    coerceNumbers numbers (.str left) (.str right) =
      match numberOf numbers left, numberOf numbers right with
      | some leftNum, some rightNum => (leftNum, rightNum)
      | _, _ => (.str left, .str right) := by
  unfold coerceNumbers
  dsimp only
  rw [maybeNumber_text, maybeNumber_text]
  cases leftRead : numberOf numbers left with
  | none =>
      rw [if_neg]
      rintro ⟨number, _⟩
      exact Bool.false_ne_true ((isFloat_text left).symm.trans number)
  | some leftNum =>
      cases rightRead : numberOf numbers right with
      | none =>
          rw [if_neg]
          rintro ⟨_, number⟩
          exact Bool.false_ne_true ((isFloat_text right).symm.trans number)
      | some rightNum =>
          exact if_pos ⟨isNumber_of_numberOf leftRead, isNumber_of_numberOf rightRead⟩

theorem setElements_plain {value : Value}
    (plain : ∀ truth identity, value ≠ .object truth identity) :
    numbers.setElements value = none := by
  rw [Option.eq_none_iff_forall_ne_some]
  intro elements found
  obtain ⟨truth, identity, same⟩ := numbers.isSet_object _ _ found
  exact plain truth identity same

/-- A value that is printed before it is searched. -/
def Printed (numbers : PythonNumbers) (value : Value) : Prop :=
  (∃ text, value = .str text) ∨ isNumber numbers value = true

theorem Printed.cases {value : Value} (printed : Printed numbers value) :
    (∃ text, value = .str text) ∨ (∃ truth, value = .bool truth) ∨
      (∃ number, value = .int number) ∨
      ∃ truth identity, value = .object truth identity ∧ numbers.setElements value = none := by
  obtain text | counts := printed
  · exact .inl text
  · cases value with
    | bool truth => exact .inr (.inl ⟨truth, rfl⟩)
    | int number => exact .inr (.inr (.inl ⟨number, rfl⟩))
    | none | str | list | tuple | dict | object =>
        obtain ⟨single, truth, identity, same⟩ := numbers.float_object _ counts
        exact .inr (.inr (.inr ⟨truth, identity, same, single⟩))

theorem Printed.contains {left : Value} (printed : Printed numbers left) (right : Value) :
    contains python numbers left right =
      .ok (find? (python.str right).toList (python.str left).toList).isSome := by
  obtain ⟨text, rfl⟩ | ⟨truth, rfl⟩ | ⟨number, rfl⟩ | ⟨truth, identity, rfl, single⟩ :=
    printed.cases
  · unfold Executor.contains
    rw [setElements_plain (by simp)]
  · unfold Executor.contains
    rw [setElements_plain (by simp)]
  · unfold Executor.contains
    rw [setElements_plain (by simp)]
  · unfold Executor.contains
    rw [single]

/-- On texts and numbers the text operators compare what is printed. -/
theorem compareValues_printed (operator : TextOperator) {left : Value} (right : Value)
    (printed : Printed numbers left) :
    compareValues python numbers (.str operator.name) left right =
      .ok (decide (operator.Holds (python.str left) (python.str right))) := by
  cases operator with
  | contains =>
      refine (printed.contains right).trans (congrArg Except.ok ?_)
      rw [Bool.eq_iff_iff, find?_isSome, decide_eq_true_iff]
      rfl
  | startsWith =>
      refine congrArg Except.ok ?_
      rw [Bool.eq_iff_iff, List.isPrefixOf_iff_prefix, decide_eq_true_iff]
      rfl
  | endsWith =>
      refine congrArg Except.ok ?_
      rw [Bool.eq_iff_iff, List.isSuffixOf_iff_suffix, decide_eq_true_iff]
      rfl

theorem routes_printed (operator : TextOperator) (left right : String) (inputData : Value)
    {leftValue : Value} (rightValue : Value) (printed : Printed numbers leftValue) :
    RoutesByText operator left right inputData
        ((compareValues python numbers (.str operator.name) leftValue rightValue).map
          (branchOutput inputData)) ↔
      (operator.Holds (python.str leftValue) (python.str rightValue) ↔
        operator.Holds left right) := by
  rw [compareValues_printed operator rightValue printed]
  refine (routesByText_iff operator left right inputData _).trans ?_
  rw [decide_eq_true_iff]

end Operands

/-- A node whose operands are texts routes by the texts exactly when the operator does
not tell them from the numbers that both may be read as. -/
theorem text_operators_iff (python : Python) (numbers : PythonNumbers)
    (evaluator : Value → Evaluator) (config : List (String × Value)) (inputData : Value)
    (operator : TextOperator) (left right : String)
    (named : config.lookup "operator" = some (.str operator.name))
    (leftText : resolveOperand python evaluator config "leftOperand" (.str "") inputData =
      .ok (.str left))
    (rightText : resolveOperand python evaluator config "rightOperand" (.str "") inputData =
      .ok (.str right)) :
    RoutesByText operator left right inputData
        (executeIfNode python numbers evaluator config inputData) ↔
      PrintedAlike python numbers operator left right := by
  have given : (["leftOperand", "operator", "rightOperand"].any fun key =>
      (config.lookup key).isSome) = true := by
    simp [named]
  have condition : executeIfNode python numbers evaluator config inputData =
      (let coerced := coerceNumbers numbers (.str left) (.str right)
       compareValues python numbers (.str operator.name) coerced.1 coerced.2).map
        (branchOutput inputData) := by
    unfold executeIfNode ifCondition
    rw [if_pos given, leftText, rightText, named]
    rfl
  rw [condition, coerceNumbers_texts]
  unfold PrintedAlike
  have texts : RoutesByText operator left right inputData
      ((compareValues python numbers (.str operator.name) (.str left) (.str right)).map
        (branchOutput inputData)) := by
    rw [routes_printed operator left right inputData _ (.inl ⟨left, rfl⟩), python.str_str,
      python.str_str]
  cases leftRead : numberOf numbers left with
  | none =>
      refine iff_of_true texts ?_
      intro leftNum rightNum read
      cases read
  | some leftNum =>
      cases rightRead : numberOf numbers right with
      | none =>
          refine iff_of_true texts ?_
          intro leftNum rightNum _ read
          cases read
      | some rightNum =>
          dsimp only
          rw [routes_printed operator left right inputData rightNum
            (.inr (isNumber_of_numberOf leftRead))]
          constructor
          · intro alike leftOther rightOther sameLeft sameRight
            rw [← Option.some.inj sameLeft, ← Option.some.inj sameRight]
            exact alike
          · intro alike
            exact alike leftNum rightNum rfl rfl

/-- What the float of a natural number below 10^16 prints. -/
def printDecimal : Value → String
  | .str text => text
  | .object _ number => Nat.repr number ++ ".0"
  | _ => ""

def decimalPython : Python :=
  { textPython with
    str := printDecimal
    str_str := fun _ => rfl }

def numeral (text : String) : Nat :=
  text.toList.foldl (fun value digit => 10 * value + (digit.toNat - '0'.toNat)) 0

def decimalNumbers : PythonNumbers where
  float text :=
    if text ≠ "" ∧ text.toList.all Char.isDigit then
      some (.object (numeral text ≠ 0) (numeral text))
    else none
  isFloat
    | .object _ _ => true
    | _ => false
  setElements _ := none
  equal left right := decide (left = right)
  compare _ _ _ := .ok false
  isFloat_float := by
    intro text number read
    split at read
    · cases read
      rfl
    · cases read
  float_object := by
    intro number float
    cases number with
    | object truth identity => exact ⟨rfl, truth, identity, rfl⟩
    | none | bool | int | str | list | tuple | dict => cases float
  isSet_object := by
    intro _ _ elements
    cases elements

def startsWithOne (left : String) : List (String × Value) :=
  [("leftOperand", .str left), ("operator", .str "startsWith"), ("rightOperand", .str "1")]

theorem text_operators_iff_letters :
    RoutesByText .startsWith "1b" "1" (.int 7)
      (executeIfNode decimalPython decimalNumbers (fun _ _ => .error "") (startsWithOne "1b")
        (.int 7)) := by
  refine (text_operators_iff decimalPython decimalNumbers _ _ _ .startsWith "1b" "1" rfl
    (by decide) (by decide)).mpr ?_
  have unread : numberOf decimalNumbers "1b" = none := by decide
  intro leftNum rightNum read
  rw [unread] at read
  cases read

theorem numerals_compare_as_floats :
    (executeIfNode decimalPython decimalNumbers (fun _ _ => .error "") (startsWithOne "10")
        (.int 7)).map IfOutput.outputs = .ok [[], [.int 7]] ∧
      TextOperator.startsWith.Holds "10" "1" ∧
      ¬ RoutesByText .startsWith "10" "1" (.int 7)
        (executeIfNode decimalPython decimalNumbers (fun _ _ => .error "") (startsWithOne "10")
          (.int 7)) := by
  have holds : TextOperator.startsWith.Holds "10" "1" := by decide
  have routed : (executeIfNode decimalPython decimalNumbers (fun _ _ => .error "")
      (startsWithOne "10") (.int 7)).map IfOutput.outputs = .ok [[], [.int 7]] := by rfl
  refine ⟨routed, holds, ?_⟩
  rintro ⟨taken, _⟩
  rw [taken holds] at routed
  cases routed

end WorkflowStudio.Executor

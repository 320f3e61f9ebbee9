import WorkflowStudio.Lib.PythonLiterals
import WorkflowStudio.Lib.PythonSyntax

/-! The code that the triggers of a workflow leave to be run by the cron and by the automation. -/

set_option autoImplicit false

namespace WorkflowStudio.Workflow

def browseText : List Char := "env['ir.workflow'].browse(".toList

def executeText : List Char := ")._execute_from_trigger(".toList

def callText (workflowId : Nat) : List Char :=
  browseText ++ (Nat.toDigits 10 workflowId ++ executeText)

def scheduleTail : List Char := ", 'schedule', \x7b\x7d)".toList

def recordEventTail : List Char :=
  (", 'record_event', \x7b'model': records._name, 'record_ids': records.ids, " ++
    "'event_type': 'record_event'\x7d)").toList

def triggerCode (workflowId : Nat) (nodeId : String) (tail : List Char) : String :=
  String.ofList (callText workflowId ++ '\'' :: (nodeId.toList ++ '\'' :: tail))

/-- The code of `_activate_schedule`. -/
def scheduleCode (workflowId : Nat) (nodeId : String) : String :=
  triggerCode workflowId nodeId scheduleTail

/-- The code of `_activate_record_event`. -/
def recordEventCode (workflowId : Nat) (nodeId : String) : String :=
  triggerCode workflowId nodeId recordEventTail

end WorkflowStudio.Workflow

/-! The code of a trigger calls the workflow for the node exactly when the id of the node is a
text that stands for itself between single quotes. -/

namespace WorkflowStudio.Workflow

open Lib.Scanning Lib.Quoting Lib.PythonSyntax

variable (named : List Char → Option Char)

/-!
## Tokens
-/

def browseTokens : List Token :=
  [.name "env".toList, .sign '[', .str "ir.workflow".toList, .sign ']', .sign '.',
    .name "browse".toList, .sign '(']

def executeTokens : List Token :=
  [.sign ')', .sign '.', .name "_execute_from_trigger".toList, .sign '(']

theorem scan_browse (back : List Char) :
    scan (token named) (browseText ++ back) =
      browseTokens.map .inr ++ scan (token named) back := rfl

theorem scan_execute (back : List Char) :
    scan (token named) (executeText ++ back) =
      executeTokens.map .inr ++ scan (token named) back := rfl

theorem toDigits_head {number : Nat} (positive : 0 < number) :
    (Nat.toDigits 10 number).head? ≠ some '0' := by
  induction number using Nat.strong_induction_on with
  | _ number ih =>
      rw [Nat.toDigits_eq_if (by decide)]
      split
      next small =>
        have digits : ∀ digit < 10, 0 < digit → [Nat.digitChar digit].head? ≠ some '0' := by decide
        exact digits number small positive
      next large =>
        have shorter := ih (number / 10) (Nat.div_lt_self positive (by decide))
          (Nat.div_pos (Nat.le_of_not_lt large) (by decide))
        rw [List.head?_append]
        cases head : (Nat.toDigits 10 (number / 10)).head? with
        | none => exact absurd (List.head?_eq_none_iff.mp head) Nat.toDigits_ne_nil
        | some first =>
            rw [head] at shorter
            exact shorter

theorem isDigit_starts {letter : Char} (digit : letter.isDigit = true) :
    isNameStart letter = false := by
  rw [isNameStart, isAlpha_of_isDigit digit, Bool.false_or, beq_eq_false_iff_ne]
  rintro rfl
  exact absurd digit (by decide)

theorem token_number (number : Nat) (rest : List Char) :
    token named (Nat.toDigits 10 number ++ ')' :: rest) =
      some (.number number, (Nat.toDigits 10 number).length) := by
  have all : ∀ letter ∈ Nat.toDigits 10 number, letter.isDigit = true := fun _ member =>
    Nat.isDigit_of_mem_toDigits (by decide) (by decide) member
  obtain ⟨taken, left⟩ := @takeWhile_run _ Char.isDigit (Nat.toDigits 10 number) (')' :: rest) all
    (by
      intro letter same
      cases same
      decide)
  have value : Nat.ofDigitChars 10 (Nat.toDigits 10 number) 0 = number :=
    Nat.ofDigitChars_ten_toDigits
  have decimal : (Nat.toDigits 10 number ++ ')' :: rest).head? ≠ some '0' ∨
      Nat.toDigits 10 number = ['0'] := by
    rcases Nat.eq_zero_or_pos number with rfl | positive
    · exact .inr rfl
    · refine .inl ?_
      have head := toDigits_head positive
      cases digits : Nat.toDigits 10 number with
      | nil => exact absurd digits Nat.toDigits_ne_nil
      | cons first others =>
          rw [digits] at head
          exact head
  have whole : numberToken (Nat.toDigits 10 number ++ ')' :: rest) =
      some (.number number, (Nat.toDigits 10 number).length) := by
    have ends : endsNumber (')' :: rest) = true := rfl
    rw [numberToken, taken, left, if_pos ⟨ends, decimal⟩, value]
  rw [← whole]
  cases digits : Nat.toDigits 10 number with
  | nil => exact absurd digits Nat.toDigits_ne_nil
  | cons first others =>
      have digit := all first (digits ▸ List.mem_cons_self)
      unfold token
      rw [List.cons_append]
      dsimp only
      rw [isDigit_starts digit]
      exact if_pos digit

theorem scan_call (workflowId : Nat) (back : List Char) :
    scan (token named) (callText workflowId ++ back) =
      (browseTokens ++ .number workflowId :: executeTokens).map .inr ++
        scan (token named) back := by
  have number : scan (token named) (Nat.toDigits 10 workflowId ++ (executeText ++ back)) =
      .inr (.number workflowId) :: scan (token named) (executeText ++ back) :=
    scan_match (token_number named workflowId _) Nat.toDigits_ne_nil
  rw [callText, List.append_assoc, List.append_assoc, scan_browse, number, scan_execute,
    List.map_append, List.map_cons, List.append_assoc, List.cons_append]

theorem tokensOf_append (found : List Token) (pieces : List (Char ⊕ Token)) :
    tokensOf (found.map .inr ++ pieces) = (tokensOf pieces).map (found ++ ·) := by
  induction found with
  | nil => exact Option.map_id'.symm
  | cons first rest ih =>
      rw [List.map_cons, List.cons_append, tokensOf, ih, Option.map_map]
      rfl

/-- The code up to the id of the node, and the text from its quote on. -/
theorem tokens_call (workflowId : Nat) (back : List Char) :
    tokens named (callText workflowId ++ back) =
      (tokens named back).map ((browseTokens ++ .number workflowId :: executeTokens) ++ ·) := by
  rw [tokens, scan_call, tokensOf_append]
  rfl

theorem token_quote (rest : List Char) :
    token named ('\'' :: rest) =
      (readLiteral named ('\'' :: rest)).map fun literal => (.str literal.1, literal.2) := rfl

/-- The first token behind the bracket is the literal, or there is none. -/
theorem of_tokens_quote {rest : List Char} {found : List Token}
    (here : tokens named ('\'' :: rest) = some found) :
    ∃ value length others, readLiteral named ('\'' :: rest) = some (value, length) ∧
      found = .str value :: others := by
  rw [tokens, scan, scanFrom, token_quote] at here
  cases literal : readLiteral named ('\'' :: rest) with
  | none =>
      rw [literal] at here
      cases here
  | some read =>
      rw [literal] at here
      obtain ⟨others, _, rfl⟩ := Option.map_eq_some_iff.mp here
      exact ⟨read.1, read.2, others, rfl, rfl⟩

theorem tokens_plain {text tail : List Char} (plain : plainText text = true)
    (separate : tail.head? ≠ some '\'') :
    tokens named ('\'' :: (text ++ '\'' :: tail)) =
      (tokens named tail).map (.str text :: ·) := by
  have front : '\'' :: (text ++ '\'' :: tail) = ('\'' :: (text ++ ['\''])) ++ tail := by simp
  have literal : token named (('\'' :: (text ++ ['\''])) ++ tail) =
      some (.str text, ('\'' :: (text ++ ['\''])).length) := by
    rw [← front, token_quote, readLiteral_plain named plain separate]
    simp
  rw [tokens, front, scan_match literal (List.cons_ne_nil _ _)]
  rfl

/-!
## Expressions
-/

/-- `env['ir.workflow'].browse(workflowId)._execute_from_trigger` -/
def callee (workflowId : Nat) : Expression :=
  .attribute (.call (.attribute (.subscript (.name "env".toList) (.str "ir.workflow".toList))
    "browse".toList) [.number workflowId]) "_execute_from_trigger".toList

/-- The text is a single call of the workflow with the id of the node as first argument. -/
def CallsTrigger (code : String) (workflowId : Nat) (nodeId : String) : Prop :=
  ∃ others, parse named code.toList =
    some (.call (callee workflowId) (.str nodeId.toList :: others))

/-- The literal that the text has in the place of the first argument. -/
def FirstArgument (code : String) (workflowId : Nat) (nodeId : String) : Prop :=
  ∃ length, readLiteral named (code.toList.drop (callText workflowId).length) =
    some (nodeId.toList, length)

theorem parseTokens_call (workflowId : Nat) (value : List Char) (others : List Token) :
    parseTokens ((browseTokens ++ .number workflowId :: executeTokens) ++ .str value :: others) =
      match (arguments (3 * others.length + 36) (.str value :: others)).bind fun found =>
          trailers (3 * others.length + 36) (.call (callee workflowId) found.1) found.2 with
      | some (whole, []) => some whole
      | _ => none := rfl

/-- How many attributes, subscripts and calls an expression ends with. -/
def chain : Expression → Nat
  | .attribute object _ => chain object + 1
  | .subscript object _ => chain object + 1
  | .call function _ => chain function + 1
  | _ => 0

theorem trailers_chain {fuel : Nat} {object whole : Expression} {found rest : List Token}
    (here : trailers fuel object found = some (whole, rest)) :
    whole = object ∨ chain object < chain whole := by
  have longer {inner outer : Expression} (more : chain outer = chain inner + 1)
      (later : whole = outer ∨ chain outer < chain whole) :
      whole = inner ∨ chain inner < chain whole := by
    right
    rcases later with rfl | later
    · rw [more]
      exact Nat.lt_succ_self _
    · exact Nat.lt_trans (more ▸ Nat.lt_succ_self _) later
  induction fuel generalizing object found with
  | zero => cases here
  | succ fuel ih =>
      rw [trailers.eq_def] at here
      split at here
      next => exact absurd ‹_› (Nat.succ_ne_zero _)
      next => exact longer rfl (ih (Nat.succ.inj ‹_› ▸ here))
      next =>
        obtain ⟨⟨index, behind⟩, _, here⟩ := Option.bind_eq_some_iff.mp here
        dsimp only at here
        split at here
        · exact longer rfl (ih (Nat.succ.inj ‹_› ▸ here))
        · cases here
      next =>
        obtain ⟨⟨given, behind⟩, _, here⟩ := Option.bind_eq_some_iff.mp here
        exact longer rfl (ih (Nat.succ.inj ‹_› ▸ here))
      next =>
        cases here
        exact .inl rfl

/-- The first argument of the call is the literal behind its bracket: attributes and calls behind
a literal or behind the call would make a longer expression. -/
theorem first_of_parseTokens {workflowId : Nat} {value text : List Char} {others : List Token}
    {more : List Expression}
    (here : parseTokens ((browseTokens ++ .number workflowId :: executeTokens) ++
      .str value :: others) = some (.call (callee workflowId) (.str text :: more))) :
    text = value := by
  rw [parseTokens_call] at here
  split at here
  next parsed =>
    cases here
    obtain ⟨⟨given, behind⟩, arguments, outer⟩ := Option.bind_eq_some_iff.mp parsed
    have whole : given = .str text :: more := by
      rcases trailers_chain outer with same | longer
      · exact (Expression.call.inj same).2.symm
      · exact absurd longer (Nat.lt_irrefl _)
    subst whole
    change ((trailers (3 * others.length + 34) (.str value) others).bind _) = _ at arguments
    obtain ⟨⟨first, rest⟩, inner, arguments⟩ := Option.bind_eq_some_iff.mp arguments
    have same : first = .str text := by
      dsimp only at arguments
      split at arguments
      · cases arguments
        rfl
      · obtain ⟨⟨_, _⟩, _, arguments⟩ := Option.bind_eq_some_iff.mp arguments
        cases arguments
        rfl
      · cases arguments
    subst same
    rcases trailers_chain inner with same | longer
    · exact Expression.str.inj same
    · exact absurd longer (Nat.not_lt_zero _)
  next => cases here

/-!
## Code
-/

section Code

variable {workflowId : Nat} {nodeId : String} {tail : List Char}

theorem triggerCode_toList :
    (triggerCode workflowId nodeId tail).toList =
      callText workflowId ++ '\'' :: (nodeId.toList ++ '\'' :: tail) := String.toList_ofList

/-- What a tail has to be: arguments that end the call, behind a comma and before a quote, and
without three quotes in a row. -/
structure EndsCall (tail : List Char) (others : List Token) (found : List Expression) : Prop where
  starts : ∃ more, tail = ',' :: ' ' :: '\'' :: more
  noTriple : ¬ ['\'', '\'', '\''] <:+: tail
  lexes : ∀ named, tokens named tail = some others
  parses : ∀ workflowId text,
    parseTokens ((browseTokens ++ .number workflowId :: executeTokens) ++ .str text :: others) =
      some (.call (callee workflowId) (.str text :: found))

variable {others : List Token} {found : List Expression}

theorem firstArgument_iff (ends : EndsCall tail others found) :
    FirstArgument named (triggerCode workflowId nodeId tail) workflowId nodeId ↔
      plainText nodeId.toList = true := by
  obtain ⟨more, rfl⟩ := ends.starts
  rw [FirstArgument, triggerCode_toList, List.drop_left]
  constructor
  · rintro ⟨length, here⟩
    exact plain_of_readLiteral named ends.noTriple here
  · intro plain
    exact ⟨_, readLiteral_plain named plain (by simp)⟩

theorem callsTrigger_iff (ends : EndsCall tail others found) :
    CallsTrigger named (triggerCode workflowId nodeId tail) workflowId nodeId ↔
      plainText nodeId.toList = true := by
  rw [← @firstArgument_iff named workflowId nodeId tail _ _ ends, CallsTrigger, parse,
    triggerCode_toList, tokens_call]
  constructor
  · rintro ⟨more, here⟩
    obtain ⟨whole, lexed, parsed⟩ := Option.bind_eq_some_iff.mp here
    obtain ⟨found, quoted, rfl⟩ := Option.map_eq_some_iff.mp lexed
    obtain ⟨value, length, others, literal, rfl⟩ := of_tokens_quote named quoted
    have same := first_of_parseTokens parsed
    refine ⟨length, ?_⟩
    rw [triggerCode_toList, List.drop_left, literal, same]
  · intro first
    have plain := (firstArgument_iff named ends).mp first
    obtain ⟨more, starts⟩ := ends.starts
    have separate : tail.head? ≠ some '\'' := by
      rw [starts]
      simp
    refine ⟨found, ?_⟩
    rw [tokens_plain named plain separate, ends.lexes]
    exact ends.parses workflowId nodeId.toList

end Code

def scheduleTokens : List Token :=
  [.sign ',', .str "schedule".toList, .sign ',', .sign '\x7b', .sign '\x7d', .sign ')']

theorem endsCall_schedule :
    EndsCall scheduleTail scheduleTokens [.str "schedule".toList, .dict []] where
  starts := ⟨_, rfl⟩
  noTriple := by decide +kernel
  lexes _ := rfl
  parses _ _ := rfl

def recordEventTokens : List Token :=
  [.sign ',', .str "record_event".toList, .sign ',', .sign '\x7b', .str "model".toList, .sign ':',
    .name "records".toList, .sign '.', .name "_name".toList, .sign ',', .str "record_ids".toList,
    .sign ':', .name "records".toList, .sign '.', .name "ids".toList, .sign ',',
    .str "event_type".toList, .sign ':', .str "record_event".toList, .sign '\x7d', .sign ')']

theorem endsCall_recordEvent :
    EndsCall recordEventTail recordEventTokens
      [.str "record_event".toList,
        .dict [(.str "model".toList, .attribute (.name "records".toList) "_name".toList),
          (.str "record_ids".toList, .attribute (.name "records".toList) "ids".toList),
          (.str "event_type".toList, .str "record_event".toList)]] where
  starts := ⟨_, rfl⟩
  noTriple := by decide +kernel
  lexes _ := rfl
  parses _ _ := rfl

/-- Both codes call the workflow for the node exactly if its id has no single quote, line end or
NUL and no backslash that is part of an escape or ends it; no other reading of what follows could
make the first argument the id. -/
theorem trigger_code_calls_iff (workflowId : Nat) (nodeId : String) :
    (CallsTrigger named (scheduleCode workflowId nodeId) workflowId nodeId ↔
        plainText nodeId.toList = true) ∧
      (CallsTrigger named (recordEventCode workflowId nodeId) workflowId nodeId ↔
        plainText nodeId.toList = true) ∧
      (FirstArgument named (scheduleCode workflowId nodeId) workflowId nodeId ↔
        plainText nodeId.toList = true) ∧
      (FirstArgument named (recordEventCode workflowId nodeId) workflowId nodeId ↔
        plainText nodeId.toList = true) :=
  ⟨callsTrigger_iff named endsCall_schedule, callsTrigger_iff named endsCall_recordEvent,
    firstArgument_iff named endsCall_schedule, firstArgument_iff named endsCall_recordEvent⟩

/-- An id with a quote ends its literal and adds an argument. -/
theorem trigger_code_injected :
    ¬ CallsTrigger (fun _ => none) (scheduleCode 1 "n', 'manual', \x7b\x7d) or ('") 1
        "n', 'manual', \x7b\x7d) or ('" ∧
      readLiteral (fun _ => none) ((scheduleCode 1 "n', 'manual', \x7b\x7d) or ('").toList.drop
        (callText 1).length) = some (['n'], 3) := by
  refine ⟨fun calls => ?_, by decide +kernel⟩
  have plain := (callsTrigger_iff (fun _ => none) endsCall_schedule).mp calls
  exact absurd plain (by decide +kernel)

end WorkflowStudio.Workflow

import WorkflowStudio.Lib.Quoting

/-! A fragment of Python's grammar: string literals with their escapes, names, numbers,
attributes, subscripts, calls and dictionaries. What lies outside of it is not read. -/

set_option autoImplicit false

namespace Lib.PythonSyntax

open Lib.Scanning Lib.Quoting

/-!
## String literals
-/

/-- What a letter behind a backslash stands for on its own. -/
def plainEscape : Char → Option Char
  | '\\' => some '\\'
  | '\'' => some '\''
  | '"' => some '"'
  | 'a' => some '\x07'
  | 'b' => some '\x08'
  | 'f' => some '\x0c'
  | 'n' => some '\n'
  | 'r' => some '\r'
  | 't' => some '\t'
  | 'v' => some '\x0b'
  | _ => none

def isOctal (letter : Char) : Bool := letter.isDigit && letter != '8' && letter != '9'

def codeOf (base : Nat) (digits : List Nat) : Nat :=
  digits.foldl (fun code digit => code * base + digit) 0

/-- A letter by its code; a surrogate alone is not a letter. -/
def letterOf (code : Nat) : Option Char :=
  if code.isValidChar then some (Char.ofNat code) else none

def hexCode (count : Nat) (text : List Char) : Option Char :=
  if (text.take count).length = count then
    ((text.take count).mapM hexValue).bind fun values => letterOf (codeOf 16 values)
  else none

def octalRun (text : List Char) : List Char := (text.take 3).takeWhile isOctal

section Named

-- The letter under a name of the Unicode database.
variable (named : List Char → Option Char)

def namedCode : Matcher Char Char
  | '\x7b' :: rest =>
      if (rest.dropWhile (· != '\x7d')).isEmpty then none
      else (named (rest.takeWhile (· != '\x7d'))).map fun letter =>
        (letter, (rest.takeWhile (· != '\x7d')).length + 2)
  | _ => none

/-- What follows a backslash; a letter that is no escape keeps the backslash. -/
def escapeUnit : Matcher Char (List Char)
  | [] => none
  | letter :: rest =>
      match plainEscape letter with
      | some plain => some ([plain], 1)
      | none =>
          if letter = '\n' then some ([], 1)
          else if letter = '\r' then some ([], if rest.head? = some '\n' then 2 else 1)
          else if isOctal letter then
            (letterOf (codeOf 8 ((octalRun (letter :: rest)).map fun digit => digit.toNat - 48))).map
              fun found => ([found], (octalRun (letter :: rest)).length)
          else if letter = 'x' then (hexCode 2 rest).map fun found => ([found], 3)
          else if letter = 'u' then (hexCode 4 rest).map fun found => ([found], 5)
          else if letter = 'U' then (hexCode 8 rest).map fun found => ([found], 9)
          else if letter = 'N' then (namedCode named rest).map fun found => ([found.1], found.2 + 1)
          else some (['\\', letter], 1)

/-- What the start of the text of a literal stands for. -/
def literalUnit : Matcher Char (List Char)
  | [] => none
  | letter :: rest =>
      if letter = '\\' then (escapeUnit named rest).map fun found => (found.1, found.2 + 1)
      else if letter = '\r' then some (['\n'], if rest.head? = some '\n' then 2 else 1)
      else some ([letter], 1)

/-- The letters of a literal before their escapes are replaced: a backslash goes with the letter
behind it, and only a long literal goes on behind the end of a line. -/
def rawUnit (long : Bool) : Matcher Char (List Char)
  | [] => none
  | letter :: rest =>
      if letter = '\x00' then none
      else if letter = '\\' then
        match rest with
        | [] => none
        | next :: others =>
            if next = '\x00' then none
            else if next = '\r' ∧ others.head? = some '\n' then some (['\\', '\r', '\n'], 3)
            else some (['\\', next], 2)
      else if (letter = '\n' ∨ letter = '\r') ∧ long = false then none
      else some ([letter], 1)

/-- The text of a literal and the letters it takes with its quotes; three quotes open a long
literal. -/
def rawLiteral (quote : Char) (rest : List Char) : Option (List Char × Nat) :=
  if [quote, quote].isPrefixOf rest then
    (read (rawUnit true) [quote, quote, quote] (rest.drop 2)).map fun found =>
      (found.1, found.1.length + 6)
  else
    (read (rawUnit false) [quote] rest).map fun found => (found.1, found.1.length + 2)

/-- The value of the string literal that starts a text. -/
def readLiteral : Matcher Char (List Char)
  | [] => none
  | quote :: rest =>
      if quote = '\'' ∨ quote = '"' then
        (rawLiteral quote rest).bind fun literal =>
          (decode (literalUnit named) literal.1).map fun value => (value, literal.2)
      else none

/-!
## Tokens
-/

inductive Token where
  | name (text : List Char)
  | number (value : Nat)
  | str (value : List Char)
  | sign (letter : Char)
  deriving DecidableEq

def isNameLetter (letter : Char) : Bool := letter.isAlphanum || letter == '_'

def isNameStart (letter : Char) : Bool := letter.isAlpha || letter == '_'

def isSign (letter : Char) : Bool :=
  ['[', ']', '(', ')', '\x7b', '\x7d', '.', ',', ':'].contains letter

/-- The text behind a name: a quote there would make the name a prefix of a literal. -/
def endsName (rest : List Char) : Bool := rest.head? != some '\'' && rest.head? != some '"'

/-- The text behind a number does not go on with letters or a fraction. -/
def endsNumber (rest : List Char) : Bool :=
  match rest with
  | [] => true
  | letter :: _ => !isNameLetter letter && letter != '.'

def nameToken (text : List Char) : Option (Token × Nat) :=
  if endsName (text.dropWhile isNameLetter) then
    some (.name (text.takeWhile isNameLetter), (text.takeWhile isNameLetter).length)
  else none

/-- A decimal number; a zero does not start a longer one. -/
def numberToken (text : List Char) : Option (Token × Nat) :=
  if endsNumber (text.dropWhile Char.isDigit) ∧
      (text.head? ≠ some '0' ∨ text.takeWhile Char.isDigit = ['0']) then
    some (.number (Nat.ofDigitChars 10 (text.takeWhile Char.isDigit) 0),
      (text.takeWhile Char.isDigit).length)
  else none

def token : Matcher Char Token
  | [] => none
  | letter :: rest =>
      if isNameStart letter then nameToken (letter :: rest)
      else if letter.isDigit then numberToken (letter :: rest)
      else if isSign letter then some (.sign letter, 1)
      else (readLiteral named (letter :: rest)).map fun literal => (.str literal.1, literal.2)

/-- The tokens, if only blanks stand between them. -/
def tokensOf : List (Char ⊕ Token) → Option (List Token)
  | [] => some []
  | .inl letter :: rest => if letter = ' ' then tokensOf rest else none
  | .inr found :: rest => (tokensOf rest).map (found :: ·)

def tokens (text : List Char) : Option (List Token) := tokensOf (scan (token named) text)

end Named

/-!
## Expressions
-/

inductive Expression where
  | name (text : List Char)
  | number (value : Nat)
  | str (value : List Char)
  | attribute (object : Expression) (name : List Char)
  | subscript (object index : Expression)
  | call (function : Expression) (arguments : List Expression)
  | dict (entries : List (Expression × Expression))

mutual

/-- An expression at the start, and the tokens behind it. -/
def expression : Nat → List Token → Option (Expression × List Token)
  | 0, _ => none
  | fuel + 1, .name text :: rest => trailers fuel (.name text) rest
  | fuel + 1, .number value :: rest => trailers fuel (.number value) rest
  | fuel + 1, .str value :: rest => trailers fuel (.str value) rest
  | fuel + 1, .sign '\x7b' :: rest => do
      let (found, rest) ← entries fuel rest
      trailers fuel (.dict found) rest
  | _ + 1, _ => none

/-- The attributes, subscripts and calls behind an expression. -/
def trailers : Nat → Expression → List Token → Option (Expression × List Token)
  | 0, _, _ => none
  | fuel + 1, object, .sign '.' :: .name text :: rest =>
      trailers fuel (.attribute object text) rest
  | fuel + 1, object, .sign '[' :: rest => do
      let (index, rest) ← expression fuel rest
      match rest with
      | .sign ']' :: rest => trailers fuel (.subscript object index) rest
      | _ => none
  | fuel + 1, object, .sign '(' :: rest => do
      let (found, rest) ← arguments fuel rest
      trailers fuel (.call object found) rest
  | _ + 1, object, rest => some (object, rest)

/-- The arguments up to the closing bracket. -/
def arguments : Nat → List Token → Option (List Expression × List Token)
  | 0, _ => none
  | _ + 1, .sign ')' :: rest => some ([], rest)
  | fuel + 1, rest => do
      let (first, rest) ← expression fuel rest
      match rest with
      | .sign ')' :: rest => some ([first], rest)
      | .sign ',' :: rest => do
          let (others, rest) ← arguments fuel rest
          some (first :: others, rest)
      | _ => none

/-- The entries up to the closing brace. -/
def entries : Nat → List Token → Option (List (Expression × Expression) × List Token)
  | 0, _ => none
  | _ + 1, .sign '\x7d' :: rest => some ([], rest)
  | fuel + 1, rest => do
      let (key, rest) ← expression fuel rest
      match rest with
      | .sign ':' :: rest => do
          let (value, rest) ← expression fuel rest
          match rest with
          | .sign '\x7d' :: rest => some ([(key, value)], rest)
          | .sign ',' :: rest => do
              let (others, rest) ← entries fuel rest
              some ((key, value) :: others, rest)
          | _ => none
      | _ => none

end

/-- A token is the start of an expression, and three calls lead from one token to the next. -/
def parseTokens (found : List Token) : Option Expression :=
  match expression (3 * found.length + 3) found with
  | some (whole, []) => some whole
  | _ => none

/-- The single expression that a text consists of. -/
def parse (named : List Char → Option Char) (text : List Char) : Option Expression :=
  (tokens named text).bind parseTokens

end Lib.PythonSyntax

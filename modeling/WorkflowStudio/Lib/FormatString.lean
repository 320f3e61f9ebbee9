import Mathlib.Algebra.Group.Nat.Defs
import Mathlib.Data.List.TakeWhile

/-! Python's format strings: how a text is cut into letters, doubled braces and replacement
fields, and what the fields become. What attributes, conversions and format specifications make
of a text is left open. -/

set_option autoImplicit false

namespace Lib.FormatString

/-- The errors of formatting; a caller may catch those of the first two kinds alone. -/
inductive Error where
  | value (message : String)
  | key (message : String)
  | other (message : String)
  deriving DecidableEq

/-!
## Fields
-/

structure Field where
  name : List Char
  conversion : Option Char
  spec : List Char
  deriving DecidableEq

def push {Rest : Type} (letter : Char) (found : List Char × Rest) : List Char × Rest :=
  (letter :: found.1, found.2)

/-- The name of a field, the letter that ends it, and the text after that. Between brackets
every letter belongs to the name. -/
def readName : Bool → List Char → Except String (List Char × Char × List Char)
  | _, [] => .error "expected '\x7d' before end of string"
  | true, letter :: text => (readName (letter != ']') text).map (push letter)
  | false, letter :: text =>
      if letter = '{' then .error "unexpected '\x7b' in field name"
      else if letter = '}' ∨ letter = ':' ∨ letter = '!' then .ok ([], letter, text)
      else (readName (letter == '[') text).map (push letter)

/-- A format specification up to the brace that closes the field. -/
def readSpec : Nat → List Char → Except String (List Char × List Char)
  | _, [] => .error "unmatched '\x7b' in format spec"
  | opened, '{' :: text => (readSpec (opened + 1) text).map (push '{')
  | 0, '}' :: text => .ok ([], text)
  | opened + 1, '}' :: text => (readSpec opened text).map (push '}')
  | opened, letter :: text => (readSpec opened text).map (push letter)

def readConversion : List Char → Except String (Char × List Char × List Char)
  | [] => .error "end of string while looking for conversion specifier"
  | conversion :: '}' :: text => .ok (conversion, [], text)
  | conversion :: ':' :: text => (readSpec 0 text).map fun found => (conversion, found)
  | [_] => .error "unmatched '\x7b' in format spec"
  | _ => .error "expected ':' after conversion specifier"

/-- The field behind an opening brace, and the text after it. -/
def readField (text : List Char) : Except String (Field × List Char) :=
  (readName false text).bind fun (name, ending, rest) =>
    if ending = '!' then
      (readConversion rest).map fun (conversion, spec, after) =>
        (⟨name, some conversion, spec⟩, after)
    else if ending = ':' then
      (readSpec 0 rest).map fun (spec, after) => (⟨name, none, spec⟩, after)
    else .ok (⟨name, none, []⟩, rest)

/-- The largest index of a sequence. -/
def maxIndex : Nat := 2 ^ 63 - 1

/-- The number that a name is, if all its letters are decimal digits. -/
def readIndex (decimal : Char → Option Nat) : Nat → List Char → Except String (Option Nat)
  | index, [] => .ok (some index)
  | index, letter :: name =>
      match decimal letter with
      | none => .ok none
      | some digit =>
          if maxIndex < index * 10 + digit then
            .error "Too many decimal digits in format string"
          else readIndex decimal (index * 10 + digit) name

/-- What Python makes of texts in replacement fields. -/
structure Formatter (Obj : Type) where
  decimal : Char → Option Nat
  text : List Char → Obj
  /-- The object that attributes and indices lead to from a text. -/
  access : List Char → List Char → Except Error Obj
  convert : Char → Obj → Except Error Obj
  format : Obj → List Char → Except Error (List Char)
  format_text : ∀ value, format (text value) [] = .ok value

section Format

variable {Obj : Type} (formatter : Formatter Obj)

/-- A name that is looked up in the mapping: neither empty nor an index. -/
def lookUp (lookup : List Char → List Char) (name : List Char) : Except Error (List Char) :=
  match readIndex formatter.decimal 0 name with
  | .error message => .error (.value message)
  | .ok (some _) => .error (.value "Format string contains positional fields")
  | .ok none => .ok (lookup name)

def isAccess (letter : Char) : Bool := letter == '.' || letter == '['

/-- The object that a name leads to from the value of its first part. -/
def reach (value rest : List Char) : Except Error Obj :=
  if rest = [] then .ok (formatter.text value) else formatter.access value rest

def convertTo (conversion : Option Char) (found : Obj) : Except Error Obj :=
  match conversion with
  | none => .ok found
  | some conversion => formatter.convert conversion found

def expandSpec (expand : List Char → Except Error (List Char)) (spec : List Char) :
    Except Error (List Char) :=
  if '{' ∈ spec then expand spec else .ok spec

def renderField (lookup : List Char → List Char)
    (expand : List Char → Except Error (List Char)) (field : Field) :
    Except Error (List Char) :=
  (lookUp formatter lookup (field.name.takeWhile fun letter => !isAccess letter)).bind fun value =>
    (reach formatter value (field.name.dropWhile fun letter => !isAccess letter)).bind fun found =>
      (convertTo formatter field.conversion found).bind fun converted =>
        (expandSpec expand field.spec).bind fun spec => formatter.format converted spec

/-- The letters, doubled braces and fields of a text from left to right. -/
def markup (lookup : List Char → List Char) (expand : List Char → Except Error (List Char)) :
    Nat → List Char → Except Error (List Char)
  | 0, _ => .ok []
  | _, [] => .ok []
  | _ + 1, ['{'] => .error (.value "Single '\x7b' encountered in format string")
  | fuel + 1, '{' :: '{' :: text => (markup lookup expand fuel text).map ('{' :: ·)
  | fuel + 1, '{' :: text =>
      match readField text with
      | .error message => .error (.value message)
      | .ok (field, after) =>
          (renderField formatter lookup expand field).bind fun rendered =>
            (markup lookup expand fuel after).map (rendered ++ ·)
  | fuel + 1, '}' :: '}' :: text => (markup lookup expand fuel text).map ('}' :: ·)
  | _ + 1, '}' :: _ => .error (.value "Single '\x7d' encountered in format string")
  | fuel + 1, letter :: text => (markup lookup expand fuel text).map (letter :: ·)

/-- A text whose fields may be nested as deep as the number of levels. -/
def buildString (lookup : List Char → List Char) : Nat → List Char → Except Error (List Char)
  | 0, _ => .error (.value "Max string recursion exceeded")
  | levels + 1, text => markup formatter lookup (buildString lookup levels) text.length text

/-- `text.format_map(mapping)`, with what the mapping gives for a key. -/
def formatMap (lookup : List Char → List Char) (text : List Char) : Except Error (List Char) :=
  buildString formatter lookup 2 text

/-!
## Plain texts
-/

/-- A name that is looked up as it stands. -/
structure PlainName (name : List Char) : Prop where
  letters : ∀ letter ∈ name, letter ∉ ['{', '}', '[', '.', ':', '!']
  named : readIndex formatter.decimal 0 name = .ok none

/-- A text whose braces are those of fields with plain names. -/
inductive Plain : List Char → Prop
  | nil : Plain []
  | letter {letter : Char} {text : List Char} (notOpen : letter ≠ '{') (notClose : letter ≠ '}')
      (rest : Plain text) : Plain (letter :: text)
  | field {name text : List Char} (plain : PlainName formatter name) (rest : Plain text) :
      Plain ('{' :: (name ++ '}' :: text))

def Error.isCaught : Error → Bool
  | .value _ | .key _ => true
  | .other _ => false

/-- A text with a place that raises an error of the first two kinds, and nothing in front of it
but letters, doubled braces and fields with plain names. -/
inductive Rejected (lookup : List Char → List Char)
    (expand : List Char → Except Error (List Char)) : List Char → Prop
  | letter {letter : Char} {text : List Char} (notOpen : letter ≠ '{') (notClose : letter ≠ '}')
      (rest : Rejected lookup expand text) : Rejected lookup expand (letter :: text)
  | opened {text : List Char} (rest : Rejected lookup expand text) :
      Rejected lookup expand ('{' :: '{' :: text)
  | closed {text : List Char} (rest : Rejected lookup expand text) :
      Rejected lookup expand ('}' :: '}' :: text)
  | field {name text : List Char} (plain : PlainName formatter name)
      (rest : Rejected lookup expand text) : Rejected lookup expand ('{' :: (name ++ '}' :: text))
  | singleOpen : Rejected lookup expand ['{']
  | singleClose {text : List Char} (single : text.head? ≠ some '}') :
      Rejected lookup expand ('}' :: text)
  | malformed {letter : Char} {text : List Char} {message : String} (single : letter ≠ '{')
      (reads : readField (letter :: text) = .error message) :
      Rejected lookup expand ('{' :: letter :: text)
  | unrendered {letter : Char} {text after : List Char} {field : Field} {error : Error}
      (single : letter ≠ '{') (reads : readField (letter :: text) = .ok (field, after))
      (fails : renderField formatter lookup expand field = .error error)
      (caught : error.isCaught = true) : Rejected lookup expand ('{' :: letter :: text)

variable {formatter} {lookup : List Char → List Char}
  {expand : List Char → Except Error (List Char)}

theorem readName_plain {name : List Char}
    (letters : ∀ letter ∈ name, letter ∉ ['{', '}', '[', '.', ':', '!']) (text : List Char) :
    readName false (name ++ '}' :: text) = .ok (name, '}', text) := by
  induction name with
  | nil => rfl
  | cons letter name ih =>
      obtain ⟨first, rest⟩ := List.forall_mem_cons.mp letters
      simp only [List.mem_cons, List.not_mem_nil, or_false, not_or] at first
      obtain ⟨notOpen, notClose, notBracket, -, notColon, notMark⟩ := first
      have inName : ¬ (letter = '}' ∨ letter = ':' ∨ letter = '!') := by
        simp [notClose, notColon, notMark]
      rw [List.cons_append, readName, if_neg notOpen, if_neg inName,
        beq_eq_false_iff_ne.mpr notBracket, ih rest]
      rfl

theorem PlainName.ne_nil {name : List Char} (plain : PlainName formatter name) : name ≠ [] := by
  rintro rfl
  cases plain.named

/-- A field with a plain name becomes what the mapping gives. -/
theorem renderField_plain {name : List Char} (plain : PlainName formatter name) :
    renderField formatter lookup expand ⟨name, none, []⟩ = .ok (lookup name) := by
  have within : ∀ letter ∈ name, (!isAccess letter) = true := by
    intro letter member
    have refused := plain.letters letter member
    simp only [List.mem_cons, List.not_mem_nil, or_false, not_or] at refused
    simp [isAccess, refused]
  have first : name.takeWhile (fun letter => !isAccess letter) = name :=
    List.takeWhile_eq_self_iff.mpr within
  have rest : name.dropWhile (fun letter => !isAccess letter) = [] :=
    List.dropWhile_eq_nil_iff.mpr within
  unfold renderField
  rw [first, rest, lookUp, plain.named]
  exact formatter.format_text (lookup name)

theorem markup_brace {letter : Char} (single : letter ≠ '{') (fuel : Nat) (text : List Char) :
    markup formatter lookup expand (fuel + 1) ('{' :: letter :: text) =
      match readField (letter :: text) with
      | .error message => .error (.value message)
      | .ok (field, after) => (renderField formatter lookup expand field).bind fun rendered =>
          (markup formatter lookup expand fuel after).map (rendered ++ ·) := by
  rw [markup]
  · intro same
    cases same
  · intro rest same
    exact single (List.cons.inj same).1

theorem markup_plain {name : List Char} (plain : PlainName formatter name) (fuel : Nat)
    (text : List Char) :
    markup formatter lookup expand (fuel + 1) ('{' :: (name ++ '}' :: text)) =
      (markup formatter lookup expand fuel text).map (lookup name ++ ·) := by
  have rendered : renderField formatter lookup expand ⟨name, none, []⟩ = .ok (lookup name) :=
    renderField_plain plain
  have reads : readField (name ++ '}' :: text) = .ok (⟨name, none, []⟩, text) := by
    unfold readField
    rw [readName_plain plain.letters]
    rfl
  obtain ⟨letter, name, rfl⟩ := List.exists_cons_of_ne_nil plain.ne_nil
  have single : letter ≠ '{' := by
    rintro rfl
    exact plain.letters '{' List.mem_cons_self List.mem_cons_self
  rw [List.cons_append] at reads ⊢
  rw [markup_brace single, reads]
  dsimp only
  rw [rendered]
  rfl

theorem markup_letter {letter : Char} (notOpen : letter ≠ '{') (notClose : letter ≠ '}')
    (fuel : Nat) (text : List Char) :
    markup formatter lookup expand (fuel + 1) (letter :: text) =
      (markup formatter lookup expand fuel text).map (letter :: ·) := by
  rw [markup]
  · exact fun first _ => notOpen first
  · exact fun _ first _ => notOpen first
  · exact fun first => notOpen first
  · exact fun _ first _ => notClose first
  · exact fun first => notClose first

theorem markup_close {text : List Char} (single : text.head? ≠ some '}') (fuel : Nat) :
    markup formatter lookup expand (fuel + 1) ('}' :: text) =
      .error (.value "Single '\x7d' encountered in format string") := by
  rw [markup]
  intro rest same
  rw [same] at single
  exact single rfl

/-- A rejected text raises one of the errors that are caught. -/
theorem Rejected.raises {text : List Char} (rejected : Rejected formatter lookup expand text)
    {fuel : Nat} (enough : text.length ≤ fuel) :
    ∃ error, markup formatter lookup expand fuel text = .error error ∧
      error.isCaught = true := by
  induction rejected generalizing fuel with
  | letter notOpen notClose _ ih =>
      obtain ⟨fuel, rfl⟩ := Nat.exists_eq_succ_of_ne_zero (Nat.ne_zero_of_lt enough)
      obtain ⟨error, raised, caught⟩ := ih (Nat.le_of_succ_le_succ enough)
      exact ⟨error, by rw [markup_letter notOpen notClose, raised]; rfl, caught⟩
  | opened _ ih =>
      obtain ⟨fuel, rfl⟩ := Nat.exists_eq_succ_of_ne_zero (Nat.ne_zero_of_lt enough)
      obtain ⟨error, raised, caught⟩ := ih (Nat.le_of_succ_le (Nat.le_of_succ_le_succ enough))
      exact ⟨error, by rw [markup, raised]; rfl, caught⟩
  | closed _ ih =>
      obtain ⟨fuel, rfl⟩ := Nat.exists_eq_succ_of_ne_zero (Nat.ne_zero_of_lt enough)
      obtain ⟨error, raised, caught⟩ := ih (Nat.le_of_succ_le (Nat.le_of_succ_le_succ enough))
      exact ⟨error, by rw [markup, raised]; rfl, caught⟩
  | @field name text plain _ ih =>
      obtain ⟨fuel, rfl⟩ := Nat.exists_eq_succ_of_ne_zero (Nat.ne_zero_of_lt enough)
      have shorter : text.length ≤ fuel := by
        simp only [List.length_cons, List.length_append] at enough
        omega
      obtain ⟨error, raised, caught⟩ := ih shorter
      exact ⟨error, by rw [markup_plain plain, raised]; rfl, caught⟩
  | singleOpen =>
      obtain ⟨fuel, rfl⟩ := Nat.exists_eq_succ_of_ne_zero (Nat.ne_zero_of_lt enough)
      exact ⟨_, rfl, rfl⟩
  | singleClose single =>
      obtain ⟨fuel, rfl⟩ := Nat.exists_eq_succ_of_ne_zero (Nat.ne_zero_of_lt enough)
      exact ⟨_, markup_close single fuel, rfl⟩
  | malformed single reads =>
      obtain ⟨fuel, rfl⟩ := Nat.exists_eq_succ_of_ne_zero (Nat.ne_zero_of_lt enough)
      exact ⟨_, by rw [markup_brace single, reads], rfl⟩
  | unrendered single reads fails caught =>
      obtain ⟨fuel, rfl⟩ := Nat.exists_eq_succ_of_ne_zero (Nat.ne_zero_of_lt enough)
      refine ⟨_, ?_, caught⟩
      rw [markup_brace single, reads]
      dsimp only
      rw [fails]
      rfl

/-!
## Placeholders
-/

/-- A text in which the placeholders of known keys are replaced, from left to right, and all
other letters are kept. -/
inductive Substituted (known : List Char → Option (List Char)) : List Char → List Char → Prop
  | nil : Substituted known [] []
  | placeholder {key value text result : List Char} (given : known key = some value)
      (rest : Substituted known text result) :
      Substituted known ('{' :: (key ++ '}' :: text)) (value ++ result)
  | copied {letter : Char} {text result : List Char}
      (unknown : ∀ key after, letter :: text = '{' :: (key ++ '}' :: after) → known key = none)
      (rest : Substituted known text result) : Substituted known (letter :: text) (letter :: result)

/-- What the mapping gives for a key: its value, or the placeholder as it was. -/
def orPlaceholder (known : List Char → Option (List Char)) (key : List Char) : List Char :=
  (known key).getD ('{' :: (key ++ ['}']))

section Placeholders

variable {known : List Char → Option (List Char)}

/-- What stands before the first of a letter is known from the whole. -/
theorem before_first {Letter : Type} {stop : Letter} {left right after rest : List Letter}
    (free : stop ∉ left) (freeRight : stop ∉ right)
    (same : left ++ stop :: after = right ++ stop :: rest) : left = right := by
  rcases List.append_eq_append_iff.mp same with ⟨more, rfl, tail⟩ | ⟨more, rfl, tail⟩
  · cases more with
    | nil => rw [List.append_nil]
    | cons letter more =>
        obtain ⟨rfl, -⟩ := List.cons.inj tail
        exact absurd (List.mem_append_right _ List.mem_cons_self) freeRight
  · cases more with
    | nil => rw [List.append_nil]
    | cons letter more =>
        obtain ⟨rfl, -⟩ := List.cons.inj tail
        exact absurd (List.mem_append_right _ List.mem_cons_self) free

theorem Substituted.copy {front : List Char} (noBrace : '{' ∉ front) {text result : List Char}
    (rest : Substituted known text result) :
    Substituted known (front ++ text) (front ++ result) := by
  induction front with
  | nil => exact rest
  | cons letter front ih =>
      obtain ⟨other, later⟩ := List.ne_and_not_mem_of_not_mem_cons noBrace
      refine .copied ?_ (ih later)
      intro key after same
      exact absurd (List.cons.inj same).1.symm other

/-- Without a placeholder of a known key the text stays as it is. -/
theorem Substituted.unchanged {text : List Char}
    (none_ : ∀ front key after, text = front ++ '{' :: (key ++ '}' :: after) → known key = none) :
    Substituted known text text := by
  induction text with
  | nil => exact .nil
  | cons letter text ih =>
      refine .copied (fun key after same => none_ [] key after same) (ih ?_)
      intro front key after same
      exact none_ (letter :: front) key after (by rw [same]; rfl)

/-- In a plain text the placeholders of known keys are replaced, if these have no brace. -/
theorem Plain.substituted {text : List Char} (plain : Plain formatter text)
    (braceless : ∀ front key after, text = front ++ '{' :: (key ++ '}' :: after) →
      known key ≠ none → '}' ∉ key) {fuel : Nat} (enough : text.length ≤ fuel) :
    ∃ result, markup formatter (orPlaceholder known) expand fuel text = .ok result ∧
      Substituted known text result := by
  induction plain generalizing fuel with
  | nil =>
      refine ⟨[], ?_, .nil⟩
      cases fuel <;> rfl
  | @letter letter text notOpen notClose _ ih =>
      obtain ⟨fuel, rfl⟩ := Nat.exists_eq_succ_of_ne_zero (Nat.ne_zero_of_lt enough)
      obtain ⟨result, ends, substituted⟩ := ih (fun front key after same =>
        braceless (letter :: front) key after (by rw [same]; rfl)) (Nat.le_of_succ_le_succ enough)
      refine ⟨letter :: result, by rw [markup_letter notOpen notClose, ends]; rfl, ?_⟩
      exact .copied (fun key after same => absurd (List.cons.inj same).1 notOpen) substituted
  | @field name text plain _ ih =>
      obtain ⟨fuel, rfl⟩ := Nat.exists_eq_succ_of_ne_zero (Nat.ne_zero_of_lt enough)
      have shorter : text.length ≤ fuel := by
        simp only [List.length_cons, List.length_append] at enough
        omega
      obtain ⟨result, ends, substituted⟩ := ih (fun front key after same =>
        braceless ('{' :: (name ++ '}' :: front)) key after (by rw [same]; simp)) shorter
      refine ⟨orPlaceholder known name ++ result, by rw [markup_plain plain, ends]; rfl, ?_⟩
      cases given : known name with
      | some value =>
          rw [orPlaceholder, given]
          exact .placeholder given substituted
      | none =>
          have noOpen : '{' ∉ name ++ ['}'] := by
            intro member
            rcases List.mem_append.mp member with inName | isClose
            · exact plain.letters '{' inName List.mem_cons_self
            · exact absurd (List.mem_singleton.mp isClose) (by decide)
          have noClose : '}' ∉ name := fun member =>
            plain.letters '}' member (List.mem_cons_of_mem _ List.mem_cons_self)
          have copied := substituted.copy noOpen
          rw [List.append_assoc] at copied
          rw [orPlaceholder, given]
          refine .copied ?_ copied
          -- A known key in this place has no brace, so it is the name.
          intro key after same
          by_contra isKnown
          have inside := (List.cons.inj same).2
          have keyPlain := braceless [] key after same isKnown
          rw [before_first noClose keyPlain inside] at given
          exact isKnown given

end Placeholders

end Format

end Lib.FormatString

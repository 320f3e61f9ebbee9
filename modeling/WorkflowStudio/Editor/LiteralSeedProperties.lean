import WorkflowStudio.Editor.LiteralSeed

/-! A literal comes back from the expression that is made of it exactly when it is a number or a
text that does not read as something else. -/

set_option autoImplicit false

namespace WorkflowStudio.Editor

open Lib Lib.Scanning Lib.Quoting

/-!
## Numbers
-/

theorem dropZeros_eq_self {fraction : List (Fin 10)} (trimmed : fraction.getLast? ≠ some 0) :
    dropZeros fraction = fraction := by
  rw [dropZeros, dropWhile_eq_self, List.reverse_reverse]
  intro digit last
  rw [List.head?_reverse] at last
  refine decide_eq_false ?_
  rintro rfl
  exact trimmed last

theorem Decimal.of_self (value : Decimal) :
    Decimal.of value.negative value.whole value.fraction = value := by
  have fraction := dropZeros_eq_self value.trimmed
  refine Decimal.ext ?_ rfl fraction
  change (value.negative && !(value.whole == 0 && (dropZeros value.fraction).isEmpty)) = _
  rw [fraction]
  cases sign : value.negative with
  | false => rfl
  | true =>
      have nonzero : (value.whole == 0 && value.fraction.isEmpty) = false :=
        Bool.eq_false_iff.mpr (by simpa using value.signed sign)
      rw [nonzero]
      rfl

theorem digitOf_digitText (digit : Fin 10) : digitOf (digitText digit) = digit := by
  revert digit
  decide

theorem isDigit_digitText (digit : Fin 10) : (digitText digit).isDigit = true := by
  revert digit
  decide

theorem all_isDigit_toDigits (number : Nat) :
    ∀ letter ∈ Nat.toDigits 10 number, letter.isDigit = true := fun _ member =>
  Nat.isDigit_of_mem_toDigits (by decide) (by decide) member

/-- The digits of a number without its sign. -/
def Decimal.digits (value : Decimal) : List Char :=
  Nat.toDigits 10 value.whole ++
    (if value.fraction = [] then [] else '.' :: value.fraction.map digitText)

theorem Decimal.render_eq (value : Decimal) :
    value.render = (if value.negative then ['-'] else []) ++ value.digits :=
  List.append_assoc _ _ _

theorem Decimal.digits_head (value : Decimal) :
    ∃ first rest, value.digits = first :: rest ∧ first.isDigit = true := by
  rw [Decimal.digits]
  cases whole : Nat.toDigits 10 value.whole with
  | nil => exact absurd whole Nat.toDigits_ne_nil
  | cons first rest =>
      exact ⟨first, _, rfl, all_isDigit_toDigits value.whole first (whole ▸ List.mem_cons_self)⟩

theorem Decimal.digits_split (value : Decimal) :
    value.digits.takeWhile Char.isDigit = Nat.toDigits 10 value.whole ∧
      value.digits.dropWhile Char.isDigit =
        if value.fraction = [] then [] else '.' :: value.fraction.map digitText := by
  refine takeWhile_run (all_isDigit_toDigits value.whole) fun letter head => ?_
  split at head
  · cases head
  · cases head
    decide

theorem readNumber_render (value : Decimal) : readNumber value.render = some value := by
  obtain ⟨first, rest, digits, isDigit⟩ := value.digits_head
  have unsigned : (if value.render.head? = some '-' then value.render.tail else value.render) =
      value.digits ∧ decide (value.render.head? = some '-') = value.negative := by
    rw [value.render_eq]
    cases value.negative with
    | true => exact ⟨rfl, rfl⟩
    | false =>
        rw [digits]
        have noSign : first ≠ '-' := by
          rintro rfl
          exact absurd isDigit (by decide)
        simp [noSign]
  obtain ⟨taken, left⟩ := value.digits_split
  have whole : Nat.ofDigitChars 10 (Nat.toDigits 10 value.whole) 0 = value.whole :=
    Nat.ofDigitChars_ten_toDigits
  rw [readNumber, unsigned.1, unsigned.2, taken, left, whole]
  rw [if_neg Nat.toDigits_ne_nil]
  by_cases none : value.fraction = []
  · rw [if_pos none]
    have same := value.of_self
    rw [none] at same
    exact congrArg some same
  · rw [if_neg none]
    have back : (value.fraction.map digitText).map digitOf = value.fraction := by
      rw [List.map_map]
      exact (List.map_congr_left fun digit _ => digitOf_digitText digit).trans (List.map_id' _)
    have isFraction : value.fraction.map digitText ≠ [] ∧
        (value.fraction.map digitText).all Char.isDigit = true := by
      refine ⟨fun empty => none (List.map_eq_nil_iff.mp empty), List.all_eq_true.mpr ?_⟩
      intro letter member
      obtain ⟨digit, -, rfl⟩ := List.mem_map.mp member
      exact isDigit_digitText digit
    change (if value.fraction.map digitText ≠ [] ∧
      (value.fraction.map digitText).all Char.isDigit = true then _ else _) = _
    rw [if_pos isFraction, back, value.of_self]

/-!
## JSON strings
-/

/-- A control letter by its two hexadecimal digits. -/
theorem jsonUnit_control {letter : Char} (control : letter.toNat < 32) (back : List Char) :
    jsonUnit ('\\' :: 'u' :: '0' :: '0' :: hexDigit (letter.toNat / 16) ::
      hexDigit (letter.toNat % 16) :: back) = some ([letter], 6) := by
  have four : hexFour ('0' :: '0' :: hexDigit (letter.toNat / 16) ::
      hexDigit (letter.toNat % 16) :: back) = some letter.toNat := by
    have high : hexValue (hexDigit (letter.toNat / 16)) = some (letter.toNat / 16) :=
      hexValue_hexDigit (by omega)
    have low : hexValue (hexDigit (letter.toNat % 16)) = some (letter.toNat % 16) :=
      hexValue_hexDigit (by omega)
    have zero : hexValue '0' = some 0 := by decide
    rw [hexFour, high, low, zero]
    change some (((0 * 16 + 0) * 16 + letter.toNat / 16) * 16 + letter.toNat % 16) = _
    congr 1
    omega
  have valid : letter.toNat.isValidChar := letter.valid
  rw [jsonUnit, four]
  change (if letter.toNat.isValidChar then some ([Char.ofNat letter.toNat], 6) else _) = _
  rw [if_pos valid, Char.ofNat_toNat]

theorem jsonUnit_escape (letter : Char) :
    ∃ first front, jsonEscape letter = first :: front ∧ first ≠ '"' ∧
      ∀ back, jsonUnit (first :: (front ++ back)) = some ([letter], front.length + 1) := by
  unfold jsonEscape
  split
  · exact ⟨_, _, rfl, by decide, fun _ => rfl⟩
  · exact ⟨_, _, rfl, by decide, fun _ => rfl⟩
  · exact ⟨_, _, rfl, by decide, fun _ => rfl⟩
  · exact ⟨_, _, rfl, by decide, fun _ => rfl⟩
  · exact ⟨_, _, rfl, by decide, fun _ => rfl⟩
  · exact ⟨_, _, rfl, by decide, fun _ => rfl⟩
  · exact ⟨_, _, rfl, by decide, fun _ => rfl⟩
  next noQuote noBackslash _ _ _ _ _ =>
    split
    next control => exact ⟨_, _, rfl, by decide, fun back => jsonUnit_control control back⟩
    next printed =>
      refine ⟨letter, [], rfl, noQuote, fun back => ?_⟩
      rw [List.nil_append, jsonUnit]
      · exact if_neg fun bad => bad.elim noBackslash printed
      · exact fun _ same => absurd same noBackslash
      · exact fun _ _ same => absurd same noBackslash

theorem jsonParseString_jsonString (text : List Char) :
    jsonParseString (jsonString text) = some text := by
  have parsed := @read_written _ _ jsonUnit '"' jsonEscape text
    (fun letter _ => jsonUnit_escape letter) []
  rw [jsonString, jsonParseString, parsed]
  rfl

/-!
## Templates
-/

/-- A text between spaces is what is left of it when the ends are trimmed. -/
theorem scriptTrim_spaced {body : List Char}
    (head : ∀ letter, body.head? = some letter → isScriptSpace letter = false)
    (last : ∀ letter, body.getLast? = some letter → isScriptSpace letter = false) :
    scriptTrim (String.ofList (' ' :: (body ++ [' ']))) = String.ofList body := by
  have space : ∀ letter ∈ [' '], isScriptSpace letter = true :=
    List.forall_mem_singleton.mpr (by decide)
  have around := trim_around space space head last
  rw [scriptTrim, String.toList_ofList]
  exact congrArg String.ofList around

theorem templateBody_template (body : List Char) :
    templateBody (['{', '{', ' '] ++ body ++ [' ', '}', '}']) = some (' ' :: (body ++ [' '])) := by
  have starts : ['{', '{'].isPrefixOf (['{', '{', ' '] ++ body ++ [' ', '}', '}']) = true :=
    List.isPrefixOf_iff_prefix.mpr ⟨' ' :: (body ++ [' ', '}', '}']), rfl⟩
  have ends : ['}', '}'].isSuffixOf (['{', '{', ' '] ++ body ++ [' ', '}', '}']) = true :=
    List.isSuffixOf_iff_suffix.mpr ⟨['{', '{', ' '] ++ body ++ [' '], by simp⟩
  have long : (['{', '{', ' '] ++ body ++ [' ', '}', '}']).length = body.length + 2 + 4 := by
    simp
  rw [templateBody, if_pos ⟨starts, ends, by rw [long]; exact Nat.le_add_left _ _⟩, long,
    Nat.add_sub_cancel]
  have inner : (['{', '{', ' '] ++ body ++ [' ', '}', '}']).drop 2 =
      (' ' :: (body ++ [' '])) ++ ['}', '}'] := by simp
  rw [inner]
  exact congrArg some (List.take_left' (by simp))

theorem unwrap_template {body : List Char}
    (head : ∀ letter, body.head? = some letter → isScriptSpace letter = false)
    (last : ∀ letter, body.getLast? = some letter → isScriptSpace letter = false) :
    unwrapExpressionBody (.str (ensureExpressionPrefix (template body))) =
      some (String.ofList body) := by
  have letters : (template body).toList = ['{', '{', ' '] ++ body ++ [' ', '}', '}'] :=
    String.toList_ofList
  have plain : isExpressionMode (template body) = false := by
    rw [isExpressionMode, letters]
    rfl
  have ensured : ensureExpressionPrefix (template body) =
      String.ofList ('=' :: (template body).toList) := by
    rw [ensureExpressionPrefix, plain, if_neg Bool.false_ne_true]
  have stripped : stripExpressionPrefix (ensureExpressionPrefix (template body)) =
      template body := by
    rw [ensured, stripExpressionPrefix, isExpressionMode, String.toList_ofList]
    exact String.ofList_toList
  have trimmed : scriptTrim (template body) = template body := by
    have kept : trim isScriptSpace (['{', '{', ' '] ++ body ++ [' ', '}', '}']) =
        ['{', '{', ' '] ++ body ++ [' ', '}', '}'] := by
      refine trim_eq_self (fun letter first => ?_) (fun letter final => ?_)
      · cases first
        decide
      · rw [List.getLast?_append] at final
        cases final
        decide
    rw [scriptTrim, letters, kept]
    rfl
  rw [unwrapExpressionBody, stripped, trimmed, letters, templateBody_template, Option.map_some,
    scriptTrim_spaced head last]

theorem toLiteralSeed_template {body : List Char} (fallbackValue : Literal)
    (head : ∀ letter, body.head? = some letter → isScriptSpace letter = false)
    (last : ∀ letter, body.getLast? = some letter → isScriptSpace letter = false) :
    toLiteralSeed (.str (ensureExpressionPrefix (template body))) fallbackValue =
      literalOf (String.ofList body) := by
  unfold toLiteralSeed
  rw [unwrap_template head last]

/-!
## Literals that are read
-/

theorem unquotedLiteral_ne_list (inner : String) (items : List Literal) :
    unquotedLiteral inner ≠ .list items := by
  unfold unquotedLiteral
  split
  · rintro ⟨⟩
  · split_ifs <;> rintro ⟨⟩

theorem literalOf_ne_list (inner : String) (items : List Literal) :
    literalOf inner ≠ .list items := by
  unfold literalOf
  split
  · split <;> rintro ⟨⟩
  · split
    · rintro ⟨⟩
    · exact unquotedLiteral_ne_list inner items

theorem literalOf_jsonString (text : List Char) :
    literalOf (String.ofList (jsonString text)) = .str (String.ofList text) := by
  have quoted : (jsonString text).head? = some '"' ∧ (jsonString text).getLast? = some '"' := by
    refine ⟨rfl, ?_⟩
    rw [jsonString, ← List.cons_append, List.getLast?_concat]
  rw [literalOf, String.toList_ofList, if_pos quoted, jsonParseString_jsonString]

theorem literalOf_unquoted {first : Char} {rest : List Char} (double : first ≠ '"')
    (single : first ≠ '\'') :
    literalOf (String.ofList (first :: rest)) =
      unquotedLiteral (String.ofList (first :: rest)) := by
  rw [literalOf, String.toList_ofList]
  rw [if_neg fun quoted => double (Option.some.inj quoted.1),
    if_neg fun quoted => single (Option.some.inj quoted.1)]

theorem literalOf_render (value : Decimal) :
    literalOf (String.ofList value.render) = .number value := by
  obtain ⟨first, rest, shown, double, single⟩ : ∃ first rest, value.render = first :: rest ∧
      first ≠ '"' ∧ first ≠ '\'' := by
    obtain ⟨first, rest, digits, isDigit⟩ := value.digits_head
    rw [value.render_eq, digits]
    cases value.negative with
    | true => exact ⟨'-', first :: rest, rfl, by decide, by decide⟩
    | false =>
        refine ⟨first, rest, rfl, ?_, ?_⟩
        · rintro rfl
          exact absurd isDigit (by decide)
        · rintro rfl
          exact absurd isDigit (by decide)
  have read := readNumber_render value
  rw [shown] at read ⊢
  rw [literalOf_unquoted double single, unquotedLiteral, String.toList_ofList, read]

/-- The words that are read as other literals. -/
def literalWords : List String := ["True", "False", "None"]

theorem readNumber_name {first : Char} (start : isNameStart first = true) (rest : List Char) :
    readNumber (first :: rest) = none := by
  have noSign : (first :: rest).head? ≠ some '-' := by
    intro same
    cases same
    exact absurd start (by decide)
  have noDigit : first.isDigit = false := by
    rw [Bool.eq_false_iff]
    intro digit
    rw [isNameStart, isAlpha_of_isDigit digit, Bool.false_or, beq_iff_eq] at start
    rw [start] at digit
    exact absurd digit (by decide)
  rw [readNumber, if_neg noSign, List.takeWhile_cons_of_neg (by simp [noDigit])]
  rfl

theorem literalOf_word {word : String} (member : word ∈ literalWords) (text : String) :
    literalOf word ≠ .str text := by
  rw [literalWords, List.mem_cons, List.mem_cons, List.mem_singleton] at member
  rcases member with rfl | rfl | rfl
  · have read : literalOf "True" = .bool true := rfl
    rw [read]
    rintro ⟨⟩
  · have read : literalOf "False" = .bool false := rfl
    rw [read]
    rintro ⟨⟩
  · have read : literalOf "None" = .null := rfl
    rw [read]
    rintro ⟨⟩

theorem literalOf_path {first : Char} {rest : List Char} (start : isNameStart first = true) :
    literalOf (String.ofList (first :: rest)) = .str (String.ofList (first :: rest)) ↔
      String.ofList (first :: rest) ∉ literalWords := by
  have double : first ≠ '"' := by
    rintro rfl
    exact absurd start (by decide)
  have single : first ≠ '\'' := by
    rintro rfl
    exact absurd start (by decide)
  rw [literalOf_unquoted double single, unquotedLiteral, String.toList_ofList,
    readNumber_name start]
  simp only [literalWords, List.mem_cons, List.not_mem_nil, or_false, not_or]
  split_ifs with isTrue isFalse isNone <;> simp_all

/-!
## Round trip
-/

/-- The claims on a literal: texts are not in expression mode themselves. -/
def Literal.Plain : Literal → Prop
  | .str text => isExpressionMode text = false
  | _ => True

/-- The literals that come back: numbers, and texts unless they are written as a path but have
spaces around it or are a word of Python. -/
def Literal.Survives : Literal → Prop
  | .number _ => True
  | .str text => shouldWrapAsRawExpression text = true →
      scriptTrim text = text ∧ text ∉ literalWords
  | _ => False

theorem isAccessPath_start {text : List Char} (path : isAccessPath text = true) :
    ∃ first rest, text = first :: rest ∧ isNameStart first = true := by
  cases text with
  | nil => cases path
  | cons first rest =>
      rw [isAccessPath, Bool.and_eq_true] at path
      exact ⟨first, rest, rfl, path.1⟩

theorem digit_solid {letter : Char} (digit : letter.isDigit = true) :
    isScriptSpace letter = false := by
  obtain ⟨low, high⟩ := Char.isDigit_iff_toNat.mp digit
  change 48 ≤ letter.toNat at low
  change letter.toNat ≤ 57 at high
  simp [isScriptSpace]
  omega

theorem render_solid (value : Decimal) :
    (∀ letter, value.render.head? = some letter → isScriptSpace letter = false) ∧
      ∀ letter, value.render.getLast? = some letter → isScriptSpace letter = false := by
  have all : ∀ letter ∈ value.render, isScriptSpace letter = false := by
    intro letter member
    rw [Decimal.render, List.mem_append, List.mem_append] at member
    rcases member with (sign | whole) | fraction
    · split at sign
      · rw [List.mem_singleton.mp sign]
        decide
      · cases sign
    · exact digit_solid (all_isDigit_toDigits value.whole letter whole)
    · split at fraction
      · cases fraction
      · rcases List.mem_cons.mp fraction with rfl | among
        · decide
        · obtain ⟨digit, -, rfl⟩ := List.mem_map.mp among
          exact digit_solid (isDigit_digitText digit)
  exact ⟨fun letter head => all letter (List.mem_of_mem_head? head),
    fun letter last => all letter (List.mem_of_mem_getLast? last)⟩

theorem toLiteralSeed_seed_text {text : String} (plain : isExpressionMode text = false)
    (fallbackValue : Literal) :
    toLiteralSeed (.str (toExpressionSeed (.str text))) fallbackValue = .str text ↔
      (Literal.str text).Survives := by
  rw [toExpressionSeed, plain, if_neg Bool.false_ne_true, Literal.Survives]
  by_cases path : shouldWrapAsRawExpression text = true
  · rw [if_pos path]
    obtain ⟨first, rest, letters, start⟩ := isAccessPath_start path
    have ends : (∀ letter, (scriptTrim text).toList.head? = some letter →
          isScriptSpace letter = false) ∧
        ∀ letter, (scriptTrim text).toList.getLast? = some letter →
          isScriptSpace letter = false := by
      rw [scriptTrim, String.toList_ofList]
      exact ⟨fun _ head => trim_head head, fun _ last => trim_last last⟩
    rw [toLiteralSeed_template fallbackValue ends.1 ends.2, String.ofList_toList]
    have words := @literalOf_path first rest start
    rw [← letters, String.ofList_toList] at words
    constructor
    · intro same _
      have trimmed : scriptTrim text = text := by
        by_cases word : scriptTrim text ∈ literalWords
        · exact absurd same (literalOf_word word text)
        · exact Literal.str.inj ((words.mpr word).symm.trans same)
      rw [trimmed] at words
      rw [trimmed] at same
      exact ⟨trimmed, words.mp same⟩
    · intro survives
      obtain ⟨trimmed, noWord⟩ := survives path
      rw [trimmed] at words ⊢
      exact words.mpr noWord
  · rw [if_neg path]
    have quoted : literalOf (String.ofList (jsonString text.toList)) = .str text := by
      rw [literalOf_jsonString, String.ofList_toList]
    refine iff_of_true ?_ fun isPath => absurd isPath path
    rw [toLiteralSeed_template fallbackValue, quoted]
    · intro letter head
      cases head
      decide
    · intro letter last
      rw [jsonString, ← List.cons_append, List.getLast?_concat] at last
      cases last
      decide

theorem seed_of_other {value : Literal} (other : ∀ text, value ≠ .str text) :
    toExpressionSeed value = ensureExpressionPrefix (template value.stringify) := by
  cases value with
  | str text => exact absurd rfl (other text)
  | null | bool _ | number _ | list _ => rfl

theorem toLiteralSeed_seed_iff {value : Literal} (plain : value.Plain) (fallbackValue : Literal) :
    toLiteralSeed (.str (toExpressionSeed value)) fallbackValue = value ↔ value.Survives := by
  cases value with
  | str text => exact toLiteralSeed_seed_text plain fallbackValue
  | number value =>
      rw [seed_of_other (by rintro _ ⟨⟩), Literal.stringify,
        toLiteralSeed_template fallbackValue (render_solid value).1 (render_solid value).2]
      exact iff_of_true (literalOf_render value) trivial
  | null =>
      have read : toLiteralSeed (.str (toExpressionSeed .null)) fallbackValue = .str "null" := rfl
      rw [read]
      exact iff_of_false (by rintro ⟨⟩) id
  | bool value =>
      refine iff_of_false ?_ id
      cases value with
      | true =>
          have read : toLiteralSeed (.str (toExpressionSeed (.bool true))) fallbackValue =
              .str "true" := rfl
          rw [read]
          rintro ⟨⟩
      | false =>
          have read : toLiteralSeed (.str (toExpressionSeed (.bool false))) fallbackValue =
              .str "false" := rfl
          rw [read]
          rintro ⟨⟩
  | list items =>
      refine iff_of_false ?_ id
      rw [seed_of_other (by rintro _ ⟨⟩), Literal.stringify, toLiteralSeed_template fallbackValue]
      · exact literalOf_ne_list _ items
      · intro letter head
        cases head
        decide
      · intro letter last
        rw [← List.cons_append, List.getLast?_concat] at last
        cases last
        decide

/-- An editor with a literal, toggled there and back. -/
def ValueEditor.toggledTwice (value defaultValue : Literal) : ValueEditor :=
  ((ValueEditor.mk .literal value).toggleMode defaultValue).toggleMode defaultValue

theorem toggledTwice_of_seed {value : Literal} (seeded : staysLiteral value = false)
    (defaultValue : Literal) :
    ValueEditor.toggledTwice value defaultValue =
      ⟨.literal, toLiteralSeed (.str (toExpressionSeed value)) defaultValue⟩ := by
  simp only [ValueEditor.toggledTwice, ValueEditor.toggleMode, seeded, if_neg Bool.false_ne_true]

theorem toggledTwice_of_stays {value : Literal} (stays : staysLiteral value = true)
    (defaultValue : Literal) :
    ValueEditor.toggledTwice value defaultValue =
      ⟨.literal, toLiteralSeed value defaultValue⟩ := by
  simp only [ValueEditor.toggledTwice, ValueEditor.toggleMode, stays, if_true]

theorem staysLiteral_cases {value : Literal} (plain : value.Plain)
    (stays : staysLiteral value = true) : value = .bool false ∨ value = .str "" := by
  cases value with
  | null | number _ | list _ => cases stays
  | bool value =>
      cases value with
      | true => cases stays
      | false => exact .inl rfl
  | str text =>
      have plain : isExpressionMode text = false := plain
      rw [staysLiteral, plain, Bool.or_false, decide_eq_true_eq] at stays
      exact .inr (congrArg _ stays)

theorem toggledTwice_iff {value : Literal} (plain : value.Plain) (defaultValue : Literal) :
    ValueEditor.toggledTwice value defaultValue = ⟨.literal, value⟩ ↔
      (value = .bool false → defaultValue = .bool false) ∧
        (value ≠ .bool false → value.Survives) := by
  cases stays : staysLiteral value with
  | false =>
      have noFalse : value ≠ .bool false := by
        rintro rfl
        cases stays
      rw [toggledTwice_of_seed stays, ValueEditor.mk.injEq, toLiteralSeed_seed_iff plain]
      constructor
      · rintro ⟨-, survives⟩
        exact ⟨fun isFalse => absurd isFalse noFalse, fun _ => survives⟩
      · rintro ⟨-, survives⟩
        exact ⟨rfl, survives noFalse⟩
  | true =>
      rw [toggledTwice_of_stays stays, ValueEditor.mk.injEq]
      rcases staysLiteral_cases plain stays with rfl | rfl
      · have read : toLiteralSeed (.bool false) defaultValue = defaultValue := rfl
        rw [read]
        constructor
        · rintro ⟨-, same⟩
          exact ⟨fun _ => same, fun other => absurd rfl other⟩
        · rintro ⟨same, -⟩
          exact ⟨rfl, same rfl⟩
      · have read : toLiteralSeed (.str "") defaultValue = .str "" := rfl
        rw [read]
        exact iff_of_true ⟨rfl, rfl⟩ ⟨by rintro ⟨⟩, fun _ path => absurd path (by decide)⟩

/-- A literal comes back from its expression exactly if it is a number or a text that survives;
the editor that is toggled twice differs in one value only, for which it puts its default. -/
theorem literal_seed_round_trip_iff {value : Literal} (plain : value.Plain)
    (defaultValue : Literal) :
    (toLiteralSeed (.str (toExpressionSeed value)) defaultValue = value ↔ value.Survives) ∧
      (ValueEditor.toggledTwice value defaultValue = ⟨.literal, value⟩ ↔
        (value = .bool false → defaultValue = .bool false) ∧
          (value ≠ .bool false → value.Survives)) :=
  ⟨toLiteralSeed_seed_iff plain defaultValue, toggledTwice_iff plain defaultValue⟩

/-- A boolean comes back as a text. -/
theorem literal_seed_lost :
    (Literal.bool true).Plain ∧
      toLiteralSeed (.str (toExpressionSeed (.bool true))) .null = .str "true" ∧
      toLiteralSeed (.str (toExpressionSeed (.bool true))) .null ≠ .bool true := by
  refine ⟨trivial, rfl, ?_⟩
  have read : toLiteralSeed (.str (toExpressionSeed (.bool true))) .null = .str "true" := rfl
  rw [read]
  rintro ⟨⟩

theorem literal_seed_text_kept :
    (toLiteralSeed (.str (toExpressionSeed (.str "say \"x\""))) .null = .str "say \"x\"" ↔
        (Literal.str "say \"x\"").Survives) ∧
      (ValueEditor.toggledTwice (.str "say \"x\"") .null = ⟨.literal, .str "say \"x\""⟩ ↔
        (Literal.str "say \"x\"" = .bool false → Literal.null = .bool false) ∧
          (Literal.str "say \"x\"" ≠ .bool false → (Literal.str "say \"x\"").Survives)) :=
  @literal_seed_round_trip_iff (.str "say \"x\"") rfl .null

end WorkflowStudio.Editor

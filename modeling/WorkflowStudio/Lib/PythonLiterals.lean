import WorkflowStudio.Lib.PythonSyntax

/-! The texts that stand between single quotes for themselves. -/

set_option autoImplicit false

namespace Lib.PythonSyntax

open Lib.Scanning Lib.Quoting

/-- The letters that do not keep the backslash before them. -/
def isEscape (letter : Char) : Bool :=
  (plainEscape letter).isSome || isOctal letter ||
    ['\n', '\r', 'x', 'u', 'U', 'N'].contains letter

/-- A text without single quotes, line ends and NUL in which each backslash stands before a letter
that is no escape. -/
def plainText : List Char → Bool
  | [] => true
  | ['\\'] => false
  | '\\' :: next :: rest => !isEscape next && next != '\x00' && plainText rest
  | letter :: rest => !(['\'', '\n', '\r', '\x00'].contains letter) && plainText rest

theorem plainText_backslash (next : Char) (rest : List Char) :
    plainText ('\\' :: next :: rest) = (!isEscape next && next != '\x00' && plainText rest) := by
  rw [plainText]

theorem plainText_letter {letter : Char} (other : letter ≠ '\\') (rest : List Char) :
    plainText (letter :: rest) =
      (!(['\'', '\n', '\r', '\x00'].contains letter) && plainText rest) := by
  rw [plainText]
  · exact fun same _ => other same
  · exact fun _ _ same _ => other same

/-!
## Units
-/

section Units

variable (named : List Char → Option Char)

theorem literalUnit_letter {letter : Char} (noBackslash : letter ≠ '\\') (noReturn : letter ≠ '\r')
    (rest : List Char) : literalUnit named (letter :: rest) = some ([letter], 1) := by
  rw [literalUnit, if_neg noBackslash, if_neg noReturn]

theorem literalUnit_kept {letter : Char} (kept : isEscape letter = false) (rest : List Char) :
    literalUnit named ('\\' :: letter :: rest) = some (['\\', letter], 2) := by
  simp only [isEscape, Bool.or_eq_false_iff, Option.isSome_eq_false_iff, Option.isNone_iff_eq_none,
    List.contains_eq_mem, decide_eq_false_iff_not, List.mem_cons, List.not_mem_nil, or_false,
    not_or] at kept
  obtain ⟨⟨plain, octal⟩, line, back, x, u, long, name⟩ := kept
  simp only [literalUnit, escapeUnit, plain, octal, line, back, x, u, long, name, if_true, if_false,
    Bool.false_eq_true, Option.map_some]

theorem of_mapM_hexValue {text : List Char} {values : List Nat}
    (read : text.mapM hexValue = some values) : ∀ letter ∈ text, hexValue letter ≠ none := by
  induction text generalizing values with
  | nil => exact List.forall_mem_nil _
  | cons letter rest ih =>
      rw [List.mapM_cons] at read
      obtain ⟨value, here, later⟩ := Option.bind_eq_some_iff.mp read
      obtain ⟨others, later, _⟩ := Option.bind_eq_some_iff.mp later
      refine List.forall_mem_cons.mpr ⟨?_, ih later⟩
      rw [here]
      exact Option.some_ne_none value

/-- A code takes hexadecimal digits, and so it does not end with a space. -/
theorem of_hexCode {count : Nat} {letter found : Char} {rest : List Char}
    (here : hexCode (count + 1) rest = some found) :
    count + 2 ≤ (letter :: rest).length ∧
      ((letter :: rest).take (count + 2)).getLast? ≠ some ' ' := by
  rw [hexCode, Option.ite_none_right_eq_some] at here
  obtain ⟨length, here⟩ := here
  obtain ⟨values, read, _⟩ := Option.bind_eq_some_iff.mp here
  have digits := of_mapM_hexValue read
  have long : count + 1 ≤ rest.length := by
    rw [List.length_take] at length
    omega
  refine ⟨Nat.succ_le_succ long, fun last => ?_⟩
  rw [List.take_succ_cons] at last
  obtain ⟨first, others, split⟩ := List.exists_cons_of_ne_nil
    (List.ne_nil_of_length_pos (by rw [length]; exact Nat.succ_pos count) :
      rest.take (count + 1) ≠ [])
  rw [split, List.getLast?_cons_cons, ← split] at last
  exact digits ' ' (List.mem_of_mem_getLast? last) rfl

theorem of_octalRun {letter : Char} (octal : isOctal letter = true) (rest : List Char) :
    0 < (octalRun (letter :: rest)).length ∧
      (octalRun (letter :: rest)).length ≤ (letter :: rest).length ∧
      ((letter :: rest).take (octalRun (letter :: rest)).length).getLast? ≠ some ' ' := by
  have isPrefix : octalRun (letter :: rest) <+: letter :: rest :=
    (List.takeWhile_prefix _).trans (List.take_prefix _ _)
  refine ⟨?_, isPrefix.length_le, ?_⟩
  · rw [octalRun, List.take_succ_cons, List.takeWhile_cons_of_pos octal]
    exact Nat.succ_pos _
  · rw [← List.prefix_iff_eq_take.mp isPrefix]
    intro last
    have member := List.mem_of_mem_getLast? last
    exact absurd (List.mem_takeWhile_imp member) (by decide)

/-- A name takes the letters up to a closing brace. -/
theorem of_namedCode {letter : Char} {rest : List Char} {found : Char × Nat}
    (here : namedCode named rest = some found) :
    found.2 + 1 ≤ (letter :: rest).length ∧
      ((letter :: rest).take (found.2 + 1)).getLast? ≠ some ' ' := by
  unfold namedCode at here
  split at here
  next inside =>
    split at here
    · cases here
    next closed =>
      obtain ⟨code, _, rfl⟩ := Option.map_eq_some_iff.mp here
      have split := @List.takeWhile_append_dropWhile _ (· != '\x7d') inside
      cases after : inside.dropWhile (· != '\x7d') with
      | nil => exact absurd (by rw [after]; rfl) closed
      | cons brace others =>
          have isBrace : brace = '\x7d' := by
            have stops := List.head?_dropWhile_not (· != '\x7d') inside
            rw [after] at stops
            simpa using stops
          subst isBrace
          rw [after] at split
          generalize inside.takeWhile (· != '\x7d') = name at split
          subst split
          constructor
          · simp only [List.length_cons, List.length_append]
            omega
          · intro last
            have taken : (letter :: '\x7b' :: (name ++ '\x7d' :: others)).take (name.length + 3) =
                (letter :: '\x7b' :: name) ++ ['\x7d'] := by
              simp [List.take_append, List.take_of_length_le]
            change ((letter :: '\x7b' :: (name ++ '\x7d' :: others)).take
              (name.length + 3)).getLast? = some ' ' at last
            rw [taken, List.getLast?_concat] at last
            exact absurd (Option.some.inj last) (by decide)
  next => cases here

/-- The letters that an escape takes are letters of the text; where it ends with a space it is no
escape, and otherwise it says less than it takes with the backslash. -/
theorem of_escapeUnit {text letters : List Char} {length : Nat}
    (here : escapeUnit named text = some (letters, length)) :
    0 < length ∧ length ≤ text.length ∧
      ((text.take length).getLast? = some ' ' → letters.getLast? = some ' ') ∧
      ((∃ letter rest, text = letter :: rest ∧ isEscape letter = false ∧
        letters = ['\\', letter] ∧ length = 1) ∨ letters.length ≤ length) := by
  cases text with
  | nil => cases here
  | cons letter rest =>
      have coded {count : Nat} {found : Char} (fits : count + 1 ≤ (letter :: rest).length)
          (noSpace : ((letter :: rest).take (count + 1)).getLast? ≠ some ' ')
          (same : ([found], count + 1) = (letters, length)) :
          0 < length ∧ length ≤ (letter :: rest).length ∧
            (((letter :: rest).take length).getLast? = some ' ' → letters.getLast? = some ' ') ∧
            ((∃ other others, letter :: rest = other :: others ∧ isEscape other = false ∧
              letters = ['\\', other] ∧ length = 1) ∨ letters.length ≤ length) := by
        cases same
        exact ⟨Nat.succ_pos _, fits, fun last => absurd last noSpace,
          .inr (Nat.succ_le_succ (Nat.zero_le _))⟩
      have one (some : letter ≠ ' ') : ((letter :: rest).take 1).getLast? ≠ .some ' ' :=
        fun last => some (Option.some.inj last)
      rw [escapeUnit] at here
      cases plain : plainEscape letter with
      | some found =>
          rw [plain] at here
          refine coded (Nat.succ_le_succ (Nat.zero_le _)) (one ?_) (Option.some.inj here)
          rintro rfl
          cases plain
      | none =>
          rw [plain] at here
          dsimp only at here
          by_cases line : letter = '\n'
          · rw [if_pos line] at here
            cases here
            refine ⟨Nat.one_pos, Nat.succ_le_succ (Nat.zero_le _), fun last => ?_,
              .inr (Nat.zero_le _)⟩
            exact absurd last (one (by rw [line]; decide))
          rw [if_neg line] at here
          by_cases back : letter = '\r'
          · rw [if_pos back] at here
            cases here
            by_cases next : rest.head? = some '\n'
            · obtain ⟨others, rfl⟩ := List.head?_eq_some_iff.mp next
              rw [if_pos next]
              exact ⟨Nat.two_pos, Nat.succ_le_succ (Nat.succ_le_succ (Nat.zero_le _)),
                fun last => absurd (show some '\n' = some ' ' from last) (by decide),
                .inr (Nat.zero_le _)⟩
            · rw [if_neg next]
              refine ⟨Nat.one_pos, Nat.succ_le_succ (Nat.zero_le _), fun last => ?_,
                .inr (Nat.zero_le _)⟩
              exact absurd last (one (by rw [back]; decide))
          rw [if_neg back] at here
          by_cases octal : isOctal letter = true
          · rw [if_pos octal] at here
            obtain ⟨found, _, same⟩ := Option.map_eq_some_iff.mp here
            obtain ⟨positive, fits, noSpace⟩ := of_octalRun octal rest
            obtain ⟨count, length⟩ := Nat.exists_eq_add_one_of_ne_zero positive.ne'
            rw [length] at fits noSpace same
            exact coded fits noSpace same
          rw [if_neg octal] at here
          by_cases x : letter = 'x'
          · rw [if_pos x] at here
            obtain ⟨found, read, same⟩ := Option.map_eq_some_iff.mp here
            obtain ⟨fits, noSpace⟩ := @of_hexCode 1 letter found rest read
            exact coded fits noSpace same
          rw [if_neg x] at here
          by_cases u : letter = 'u'
          · rw [if_pos u] at here
            obtain ⟨found, read, same⟩ := Option.map_eq_some_iff.mp here
            obtain ⟨fits, noSpace⟩ := @of_hexCode 3 letter found rest read
            exact coded fits noSpace same
          rw [if_neg u] at here
          by_cases long : letter = 'U'
          · rw [if_pos long] at here
            obtain ⟨found, read, same⟩ := Option.map_eq_some_iff.mp here
            obtain ⟨fits, noSpace⟩ := @of_hexCode 7 letter found rest read
            exact coded fits noSpace same
          rw [if_neg long] at here
          by_cases name : letter = 'N'
          · rw [if_pos name] at here
            obtain ⟨found, read, same⟩ := Option.map_eq_some_iff.mp here
            obtain ⟨fits, noSpace⟩ := @of_namedCode named letter rest found read
            exact coded fits noSpace same
          rw [if_neg name] at here
          cases here
          refine ⟨Nat.one_pos, Nat.succ_le_succ (Nat.zero_le _), fun last => ?_, ?_⟩
          · rwa [List.take_succ_cons, List.take_zero] at last
          · refine .inl ⟨letter, rest, rfl, ?_, rfl, rfl⟩
            simp [isEscape, plain, octal, line, back, x, u, long, name]

/-- What of a literal stands for itself keeps its length; everything else gets shorter. -/
theorem of_literalUnit {text letters : List Char} {length : Nat}
    (here : literalUnit named text = some (letters, length)) :
    0 < length ∧ length ≤ text.length ∧ letters.length ≤ length ∧
      ((text.take length).getLast? = some ' ' → letters.getLast? = some ' ') := by
  cases text with
  | nil => cases here
  | cons letter rest =>
      rw [literalUnit] at here
      by_cases backslash : letter = '\\'
      · rw [if_pos backslash] at here
        obtain ⟨found, escape, same⟩ := Option.map_eq_some_iff.mp here
        obtain ⟨rfl, rfl⟩ := Prod.mk.inj same
        obtain ⟨positive, fits, last, short⟩ := of_escapeUnit named escape
        refine ⟨Nat.succ_pos _, Nat.succ_le_succ fits, ?_, fun final => last ?_⟩
        · rcases short with ⟨_, _, _, _, letters, length⟩ | short
          · rw [letters, length]
            exact Nat.le_refl _
          · exact short.trans (Nat.le_succ _)
        · obtain ⟨count, same⟩ := Nat.exists_eq_add_one_of_ne_zero positive.ne'
          obtain ⟨next, others, rfl⟩ :=
            List.exists_cons_of_ne_nil (List.ne_nil_of_length_pos (positive.trans_le fits))
          rw [same, List.take_succ_cons] at final ⊢
          rwa [List.take_succ_cons, List.getLast?_cons_cons] at final
      rw [if_neg backslash] at here
      by_cases back : letter = '\r'
      · rw [if_pos back] at here
        cases here
        by_cases next : rest.head? = some '\n'
        · obtain ⟨others, rfl⟩ := List.head?_eq_some_iff.mp next
          rw [if_pos next]
          exact ⟨Nat.two_pos, Nat.succ_le_succ (Nat.succ_le_succ (Nat.zero_le _)),
            Nat.le_succ 1, fun last => absurd (show some '\n' = some ' ' from last) (by decide)⟩
        · rw [if_neg next]
          refine ⟨Nat.one_pos, Nat.succ_le_succ (Nat.zero_le _), Nat.le_refl _, fun last => ?_⟩
          rw [back] at last
          exact absurd (show some '\r' = some ' ' from last) (by decide)
      · rw [if_neg back] at here
        cases here
        exact ⟨Nat.one_pos, Nat.succ_le_succ (Nat.zero_le _), Nat.le_refl _, id⟩

theorem of_rawUnit {long : Bool} {text letters : List Char} {length : Nat}
    (here : rawUnit long text = some (letters, length)) :
    0 < length ∧ length ≤ text.length ∧ letters = text.take length := by
  cases text with
  | nil => cases here
  | cons letter rest =>
      rw [rawUnit.eq_def] at here
      dsimp only at here
      split at here
      · cases here
      split at here
      next backslash =>
        cases rest with
        | nil => cases here
        | cons next others =>
            dsimp only at here
            split at here
            · cases here
            split at here
            next line =>
              obtain ⟨others, rfl⟩ := List.head?_eq_some_iff.mp line.2
              cases here
              rw [backslash, line.1]
              exact ⟨Nat.succ_pos _, Nat.le_add_left _ _, rfl⟩
            next =>
              cases here
              rw [backslash]
              exact ⟨Nat.succ_pos _, Nat.le_add_left _ _, rfl⟩
      next =>
        split at here
        · cases here
        next =>
          cases here
          exact ⟨Nat.one_pos, Nat.le_add_left _ _, rfl⟩

end Units

theorem rawUnit_letter {letter : Char} (noNul : letter ≠ '\x00') (noBackslash : letter ≠ '\\')
    (noLine : letter ≠ '\n') (noReturn : letter ≠ '\r') (rest : List Char) :
    rawUnit false (letter :: rest) = some ([letter], 1) := by
  rw [rawUnit.eq_def]
  dsimp only
  rw [if_neg noNul, if_neg noBackslash, if_neg fun line => line.1.elim noLine noReturn]

theorem rawUnit_backslash {next : Char} (noNul : next ≠ '\x00') (noReturn : next ≠ '\r')
    (long : Bool) (rest : List Char) :
    rawUnit long ('\\' :: next :: rest) = some (['\\', next], 2) := by
  rw [rawUnit.eq_def]
  dsimp only
  rw [if_neg (by decide), if_pos rfl, if_neg noNul, if_neg fun line => noReturn line.1]

/-!
## Reading
-/

theorem isPrefixOf_quote {letter : Char} (other : letter ≠ '\'') (rest : List Char) :
    ['\''].isPrefixOf (letter :: rest) = false := by
  rw [List.isPrefixOf, beq_eq_false_iff_ne.mpr other.symm, Bool.false_and]

/-- A letter that a literal holds, and the text behind it. -/
theorem read_letter {letter : Char} (quote : letter ≠ '\'') (noNul : letter ≠ '\x00')
    (noBackslash : letter ≠ '\\') (noLine : letter ≠ '\n') (noReturn : letter ≠ '\r')
    (rest : List Char) :
    read (rawUnit false) ['\''] (letter :: rest) =
      (read (rawUnit false) ['\''] rest).map fun found => (letter :: found.1, found.2) :=
  @read_unit _ _ _ _ letter [] rest [letter] (isPrefixOf_quote quote _)
    (rawUnit_letter noNul noBackslash noLine noReturn rest)

theorem read_backslash {next : Char} (noNul : next ≠ '\x00') (noReturn : next ≠ '\r')
    (rest : List Char) :
    read (rawUnit false) ['\''] ('\\' :: next :: rest) =
      (read (rawUnit false) ['\''] rest).map fun found => ('\\' :: next :: found.1, found.2) :=
  @read_unit _ _ _ _ '\\' [next] rest ['\\', next] (isPrefixOf_quote (by decide) _)
    (rawUnit_backslash noNul noReturn false rest)

/-- A letter before which there is no backslash closes a literal, or is plain. -/
theorem of_read_letter {letter : Char} {rest raw after : List Char} (other : letter ≠ '\\')
    (found : read (rawUnit false) ['\''] (letter :: rest) = some (raw, after)) :
    (letter = '\'' ∧ raw = []) ∨
      ((['\'', '\n', '\r', '\x00'].contains letter) = false ∧
        ∃ others, read (rawUnit false) ['\''] rest = some (others, after) ∧
          raw = letter :: others) := by
  by_cases quote : letter = '\''
  · subst quote
    have closed : read (rawUnit false) ['\''] ('\'' :: rest) = some ([], rest) :=
      read_closing (List.cons_ne_nil _ _) rest
    rw [closed] at found
    cases found
    exact .inl ⟨rfl, rfl⟩
  · have inside := isPrefixOf_quote quote rest
    have some : rawUnit false (letter :: rest) ≠ none := by
      intro none
      rw [read_none inside none] at found
      cases found
    rw [rawUnit.eq_def] at some
    dsimp only at some
    have nul : letter ≠ '\x00' := fun nul => some (if_pos nul)
    rw [if_neg nul, if_neg other] at some
    have line : letter ≠ '\n' := fun line => some (if_pos ⟨.inl line, rfl⟩)
    have back : letter ≠ '\r' := fun back => some (if_pos ⟨.inr back, rfl⟩)
    rw [read_letter quote nul other line back] at found
    obtain ⟨⟨others, _⟩, later, same⟩ := Option.map_eq_some_iff.mp found
    cases same
    exact .inr ⟨by simp [quote, line, back, nul], others, later, rfl⟩

theorem isEscape_kept {next : Char} (kept : isEscape next = false) :
    next ≠ '\\' ∧ next ≠ '\'' ∧ next ≠ '\n' ∧ next ≠ '\r' := by
  refine ⟨?_, ?_, ?_, ?_⟩ <;>
    · rintro rfl
      exact absurd kept (by decide)

theorem plain_letter {letter : Char}
    (plain : (['\'', '\n', '\r', '\x00'].contains letter) = false) :
    letter ≠ '\'' ∧ letter ≠ '\n' ∧ letter ≠ '\r' ∧ letter ≠ '\x00' := by
  simpa using plain

/-- The last case of `plainText`. -/
theorem ne_backslash {letter : Char} {rest : List Char}
    (noEnd : letter = '\\' → rest = [] → False)
    (noPair : ∀ next others, letter = '\\' → rest = next :: others → False) :
    letter ≠ '\\' := by
  rintro rfl
  cases rest with
  | nil => exact noEnd rfl rfl
  | cons next others => exact noPair next others rfl rfl

theorem read_plain {text : List Char} (plain : plainText text = true) (tail : List Char) :
    read (rawUnit false) ['\''] (text ++ '\'' :: tail) = some (text, tail) := by
  induction text using plainText.induct with
  | case1 => exact read_closing (List.cons_ne_nil _ _) tail
  | case2 => cases plain
  | case3 next rest ih =>
      rw [plainText_backslash, Bool.and_eq_true, Bool.and_eq_true, Bool.not_eq_true', bne_iff_ne]
        at plain
      obtain ⟨⟨kept, noNul⟩, plain⟩ := plain
      rw [List.cons_append, List.cons_append, read_backslash noNul (isEscape_kept kept).2.2.2,
        ih plain]
      rfl
  | case4 letter rest noEnd noBackslash ih =>
      have other := ne_backslash noEnd noBackslash
      rw [plainText_letter other, Bool.and_eq_true, Bool.not_eq_true'] at plain
      obtain ⟨letterPlain, plain⟩ := plain
      obtain ⟨quote, line, back, nul⟩ := plain_letter letterPlain
      rw [List.cons_append, read_letter quote nul other line back, ih plain]
      rfl

section Decode

variable (named : List Char → Option Char)

theorem decode_letter {letter : Char} (noBackslash : letter ≠ '\\') (noReturn : letter ≠ '\r')
    (rest : List Char) :
    decode (literalUnit named) (letter :: rest) =
      (decode (literalUnit named) rest).map (letter :: ·) :=
  @decode_unit _ _ letter [] rest _ (literalUnit_letter named noBackslash noReturn rest)

theorem decode_kept {next : Char} (kept : isEscape next = false) (rest : List Char) :
    decode (literalUnit named) ('\\' :: next :: rest) =
      (decode (literalUnit named) rest).map fun value => '\\' :: next :: value :=
  @decode_unit _ _ '\\' [next] rest _ (literalUnit_kept named kept rest)

theorem decode_plain {text : List Char} (plain : plainText text = true) :
    decode (literalUnit named) text = some text := by
  induction text using plainText.induct with
  | case1 => rfl
  | case2 => cases plain
  | case3 next rest ih =>
      rw [plainText_backslash, Bool.and_eq_true, Bool.and_eq_true, Bool.not_eq_true'] at plain
      rw [decode_kept named plain.1.1, ih plain.2]
      rfl
  | case4 letter rest noEnd noBackslash ih =>
      have other := ne_backslash noEnd noBackslash
      rw [plainText_letter other, Bool.and_eq_true, Bool.not_eq_true'] at plain
      obtain ⟨letterPlain, plain⟩ := plain
      rw [decode_letter named other (plain_letter letterPlain).2.2.1, ih plain]
      rfl

theorem decode_length {text value : List Char}
    (decoded : decode (literalUnit named) text = some value) : value.length ≤ text.length :=
  decodeFrom_length (fun _ _ _ here =>
    ⟨(of_literalUnit named here).2.2.1, (of_literalUnit named here).2.1⟩) decoded (Nat.zero_le _)

theorem decode_last {text value : List Char}
    (decoded : decode (literalUnit named) text = some value) (last : text.getLast? = some ' ') :
    value.getLast? = some ' ' := by
  have some : 0 < text.length := List.length_pos_of_mem (List.mem_of_mem_getLast? last)
  exact decodeFrom_last (fun _ _ _ here =>
    ⟨(of_literalUnit named here).1, (of_literalUnit named here).2.2.2⟩) decoded some last

/-- An escape makes a literal shorter. -/
theorem decode_escape {next : Char} {rest value : List Char} (escape : isEscape next = true)
    (decoded : decode (literalUnit named) ('\\' :: next :: rest) = some value) :
    value.length < rest.length + 2 := by
  rw [decode, decodeFrom] at decoded
  cases here : literalUnit named ('\\' :: next :: rest) with
  | none =>
      rw [here] at decoded
      cases decoded
  | some found =>
      obtain ⟨letters, length⟩ := found
      rw [here] at decoded
      obtain ⟨others, later, rfl⟩ := Option.map_eq_some_iff.mp decoded
      rw [literalUnit, if_pos rfl] at here
      obtain ⟨unit, unitHere, same⟩ := Option.map_eq_some_iff.mp here
      obtain ⟨rfl, rfl⟩ := Prod.mk.inj same
      obtain ⟨positive, fits, _, short⟩ := of_escapeUnit named unitHere
      have small : unit.1.length ≤ unit.2 := by
        rcases short with ⟨_, _, same, kept, _⟩ | short
        · obtain ⟨rfl, -⟩ := List.cons.inj same
          rw [escape] at kept
          cases kept
        · exact short
      rw [Nat.add_sub_cancel] at later
      have bound := decodeFrom_length (fun _ _ _ here =>
        ⟨(of_literalUnit named here).2.2.1, (of_literalUnit named here).2.1⟩) later fits
      rw [List.length_cons] at bound
      rw [List.length_append]
      omega

/-- A literal that stands for itself is plain. -/
theorem plain_of_decode {text value after tail : List Char}
    (found : read (rawUnit false) ['\''] (text ++ '\'' :: tail) = some (text, after))
    (decoded : decode (literalUnit named) text = some value)
    (same : value.length = text.length) : plainText text = true := by
  induction text using plainText.induct generalizing value with
  | case1 => rfl
  | case2 => cases decoded
  | case3 next rest ih =>
      cases escape : isEscape next with
      | true =>
          have shorter := decode_escape named escape decoded
          rw [same] at shorter
          exact absurd shorter (Nat.lt_irrefl _)
      | false =>
          have noNul : next ≠ '\x00' := by
            rintro rfl
            rw [List.cons_append, List.cons_append,
              read_none (isPrefixOf_quote (by decide) _) (by rfl)] at found
            cases found
          rw [List.cons_append, List.cons_append, read_backslash noNul (isEscape_kept escape).2.2.2]
            at found
          obtain ⟨⟨raw, _⟩, later, here⟩ := Option.map_eq_some_iff.mp found
          cases here
          rw [decode_kept named escape] at decoded
          obtain ⟨others, restDecoded, rfl⟩ := Option.map_eq_some_iff.mp decoded
          rw [plainText_backslash, escape, bne_iff_ne.mpr noNul]
          exact ih later restDecoded (Nat.succ.inj (Nat.succ.inj same))
  | case4 letter rest noEnd noBackslash ih =>
      have other := ne_backslash noEnd noBackslash
      rw [List.cons_append] at found
      rcases of_read_letter other found with ⟨_, empty⟩ | ⟨plain, raw, later, here⟩
      · cases empty
      obtain ⟨-, rfl⟩ := List.cons.inj here
      obtain ⟨quote, line, back, nul⟩ := plain_letter plain
      rw [decode_letter named other back] at decoded
      obtain ⟨others, restDecoded, rfl⟩ := Option.map_eq_some_iff.mp decoded
      rw [plainText_letter other, plain, ih later restDecoded (Nat.succ.inj same)]
      rfl

/-- A backslash before a carriage return takes the line feed behind it as well. -/
theorem read_return (rest : List Char) :
    (∃ back, rest = '\n' :: back ∧ read (rawUnit false) ['\''] ('\\' :: '\r' :: rest) =
        (read (rawUnit false) ['\''] back).map fun found =>
          ('\\' :: '\r' :: '\n' :: found.1, found.2)) ∨
      read (rawUnit false) ['\''] ('\\' :: '\r' :: rest) =
        (read (rawUnit false) ['\''] rest).map fun found => ('\\' :: '\r' :: found.1, found.2) := by
  by_cases next : rest.head? = some '\n'
  · obtain ⟨back, rfl⟩ := List.head?_eq_some_iff.mp next
    exact .inl ⟨back, rfl, @read_unit _ _ _ _ '\\' ['\r', '\n'] back ['\\', '\r', '\n']
      (isPrefixOf_quote (by decide) _) rfl⟩
  · refine .inr (@read_unit _ _ _ _ '\\' ['\r'] rest ['\\', '\r']
      (isPrefixOf_quote (by decide) _) ?_)
    rw [rawUnit.eq_def]
    dsimp only [List.cons_append, List.nil_append]
    rw [if_neg (by decide), if_pos rfl, if_neg (by decide), if_neg fun line => next line.2]
    rfl

/-- The literal ends before the quote that is written behind the text, with it, or, where a
backslash ends the text, with the next quote. -/
theorem raw_cases {text raw after more : List Char}
    (found : read (rawUnit false) ['\''] (text ++ '\'' :: ',' :: ' ' :: '\'' :: more) =
      some (raw, after)) :
    raw.length < text.length ∨ raw = text ∨
      (raw = text ++ ['\'', ',', ' '] ∧ text.getLast? = some '\\') := by
  induction length : text.length using Nat.strong_induction_on generalizing text raw with
  | _ size ih =>
      subst length
      cases text with
      | nil =>
          have closed : read (rawUnit false) ['\''] ('\'' :: ',' :: ' ' :: '\'' :: more) =
              some ([], ',' :: ' ' :: '\'' :: more) := read_closing (List.cons_ne_nil _ _) _
          rw [List.nil_append, closed] at found
          cases found
          exact .inr (.inl rfl)
      | cons letter rest =>
          -- What holds for a later part of the text holds behind the letters before it.
          have carry {front back others : List Char} (split : letter :: rest = front ++ back)
              (some : front ≠ [])
              (later : read (rawUnit false) ['\'']
                (back ++ '\'' :: ',' :: ' ' :: '\'' :: more) = .some (others, after))
              (same : raw = front ++ others) :
              raw.length < (letter :: rest).length ∨ raw = letter :: rest ∨
                (raw = letter :: rest ++ ['\'', ',', ' '] ∧
                  (letter :: rest).getLast? = .some '\\') := by
            have shorter : back.length < (letter :: rest).length := by
              rw [split, List.length_append]
              exact Nat.lt_add_of_pos_left (List.length_pos_iff.mpr some)
            rw [split, same]
            rcases ih back.length shorter later rfl with short | rfl | ⟨rfl, last⟩
            · refine .inl ?_
              rw [List.length_append, List.length_append]
              exact Nat.add_lt_add_left short _
            · exact .inr (.inl rfl)
            · refine .inr (.inr ⟨(List.append_assoc _ _ _).symm, ?_⟩)
              rw [List.getLast?_append, last]
              rfl
          by_cases backslash : letter = '\\'
          · subst backslash
            cases rest with
            | nil =>
                refine .inr (.inr ⟨?_, rfl⟩)
                have closed : read (rawUnit false) ['\''] ('\'' :: more) = some ([], more) :=
                  read_closing (List.cons_ne_nil _ _) _
                rw [List.cons_append, List.nil_append, read_backslash (by decide) (by decide),
                  read_letter (by decide) (by decide) (by decide) (by decide) (by decide),
                  read_letter (by decide) (by decide) (by decide) (by decide) (by decide),
                  closed] at found
                cases found
                rfl
            | cons next rest =>
                by_cases nul : next = '\x00'
                · subst nul
                  rw [List.cons_append, List.cons_append,
                    read_none (isPrefixOf_quote (by decide) _) (by rfl)] at found
                  cases found
                by_cases line : next = '\r'
                · subst line
                  rcases read_return (rest ++ '\'' :: ',' :: ' ' :: '\'' :: more) with
                    ⟨behind, split, whole⟩ | whole
                  · obtain ⟨back, rfl⟩ : ∃ back, rest = '\n' :: back := by
                      cases rest with
                      | nil => exact absurd (List.cons.inj split).1 (by decide)
                      | cons first back => exact ⟨back, by rw [(List.cons.inj split).1]⟩
                    cases split
                    rw [List.cons_append, List.cons_append, List.cons_append] at found
                    rw [List.cons_append, found] at whole
                    obtain ⟨⟨others, _⟩, later, same⟩ := Option.map_eq_some_iff.mp whole.symm
                    cases same
                    exact @carry ['\\', '\r', '\n'] back others rfl (List.cons_ne_nil _ _) later rfl
                  · rw [List.cons_append, List.cons_append, whole] at found
                    obtain ⟨⟨others, _⟩, later, same⟩ := Option.map_eq_some_iff.mp found
                    cases same
                    exact @carry ['\\', '\r'] rest others rfl (List.cons_ne_nil _ _) later rfl
                · rw [List.cons_append, List.cons_append, read_backslash nul line] at found
                  obtain ⟨⟨others, _⟩, later, same⟩ := Option.map_eq_some_iff.mp found
                  cases same
                  exact @carry ['\\', next] rest others rfl (List.cons_ne_nil _ _) later rfl
          · rw [List.cons_append] at found
            rcases of_read_letter backslash found with ⟨_, rfl⟩ | ⟨_, others, later, rfl⟩
            · exact .inl (Nat.succ_pos _)
            · exact @carry [letter] rest others rfl (List.cons_ne_nil _ _) later rfl

theorem readLiteral_quote (rest : List Char) :
    readLiteral named ('\'' :: rest) =
      (rawLiteral '\'' rest).bind fun literal =>
        (decode (literalUnit named) literal.1).map fun value => (value, literal.2) := by
  rw [readLiteral, if_pos (.inl rfl)]

/-- No plain text makes a literal long. -/
theorem short_of_plain {text tail : List Char} (plain : plainText text = true)
    (separate : tail.head? ≠ some '\'') :
    ['\'', '\''].isPrefixOf (text ++ '\'' :: tail) = false := by
  cases text with
  | nil =>
      cases tail with
      | nil => rfl
      | cons letter tail =>
          have other : letter ≠ '\'' := by
            rintro rfl
            exact separate rfl
          rw [List.nil_append, List.isPrefixOf, isPrefixOf_quote other, Bool.and_false]
  | cons letter text =>
      have other : letter ≠ '\'' := by
        rintro rfl
        rw [plainText_letter (by decide), Bool.and_eq_true] at plain
        exact absurd plain.1 (by decide)
      rw [List.cons_append, List.isPrefixOf, beq_eq_false_iff_ne.mpr other.symm, Bool.false_and]

theorem readLiteral_plain {text tail : List Char} (plain : plainText text = true)
    (separate : tail.head? ≠ some '\'') :
    readLiteral named ('\'' :: (text ++ '\'' :: tail)) = some (text, text.length + 2) := by
  rw [readLiteral_quote, rawLiteral, short_of_plain plain separate, if_neg Bool.false_ne_true,
    read_plain plain, Option.map_some, Option.bind_some, decode_plain named plain, Option.map_some]

/-- A literal that is opened by three quotes is closed by three, and says less than stands between
them. -/
theorem ne_of_long {text tail value : List Char} {found : List Char × List Char}
    (noTriple : ¬ ['\'', '\'', '\''] <:+: tail)
    (long : ['\'', '\''].isPrefixOf (text ++ '\'' :: tail) = true)
    (here : read (rawUnit true) ['\'', '\'', '\''] ((text ++ '\'' :: tail).drop 2) = some found)
    (decoded : decode (literalUnit named) found.1 = some value) : value ≠ text := by
  rintro rfl
  obtain ⟨raw, after⟩ := found
  have split := read_split (fun _ _ _ unit => of_rawUnit unit) here
  have opened := (List.prefix_iff_eq_append.mp (List.isPrefixOf_iff_prefix.mp long)).symm
  have covered : value.length ≤ raw.length := decode_length named decoded
  change (value ++ '\'' :: tail).drop 2 = _ at split
  change value ++ '\'' :: tail = _ ++ (value ++ '\'' :: tail).drop 2 at opened
  rw [split] at opened
  refine noTriple ?_
  have within : value.length + 1 ≤ (['\'', '\''] ++ raw).length := by
    rw [List.length_append]
    change _ ≤ 2 + _
    omega
  have front : value ++ '\'' :: tail = (value ++ ['\'']) ++ tail := by simp
  have back : ['\'', '\''] ++ (raw ++ ['\'', '\'', '\''] ++ after) =
      (['\'', '\''] ++ raw) ++ (['\'', '\'', '\''] ++ after) := by simp
  have behind := congrArg (List.drop (value.length + 1)) opened
  rw [front, back, List.drop_append_of_le_length within, List.drop_left' (by simp)] at behind
  exact ⟨_, after, by rw [behind, List.append_assoc]⟩

theorem plain_of_readLiteral {text more : List Char} {length : Nat}
    (noTriple : ¬ ['\'', '\'', '\''] <:+: ',' :: ' ' :: '\'' :: more)
    (here : readLiteral named ('\'' :: (text ++ '\'' :: ',' :: ' ' :: '\'' :: more)) =
      some (text, length)) : plainText text = true := by
  rw [readLiteral_quote] at here
  obtain ⟨⟨raw, _⟩, found, spelled⟩ := Option.bind_eq_some_iff.mp here
  obtain ⟨value, decoded, same⟩ := Option.map_eq_some_iff.mp spelled
  obtain ⟨rfl, -⟩ := Prod.mk.inj same
  rw [rawLiteral] at found
  split at found
  next long =>
    obtain ⟨⟨_, after⟩, taken, same⟩ := Option.map_eq_some_iff.mp found
    obtain ⟨rfl, -⟩ := Prod.mk.inj same
    exact absurd rfl (ne_of_long named noTriple long taken decoded)
  next =>
    obtain ⟨⟨part, after⟩, taken, same⟩ := Option.map_eq_some_iff.mp found
    obtain ⟨rfl, -⟩ := Prod.mk.inj same
    change decode (literalUnit named) part = some value at decoded
    rcases raw_cases taken with short | whole | ⟨whole, last⟩
    · exact absurd (decode_length named decoded) (Nat.not_le_of_lt short)
    · rw [whole] at taken decoded
      exact plain_of_decode named taken decoded rfl
    · have final := decode_last named decoded (by
        rw [whole, List.getLast?_append]
        rfl)
      rw [last] at final
      exact absurd (Option.some.inj final) (by decide)

end Decode

end Lib.PythonSyntax

import WorkflowStudio.Lib.Scanning

/-! Quoted texts: the letters of a literal are written one after the other, some of them with
escapes, and end with the first closing text that is not part of one. -/

set_option autoImplicit false

namespace Lib.Quoting

open Lib.Scanning

variable {Letter : Type}

section Decode

-- What the start of a text stands for.
variable (unit : Matcher Letter (List Letter))

/-- A text that stands for something from its start to its end. -/
def decodeFrom : Nat → List Letter → Option (List Letter)
  | _, [] => some []
  | skipped + 1, _ :: rest => decodeFrom skipped rest
  | 0, letter :: rest =>
      match unit (letter :: rest) with
      | none => none
      | some (letters, length) => (decodeFrom (length - 1) rest).map (letters ++ ·)

def decode (text : List Letter) : Option (List Letter) := decodeFrom unit 0 text

variable {unit}

theorem decodeFrom_append (front back : List Letter) :
    decodeFrom unit front.length (front ++ back) = decode unit back := by
  induction front with
  | nil => rfl
  | cons letter front ih => exact ih

theorem decode_unit {first : Letter} {front back letters : List Letter}
    (here : unit (first :: (front ++ back)) = some (letters, front.length + 1)) :
    decode unit (first :: (front ++ back)) = (decode unit back).map (letters ++ ·) := by
  rw [decode, decodeFrom, here]
  change (decodeFrom unit front.length (front ++ back)).map _ = _
  rw [decodeFrom_append]

/-- The letters that a literal says are not more than it takes. -/
theorem decodeFrom_length {text value : List Letter} {skipped : Nat}
    (fits : ∀ text letters length, unit text = some (letters, length) →
      letters.length ≤ length ∧ length ≤ text.length)
    (decoded : decodeFrom unit skipped text = some value) (within : skipped ≤ text.length) :
    value.length + skipped ≤ text.length := by
  induction text generalizing skipped value with
  | nil =>
      cases skipped with
      | zero =>
          cases decoded
          exact Nat.le_refl _
      | succ skipped => cases within
  | cons letter rest ih =>
      rw [List.length_cons] at within ⊢
      cases skipped with
      | succ skipped =>
          have later := ih decoded (Nat.le_of_succ_le_succ within)
          omega
      | zero =>
          rw [decodeFrom] at decoded
          cases here : unit (letter :: rest) with
          | none =>
              rw [here] at decoded
              cases decoded
          | some found =>
              obtain ⟨letters, length⟩ := found
              rw [here] at decoded
              obtain ⟨others, later, rfl⟩ := Option.map_eq_some_iff.mp decoded
              obtain ⟨small, long⟩ := fits _ _ _ here
              rw [List.length_cons] at long
              have bound := ih later (by omega)
              rw [List.length_append]
              omega

theorem decodeFrom_past {text : List Letter} {skipped : Nat} (past : text.length ≤ skipped) :
    decodeFrom unit skipped text = some [] := by
  induction text generalizing skipped with
  | nil => cases skipped <;> rfl
  | cons letter rest ih =>
      cases skipped with
      | zero => cases past
      | succ skipped => exact ih (Nat.le_of_succ_le_succ past)

/-- A text and what it says end with the same letter if its last unit does. -/
theorem decodeFrom_last {text value : List Letter} {skipped : Nat} {last : Letter}
    (ends : ∀ text letters length, unit text = some (letters, length) →
      0 < length ∧ ((text.take length).getLast? = some last → letters.getLast? = some last))
    (decoded : decodeFrom unit skipped text = some value) (within : skipped < text.length)
    (final : text.getLast? = some last) : value.getLast? = some last := by
  induction text generalizing skipped value with
  | nil => cases final
  | cons letter rest ih =>
      have finalRest (some : rest ≠ []) : rest.getLast? = .some last := by
        obtain ⟨next, others, rfl⟩ := List.exists_cons_of_ne_nil some
        rwa [List.getLast?_cons_cons] at final
      rw [List.length_cons] at within
      cases skipped with
      | succ skipped =>
          have shorter : skipped < rest.length := Nat.lt_of_succ_lt_succ within
          refine ih decoded shorter (finalRest ?_)
          exact List.ne_nil_of_length_pos (Nat.zero_lt_of_lt shorter)
      | zero =>
          rw [decodeFrom] at decoded
          cases here : unit (letter :: rest) with
          | none =>
              rw [here] at decoded
              cases decoded
          | some found =>
              obtain ⟨letters, length⟩ := found
              rw [here] at decoded
              obtain ⟨others, later, rfl⟩ := Option.map_eq_some_iff.mp decoded
              obtain ⟨positive, lastUnit⟩ := ends _ _ _ here
              rw [List.getLast?_append]
              by_cases more : length - 1 < rest.length
              · have some : rest ≠ [] := List.ne_nil_of_length_pos (Nat.zero_lt_of_lt more)
                rw [ih later more (finalRest some)]
                rfl
              · rw [decodeFrom_past (Nat.le_of_not_lt more)] at later
                cases later
                have whole : (letter :: rest).take length = letter :: rest :=
                  List.take_of_length_le (by rw [List.length_cons]; omega)
                rw [whole] at lastUnit
                exact lastUnit final

end Decode

variable [DecidableEq Letter]

section Read

-- What the start of a text stands for within a literal, and what closes the literal.
variable (unit : Matcher Letter (List Letter)) (closing : List Letter)

def readFrom : Nat → List Letter → Option (List Letter × List Letter)
  | _, [] => none
  | skipped + 1, _ :: rest => readFrom skipped rest
  | 0, letter :: rest =>
      if closing.isPrefixOf (letter :: rest) then
        some ([], (letter :: rest).drop closing.length)
      else match unit (letter :: rest) with
        | none => none
        | some (letters, length) =>
            (readFrom (length - 1) rest).map fun read => (letters ++ read.1, read.2)

/-- What stands before the text that closes a literal, and what stands behind it. -/
def read (text : List Letter) : Option (List Letter × List Letter) := readFrom unit closing 0 text

variable {unit closing}

theorem readFrom_append (front back : List Letter) :
    readFrom unit closing front.length (front ++ back) = read unit closing back := by
  induction front with
  | nil => rfl
  | cons letter front ih => exact ih

theorem read_closing (some : closing ≠ []) (rest : List Letter) :
    read unit closing (closing ++ rest) = .some ([], rest) := by
  obtain ⟨first, others, rfl⟩ := List.exists_cons_of_ne_nil some
  have closes : (first :: others).isPrefixOf (first :: (others ++ rest)) = true :=
    List.isPrefixOf_iff_prefix.mpr (List.prefix_append (first :: others) rest)
  rw [read, List.cons_append, readFrom, if_pos closes]
  exact congrArg (fun after => Option.some ([], after)) List.drop_left

theorem read_unit {first : Letter} {front back letters : List Letter}
    (inside : closing.isPrefixOf (first :: (front ++ back)) = false)
    (here : unit (first :: (front ++ back)) = some (letters, front.length + 1)) :
    read unit closing (first :: (front ++ back)) =
      (read unit closing back).map fun read => (letters ++ read.1, read.2) := by
  rw [read, readFrom, inside, if_neg Bool.false_ne_true, here]
  change (readFrom unit closing front.length (front ++ back)).map _ = _
  rw [readFrom_append]

theorem read_none {first : Letter} {rest : List Letter}
    (inside : closing.isPrefixOf (first :: rest) = false) (none : unit (first :: rest) = none) :
    read unit closing (first :: rest) = .none := by
  rw [read, readFrom, inside, if_neg Bool.false_ne_true, none]

theorem readFrom_split {text value after : List Letter} {skipped : Nat}
    (units : ∀ text letters length, unit text = some (letters, length) →
      0 < length ∧ length ≤ text.length ∧ letters = text.take length)
    (found : readFrom unit closing skipped text = some (value, after))
    (within : skipped ≤ text.length) : text.drop skipped = value ++ closing ++ after := by
  induction text generalizing skipped value with
  | nil => cases skipped <;> cases found
  | cons letter rest ih =>
      cases skipped with
      | succ skipped => exact ih found (Nat.le_of_succ_le_succ within)
      | zero =>
          rw [readFrom] at found
          split at found
          next closes =>
            cases found
            exact (List.prefix_iff_eq_append.mp (List.isPrefixOf_iff_prefix.mp closes)).symm
          next =>
            cases here : unit (letter :: rest) with
            | none =>
                rw [here] at found
                cases found
            | some taken =>
                obtain ⟨letters, length⟩ := taken
                rw [here] at found
                obtain ⟨others, later, same⟩ := Option.map_eq_some_iff.mp found
                obtain ⟨rfl, rfl⟩ := Prod.mk.inj same
                obtain ⟨positive, fits, exactly⟩ := units _ _ _ here
                obtain ⟨count, rfl⟩ := Nat.exists_eq_add_one_of_ne_zero positive.ne'
                have back := ih later (Nat.le_of_succ_le_succ fits)
                rw [Nat.add_sub_cancel] at back
                rw [List.append_assoc, List.append_assoc, ← List.append_assoc others.1, ← back,
                  exactly, List.take_succ_cons, List.cons_append, List.take_append_drop]
                rfl

/-- The text before the closing text, where the units say the letters they take. -/
theorem read_split {text value after : List Letter}
    (units : ∀ text letters length, unit text = some (letters, length) →
      0 < length ∧ length ≤ text.length ∧ letters = text.take length)
    (found : read unit closing text = some (value, after)) :
    text = value ++ closing ++ after :=
  readFrom_split units found (Nat.zero_le _)

end Read

/-!
## Writing
-/

section Write

variable {unit : Matcher Letter (List Letter)} {quote : Letter} {write : Letter → List Letter}

/-- A text is read back if each of its letters is. -/
theorem read_written {text : List Letter}
    (unquoted : ∀ letter ∈ text, ∃ first front, write letter = first :: front ∧ first ≠ quote ∧
      ∀ back, unit (first :: (front ++ back)) = some ([letter], front.length + 1))
    (rest : List Letter) :
    read unit [quote] (text.flatMap write ++ quote :: rest) = some (text, rest) := by
  induction text with
  | nil => exact read_closing (List.cons_ne_nil quote []) rest
  | cons letter text ih =>
      obtain ⟨⟨first, front, written, other, here⟩, later⟩ := List.forall_mem_cons.mp unquoted
      have inside (back : List Letter) : [quote].isPrefixOf (first :: back) = false := by
        rw [List.isPrefixOf, beq_eq_false_iff_ne.mpr other.symm, Bool.false_and]
      rw [List.flatMap_cons, written, List.append_assoc, List.cons_append,
        read_unit (inside _) (here _), ih later]
      rfl

end Write

/-!
## Digits
-/

def hexDigit (value : Nat) : Char := Nat.digitChar value

def hexValue (letter : Char) : Option Nat :=
  if letter.isDigit then some (letter.toNat - 48)
  else if 'a' ≤ letter ∧ letter ≤ 'f' then some (letter.toNat - 87)
  else if 'A' ≤ letter ∧ letter ≤ 'F' then some (letter.toNat - 55)
  else none

theorem hexValue_hexDigit {value : Nat} (small : value < 16) :
    hexValue (hexDigit value) = some value := by
  revert value
  decide

theorem isAlpha_of_isDigit {letter : Char} (digit : letter.isDigit = true) :
    letter.isAlpha = false := by
  have small := (Char.isDigit_iff_toNat.mp digit).2
  change letter.val.toNat ≤ 57 at small
  have upper : 'A'.val.toNat = 65 := rfl
  have lower : 'a'.val.toNat = 97 := rfl
  refine Bool.or_eq_false_iff.mpr
    ⟨decide_eq_false fun inside => ?_, Bool.and_eq_false_imp.mpr fun inside => ?_⟩
  · have least := UInt32.le_iff_toNat_le.mp inside.1
    omega
  · have least := UInt32.le_iff_toNat_le.mp (of_decide_eq_true inside)
    omega

end Lib.Quoting

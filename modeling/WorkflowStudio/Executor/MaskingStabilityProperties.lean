import WorkflowStudio.Executor.MaskingProperties
import WorkflowStudio.Lib.Settling

/-! Masking twice is masking once: each text that a pattern leaves is settled for it, and the
patterns after it keep it so. -/

set_option autoImplicit false

namespace WorkflowStudio.Executor

open Lib Expression Substitution

/-!
## Letters
-/

/-- A letter that may start a value, and is neither a separator nor a mark. -/
def Opens (letter : Char) : Prop :=
  isAssigned letter = true ∧ isAssignment letter = false ∧ letter ≠ '*'

theorem opens_of_printed {letter : Char} (low : 33 ≤ letter.toNat) (high : letter.toNat ≤ 122)
    (other : letter ∉ ['"', '*', ',', ':', '=']) : Opens letter := by
  have visible : isSpace letter = false := by
    refine Bool.eq_false_iff.mpr fun space => ?_
    simp only [isSpace, Bool.or_eq_true, Bool.and_eq_true, decide_eq_true_eq,
      List.contains_iff_mem, List.mem_cons, List.not_mem_nil, or_false] at space
    omega
  simp only [List.mem_cons, List.not_mem_nil, or_false, not_or] at other
  obtain ⟨quote, mark, comma, colon, equals⟩ := other
  refine ⟨?_, ?_, mark⟩
  · simp [isAssigned, visible, quote, comma]
  · simp [isAssignment, visible, quote, colon, equals]

theorem ascii_of_isAlpha {letter : Char} (alpha : letter.isAlpha = true) :
    65 ≤ letter.toNat ∧ letter.toNat ≤ 122 := by
  have upperLeast : 'A'.val.toNat = 65 := rfl
  have upperMost : 'Z'.val.toNat = 90 := rfl
  have lowerLeast : 'a'.val.toNat = 97 := rfl
  have lowerMost : 'z'.val.toNat = 122 := rfl
  change 65 ≤ letter.val.toNat ∧ letter.val.toNat ≤ 122
  rcases (Bool.or_eq_true _ _).mp alpha with upper | lower
  · obtain ⟨least, most⟩ := of_decide_eq_true upper
    have least := UInt32.le_iff_toNat_le.mp least
    have most := UInt32.le_iff_toNat_le.mp most
    omega
  · obtain ⟨least, most⟩ := (Bool.and_eq_true _ _).mp lower
    have least := UInt32.le_iff_toNat_le.mp (of_decide_eq_true least)
    have most := UInt32.le_iff_toNat_le.mp (of_decide_eq_true most)
    omega

theorem opens_of_isAlpha {letter : Char} (alpha : isAlpha letter = true) : Opens letter := by
  rcases (Bool.or_eq_true _ _).mp alpha with ascii | folded
  · obtain ⟨low, high⟩ := ascii_of_isAlpha ascii
    refine opens_of_printed (by omega) high ?_
    intro member
    simp only [List.mem_cons, List.not_mem_nil, or_false] at member
    rcases member with rfl | rfl | rfl | rfl | rfl <;> exact absurd low (by decide)
  · simp only [List.contains_iff_mem, List.mem_cons, List.not_mem_nil, or_false] at folded
    rcases folded with rfl | rfl | rfl | rfl <;> exact ⟨by decide, by decide, by decide⟩

theorem opens_of_isLocalPart {letter : Char} (part : isLocalPart letter = true) :
    Opens letter := by
  rcases (Bool.or_eq_true _ _).mp part with alnum | sign
  · rcases (Bool.or_eq_true _ _).mp alnum with alpha | digit
    · exact opens_of_isAlpha alpha
    · obtain ⟨low, high⟩ := Char.isDigit_iff_toNat.mp digit
      change 48 ≤ letter.toNat at low
      change letter.toNat ≤ 57 at high
      refine opens_of_printed (by omega) (by omega) ?_
      intro member
      simp only [List.mem_cons, List.not_mem_nil, or_false] at member
      rcases member with rfl | rfl | rfl | rfl | rfl
      · exact absurd low (by decide)
      · exact absurd low (by decide)
      · exact absurd low (by decide)
      · exact absurd high (by decide)
      · exact absurd high (by decide)
  · simp only [List.contains_iff_mem, List.mem_cons, List.not_mem_nil, or_false] at sign
    rcases sign with rfl | rfl | rfl | rfl | rfl <;> exact ⟨by decide, by decide, by decide⟩

/-- What a lower case letter of a pattern matches is a letter. -/
theorem isAlpha_of_isLetter {wanted letter : Char} (lower : wanted.isAlpha = true)
    (matched : isLetter wanted letter = true) : isAlpha letter = true := by
  rcases (Bool.or_eq_true _ _).mp matched with same | folded
  · refine (Bool.or_eq_true _ _).mpr (.inl ?_)
    rw [← eq_of_beq same] at lower
    by_cases upper : letter.isUpper = true
    · exact (Bool.or_eq_true _ _).mpr (.inl upper)
    · have unchanged : letter.toLower = letter :=
        dif_neg fun inside => upper (decide_eq_true inside)
      rwa [unchanged] at lower
  · simp only [foldedLetters, List.contains_iff_mem, List.mem_cons, List.not_mem_nil, or_false,
      Prod.mk.injEq] at folded
    rcases folded with ⟨-, rfl⟩ | ⟨-, rfl⟩ <;> decide

theorem isLetter_unique {first second letter : Char} (lowerFirst : first.isAlpha = true)
    (lowerSecond : second.isAlpha = true) (isFirst : isLetter first letter = true)
    (isSecond : isLetter second letter = true) : first = second := by
  simp only [isLetter, foldedLetters, Bool.or_eq_true, beq_iff_eq, List.contains_iff_mem,
    List.mem_cons, List.not_mem_nil, or_false, Prod.mk.injEq] at isFirst isSecond
  rcases isFirst with rfl | ⟨rfl, rfl⟩ | ⟨rfl, rfl⟩
  · rcases isSecond with same | ⟨-, rfl⟩ | ⟨-, rfl⟩
    · exact same
    · exact absurd lowerFirst (by decide)
    · exact absurd lowerFirst (by decide)
  · rcases isSecond with rfl | ⟨rfl, -⟩ | ⟨-, same⟩
    · exact absurd lowerSecond (by decide)
    · rfl
    · exact absurd same (by decide)
  · rcases isSecond with rfl | ⟨-, same⟩ | ⟨rfl, -⟩
    · exact absurd lowerSecond (by decide)
    · exact absurd same (by decide)
    · rfl

/-!
## Assignments
-/

def maskAssignment (name : String) : Assignment Char where
  name := name.toList.map isLetter
  between := isAssignment
  value := isAssigned
  marks := "********".toList

theorem pattern_maskAssignment (name : String) :
    (maskAssignment name).pattern = assignmentPattern name := by
  unfold Assignment.pattern assignmentPattern maskAssignment word
  rw [List.map_map]
  rfl

def assignedNames : List String := ["password", "token", "secret"]

theorem lawful_maskAssignment {name : String} (among : name ∈ assignedNames) :
    (maskAssignment name).Lawful isAlpha '*' := by
  have letters : name.toList ≠ [] ∧ ∀ wanted ∈ name.toList, wanted.isAlpha = true := by
    simp only [assignedNames, List.mem_cons, List.not_mem_nil, or_false] at among
    rcases among with rfl | rfl | rfl <;> simp
  constructor
  · exact fun none => letters.1 (List.map_eq_nil_iff.mp none)
  · intro accepts member letter accepted
    obtain ⟨wanted, inName, rfl⟩ := List.mem_map.mp member
    exact isAlpha_of_isLetter (letters.2 wanted inName) accepted
  · intro letter separator
    refine Bool.eq_false_iff.mpr fun alpha => ?_
    have refused := (opens_of_isAlpha alpha).2.1
    rw [show isAssignment letter = true from separator] at refused
    cases refused
  · exact fun letter alpha => (opens_of_isAlpha alpha).1
  · exact show isAssignment '*' = false by decide
  · decide
  · exact show isAssigned '*' = true by decide
  · simp [maskAssignment]
  · simp [maskAssignment]

/-- Names that end with different letters are apart. -/
theorem apart_of_last {one two : String} {first second : Char} {others rest : List Char}
    (lastOne : one.toList.reverse = first :: others) (lastTwo : two.toList.reverse = second :: rest)
    (lowerFirst : first.isAlpha = true) (lowerSecond : second.isAlpha = true)
    (different : first ≠ second) : Apart (maskAssignment one) (maskAssignment two) := by
  intro before word spellsOne spellsTwo
  have endsOne := List.forall₂_reverse_iff.mpr spellsOne
  have endsTwo := List.forall₂_reverse_iff.mpr spellsTwo
  rw [List.reverse_append] at endsOne
  unfold maskAssignment at endsOne endsTwo
  rw [← List.map_reverse, lastOne, List.map_cons] at endsOne
  rw [← List.map_reverse, lastTwo, List.map_cons] at endsTwo
  generalize word.reverse = ending at endsOne endsTwo
  cases endsTwo with
  | cons isSecond _ =>
      cases endsOne with
      | cons isFirst _ =>
          exact different (isLetter_unique lowerFirst lowerSecond isFirst isSecond)

theorem apart_assignedNames {one two : String} (among : one ∈ assignedNames)
    (amongTwo : two ∈ assignedNames) (different : one ≠ two) :
    Apart (maskAssignment one) (maskAssignment two) := by
  simp only [assignedNames, List.mem_cons, List.not_mem_nil, or_false] at among amongTwo
  rcases among with rfl | rfl | rfl <;> rcases amongTwo with rfl | rfl | rfl
  · exact absurd rfl different
  · exact apart_of_last rfl rfl (by decide) (by decide) (by decide)
  · exact apart_of_last rfl rfl (by decide) (by decide) (by decide)
  · exact apart_of_last rfl rfl (by decide) (by decide) (by decide)
  · exact absurd rfl different
  · exact apart_of_last rfl rfl (by decide) (by decide) (by decide)
  · exact apart_of_last rfl rfl (by decide) (by decide) (by decide)
  · exact apart_of_last rfl rfl (by decide) (by decide) (by decide)
  · exact absurd rfl different

section Stable

variable (isWord : Char → Bool)

theorem spared_assignment {one two : String} (among : one ∈ assignedNames)
    (amongTwo : two ∈ assignedNames) (different : one ≠ two) :
    (maskAssignment one).Spared isWord isAlpha '*' (assignmentPattern two) := by
  rw [← pattern_maskAssignment two]
  exact (lawful_maskAssignment among).spares isWord (lawful_maskAssignment amongTwo)
    (apart_assignedNames among amongTwo different)
    (apart_assignedNames amongTwo among different.symm)

theorem spared_email {name : String} (among : name ∈ assignedNames) :
    (maskAssignment name).Spared isWord isAlpha '*' emailPattern := by
  refine (lawful_maskAssignment among).spares_whole isWord rfl ?_ rfl ?_
  · have shut : emailPattern.replacement.all (fun letter => !isAlpha letter) = true := by decide
    intro letter member
    have here := List.all_eq_true.mp shut letter member
    rwa [Bool.not_eq_true'] at here
  · intro hidden matched
    cases matched with
    | more accepted _ => exact ⟨_, _, rfl, opens_of_isLocalPart accepted⟩

/-- What the later patterns spare stays settled. -/
theorem settled_foldl {name : String} (among : name ∈ assignedNames)
    {others : List (Pattern Char)}
    (spared : ∀ other ∈ others, other ∈ maskPatterns ∧
      (maskAssignment name).Spared isWord isAlpha '*' other) {text : List Char}
    (settled : (maskAssignment name).Settled text) :
    (maskAssignment name).Settled
      (others.foldl (fun result other => other.sub isWord result) text) := by
  induction others generalizing text with
  | nil => exact settled
  | cons other others ih =>
      obtain ⟨⟨listed, spares⟩, later⟩ := List.forall_mem_cons.mp spared
      have replaces := Pattern.replaces_sub isWord (marking_of_mem listed).2 text
      exact ih later (spares.settled (lawful_maskAssignment among) replaces settled)

/-- A masked text is settled for each of the names. -/
theorem settled_maskChars {name : String} (among : name ∈ assignedNames)
    (before after : List (Pattern Char))
    (whole : maskPatterns = before ++ assignmentPattern name :: after)
    (spared : ∀ other ∈ after, (maskAssignment name).Spared isWord isAlpha '*' other)
    (text : List Char) : (maskAssignment name).Settled (maskChars isWord text) := by
  rw [maskChars, whole, List.foldl_append, List.foldl_cons]
  refine settled_foldl isWord among ?_ ?_
  · intro other member
    refine ⟨?_, spared other member⟩
    rw [whole]
    exact List.mem_append_right _ (List.mem_cons_of_mem _ member)
  · have positive : 0 < leastLength (maskAssignment name).pattern.hidden := Nat.one_pos
    rw [← pattern_maskAssignment]
    exact Assignment.settled_of_replaces (lawful_maskAssignment among)
      (Pattern.replaces_sub isWord positive _)

theorem settled_password (text : List Char) :
    (maskAssignment "password").Settled (maskChars isWord text) := by
  refine settled_maskChars isWord (by simp [assignedNames]) (maskPatterns.take 2)
    (maskPatterns.drop 3) rfl ?_ text
  intro other member
  simp only [maskPatterns, List.drop_succ_cons, List.drop_zero, List.mem_cons, List.not_mem_nil,
    or_false] at member
  rcases member with rfl | rfl | rfl
  · exact spared_assignment isWord (by decide) (by decide) (by decide)
  · exact spared_assignment isWord (by decide) (by decide) (by decide)
  · exact spared_email isWord (by decide)

theorem settled_token (text : List Char) :
    (maskAssignment "token").Settled (maskChars isWord text) := by
  refine settled_maskChars isWord (by simp [assignedNames]) (maskPatterns.take 3)
    (maskPatterns.drop 4) rfl ?_ text
  intro other member
  simp only [maskPatterns, List.drop_succ_cons, List.drop_zero, List.mem_cons, List.not_mem_nil,
    or_false] at member
  rcases member with rfl | rfl
  · exact spared_assignment isWord (by decide) (by decide) (by decide)
  · exact spared_email isWord (by decide)

theorem settled_secret (text : List Char) :
    (maskAssignment "secret").Settled (maskChars isWord text) := by
  refine settled_maskChars isWord (by simp [assignedNames]) (maskPatterns.take 4)
    (maskPatterns.drop 5) rfl ?_ text
  intro other member
  simp only [maskPatterns, List.drop_succ_cons, List.drop_zero, List.mem_cons, List.not_mem_nil,
    or_false] at member
  rcases member with rfl
  exact spared_email isWord (by decide)

theorem sub_of_not_occurs {pattern : Pattern Char} (positive : 0 < leastLength pattern.hidden)
    {text : List Char} (without : ¬ pattern.Occurs isWord none text) :
    pattern.sub isWord text = text :=
  (Pattern.replaces_sub isWord positive text).unchanged without

theorem sub_of_settled {name : String} (among : name ∈ assignedNames) {text : List Char}
    (settled : (maskAssignment name).Settled text) :
    (assignmentPattern name).sub isWord text = text := by
  have positive : 0 < leastLength (maskAssignment name).pattern.hidden := Nat.one_pos
  rw [← pattern_maskAssignment]
  exact settled.unchanged (lawful_maskAssignment among)
    (Pattern.replaces_sub isWord positive text)

theorem sub_masked {pattern : Pattern Char} (among : pattern ∈ maskPatterns) (text : List Char) :
    pattern.sub isWord (maskChars isWord text) = maskChars isWord text := by
  simp only [maskPatterns, List.mem_cons, List.not_mem_nil, or_false] at among
  rcases among with rfl | rfl | rfl | rfl | rfl | rfl
  · exact sub_of_not_occurs isWord (by decide)
      (not_occurs_maskChars isWord solid_sk rfl (by simp [maskPatterns]) text)
  · exact sub_of_not_occurs isWord (by decide)
      (not_occurs_maskChars isWord solid_key rfl (by simp [maskPatterns]) text)
  · exact sub_of_settled isWord (by decide) (settled_password isWord text)
  · exact sub_of_settled isWord (by decide) (settled_token isWord text)
  · exact sub_of_settled isWord (by decide) (settled_secret isWord text)
  · exact sub_of_not_occurs isWord (by decide) (not_occurs_email isWord text)

theorem maskChars_maskChars (text : List Char) :
    maskChars isWord (maskChars isWord text) = maskChars isWord text := by
  have unchanged {others : List (Pattern Char)} (listed : ∀ other ∈ others, other ∈ maskPatterns) :
      others.foldl (fun result pattern => pattern.sub isWord result) (maskChars isWord text) =
        maskChars isWord text := by
    induction others with
    | nil => rfl
    | cons other others ih =>
        obtain ⟨first, later⟩ := List.forall_mem_cons.mp listed
        rw [List.foldl_cons, sub_masked isWord first]
        exact ih later
  exact unchanged fun _ member => member

theorem maskText_maskText (text : String) :
    maskText isWord (maskText isWord text) = maskText isWord text := by
  unfold maskText
  rw [String.toList_ofList, maskChars_maskChars]

end Stable

/-!
## Values
-/

section Idempotent

variable {change : String → String}

mutual

/-- A change of texts that changes nothing the second time, in values too. -/
theorem mapTexts_idem (stable : ∀ text, change (change text) = change text) (value : Value) :
    mapTexts change (mapTexts change value) = mapTexts change value := by
  cases value with
  | dict entries => exact congrArg Value.dict (mapEntryTexts_idem stable entries)
  | list items => exact congrArg Value.list (mapItemTexts_idem stable items)
  | tuple items => exact congrArg Value.list (mapItemTexts_idem stable items)
  | str text => exact congrArg Value.str (stable text)
  | none | bool | int | object => rfl

theorem mapItemTexts_idem (stable : ∀ text, change (change text) = change text)
    (items : List Value) :
    mapItemTexts change (mapItemTexts change items) = mapItemTexts change items := by
  cases items with
  | nil => rfl
  | cons item items =>
      exact congrArg₂ List.cons (mapTexts_idem stable item) (mapItemTexts_idem stable items)

theorem mapEntryTexts_idem (stable : ∀ text, change (change text) = change text)
    (entries : List (Value × Value)) :
    mapEntryTexts change (mapEntryTexts change entries) = mapEntryTexts change entries := by
  cases entries with
  | nil => rfl
  | cons entry entries =>
      exact congrArg₂ List.cons (Prod.ext rfl (mapTexts_idem stable entry.2))
        (mapEntryTexts_idem stable entries)

end

end Idempotent

section Masked

variable (isWord : Char → Bool) (objects : Objects)

/-- The masked value has no key and no address in any of its strings, and masking it again
changes nothing, if and only if there is none in the keys of the dictionaries, nor in the
objects, of the value. -/
theorem mask_complete_stable_iff (value : Value) :
    (∀ text, Within objects text (maskSensitiveData isWord value) → Unmatched isWord text) ∧
        maskSensitiveData isWord (maskSensitiveData isWord value) =
          maskSensitiveData isWord value ↔
      ∀ text, Kept objects text value → Unmatched isWord text := by
  have stable : maskSensitiveData isWord (maskSensitiveData isWord value) =
      maskSensitiveData isWord value := mapTexts_idem (maskText_maskText isWord) value
  rw [and_iff_left stable]
  exact clean_mask_iff

end Masked

/-- A dictionary with an address for a key. -/
def contacts : Value := .dict [(.str "ann@example.com", .int 1)]

def jsonObjects : Objects where
  form := fun _ _ => .itself
  int := fun _ => none
  iterate := fun _ _ => none

/-- The address in a key is not masked. -/
theorem key_keeps_address :
    ¬ ∀ text, Within jsonObjects text (maskSensitiveData Char.isAlphanum contacts) →
      Unmatched Char.isAlphanum text := by
  intro hides
  have shown : Unmatched Char.isAlphanum "ann@example.com" :=
    hides "ann@example.com" (within_mapTexts_of_kept (.key List.mem_cons_self .here))
  have found : (emailPattern.matchAt Char.isAlphanum none "ann@example.com".toList).isSome := by
    decide +kernel
  obtain ⟨address, search⟩ := Option.isSome_iff_exists.mp found
  exact shown emailPattern (by simp [secretPatterns])
    (Pattern.occurs_of_matchAt Char.isAlphanum search)

end WorkflowStudio.Executor

import WorkflowStudio.Expression.Selector

/-! The path that is written for a place is read back, and leads to the place, exactly when
every key is written in a notation that can be read. -/

set_option autoImplicit false

namespace WorkflowStudio.Expression

open Lib.Scanning

/-!
## Segments
-/

/-- A key that a path can hold: an index, a name, or a text without a single quote. -/
def ReadablePart (part : List Char) : Prop :=
  isIndexPart part = true ∨
    (if isSpecialPart part then '\'' ∉ part else ∃ first, part.head? = some first ∧
      isWordStart first = true)

instance (part : List Char) : Decidable (ReadablePart part) := by
  unfold ReadablePart
  cases part with
  | nil => exact decidable_of_iff False (by simp [isIndexPart, isSpecialPart])
  | cons first rest =>
      exact decidable_of_iff (isIndexPart (first :: rest) = true ∨
        (if isSpecialPart (first :: rest) then '\'' ∉ first :: rest else isWordStart first = true))
        (by simp)

/-- What may follow a segment: the end, or another segment. -/
def Segmented (rest : List Char) : Prop := rest = [] ∨ ∃ others, rest = '.' :: others ∨
  rest = '[' :: others

theorem segmented_pathSegments (pathParts : List String) : Segmented (pathSegments pathParts) := by
  cases pathParts with
  | nil => exact .inl rfl
  | cons part rest =>
      refine .inr ?_
      rw [pathSegments, List.flatMap_cons, pathSegment]
      split
      · exact ⟨_, .inr rfl⟩
      · split
        · exact ⟨_, .inr rfl⟩
        · exact ⟨_, .inl rfl⟩

theorem Segmented.stops {rest : List Char} (segmented : Segmented rest) :
    ∀ value, rest.head? = some value → isWordPart value = false := by
  rcases segmented with rfl | ⟨others, rfl | rfl⟩
  · intro value absent
    cases absent
  · intro value same
    cases same
    decide
  · intro value same
    cases same
    decide

theorem isWordPart_of_start {value : Char} (start : isWordStart value = true) :
    isWordPart value = true := by
  rw [isWordStart, Bool.or_eq_true] at start
  rw [isWordPart, Bool.or_eq_true, Char.isAlphanum, Bool.or_eq_true]
  exact start.imp .inl id

theorem all_wordPart {part : List Char} (plain : isSpecialPart part = false) :
    ∀ value ∈ part, isWordPart value = true := by
  intro value member
  have here := List.any_eq_false.mp plain value member
  simpa using here

theorem matchName_of {first : Char} {name rest : List Char} (start : isWordStart first = true)
    (word : ∀ value ∈ name, isWordPart value = true) (segmented : Segmented rest) :
    matchName (first :: (name ++ rest)) = some (first :: name, name.length + 1) := by
  rw [matchName, if_pos start, (takeWhile_run word segmented.stops).1]

/-!
## Matches
-/

theorem matchName_none {first : Char} (noStart : isWordStart first = false) (rest : List Char) :
    matchName (first :: rest) = none := if_neg (by rw [noStart]; exact Bool.false_ne_true)

theorem matchEnclosed_none {letter first : Char} (other : letter ≠ first)
    (opening closing rest : List Char) (inside : Char → Bool) :
    matchEnclosed (letter :: opening) inside closing (first :: rest) = none := by
  have different : (letter == first) = false := beq_eq_false_iff_ne.mpr other
  refine if_neg fun starts => ?_
  rw [List.isPrefixOf, different, Bool.false_and] at starts
  exact absurd starts.1 Bool.false_ne_true

theorem matchPart_property {first : Char} (noBracket : '[' ≠ first) (rest : List Char) :
    matchPart (first :: rest) = matchProperty (first :: rest) := by
  rw [matchPart, matchIndex, matchQuoted, matchQuoted, matchEnclosed_none noBracket,
    matchEnclosed_none noBracket, matchEnclosed_none noBracket, Option.or_none, Option.or_none,
    Option.or_none]

theorem matchPart_word {first : Char} {name rest : List Char} (start : isWordStart first = true)
    (word : ∀ value ∈ name, isWordPart value = true) (segmented : Segmented rest) :
    matchPart (first :: (name ++ rest)) = some (first :: name, name.length + 1) := by
  have noDot : first ≠ '.' := by
    rintro rfl
    exact absurd start (by decide)
  have named : matchProperty (first :: (name ++ rest)) = some (first :: name, name.length + 1) := by
    rw [matchProperty, matchName_of start word segmented]
    exact fun _ same => noDot (List.cons.inj same).1
  rw [matchPart, named, Option.some_or, Option.some_or, Option.some_or]

theorem matchPart_other {first : Char} (noStart : isWordStart first = false) (noDot : first ≠ '.')
    (noBracket : '[' ≠ first) (rest : List Char) : matchPart (first :: rest) = none := by
  rw [matchPart_property noBracket, matchProperty]
  · exact matchName_none noStart rest
  · exact fun _ same => noDot (List.cons.inj same).1

theorem matchPart_dot {first : Char} (noStart : isWordStart first = false) (rest : List Char) :
    matchPart ('.' :: first :: rest) = none := by
  rw [matchPart_property (by decide), matchProperty, matchName_none noStart, Option.map_none]

theorem matchPart_bracket (rest : List Char) :
    matchPart ('[' :: rest) =
      ((matchIndex ('[' :: rest)).or (matchQuoted '\'' ('[' :: rest))).or
        (matchQuoted '"' ('[' :: rest)) := by
  have noProperty : matchProperty ('[' :: rest) = none := by
    rw [matchProperty]
    · exact matchName_none (by decide) rest
    · exact fun _ same => absurd (List.cons.inj same).1 (by decide)
  rw [matchPart, noProperty, Option.none_or]

theorem matchIndex_quote (rest : List Char) : matchIndex ('[' :: '\'' :: rest) = none := by
  have noRun : enclosedRun ['['] Char.isDigit ('[' :: '\'' :: rest) = [] :=
    List.takeWhile_cons_of_neg (by decide)
  rw [matchIndex, matchEnclosed]
  refine if_neg ?_
  rintro ⟨_, some, _⟩
  exact some noRun

/-- A segment that can be read is read as its key. -/
theorem matchPart_segment {part rest : List Char} (readable : ReadablePart part)
    (segmented : Segmented rest) :
    matchPart (pathSegment part ++ rest) = some (part, (pathSegment part).length) := by
  rw [pathSegment]
  by_cases index : isIndexPart part = true
  · rw [if_pos index, List.cons_append, List.append_assoc, matchPart_bracket]
    rw [isIndexPart, Bool.and_eq_true, Bool.not_eq_true', List.isEmpty_eq_false_iff] at index
    have read := @matchEnclosed_of _ ['['] Char.isDigit [']'] _ _ part rest index.1
      (List.all_eq_true.mp index.2) (by simp)
    rw [matchIndex]
    rw [List.cons_append, List.nil_append] at read
    rw [read, Option.some_or, Option.some_or]
    simp [Nat.add_comm]
  · rw [if_neg index]
    rcases readable with isIndex | readable
    · exact absurd isIndex index
    · by_cases special : isSpecialPart part = true
      · rw [if_pos special] at readable ⊢
        have some : part ≠ [] := by
          rintro rfl
          exact absurd special (by decide)
        have read := @matchEnclosed_of _ ['[', '\''] (· != '\'') ['\'', ']'] _ _ part rest some
          (fun value member => bne_iff_ne.mpr fun same => readable (same ▸ member)) (by simp)
        rw [List.cons_append, List.cons_append, List.append_assoc, matchPart_bracket,
          matchIndex_quote, Option.none_or, matchQuoted]
        rw [List.cons_append, List.cons_append, List.nil_append] at read
        rw [read, Option.some_or]
        simp only [List.length_cons, List.length_append, List.length_nil]
        congr 2
        omega
      · rw [if_neg special] at readable ⊢
        obtain ⟨first, head, start⟩ := readable
        obtain ⟨name, rfl⟩ : ∃ name, part = first :: name := by
          cases part with
          | nil => cases head
          | cons other name => exact ⟨name, by rw [Option.some.inj head]⟩
        have word := all_wordPart (Bool.eq_false_iff.mpr special)
        have read := @matchName_of first name rest start
          (fun value member => word value (List.mem_cons_of_mem _ member)) segmented
        rw [List.cons_append, List.cons_append, matchPart, matchProperty, read, Option.map_some,
          Option.some_or, Option.some_or, Option.some_or]
        rfl

theorem segment_ne_nil (part : List Char) : pathSegment part ≠ [] := by
  rw [pathSegment]
  split
  · exact List.cons_ne_nil _ _
  · split <;> exact List.cons_ne_nil _ _

theorem matchesOf_segment {part rest : List Char} (readable : ReadablePart part)
    (segmented : Segmented rest) :
    matchesOf matchPart (pathSegment part ++ rest) = part :: matchesOf matchPart rest :=
  matchesOf_match (matchPart_segment readable segmented) (segment_ne_nil part)

/-!
## Keys that cannot be read
-/

theorem matchName_found {text found : List Char} {length : Nat}
    (here : matchName text = some (found, length)) :
    found ≠ [] ∧ ∀ value ∈ found, isWordPart value = true := by
  cases text with
  | nil => cases here
  | cons first rest =>
      rw [matchName, Option.ite_none_right_eq_some] at here
      obtain ⟨start, same⟩ := here
      obtain ⟨rfl, -⟩ := Prod.mk.inj (Option.some.inj same)
      refine ⟨List.cons_ne_nil _ _, fun value member => ?_⟩
      rcases List.mem_cons.mp member with rfl | later
      · exact isWordPart_of_start start
      · exact List.mem_takeWhile_imp later

theorem matchProperty_found {text found : List Char} {length : Nat}
    (here : matchProperty text = some (found, length)) :
    found ≠ [] ∧ ∀ value ∈ found, isWordPart value = true := by
  unfold matchProperty at here
  split at here
  · obtain ⟨⟨name, size⟩, inner, same⟩ := Option.map_eq_some_iff.mp here
    obtain ⟨rfl, -⟩ := Prod.mk.inj same
    exact matchName_found inner
  · exact matchName_found here

/-- No part is empty, and one with a single quote stands between double quotes. -/
theorem matchPart_found {text found : List Char} {length : Nat}
    (here : matchPart text = some (found, length)) :
    found ≠ [] ∧ ('\'' ∈ found → '"' ∉ found ∧ ∃ rest, text = '[' :: '"' :: rest) := by
  rw [matchPart] at here
  rcases Option.or_eq_some_iff.mp here with here | ⟨-, here⟩
  · rcases Option.or_eq_some_iff.mp here with here | ⟨-, here⟩
    · rcases Option.or_eq_some_iff.mp here with here | ⟨-, here⟩
      · obtain ⟨some, word⟩ := matchProperty_found here
        exact ⟨some, fun quote => absurd (word _ quote) (by decide)⟩
      · obtain ⟨some, digits, _⟩ := of_matchEnclosed here
        exact ⟨some, fun quote => absurd (digits _ quote) (by decide)⟩
    · obtain ⟨some, inside, _⟩ := of_matchEnclosed here
      exact ⟨some, fun quote => absurd (inside _ quote) (by decide)⟩
  · obtain ⟨some, inside, rest, rfl⟩ := of_matchEnclosed here
    exact ⟨some, fun _ => ⟨fun double => absurd (inside _ double) (by decide), _, rfl⟩⟩

theorem found_of_mem {text found : List Char} (member : found ∈ matchesOf matchPart text) :
    found ≠ [] ∧ ('\'' ∈ found → '"' ∉ found) := by
  obtain ⟨_, _, _, _, here⟩ := exists_of_mem member
  obtain ⟨some, quoted⟩ := matchPart_found here
  exact ⟨some, fun quote => (quoted quote).1⟩

/-- Of a name that starts with a digit the part from the first letter on is read. -/
theorem matchesOf_digits {part rest : List Char} (unreadable : ¬ ReadablePart part)
    (plain : isSpecialPart part = false) (some : part ≠ []) (segmented : Segmented rest) :
    ∃ read others, matchesOf matchPart (pathSegment part ++ rest) = read :: others ∧
      read.length < part.length ∧ ∀ value ∈ read, isWordPart value = true := by
  have noIndex : ¬ isIndexPart part = true := fun index => unreadable (.inl index)
  have word := all_wordPart plain
  have segment : pathSegment part = '.' :: part := by
    rw [pathSegment, if_neg noIndex, plain, if_neg Bool.false_ne_true]
  obtain ⟨digits, letters, split, front, back⟩ : ∃ digits letters, part = digits ++ letters ∧
      (∀ value ∈ digits, isWordStart value = false) ∧
      ∀ value, letters.head? = .some value → isWordStart value = true := by
    refine ⟨part.takeWhile fun value => !isWordStart value,
      part.dropWhile fun value => !isWordStart value, (List.takeWhile_append_dropWhile).symm, ?_, ?_⟩
    · intro value member
      simpa using List.mem_takeWhile_imp member
    · intro value head
      have stops := List.head?_dropWhile_not (fun value => !isWordStart value) part
      rw [head] at stops
      simpa using stops
  cases letters with
  | nil =>
      rw [List.append_nil] at split
      subst split
      refine absurd ?_ noIndex
      rw [isIndexPart, Bool.and_eq_true, Bool.not_eq_true', List.isEmpty_eq_false_iff]
      refine ⟨some, List.all_eq_true.mpr fun value member => ?_⟩
      have isWord := word value member
      have noStart := front value member
      rw [isWordStart, Bool.or_eq_false_iff] at noStart
      rw [isWordPart, Char.isAlphanum, noStart.1, noStart.2, Bool.false_or, Bool.or_false] at isWord
      exact isWord
  | cons first name =>
      have start := back first rfl
      cases digits with
      | nil =>
          refine absurd (.inr ?_) unreadable
          rw [plain, if_neg Bool.false_ne_true, split]
          exact ⟨first, rfl, start⟩
      | cons digit digits =>
          subst split
          have passed : matchesOf matchPart ('.' :: digit :: digits ++ (first :: (name ++ rest))) =
              matchesOf matchPart (first :: (name ++ rest)) := by
            apply matchesOf_append
            intro before after same nonempty
            cases before with
            | nil =>
                cases same
                exact matchPart_dot (front digit List.mem_cons_self) _
            | cons dot before =>
                obtain ⟨rfl, within⟩ := List.cons.inj same
                cases after with
                | nil => exact absurd rfl nonempty
                | cons value after =>
                    have member : value ∈ digit :: digits := by
                      rw [within]
                      exact List.mem_append_right _ List.mem_cons_self
                    have isWord := word value (List.mem_append_left _ member)
                    refine matchPart_other (front value member) ?_ ?_ _
                    · rintro rfl
                      exact absurd isWord (by decide)
                    · rintro rfl
                      exact absurd isWord (by decide)
          have named : ∀ value ∈ first :: name, isWordPart value = true := fun value member =>
            word value (List.mem_append_right _ member)
          have read := @matchPart_word first name rest start
            (fun value member => named value (List.mem_cons_of_mem _ member)) segmented
          refine ⟨first :: name, matchesOf matchPart rest, ?_, ?_, named⟩
          · rw [segment]
            have found : matchesOf matchPart (first :: (name ++ rest)) =
                (first :: name) :: matchesOf matchPart rest :=
              @matchesOf_match _ _ _ (first :: name) rest _ read (List.cons_ne_nil _ _)
            rw [← found, ← passed]
            simp
          · simp only [List.length_append, List.length_cons]
            omega

/-- A text between single quotes in which no double quote stands is passed over by a match
with a single quote. -/
theorem matchesOf_quoted {part rest first : List Char} {others : List (List Char)}
    (special : isSpecialPart part = true) (noIndex : isIndexPart part = false)
    (single : '"' ∉ part) (quote : '\'' ∈ first)
    (matched : matchesOf matchPart (pathSegment part ++ rest) = first :: others) :
    matchesOf matchPart (pathSegment part ++ rest) = matchesOf matchPart rest := by
  have segment : pathSegment part = ('[' :: '\'' :: (part ++ ['\''])) ++ [']'] := by
    rw [pathSegment, noIndex, if_neg Bool.false_ne_true, if_pos special]
    simp
  refine matchesOf_passed matched ?_
  intro before after length same nonempty here
  obtain ⟨-, quoted⟩ := matchPart_found here
  obtain ⟨-, later, starts⟩ := quoted quote
  rw [segment] at same
  cases after with
  | nil => exact nonempty rfl
  | cons value after =>
      obtain ⟨rfl, starts⟩ := List.cons.inj starts
      cases after with
      | nil =>
          have last := congrArg List.getLast? same
          rw [List.getLast?_concat, List.getLast?_concat] at last
          exact absurd (Option.some.inj last) (by decide)
      | cons double after =>
          rw [List.cons_append, List.cons_append] at starts
          obtain ⟨rfl, -⟩ := List.cons.inj (List.cons.inj starts).2
          have member : '"' ∈ ('[' :: '\'' :: (part ++ ['\''])) ++ [']'] := by
            rw [same]
            exact List.mem_append_right _ (List.mem_cons_of_mem _ List.mem_cons_self)
          simp [single] at member

/-!
## Round trip
-/

def ReadableParts (pathParts : List String) : Prop :=
  ∀ part ∈ pathParts, ReadablePart part.toList

instance (pathParts : List String) : Decidable (ReadableParts pathParts) :=
  inferInstanceAs (Decidable (∀ part ∈ pathParts, ReadablePart part.toList))

theorem matchesOf_pathSegments {pathParts : List String} (readable : ReadableParts pathParts) :
    matchesOf matchPart (pathSegments pathParts) = pathParts.map String.toList := by
  induction pathParts with
  | nil => rfl
  | cons part rest ih =>
      obtain ⟨here, later⟩ := List.forall_mem_cons.mp readable
      rw [pathSegments, List.flatMap_cons]
      exact (matchesOf_segment here (segmented_pathSegments rest)).trans
        (congrArg _ (ih later))

/-- What stands before the keys in the matches are keys with a quote whose segments were passed
over; each segment that is passed over moves one key there, and so none can be. -/
theorem readable_of_matchesOf {pathParts : List String} {before : List (List Char)}
    (quotes : ∀ part ∈ before, '\'' ∈ part)
    (read : matchesOf matchPart (pathSegments pathParts) =
      before ++ pathParts.map String.toList) :
    before = [] ∧ ReadableParts pathParts := by
  induction pathParts generalizing before with
  | nil =>
      rw [List.map_nil, List.append_nil] at read
      exact ⟨read.symm, List.forall_mem_nil _⟩
  | cons part rest ih =>
      have moved {front : List (List Char)} (quotes : ∀ part ∈ front, '\'' ∈ part)
          (quote : '\'' ∈ part.toList)
          (read : matchesOf matchPart (pathSegments rest) =
            front ++ part.toList :: rest.map String.toList) : False := by
        rw [← List.singleton_append, ← List.append_assoc] at read
        refine List.append_ne_nil_of_right_ne_nil front (List.cons_ne_nil part.toList [])
          (ih ?_ read).1
        rintro other member
        rcases List.mem_append.mp member with among | last
        · exact quotes other among
        · exact List.mem_singleton.mp last ▸ quote
      have found : part.toList ∈ matchesOf matchPart (pathSegments (part :: rest)) := by
        rw [read]
        exact List.mem_append_right _ List.mem_cons_self
      obtain ⟨nonempty, noDouble⟩ := found_of_mem found
      rw [pathSegments, List.flatMap_cons, List.map_cons] at read
      have segmented : Segmented (rest.flatMap fun part => pathSegment part.toList) :=
        segmented_pathSegments rest
      by_cases readable : ReadablePart part.toList
      · rw [matchesOf_segment readable segmented] at read
        cases before with
        | nil =>
            obtain ⟨-, later⟩ := List.cons.inj read
            exact ⟨rfl, List.forall_mem_cons.mpr
              ⟨readable, (@ih [] (List.forall_mem_nil _) later).2⟩⟩
        | cons first before =>
            obtain ⟨rfl, later⟩ := List.cons.inj read
            obtain ⟨quote, quotes⟩ := List.forall_mem_cons.mp quotes
            exact (moved quotes quote later).elim
      · by_cases special : isSpecialPart part.toList = true
        · have noIndex : isIndexPart part.toList = false :=
            Bool.eq_false_iff.mpr fun index => readable (.inl index)
          have quote : '\'' ∈ part.toList := by
            by_contra absent
            exact readable (.inr (by rwa [if_pos special]))
          cases before with
          | nil =>
              have passed := matchesOf_quoted special noIndex (noDouble quote) quote read
              exact (@moved [] (List.forall_mem_nil _) quote (passed.symm.trans read)).elim
          | cons first before =>
              have passed := matchesOf_quoted special noIndex (noDouble quote)
                (quotes first List.mem_cons_self) read
              exact (moved quotes quote (passed.symm.trans read)).elim
        · obtain ⟨name, others, matched, shorter, word⟩ :=
            matchesOf_digits readable (Bool.eq_false_iff.mpr special) nonempty segmented
          rw [matched] at read
          cases before with
          | nil =>
              obtain ⟨rfl, -⟩ := List.cons.inj read
              exact absurd shorter (Nat.lt_irrefl _)
          | cons first before =>
              obtain ⟨rfl, -⟩ := List.cons.inj read
              exact absurd (word _ (quotes name List.mem_cons_self)) (by decide)

theorem matchesOf_dropDot (text : List Char) :
    matchesOf matchPart (dropDot text) = matchesOf matchPart text := by
  unfold dropDot
  split
  next rest =>
    cases rest with
    | nil => rfl
    | cons first rest =>
        cases start : isWordStart first with
        | false => exact (matchesOf_letter (matchPart_dot start rest)).symm
        | true =>
            have named : matchName (first :: rest) = some (first :: rest.takeWhile isWordPart,
                (rest.takeWhile isWordPart).length + 1) := if_pos start
            have noBracket : '[' ≠ first := by
              rintro rfl
              exact absurd start (by decide)
            have here : matchPart (first :: rest) = some (first :: rest.takeWhile isWordPart,
                (rest.takeWhile isWordPart).length + 1) := by
              rw [matchPart_property noBracket, matchProperty, named]
              intro other same
              obtain ⟨rfl, -⟩ := List.cons.inj same
              exact absurd start (by decide)
            have dotted : matchPart ('.' :: first :: rest) =
                some (first :: rest.takeWhile isWordPart,
                  (rest.takeWhile isWordPart).length + 2) := by
              rw [matchPart_property (by decide), matchProperty, named]
              rfl
            rw [matchesOf, matchesOf, scan, scan, scanFrom, scanFrom, here, dotted]
            rfl
  next => rfl

theorem parseExpressionPath_generated (pathParts : List String) :
    parseExpressionPath (generateExpressionPath pathParts "_json") =
      ⟨some "_json", pathPartsOf (pathSegments pathParts)⟩ := by
  have letters : (generateExpressionPath pathParts "_json").toList =
      '_' :: (['j', 's', 'o', 'n'] ++ pathSegments pathParts) := by
    rw [generateExpressionPath, String.toList_ofList]
    rfl
  have word : ∀ value ∈ ['j', 's', 'o', 'n'], isWordPart value = true :=
    List.all_eq_true.mp (by decide)
  obtain ⟨taken, left⟩ := takeWhile_run word (segmented_pathSegments pathParts).stops
  have nameSpace : matchNamespace (generateExpressionPath pathParts "_json").toList =
      some (['_', 'j', 's', 'o', 'n'], pathSegments pathParts) := by
    rw [letters, matchNamespace, taken, left]
    exact if_neg (List.cons_ne_nil _ _)
  rw [parseExpressionPath, nameSpace]
  change ParsedPath.mk (some "_json") (pathPartsOf (dropDot (pathSegments pathParts))) = _
  rw [pathPartsOf, matchesOf_dropDot]
  rfl

/-- The parts come back exactly if all of them can be read. -/
theorem parse_generated_iff (pathParts : List String) :
    parseExpressionPath (generateExpressionPath pathParts "_json") = ⟨some "_json", pathParts⟩ ↔
      ReadableParts pathParts := by
  rw [parseExpressionPath_generated, ParsedPath.mk.injEq, pathPartsOf]
  constructor
  · rintro ⟨-, same⟩
    have texts := congrArg (List.map String.toList) same
    rw [List.map_map] at texts
    have read : matchesOf matchPart (pathSegments pathParts) = pathParts.map String.toList := by
      rw [← texts]
      exact (List.map_id' _).symm.trans
        (List.map_congr_left fun text _ => (String.toList_ofList).symm)
    exact (@readable_of_matchesOf pathParts [] (List.forall_mem_nil _) read).2
  · intro readable
    rw [matchesOf_pathSegments readable, List.map_map]
    exact ⟨rfl, (List.map_congr_left fun part _ => String.ofList_toList).trans (List.map_id' _)⟩

section Resolve

variable (inherited : Value → String → Option Value)

theorem ownProperty_none (part : String) : ownProperty .none part = none := rfl

theorem navigate_of_valueAt {document value : Value} {pathParts : List String}
    (leads : valueAt document pathParts = some value) :
    navigate inherited (some document) pathParts = some value := by
  induction pathParts generalizing document with
  | nil => rwa [navigate]
  | cons part rest ih =>
      rw [valueAt] at leads
      obtain ⟨inner, owned, leads⟩ := Option.bind_eq_some_iff.mp leads
      have notNone : document ≠ .none := by
        rintro rfl
        rw [ownProperty_none] at owned
        cases owned
      rw [navigate, if_neg notNone, owned, Option.some_or]
      exact ih leads

theorem scriptTruthy_of_ownProperty {document inner : Value} {part : String}
    (owned : ownProperty document part = some inner) : document.scriptTruthy = true := by
  unfold ownProperty at owned
  split at owned
  · rfl
  · rfl
  · cases owned

theorem scriptOr_dict_eq {document : Value} (same : document.scriptOr (.dict []) = document) :
    document.scriptTruthy = true := by
  cases truthy : document.scriptTruthy with
  | true => rfl
  | false =>
      rw [Value.scriptOr, truthy, if_neg Bool.false_ne_true] at same
      rw [← same] at truthy
      cases truthy

/-- The path that is generated for a place is read as its keys and leads to its value exactly if
each key is an index, a name, or a text with other letters and without a single quote, and the
document is not a falsy value itself. -/
theorem generated_path_round_trip_iff {document value : Value} {pathParts : List String}
    (leads : valueAt document pathParts = some value) :
    (parseExpressionPath (generateExpressionPath pathParts "_json") = ⟨some "_json", pathParts⟩ ∧
        resolveExpression inherited (generateExpressionPath pathParts "_json")
          { json := document } = .ok (some value)) ↔
      ReadableParts pathParts ∧ (pathParts = [] → document.scriptTruthy = true) := by
  rw [parse_generated_iff]
  refine and_congr_right fun readable => ?_
  have resolved : resolveExpression inherited (generateExpressionPath pathParts "_json")
      { json := document } =
        .ok (navigate inherited (some (document.scriptOr (.dict []))) pathParts) := by
    rw [resolveExpression, (parse_generated_iff pathParts).mpr readable]
    rfl
  rw [resolved]
  cases pathParts with
  | nil =>
      cases leads
      rw [navigate]
      constructor
      · intro same _
        exact scriptOr_dict_eq (Option.some.inj (Except.ok.inj same))
      · intro truthy
        rw [Value.scriptOr, if_pos (truthy rfl)]
  | cons part rest =>
      obtain ⟨inner, owned, _⟩ := Option.bind_eq_some_iff.mp leads
      have truthy := scriptTruthy_of_ownProperty owned
      rw [Value.scriptOr, if_pos truthy, navigate_of_valueAt inherited leads]
      exact iff_of_true rfl fun absent => absurd absent (List.cons_ne_nil _ _)

/-- With a name that starts with a digit the value of another key is taken. -/
theorem generated_path_lost :
    valueAt (.dict [(.str "2fa", .int 1), (.str "fa", .int 2)]) ["2fa"] = some (.int 1) ∧
      parseExpressionPath (generateExpressionPath ["2fa"] "_json") ≠ ⟨some "_json", ["2fa"]⟩ ∧
      resolveExpression (fun _ _ => none) (generateExpressionPath ["2fa"] "_json")
        { json := .dict [(.str "2fa", .int 1), (.str "fa", .int 2)] } ≠ .ok (some (.int 1)) := by
  have parsed : parseExpressionPath (generateExpressionPath ["2fa"] "_json") =
      ⟨some "_json", ["fa"]⟩ := by decide +kernel
  refine ⟨rfl, by rw [parsed]; decide, ?_⟩
  rw [resolveExpression, parsed]
  change Except.ok (some (Value.int 2)) ≠ .ok (some (.int 1))
  rintro same
  cases same

theorem generated_path_round_trip_quoted :
    (parseExpressionPath (generateExpressionPath ["first name", "0"] "_json") =
        ⟨some "_json", ["first name", "0"]⟩ ∧
      resolveExpression (fun _ _ => none) (generateExpressionPath ["first name", "0"] "_json")
        { json := .dict [(.str "first name", .list [.int 7])] } = .ok (some (.int 7))) :=
  (generated_path_round_trip_iff _ (by rfl)).mpr
    ⟨by decide +kernel, fun absent => absurd absent (List.cons_ne_nil _ _)⟩

end Resolve

end WorkflowStudio.Expression

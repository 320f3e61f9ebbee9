import Mathlib.Data.List.Forall2
import WorkflowStudio.Lib.Substitution

/-! Patterns that keep a name with separators behind it and hide the run of letters that follows.
A text is settled for such a pattern if all that it would hide is hidden already: replacing leaves
a settled text as it is, makes every text settled, and keeps it settled for other names. -/

set_option autoImplicit false

namespace Lib.Substitution

variable {Letter : Type}

/-!
## Runs
-/

def Accepted (accepts : Letter → Bool) (text : List Letter) : Prop :=
  ∀ letter ∈ text, accepts letter = true

/-- The text ends, or goes on with a letter that is not accepted. -/
def Stops (accepts : Letter → Bool) (text : List Letter) : Prop :=
  ∀ letter, text.head? = some letter → accepts letter = false

theorem stops_nil (accepts : Letter → Bool) : Stops accepts [] := by
  rintro letter ⟨⟩

theorem stops_cons {accepts : Letter → Bool} {letter : Letter} {text : List Letter} :
    Stops accepts (letter :: text) ↔ accepts letter = false := by
  constructor
  · intro stops
    exact stops letter rfl
  · rintro refused other ⟨⟩
    exact refused

theorem matches_many_iff {accepts : Letter → Bool} {least : Nat} {text : List Letter} :
    Matches [.many accepts least] text ↔ least ≤ text.length ∧ Accepted accepts text := by
  constructor
  · intro matched
    refine ⟨?_, fun letter member => ?_⟩
    · have long := matched.least_le
      rwa [leastLength, leastLength, Item.least, Nat.add_zero] at long
    · obtain ⟨item, among, accepted⟩ := matched.accepted member
      obtain rfl := List.mem_singleton.mp among
      exact accepted
  · rintro ⟨long, accepted⟩
    induction text generalizing least with
    | nil =>
        obtain rfl := Nat.le_zero.mp long
        exact .enough .done
    | cons letter text ih =>
        obtain ⟨first, rest⟩ := List.forall_mem_cons.mp accepted
        exact .more first (ih (Nat.sub_le_of_le_add long) rest)

/-- The letters of a name, one for each of its parts. -/
abbrev Spells (name : List (Letter → Bool)) (text : List Letter) : Prop :=
  List.Forall₂ (fun accepts letter => accepts letter = true) name text

theorem matches_name_iff {name : List (Letter → Bool)} {items : List (Item Letter)}
    {text : List Letter} :
    Matches (name.map .one ++ items) text ↔
      ∃ word rest, text = word ++ rest ∧ Spells name word ∧ Matches items rest := by
  induction name generalizing text with
  | nil =>
      constructor
      · exact fun matched => ⟨[], text, rfl, .nil, matched⟩
      · rintro ⟨word, rest, rfl, spells, matched⟩
        cases spells
        exact matched
  | cons accepts name ih =>
      constructor
      · intro matched
        cases matched with
        | one accepted matched =>
            obtain ⟨word, rest, rfl, spells, matched⟩ := ih.mp matched
            exact ⟨_ :: word, rest, rfl, .cons accepted spells, matched⟩
      · rintro ⟨word, rest, rfl, spells, matched⟩
        cases spells with
        | cons accepted spells => exact .one accepted (ih.mpr ⟨_, rest, rfl, spells, matched⟩)

section Greedy

variable {Rest : Type}

/-- A run goes on as far as it can. -/
theorem matchMany_run {accepts : Letter → Bool}
    (next : Continuation Letter (List Letter × Rest)) {run rest : List Letter}
    (accepted : Accepted accepts run) (stops : Stops accepts rest) {least : Nat}
    (long : least ≤ run.length) (last : Option Letter) {found : List Letter × Rest}
    (continued : next (lastOf last run) rest = some found) :
    matchMany accepts next least last (run ++ rest) = some (run ++ found.1, found.2) := by
  induction run generalizing least last with
  | nil =>
      obtain rfl := Nat.le_zero.mp long
      rw [List.nil_append]
      cases rest with
      | nil =>
          rw [matchMany, if_pos rfl]
          exact continued
      | cons letter rest =>
          rw [matchMany, stops letter rfl, if_neg Bool.false_ne_true, Option.none_or, if_pos rfl]
          exact continued
  | cons letter run ih =>
      obtain ⟨first, accepted⟩ := List.forall_mem_cons.mp accepted
      rw [List.cons_append, matchMany, if_pos first,
        ih accepted (Nat.sub_le_of_le_add long) _ continued]
      rfl

theorem matchItems_name {name : List (Letter → Bool)} {word : List Letter}
    (spells : Spells name word) {items : List (Item Letter)} {next : Continuation Letter Rest}
    {last : Option Letter} {rest : List Letter} {found : List Letter × Rest}
    (continued : matchItems items next (lastOf last word) rest = some found) :
    matchItems (name.map .one ++ items) next last (word ++ rest) =
      some (word ++ found.1, found.2) := by
  induction spells generalizing last with
  | nil => exact continued
  | @cons accepts letter name word accepted _ ih =>
      rw [List.map_cons, List.cons_append, List.cons_append, matchItems, if_pos accepted,
        ih continued]
      rfl

theorem matchMany_isSome {accepts : Letter → Bool}
    {next : Continuation Letter (List Letter × Rest)}
    (continues : ∀ last text, (next last text).isSome) (last : Option Letter)
    (text : List Letter) : (matchMany accepts next 0 last text).isSome := by
  cases text with
  | nil =>
      rw [matchMany, if_pos rfl]
      exact continues last []
  | cons letter text =>
      rw [matchMany, if_pos rfl, Option.isSome_or, continues, Bool.or_true]

end Greedy

/-!
## Patterns
-/

/-- A name, separators, and a run of letters that is replaced by marks. -/
structure Assignment (Letter : Type) where
  name : List (Letter → Bool)
  between : Letter → Bool
  value : Letter → Bool
  marks : List Letter

def Assignment.pattern (assignment : Assignment Letter) : Pattern Letter where
  wordEdges := false
  kept := assignment.name.map .one ++ [.many assignment.between 1]
  hidden := [.many assignment.value 1]
  replacement := assignment.marks

/-- The letters of a name are apart from the separators and from the mark. -/
structure Assignment.Lawful (named : Letter → Bool) (mark : Letter)
    (assignment : Assignment Letter) : Prop where
  nonempty : assignment.name ≠ []
  letters : ∀ accepts ∈ assignment.name, ∀ letter, accepts letter = true → named letter = true
  apart : ∀ letter, assignment.between letter = true → named letter = false
  values : ∀ letter, named letter = true → assignment.value letter = true
  markBetween : assignment.between mark = false
  markNamed : named mark = false
  markValue : assignment.value mark = true
  marked : assignment.marks ≠ []
  marks : ∀ letter ∈ assignment.marks, letter = mark

section Patterns

variable (isWord : Letter → Bool) {mark : Letter} {named : Letter → Bool}

theorem Assignment.matchAt_of_run (assignment : Assignment Letter)
    {word between hidden rest : List Letter} (spells : Spells assignment.name word)
    (some : between ≠ []) (separators : Accepted assignment.between between)
    (someHidden : hidden ≠ []) (values : Accepted assignment.value hidden)
    (stopsBetween : Stops assignment.between (hidden ++ rest))
    (stops : Stops assignment.value rest) (last : Option Letter) :
    assignment.pattern.matchAt isWord last (word ++ (between ++ (hidden ++ rest))) =
      .some ⟨word ++ between, hidden, rest⟩ := by
  have ends (last : Option Letter) : matchItems [] (assignment.pattern.finish isWord) last rest =
      .some ([], rest) := by
    rw [matchItems, Pattern.finish]
    exact congrArg (Option.map _) (if_pos rfl)
  have hiddenFound (last : Option Letter) : matchItems assignment.pattern.hidden
      (assignment.pattern.finish isWord) last (hidden ++ rest) = .some (hidden, rest) := by
    have found := matchMany_run _ values stops (List.length_pos_iff.mpr someHidden) last (ends _)
    rwa [List.append_nil] at found
  have betweenFound (last : Option Letter) : matchItems [.many assignment.between 1]
      (matchItems assignment.pattern.hidden (assignment.pattern.finish isWord)) last
      (between ++ (hidden ++ rest)) = .some (between, (hidden, rest)) := by
    have next : matchItems [] (matchItems assignment.pattern.hidden
        (assignment.pattern.finish isWord)) (lastOf last between) (hidden ++ rest) =
        .some ([], (hidden, rest)) := by
      rw [matchItems, hiddenFound]
      rfl
    have found := matchMany_run _ separators stopsBetween (List.length_pos_iff.mpr some) last next
    rwa [List.append_nil] at found
  have whole := matchItems_name spells (betweenFound (lastOf last word))
  rw [Pattern.matchAt]
  exact (if_pos rfl).trans ((congrArg (Option.map _) whole).trans rfl)

/-- A hidden run is as long as possible. -/
theorem stops_of_matchMany {accepts : Letter → Bool} {next : Continuation Letter (List Letter)}
    (all : ∀ last text, next last text = some text) {least : Nat} (short : least ≤ 1)
    {last : Option Letter} {text hidden after : List Letter}
    (found : matchMany accepts (matchItems [] next) least last text = some (hidden, after)) :
    Stops accepts after := by
  induction text generalizing least last hidden with
  | nil =>
      rw [matchMany, Option.ite_none_right_eq_some, matchItems, all] at found
      cases found.2
      exact stops_nil accepts
  | cons letter text ih =>
      rw [matchMany, Option.or_eq_some_iff] at found
      rcases found with here | ⟨none, later⟩
      · obtain ⟨_, here⟩ := Option.ite_none_right_eq_some.mp here
        obtain ⟨⟨front, rest⟩, inner, same⟩ := Option.map_eq_some_iff.mp here
        cases same
        exact ih (Nat.le_of_lt_succ (Nat.sub_lt_of_lt (Nat.lt_succ_of_le short))) inner
      · rw [Option.ite_none_right_eq_some, matchItems, all] at later
        cases later.2
        refine stops_cons.mpr (Bool.eq_false_iff.mpr fun accepted => ?_)
        rw [if_pos accepted, Option.map_eq_none_iff] at none
        have found := @matchMany_isSome _ _ accepts (matchItems [] next) (fun last text => by
          rw [matchItems, all]; rfl) (.some letter) text
        have zero : least - 1 = 0 := by omega
        rw [zero] at none
        rw [none] at found
        cases found

theorem Assignment.of_matchAt (assignment : Assignment Letter) {last : Option Letter}
    {text : List Letter} {found : Found Letter}
    (search : assignment.pattern.matchAt isWord last text = some found) :
    text = found.kept ++ (found.hidden ++ found.after) ∧
      (∃ word between, found.kept = word ++ between ∧ Spells assignment.name word ∧
        between ≠ [] ∧ Accepted assignment.between between) ∧
      found.hidden ≠ [] ∧ Accepted assignment.value found.hidden ∧
      Stops assignment.value found.after := by
  obtain ⟨whole, keptMatches, hiddenMatches, -, -⟩ := Pattern.matchAt_sound _ search
  obtain ⟨word, between, same, spells, separators⟩ := matches_name_iff.mp keptMatches
  obtain ⟨long, accepted⟩ := matches_many_iff.mp separators
  obtain ⟨longHidden, values⟩ := matches_many_iff.mp hiddenMatches
  refine ⟨whole, ⟨word, between, same, spells, List.length_pos_iff.mp long, accepted⟩,
    List.length_pos_iff.mp longHidden, values, ?_⟩
  rw [Pattern.matchAt, Option.ite_none_right_eq_some] at search
  obtain ⟨-, search⟩ := search
  obtain ⟨⟨kept, hidden, after⟩, inner, rfl⟩ := Option.map_eq_some_iff.mp search
  obtain ⟨-, rest, -, hiddenFound⟩ := matchItems_sound _ _ _ _ _ _ inner
  exact stops_of_matchMany (fun last text => if_pos rfl) (Nat.le_refl 1) hiddenFound

/-!
## Where a text of the result comes from
-/

variable {isWord} {pattern : Pattern Letter}

/-- The front of a result without a mark was in the text, or a match starts within it and keeps
the rest of it. -/
theorem Pattern.Replaces.front_or_match (starts : pattern.replacement.head? = some mark)
    {last : Option Letter} {text result front later : List Letter}
    (replaces : pattern.Replaces isWord last text result) (same : result = front ++ later)
    (unmarked : mark ∉ front) :
    (∃ rest next, text = front ++ rest ∧ pattern.Replaces isWord next rest later) ∨
      ∃ before back last' text' found, front = before ++ back ∧ back ≠ [] ∧
        pattern.matchAt isWord last' text' = some found ∧ back <+: found.kept := by
  induction front generalizing last text result with
  | nil =>
      cases same
      exact .inl ⟨text, last, rfl, replaces⟩
  | cons letter front ih =>
      cases replaces with
      | done => cases same
      | replaced search rest =>
          exact .inr ⟨[], letter :: front, _, _, _, rfl, List.cons_ne_nil _ _, search,
            front_of_marked starts same unmarked⟩
      | copied search rest =>
          obtain ⟨rfl, sameRest⟩ := List.cons.inj same
          rcases ih rest sameRest (List.not_mem_of_not_mem_cons unmarked) with
            ⟨remaining, next, rfl, replaces⟩ | ⟨before, back, last', text', found, rfl, some, match_⟩
          · exact .inl ⟨remaining, next, rfl, replaces⟩
          · exact .inr ⟨_ :: before, back, last', text', found, rfl, some, match_⟩

/-- A name with its separators in a result stood in the text in front of what became the rest, or
it overlaps with what a match keeps. -/
inductive Located (isWord : Letter → Bool) (pattern : Pattern Letter) (text word between : List Letter)
    (rest : List Letter) : Prop
  | copied (before : List Letter) {rest' : List Letter} {last next : Option Letter}
      (whole : text = before ++ (word ++ (between ++ rest')))
      (search : pattern.matchAt isWord last (word ++ (between ++ rest')) = none)
      (replaces : pattern.Replaces isWord next rest' rest)
  | reached (before : List Letter) {back text' : List Letter} {last : Option Letter} {found : Found Letter}
      (split : word ++ between = before ++ back) (inside : before ≠ []) (some : back ≠ [])
      (search : pattern.matchAt isWord last text' = .some found) (starts : back <+: found.kept)
  | kept {before back text' result : List Letter} {last next : Option Letter}
      {found : Found Letter} (search : pattern.matchAt isWord last text' = .some found)
      (split : found.kept = before ++ back) (starts : word ++ between <+: back)
      (same : word ++ (between ++ rest) = back ++ (pattern.replacement ++ result))
      (replaces : pattern.Replaces isWord next found.after result)

theorem Located.of_suffix {text word between rest : List Letter}
    (located : Located isWord pattern text word between rest) (front : List Letter) :
    Located isWord pattern (front ++ text) word between rest := by
  cases located with
  | copied before whole search replaces =>
      exact .copied (front ++ before) (by rw [whole, List.append_assoc]) search replaces
  | reached before split inside some search starts =>
      exact .reached before split inside some search starts
  | kept search split starts same replaces => exact .kept search split starts same replaces

theorem Pattern.Replaces.locate (starts : pattern.replacement.head? = some mark)
    (unnamed : ∀ letter ∈ pattern.replacement, named letter = false) {last : Option Letter}
    {text result : List Letter} (replaces : pattern.Replaces isWord last text result)
    {front word between rest : List Letter}
    (same : result = front ++ (word ++ (between ++ rest))) (some : word ≠ [])
    (letters : Accepted named word) (unmarked : mark ∉ word ++ between) :
    Located isWord pattern text word between rest := by
  induction replaces generalizing front with
  | done =>
      have none := (List.append_eq_nil_iff.mp same.symm).2
      exact absurd (List.append_eq_nil_iff.mp none).1 some
  | @copied last letter text result search replaces ih =>
      cases front with
      | cons first front =>
          exact (ih (List.cons.inj same).2).of_suffix [letter]
      | nil =>
          cases word with
          | nil => exact absurd rfl some
          | cons first word =>
              obtain ⟨rfl, sameRest⟩ := List.cons.inj same
              have inner : mark ∉ word ++ between := List.not_mem_of_not_mem_cons unmarked
              have sameInner := sameRest.trans (List.append_assoc word between rest).symm
              rcases replaces.front_or_match starts sameInner inner with
                ⟨remaining, next, rfl, remains⟩ | ⟨before, back, last', text', found, split,
                  someBack, search', startsBack⟩
              · rw [List.append_assoc]
                rw [List.append_assoc] at search
                exact .copied [] rfl search remains
              · exact .reached (letter :: before) (congrArg (letter :: ·) split)
                  (List.cons_ne_nil _ _) someBack search' startsBack
  | @replaced last text result found search replaces ih =>
      obtain ⟨whole, -⟩ := Pattern.matchAt_sound _ search
      have later (front' : List Letter) (same : result = front' ++ (word ++ (between ++ rest))) :
          Located isWord pattern text word between rest := by
        rw [whole, ← List.append_assoc]
        exact (ih same).of_suffix _
      rcases List.append_eq_append_iff.mp same with ⟨back, rfl, inside⟩ | ⟨back, split, inside⟩
      · rcases List.append_eq_append_iff.mp inside with ⟨behind, -, rfl⟩ | ⟨behind, split, inside⟩
        · exact later behind rfl
        · cases behind with
          | nil => exact later [] inside.symm
          | cons first behind =>
              cases word with
              | nil => exact absurd rfl some
              | cons letter word =>
                  obtain ⟨rfl, -⟩ := List.cons.inj inside
                  have plain := letters letter List.mem_cons_self
                  rw [unnamed letter (split ▸ List.mem_append_right _ List.mem_cons_self)] at plain
                  cases plain
      · have sameInner := inside.symm.trans (List.append_assoc word between rest).symm
        have inBack := front_of_marked starts sameInner unmarked
        exact .kept search split inBack inside replaces

/-!
## Overlaps
-/

theorem Assignment.Lawful.named_of_spells {assignment : Assignment Letter}
    (lawful : assignment.Lawful named mark) {word : List Letter}
    (spells : Spells assignment.name word) : Accepted named word := by
  have letters := lawful.letters
  generalize assignment.name = name at spells letters
  induction spells with
  | nil => exact List.forall_mem_nil _
  | cons accepted _ ih =>
      obtain ⟨first, rest⟩ := List.forall_mem_cons.mp letters
      exact List.forall_mem_cons.mpr ⟨first _ accepted, ih rest⟩

theorem Assignment.Lawful.word_ne_nil {assignment : Assignment Letter}
    (lawful : assignment.Lawful named mark) {word : List Letter}
    (spells : Spells assignment.name word) : word ≠ [] := by
  rintro rfl
  exact lawful.nonempty (List.forall₂_nil_right_iff.mp spells)

theorem Assignment.Lawful.unnamed {assignment : Assignment Letter}
    (lawful : assignment.Lawful named mark) {between : List Letter}
    (separators : Accepted assignment.between between) :
    ∀ letter ∈ between, named letter = false :=
  fun letter member => lawful.apart letter (separators letter member)

/-- The letters in front of the first separator are the word. -/
theorem word_eq_of_starts {word between other separators : List Letter}
    (letters : Accepted named word) (some : between ≠ [])
    (unnamed : ∀ letter ∈ between, named letter = false) (others : Accepted named other)
    (unnamedOther : ∀ letter ∈ separators, named letter = false)
    (starts : word ++ between <+: other ++ separators) : word = other := by
  induction word generalizing other with
  | nil =>
      cases other with
      | nil => rfl
      | cons letter other =>
          obtain ⟨first, between, rfl⟩ := List.exists_cons_of_ne_nil some
          obtain ⟨rfl, -⟩ := List.cons_prefix_cons.mp starts
          have refused := unnamed first List.mem_cons_self
          rw [others first List.mem_cons_self] at refused
          cases refused
  | cons letter word ih =>
      obtain ⟨accepted, letters⟩ := List.forall_mem_cons.mp letters
      cases other with
      | nil =>
          rw [List.cons_append, List.nil_append] at starts
          rw [unnamedOther letter (starts.subset List.mem_cons_self)] at accepted
          cases accepted
      | cons first other =>
          obtain ⟨rfl, tails⟩ := List.cons_prefix_cons.mp starts
          rw [ih letters (List.forall_mem_cons.mp others).2 tails]

/-- No name of the second pattern stands at the end of one of the first. -/
def Apart (one two : Assignment Letter) : Prop :=
  ∀ before word, Spells one.name (before ++ word) → ¬ Spells two.name word

section Overlap

variable {one two : Assignment Letter}

/-- What a match keeps starts within a name with its separators only where a name does. -/
theorem reached_within (lawful : one.Lawful named mark) (lawfulTwo : two.Lawful named mark)
    {word between before back other separators : List Letter} (spells : Spells one.name word)
    (some : between ≠ []) (accepted : Accepted one.between between)
    (spellsTwo : Spells two.name other) (acceptedTwo : Accepted two.between separators)
    (split : word ++ between = before ++ back) (someBack : back ≠ [])
    (starts : back <+: other ++ separators) : word = before ++ other := by
  have letters := lawful.named_of_spells spells
  have others := lawfulTwo.named_of_spells spellsTwo
  rcases List.append_eq_append_iff.mp split with ⟨inside, rfl, rest⟩ | ⟨inside, rfl, rfl⟩
  · obtain ⟨first, back, rfl⟩ := List.exists_cons_of_ne_nil someBack
    obtain ⟨letter, other, rfl⟩ := List.exists_cons_of_ne_nil (lawfulTwo.word_ne_nil spellsTwo)
    obtain ⟨rfl, -⟩ := List.cons_prefix_cons.mp starts
    have refused := lawful.unnamed accepted first
      (rest ▸ List.mem_append_right _ List.mem_cons_self)
    rw [others first List.mem_cons_self] at refused
    cases refused
  · have within : Accepted named inside := fun letter member =>
      letters letter (List.mem_append_right _ member)
    rw [word_eq_of_starts within some (lawful.unnamed accepted) others
      (lawfulTwo.unnamed acceptedTwo) starts]

/-- A name with its separators stands in what a match keeps only at the end of its name. -/
theorem kept_within (lawful : one.Lawful named mark) (lawfulTwo : two.Lawful named mark)
    {word between before back other separators : List Letter} (spells : Spells one.name word)
    (some : between ≠ []) (accepted : Accepted one.between between)
    (spellsTwo : Spells two.name other) (acceptedTwo : Accepted two.between separators)
    (split : other ++ separators = before ++ back) (starts : word ++ between <+: back) :
    other = before ++ word ∧ back = word ++ separators := by
  have letters := lawful.named_of_spells spells
  have others := lawfulTwo.named_of_spells spellsTwo
  rcases List.append_eq_append_iff.mp split with ⟨inside, rfl, rest⟩ | ⟨inside, rfl, rfl⟩
  · obtain ⟨letter, word, rfl⟩ := List.exists_cons_of_ne_nil (lawful.word_ne_nil spells)
    have member : letter ∈ separators := by
      rw [rest]
      exact List.mem_append_right _ (starts.subset List.mem_cons_self)
    have refused := lawfulTwo.unnamed acceptedTwo letter member
    rw [letters letter List.mem_cons_self] at refused
    cases refused
  · have within : Accepted named inside := fun letter member =>
      others letter (List.mem_append_right _ member)
    rw [word_eq_of_starts letters some (lawful.unnamed accepted) within
      (lawfulTwo.unnamed acceptedTwo) starts]
    exact ⟨rfl, rfl⟩

end Overlap

/-!
## Settled texts
-/

/-- All that the pattern would hide is hidden already. -/
def Assignment.Settled (assignment : Assignment Letter) (text : List Letter) : Prop :=
  ∀ front word between letter rest, text = front ++ (word ++ (between ++ letter :: rest)) →
    Spells assignment.name word → between ≠ [] → Accepted assignment.between between →
    assignment.value letter = true →
    ∃ more after, letter :: rest = more ++ (assignment.marks ++ after) ∧
      Accepted assignment.between more ∧ Stops assignment.value after

theorem Assignment.Settled.of_append {assignment : Assignment Letter} {front text : List Letter}
    (settled : assignment.Settled (front ++ text)) : assignment.Settled text := by
  intro before word between letter rest same
  exact settled (front ++ before) word between letter rest (by rw [same, List.append_assoc])

section Settled

variable {assignment : Assignment Letter}

theorem Assignment.Lawful.starts (lawful : assignment.Lawful named mark) :
    assignment.marks.head? = some mark := by
  obtain ⟨first, rest, same⟩ := List.exists_cons_of_ne_nil lawful.marked
  rw [same, lawful.marks first (same ▸ List.mem_cons_self)]
  rfl

theorem Assignment.Lawful.marks_unnamed (lawful : assignment.Lawful named mark) :
    ∀ letter ∈ assignment.marks, named letter = false := by
  intro letter member
  rw [lawful.marks letter member]
  exact lawful.markNamed

theorem Assignment.Lawful.marks_values (lawful : assignment.Lawful named mark) :
    Accepted assignment.value assignment.marks := by
  intro letter member
  rw [lawful.marks letter member]
  exact lawful.markValue

theorem Assignment.Lawful.marks_stop (lawful : assignment.Lawful named mark)
    (rest : List Letter) : Stops assignment.between (assignment.marks ++ rest) := by
  intro letter first
  rw [List.head?_append, lawful.starts, Option.some_or] at first
  cases first
  exact lawful.markBetween

theorem Assignment.Lawful.unmarked (lawful : assignment.Lawful named mark)
    {word between : List Letter} (spells : Spells assignment.name word)
    (separators : Accepted assignment.between between) : mark ∉ word ++ between := by
  intro member
  rcases List.mem_append.mp member with inWord | inBetween
  · have accepted := lawful.named_of_spells spells mark inWord
    rw [lawful.markNamed] at accepted
    cases accepted
  · have accepted := separators mark inBetween
    rw [lawful.markBetween] at accepted
    cases accepted

variable (isWord) in
/-- In a settled text a match hides the marks that stand there already. -/
theorem Assignment.Settled.hides_marks (lawful : assignment.Lawful named mark)
    {text : List Letter} (settled : assignment.Settled text) {last : Option Letter}
    {found : Found Letter} (search : assignment.pattern.matchAt isWord last text = some found) :
    found.hidden = assignment.marks ∧
      text = found.kept ++ (assignment.marks ++ found.after) := by
  obtain ⟨whole, ⟨word, between, same, spells, some, separators⟩, someHidden, values, -⟩ :=
    assignment.of_matchAt _ search
  obtain ⟨first, hidden, split⟩ := List.exists_cons_of_ne_nil someHidden
  have inText : text = [] ++ (word ++ (between ++ first :: (hidden ++ found.after))) := by
    rw [whole, same, split]
    simp
  obtain ⟨more, after, marked, moreSeparators, stops⟩ := settled [] word between first
    (hidden ++ found.after) inText spells some separators
    (values first (split ▸ List.mem_cons_self))
  have inner : text = word ++ ((between ++ more) ++ (assignment.marks ++ after)) := by
    rw [inText, marked]
    simp
  have all : Accepted assignment.between (between ++ more) :=
    List.forall_mem_append.mpr ⟨separators, moreSeparators⟩
  have again := assignment.matchAt_of_run isWord spells (List.append_ne_nil_of_left_ne_nil some _)
    all lawful.marked lawful.marks_values (lawful.marks_stop after) stops last
  rw [← inner, search] at again
  cases again
  exact ⟨rfl, by rw [inner, List.append_assoc word]⟩

/-- Replacing leaves a settled text as it is. -/
theorem Assignment.Settled.unchanged (lawful : assignment.Lawful named mark)
    {last : Option Letter} {text result : List Letter} (settled : assignment.Settled text)
    (replaces : assignment.pattern.Replaces isWord last text result) : result = text := by
  induction replaces with
  | done => rfl
  | @copied _ letter text _ _ _ ih =>
      have whole : assignment.Settled ([letter] ++ text) := settled
      exact congrArg (letter :: ·) (ih whole.of_append)
  | replaced search _ ih =>
      obtain ⟨_, whole⟩ := settled.hides_marks isWord lawful search
      rw [whole, ← List.append_assoc] at settled
      rw [whole, ih settled.of_append]
      rfl

/-- A match of such a pattern starts with a letter of its name, which is kept. -/
theorem Assignment.Lawful.opens (lawful : assignment.Lawful named mark) {last : Option Letter}
    {text : List Letter} {found : Found Letter}
    (search : assignment.pattern.matchAt isWord last text = some found) :
    ∃ letter kept, found.kept = letter :: kept ∧ named letter = true := by
  obtain ⟨-, ⟨word, between, same, spells, -⟩, -⟩ := assignment.of_matchAt _ search
  obtain ⟨letter, word, rfl⟩ := List.exists_cons_of_ne_nil (lawful.word_ne_nil spells)
  exact ⟨letter, word ++ between, same, lawful.named_of_spells spells letter List.mem_cons_self⟩

theorem Assignment.Lawful.head_eq (lawful : assignment.Lawful named mark) {last : Option Letter}
    {text result : List Letter}
    (replaces : assignment.pattern.Replaces isWord last text result) :
    result.head? = text.head? := by
  cases replaces with
  | done => rfl
  | copied => rfl
  | replaced search _ =>
      obtain ⟨letter, kept, same, -⟩ := lawful.opens search
      obtain ⟨whole, -⟩ := Pattern.matchAt_sound _ search
      rw [whole, same]
      rfl

/-- What replacing makes of a text is settled. -/
theorem Assignment.settled_of_replaces (lawful : assignment.Lawful named mark)
    {last : Option Letter} {text result : List Letter}
    (replaces : assignment.pattern.Replaces isWord last text result) :
    assignment.Settled result := by
  intro front word between letter rest same spells some separators value
  have located := replaces.locate lawful.starts lawful.marks_unnamed same
    (lawful.word_ne_nil spells) (lawful.named_of_spells spells) (lawful.unmarked spells separators)
  cases located with
  | @copied before rest' last next whole search replaces =>
      have first := (lawful.head_eq replaces).symm
      obtain ⟨letters, rfl⟩ := List.head?_eq_some_iff.mp first
      -- What follows the separators would have been a match.
      have isMatch : assignment.pattern.MatchesAt isWord last (word ++ (between ++ [letter]))
          letters := by
        refine ⟨rfl, ⟨word ++ between, [letter], (List.append_assoc _ _ _).symm, ?_, ?_⟩, rfl⟩
        · exact matches_name_iff.mpr ⟨word, between, rfl, spells,
            matches_many_iff.mpr ⟨List.length_pos_iff.mpr some, separators⟩⟩
        · exact matches_many_iff.mpr ⟨Nat.le_refl 1, List.forall_mem_singleton.mpr value⟩
      have isFound := Pattern.matchAt_complete _ isMatch
      have rearranged : word ++ (between ++ [letter]) ++ letters =
          word ++ (between ++ letter :: letters) := by simp
      rw [rearranged, search] at isFound
      cases isFound
  | @reached before back text' last found split inside someBack search starts =>
      obtain ⟨-, ⟨other, others, sameKept, spellsOther, -, separatorsOther⟩, -⟩ :=
        assignment.of_matchAt _ search
      rw [sameKept] at starts
      have inner := reached_within lawful lawful spells some separators spellsOther
        separatorsOther split someBack starts
      have lengths := congrArg List.length inner
      rw [List.length_append, ← spells.length_eq, ← spellsOther.length_eq] at lengths
      exact absurd (List.length_eq_zero_iff.mp (by omega)) inside
  | @kept before back text' result' last next found search split starts sameRest replaces =>
      obtain ⟨-, ⟨other, others, sameKept, spellsOther, -, separatorsOther⟩, -, -, stops⟩ :=
        assignment.of_matchAt _ search
      rw [sameKept] at split
      obtain ⟨inner, rfl⟩ := kept_within lawful lawful spells some separators spellsOther
        separatorsOther split starts
      rw [List.append_assoc] at sameRest
      have tails := List.append_cancel_left sameRest
      obtain ⟨more, rfl⟩ := (List.prefix_append_right_inj word).mp starts
      rw [List.append_assoc] at tails
      refine ⟨more, result', List.append_cancel_left tails, ?_, ?_⟩
      · exact fun letter member => separatorsOther letter (List.mem_append_right _ member)
      · intro letter first
        rw [lawful.head_eq replaces] at first
        exact stops letter first

end Settled

/-!
## Other patterns
-/

/-- A pattern whose matches stay clear of an assignment: they start with a letter of its values
that is no separator and no mark, and what they keep does not overlap with its name. -/
structure Assignment.Spared (isWord : Letter → Bool) (named : Letter → Bool) (mark : Letter)
    (assignment : Assignment Letter) (pattern : Pattern Letter) : Prop where
  starts : pattern.replacement.head? = some mark
  unnamed : ∀ letter ∈ pattern.replacement, named letter = false
  opens : ∀ last text found, pattern.matchAt isWord last text = some found →
    ∃ letter rest, text = letter :: rest ∧ assignment.value letter = true ∧
      assignment.between letter = false ∧ letter ≠ mark
  beside : ∀ last text found word between before back,
    pattern.matchAt isWord last text = some found → Spells assignment.name word → between ≠ [] →
    Accepted assignment.between between → word ++ between = before ++ back → before ≠ [] →
    back ≠ [] → ¬ back <+: found.kept
  outside : ∀ last text found word between before back,
    pattern.matchAt isWord last text = some found → Spells assignment.name word → between ≠ [] →
    Accepted assignment.between between → found.kept = before ++ back →
    ¬ word ++ between <+: back

namespace Assignment.Spared

variable {assignment : Assignment Letter}

/-- Separators and marks are copied. -/
theorem copied_run (spared : assignment.Spared isWord named mark pattern)
    {run rest result : List Letter} {last : Option Letter}
    (replaces : pattern.Replaces isWord last (run ++ rest) result)
    (shut : ∀ letter ∈ run, assignment.between letter = true ∨ letter = mark) :
    ∃ next later, result = run ++ later ∧ pattern.Replaces isWord next rest later := by
  induction run generalizing last result with
  | nil => exact ⟨last, result, rfl, replaces⟩
  | cons letter run ih =>
      obtain ⟨first, others⟩ := List.forall_mem_cons.mp shut
      cases replaces with
      | copied search replaces =>
          obtain ⟨next, later, rfl, remains⟩ := ih replaces others
          exact ⟨next, later, rfl, remains⟩
      | replaced search _ =>
          obtain ⟨_, _, same, _, notBetween, notMark⟩ := spared.opens _ _ _ search
          cases same
          rcases first with separator | isMark
          · rw [notBetween] at separator
            cases separator
          · exact absurd isMark notMark

theorem stops (spared : assignment.Spared isWord named mark pattern) {text result : List Letter}
    {last : Option Letter} (replaces : pattern.Replaces isWord last text result)
    (ends : Stops assignment.value text) : Stops assignment.value result := by
  cases replaces with
  | done => exact ends
  | copied _ _ => exact stops_cons.mpr (stops_cons.mp ends)
  | replaced search _ =>
      obtain ⟨letter, rest, rfl, value, -⟩ := spared.opens _ _ _ search
      rw [stops_cons.mp ends] at value
      cases value

/-- Where the result goes on with a value, so does the text. -/
theorem value_of_result (spared : assignment.Spared isWord named mark pattern)
    {text result : List Letter} {last : Option Letter}
    (replaces : pattern.Replaces isWord last text result) {letter : Letter} {rest : List Letter}
    (same : result = letter :: rest) (value : assignment.value letter = true) :
    ∃ first text', text = first :: text' ∧ assignment.value first = true := by
  cases replaces with
  | done => cases same
  | copied _ _ =>
      cases same
      exact ⟨_, _, rfl, value⟩
  | replaced search _ =>
      obtain ⟨first, text', whole, isValue, -⟩ := spared.opens _ _ _ search
      exact ⟨first, text', whole, isValue⟩

/-- What is settled stays so when the matches of the pattern are replaced. -/
theorem settled (spared : assignment.Spared isWord named mark pattern)
    (lawful : assignment.Lawful named mark) {text result : List Letter} {last : Option Letter}
    (replaces : pattern.Replaces isWord last text result) (settled : assignment.Settled text) :
    assignment.Settled result := by
  intro front word between letter rest same spells some separators value
  have located := replaces.locate spared.starts spared.unnamed same (lawful.word_ne_nil spells)
    (lawful.named_of_spells spells) (lawful.unmarked spells separators)
  cases located with
  | copied before whole search replaces =>
      obtain ⟨first, letters, rfl, isValue⟩ := spared.value_of_result replaces rfl value
      obtain ⟨more, after, marked, moreSeparators, ends⟩ := settled before word between first
        letters whole spells some separators isValue
      rw [marked, ← List.append_assoc] at replaces
      have shut : ∀ letter ∈ more ++ assignment.marks,
          assignment.between letter = true ∨ letter = mark := by
        intro letter member
        rcases List.mem_append.mp member with inMore | isMark
        · exact .inl (moreSeparators letter inMore)
        · exact .inr (lawful.marks letter isMark)
      obtain ⟨next, later, rest, replaces⟩ := spared.copied_run replaces shut
      exact ⟨more, later, by rw [rest, List.append_assoc], moreSeparators,
        spared.stops replaces ends⟩
  | reached before split inside someBack search starts =>
      exact absurd starts
        (spared.beside _ _ _ _ _ _ _ search spells some separators split inside someBack)
  | kept search split starts =>
      exact absurd starts (spared.outside _ _ _ _ _ _ _ search spells some separators split)

end Assignment.Spared

section Other

variable (isWord) {one two : Assignment Letter}

/-- An assignment spares another one if their names are apart. -/
theorem Assignment.Lawful.spares (lawful : one.Lawful named mark)
    (lawfulTwo : two.Lawful named mark) (apart : Apart one two) (converse : Apart two one) :
    one.Spared isWord named mark two.pattern where
  starts := lawfulTwo.starts
  unnamed := lawfulTwo.marks_unnamed
  opens := by
    intro last text found search
    obtain ⟨letter, kept, same, isNamed⟩ := lawfulTwo.opens search
    obtain ⟨whole, -⟩ := Pattern.matchAt_sound _ search
    rw [same] at whole
    refine ⟨letter, _, whole, lawful.values letter isNamed, ?_, ?_⟩
    · by_contra separator
      rw [lawful.apart letter (by simpa using separator)] at isNamed
      cases isNamed
    · rintro rfl
      rw [lawful.markNamed] at isNamed
      cases isNamed
  beside := by
    intro last text found word between before back search spells some separators split _ someBack
      starts
    obtain ⟨-, ⟨other, others, sameKept, spellsOther, -, separatorsOther⟩, -⟩ :=
      two.of_matchAt _ search
    rw [sameKept] at starts
    have inner := reached_within lawful lawfulTwo spells some separators spellsOther
      separatorsOther split someBack starts
    rw [inner] at spells
    exact apart before other spells spellsOther
  outside := by
    intro last text found word between before back search spells some separators split starts
    obtain ⟨-, ⟨other, others, sameKept, spellsOther, -, separatorsOther⟩, -⟩ :=
      two.of_matchAt _ search
    rw [sameKept] at split
    obtain ⟨inner, -⟩ := kept_within lawful lawfulTwo spells some separators spellsOther
      separatorsOther split starts
    rw [inner] at spellsOther
    exact converse before word spellsOther spells

/-- A pattern that hides whole matches spares an assignment if these start with its values. -/
theorem Assignment.Lawful.spares_whole (lawful : one.Lawful named mark)
    (starts : pattern.replacement.head? = some mark)
    (unnamed : ∀ letter ∈ pattern.replacement, named letter = false) (whole : pattern.kept = [])
    (opens : ∀ hidden, Matches pattern.hidden hidden → ∃ letter rest, hidden = letter :: rest ∧
      one.value letter = true ∧ one.between letter = false ∧ letter ≠ mark) :
    one.Spared isWord named mark pattern := by
  have keepsNothing (last : Option Letter) (text : List Letter) (found : Found Letter)
      (search : pattern.matchAt isWord last text = some found) : found.kept = [] := by
    obtain ⟨-, keptMatches, -⟩ := Pattern.matchAt_sound isWord search
    rw [whole] at keptMatches
    generalize found.kept = kept at keptMatches
    cases keptMatches
    rfl
  constructor
  · exact starts
  · exact unnamed
  · intro last text found search
    obtain ⟨same, -, hiddenMatches, -⟩ := Pattern.matchAt_sound isWord search
    obtain ⟨letter, rest, split, opening⟩ := opens _ hiddenMatches
    rw [keepsNothing last text found search, split] at same
    exact ⟨letter, _, same, opening⟩
  · intro last text found word between before back search _ _ _ _ _ someBack front
    rw [keepsNothing last text found search] at front
    exact someBack (List.prefix_nil.mp front)
  · intro last text found word between before back search spells _ _ split front
    rw [keepsNothing last text found search] at split
    rw [(List.append_eq_nil_iff.mp split.symm).2] at front
    exact lawful.word_ne_nil spells (List.append_eq_nil_iff.mp (List.prefix_nil.mp front)).1

end Other

/-- A text without a match stays as it is. -/
theorem Pattern.Replaces.unchanged {last : Option Letter} {text result : List Letter}
    (replaces : pattern.Replaces isWord last text result)
    (without : ¬ pattern.Occurs isWord last text) : result = text := by
  induction replaces with
  | done => rfl
  | @copied last letter text result _ _ ih =>
      refine congrArg (letter :: ·) (ih ?_)
      rintro ⟨before, matched, after, rfl, isMatch⟩
      exact without ⟨letter :: before, matched, after, rfl, isMatch⟩
  | replaced search _ _ => exact absurd (Pattern.occurs_of_matchAt _ search) without

end Patterns

end Lib.Substitution

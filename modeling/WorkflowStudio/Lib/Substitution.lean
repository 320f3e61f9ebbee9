import Mathlib.Data.List.Basic

/-! Greedy patterns and the replacement of their matches from left to right: what a
match is apart from the search for it, and what is left of the matches afterwards. -/

set_option autoImplicit false

namespace Lib.Substitution

variable {Letter : Type}

/-- A part of a pattern: one letter, or as many letters as possible. -/
inductive Item (Letter : Type) where
  | one (accepts : Letter → Bool)
  | many (accepts : Letter → Bool) (least : Nat)

def Item.accepts : Item Letter → Letter → Bool
  | .one accepts => accepts
  | .many accepts _ => accepts

def Item.least : Item Letter → Nat
  | .one _ => 1
  | .many _ least => least

/-- The length of the shortest texts that the items match. -/
def leastLength : List (Item Letter) → Nat
  | [] => 0
  | item :: items => item.least + leastLength items

/-!
## Matches
-/

/-- The texts that a sequence of items matches. -/
inductive Matches : List (Item Letter) → List Letter → Prop
  | done : Matches [] []
  | one {accepts : Letter → Bool} {items : List (Item Letter)} {letter : Letter}
      {text : List Letter} (accepted : accepts letter = true) (rest : Matches items text) :
      Matches (.one accepts :: items) (letter :: text)
  | enough {accepts : Letter → Bool} {items : List (Item Letter)} {text : List Letter}
      (rest : Matches items text) : Matches (.many accepts 0 :: items) text
  | more {accepts : Letter → Bool} {least : Nat} {items : List (Item Letter)} {letter : Letter}
      {text : List Letter} (accepted : accepts letter = true)
      (rest : Matches (.many accepts (least - 1) :: items) text) :
      Matches (.many accepts least :: items) (letter :: text)

theorem Matches.least_le {items : List (Item Letter)} {text : List Letter}
    (matched : Matches items text) : leastLength items ≤ text.length := by
  induction matched with
  | done => exact Nat.le_refl 0
  | one _ _ ih =>
      rw [leastLength, Item.least, List.length_cons]
      omega
  | enough _ ih =>
      rw [leastLength, Item.least]
      omega
  | more _ _ ih =>
      rw [leastLength, Item.least, List.length_cons]
      rw [leastLength, Item.least] at ih
      omega

theorem Matches.accepted {items : List (Item Letter)} {text : List Letter}
    (matched : Matches items text) {letter : Letter} (member : letter ∈ text) :
    ∃ item ∈ items, item.accepts letter = true := by
  induction matched with
  | done => cases member
  | one accepted _ ih =>
      rcases List.mem_cons.mp member with rfl | later
      · exact ⟨_, List.mem_cons_self, accepted⟩
      · obtain ⟨item, among, accepts⟩ := ih later
        exact ⟨item, List.mem_cons_of_mem _ among, accepts⟩
  | enough _ ih =>
      obtain ⟨item, among, accepts⟩ := ih member
      exact ⟨item, List.mem_cons_of_mem _ among, accepts⟩
  | more accepted _ ih =>
      rcases List.mem_cons.mp member with rfl | later
      · exact ⟨_, List.mem_cons_self, accepted⟩
      · obtain ⟨item, among, accepts⟩ := ih later
        rcases List.mem_cons.mp among with rfl | rest
        · exact ⟨_, List.mem_cons_self, accepts⟩
        · exact ⟨item, List.mem_cons_of_mem _ rest, accepts⟩

/-- A match has a letter for every single letter of its pattern. -/
theorem Matches.exists_of_one {items : List (Item Letter)} {text : List Letter}
    (matched : Matches items text) {accepts : Letter → Bool} (member : .one accepts ∈ items) :
    ∃ letter ∈ text, accepts letter = true := by
  induction matched with
  | done => cases member
  | one accepted _ ih =>
      rcases List.mem_cons.mp member with same | later
      · cases same
        exact ⟨_, List.mem_cons_self, accepted⟩
      · obtain ⟨letter, among, isLetter⟩ := ih later
        exact ⟨letter, List.mem_cons_of_mem _ among, isLetter⟩
  | enough _ ih =>
      rcases List.mem_cons.mp member with same | later
      · cases same
      · exact ih later
  | more _ _ ih =>
      rcases List.mem_cons.mp member with same | later
      · cases same
      · obtain ⟨letter, among, isLetter⟩ := ih (List.mem_cons_of_mem _ later)
        exact ⟨letter, List.mem_cons_of_mem _ among, isLetter⟩

/-!
## Searching
-/

/-- The letter before the end of a text that follows another letter. -/
def lastOf : Option Letter → List Letter → Option Letter
  | last, [] => last
  | _, letter :: text => lastOf (some letter) text

theorem lastOf_append (last : Option Letter) (front back : List Letter) :
    lastOf last (front ++ back) = lastOf (lastOf last front) back := by
  induction front generalizing last with
  | nil => rfl
  | cons letter front ih => exact ih (some letter)

section Search

variable {Rest : Type}

/-- What comes after a part of a pattern: it sees the letter before and the text. -/
abbrev Continuation (Letter Rest : Type) := Option Letter → List Letter → Option Rest

def prepend (letter : Letter) (found : List Letter × Rest) : List Letter × Rest :=
  (letter :: found.1, found.2)

/-- As many letters as the rest of the pattern leaves. -/
def matchMany (accepts : Letter → Bool) (next : Continuation Letter (List Letter × Rest)) :
    Nat → Continuation Letter (List Letter × Rest)
  | least, last, [] => if least = 0 then next last [] else none
  | least, last, letter :: text =>
      (if accepts letter then
        (matchMany accepts next (least - 1) (some letter) text).map (prepend letter)
      else none).or (if least = 0 then next last (letter :: text) else none)

/-- The text that the items match, and what comes after them. -/
def matchItems : List (Item Letter) → Continuation Letter Rest →
    Continuation Letter (List Letter × Rest)
  | [], next, last, text => (next last text).map fun rest => ([], rest)
  | .one _ :: _, _, _, [] => none
  | .one accepts :: items, next, _, letter :: text =>
      if accepts letter then (matchItems items next (some letter) text).map (prepend letter)
      else none
  | .many accepts least :: items, next, last, text =>
      matchMany accepts (matchItems items next) least last text

/-- A part of a pattern finds what it matches in front of what comes after it. -/
def Sound (items : List (Item Letter)) (next : Continuation Letter Rest)
    (search : Continuation Letter (List Letter × Rest)) : Prop :=
  ∀ last text matched rest, search last text = some (matched, rest) →
    Matches items matched ∧
      ∃ after, text = matched ++ after ∧ next (lastOf last matched) after = some rest

theorem matchMany_sound {accepts : Letter → Bool} {items : List (Item Letter)}
    {next : Continuation Letter Rest} {search : Continuation Letter (List Letter × Rest)}
    (sound : Sound items next search) (least : Nat) :
    Sound (.many accepts least :: items) next (matchMany accepts search least) := by
  intro last text
  induction text generalizing least last with
  | nil =>
      intro matched rest found
      rw [matchMany, Option.ite_none_right_eq_some] at found
      obtain ⟨rfl, ended⟩ := found
      obtain ⟨isMatch, after⟩ := sound _ _ _ _ ended
      exact ⟨.enough isMatch, after⟩
  | cons letter text ih =>
      intro matched rest found
      rw [matchMany] at found
      rcases Option.or_eq_some_iff.mp found with here | ⟨_, later⟩
      · rw [Option.ite_none_right_eq_some] at here
        obtain ⟨accepted, here⟩ := here
        obtain ⟨⟨front, rest'⟩, inner, same⟩ := Option.map_eq_some_iff.mp here
        cases same
        obtain ⟨isMatch, after, rfl, continued⟩ := ih _ _ _ _ inner
        exact ⟨.more accepted isMatch, after, rfl, continued⟩
      · rw [Option.ite_none_right_eq_some] at later
        obtain ⟨rfl, ended⟩ := later
        obtain ⟨isMatch, after⟩ := sound _ _ _ _ ended
        exact ⟨.enough isMatch, after⟩

theorem matchItems_sound (items : List (Item Letter)) (next : Continuation Letter Rest) :
    Sound items next (matchItems items next) := by
  induction items with
  | nil =>
      intro last text matched rest found
      obtain ⟨rest', continued, same⟩ := Option.map_eq_some_iff.mp found
      cases same
      exact ⟨.done, text, rfl, continued⟩
  | cons item items ih =>
      cases item with
      | many accepts least => exact matchMany_sound ih least
      | one accepts =>
          intro last text matched rest found
          cases text with
          | nil => cases found
          | cons letter text =>
              rw [matchItems, Option.ite_none_right_eq_some] at found
              obtain ⟨accepted, found⟩ := found
              obtain ⟨⟨front, rest'⟩, inner, same⟩ := Option.map_eq_some_iff.mp found
              cases same
              obtain ⟨isMatch, after, rfl, continued⟩ := ih _ _ _ _ inner
              exact ⟨.one accepted isMatch, after, rfl, continued⟩

/-- A match that can be continued is found, or another one in its place. -/
theorem matchItems_complete {items : List (Item Letter)} {matched : List Letter}
    (isMatch : Matches items matched) {next : Continuation Letter Rest} {last : Option Letter}
    {after : List Letter} (continues : (next (lastOf last matched) after).isSome) :
    (matchItems items next last (matched ++ after)).isSome := by
  induction isMatch generalizing last with
  | done =>
      rw [List.nil_append, matchItems, Option.isSome_map]
      exact continues
  | one accepted _ ih =>
      rw [List.cons_append, matchItems, if_pos accepted, Option.isSome_map]
      exact ih continues
  | enough _ ih =>
      have found := ih continues
      rename_i text _
      rw [matchItems]
      cases whole : text ++ after with
      | nil =>
          rw [whole] at found
          rw [matchMany, if_pos rfl]
          exact found
      | cons letter rest =>
          rw [whole] at found
          rw [matchMany, if_pos rfl, Option.isSome_or, found, Bool.or_true]
  | more accepted _ ih =>
      have found := ih continues
      rw [matchItems] at found
      rw [matchItems, List.cons_append, matchMany, if_pos accepted, Option.isSome_or,
        Option.isSome_map, found, Bool.true_or]

end Search

/-!
## Patterns
-/

/-- A pattern between two word edges, if it asks for them. A match keeps the text of
its first items, and has the replacement in place of the others. -/
structure Pattern (Letter : Type) where
  wordEdges : Bool
  kept : List (Item Letter)
  hidden : List (Item Letter)
  replacement : List Letter

section Patterns

variable (isWord : Letter → Bool)

def isEdge (before after : Option Letter) : Bool := before.any isWord != after.any isWord

/-- A match may start or end between these letters. -/
def Pattern.edge (pattern : Pattern Letter) (before after : Option Letter) : Bool :=
  !pattern.wordEdges || isEdge isWord before after

/-- The pattern matches a text between a letter and what comes after. -/
structure Pattern.MatchesAt (pattern : Pattern Letter) (last : Option Letter)
    (matched after : List Letter) : Prop where
  starts : pattern.edge isWord last (matched ++ after).head? = true
  parts : ∃ kept hidden, matched = kept ++ hidden ∧ Matches pattern.kept kept ∧
    Matches pattern.hidden hidden
  ends : pattern.edge isWord (lastOf last matched) after.head? = true

/-- A match somewhere in a text. -/
def Pattern.Occurs (pattern : Pattern Letter) (last : Option Letter) (text : List Letter) : Prop :=
  ∃ before matched after, text = before ++ (matched ++ after) ∧
    pattern.MatchesAt isWord (lastOf last before) matched after

theorem Pattern.not_occurs_of_letter {pattern : Pattern Letter} {last : Option Letter}
    {text : List Letter} {accepts : Letter → Bool} (member : .one accepts ∈ pattern.hidden)
    (without : ∀ letter ∈ text, accepts letter = false) : ¬ pattern.Occurs isWord last text := by
  rintro ⟨before, matched, after, rfl, isMatch⟩
  obtain ⟨_, ⟨kept, hidden, rfl, _, hiddenMatches⟩, _⟩ := isMatch
  obtain ⟨letter, among, accepted⟩ := hiddenMatches.exists_of_one member
  rw [without letter (by simp [among])] at accepted
  cases accepted

structure Found (Letter : Type) where
  kept : List Letter
  hidden : List Letter
  after : List Letter

def Pattern.finish (pattern : Pattern Letter) : Continuation Letter (List Letter) :=
  fun last after => if pattern.edge isWord last after.head? then some after else none

def Pattern.matchAt (pattern : Pattern Letter) (last : Option Letter) (text : List Letter) :
    Option (Found Letter) :=
  if pattern.edge isWord last text.head? then
    (matchItems pattern.kept (matchItems pattern.hidden (pattern.finish isWord)) last text).map
      fun found => ⟨found.1, found.2.1, found.2.2⟩
  else none

theorem Pattern.matchAt_sound {pattern : Pattern Letter} {last : Option Letter}
    {text : List Letter} {found : Found Letter}
    (search : pattern.matchAt isWord last text = some found) :
    text = found.kept ++ (found.hidden ++ found.after) ∧ Matches pattern.kept found.kept ∧
      Matches pattern.hidden found.hidden ∧
      pattern.edge isWord last text.head? = true ∧
      pattern.edge isWord (lastOf last (found.kept ++ found.hidden)) found.after.head? = true := by
  rw [matchAt, Option.ite_none_right_eq_some] at search
  obtain ⟨starts, search⟩ := search
  obtain ⟨⟨kept, hidden, after⟩, inner, same⟩ := Option.map_eq_some_iff.mp search
  cases same
  obtain ⟨keptMatches, rest, rfl, hiddenFound⟩ := matchItems_sound _ _ _ _ _ _ inner
  obtain ⟨hiddenMatches, ending, rfl, finished⟩ := matchItems_sound _ _ _ _ _ _ hiddenFound
  rw [finish, Option.ite_none_right_eq_some] at finished
  obtain ⟨ends, same⟩ := finished
  cases same
  refine ⟨rfl, keptMatches, hiddenMatches, starts, ?_⟩
  rw [lastOf_append]
  exact ends

theorem Pattern.occurs_of_matchAt {pattern : Pattern Letter} {last : Option Letter}
    {text : List Letter} {found : Found Letter}
    (search : pattern.matchAt isWord last text = some found) :
    pattern.Occurs isWord last text := by
  obtain ⟨whole, keptMatches, hiddenMatches, starts, ends⟩ := matchAt_sound isWord search
  rw [whole, ← List.append_assoc] at starts
  exact ⟨[], found.kept ++ found.hidden, found.after, by simp [whole],
    starts, ⟨_, _, rfl, keptMatches, hiddenMatches⟩, ends⟩

theorem Pattern.matchAt_complete {pattern : Pattern Letter} {last : Option Letter}
    {matched after : List Letter} (isMatch : pattern.MatchesAt isWord last matched after) :
    (pattern.matchAt isWord last (matched ++ after)).isSome := by
  obtain ⟨starts, ⟨kept, hidden, rfl, keptMatches, hiddenMatches⟩, ends⟩ := isMatch
  rw [matchAt, if_pos starts, Option.isSome_map, List.append_assoc]
  refine matchItems_complete keptMatches (matchItems_complete hiddenMatches ?_)
  rw [lastOf_append] at ends
  rw [finish, if_pos ends]
  rfl

/-!
## Replacement
-/

/-- The matches of a text are replaced from left to right. -/
def Pattern.subFrom (pattern : Pattern Letter) : Nat → Option Letter → List Letter → List Letter
  | 0, _, text => text
  | _, _, [] => []
  | fuel + 1, last, letter :: text =>
      match pattern.matchAt isWord last (letter :: text) with
      | some found => found.kept ++ (pattern.replacement ++
          subFrom pattern fuel (lastOf last (found.kept ++ found.hidden)) found.after)
      | none => letter :: subFrom pattern fuel (some letter) text

def Pattern.sub (pattern : Pattern Letter) (text : List Letter) : List Letter :=
  pattern.subFrom isWord text.length none text

/-- What a text becomes, without a bound on the search. -/
inductive Pattern.Replaces (pattern : Pattern Letter) :
    Option Letter → List Letter → List Letter → Prop
  | done {last : Option Letter} : Replaces pattern last [] []
  | replaced {last : Option Letter} {text result : List Letter} {found : Found Letter}
      (search : pattern.matchAt isWord last text = some found)
      (rest : Replaces pattern (lastOf last (found.kept ++ found.hidden)) found.after result) :
      Replaces pattern last text (found.kept ++ (pattern.replacement ++ result))
  | copied {last : Option Letter} {letter : Letter} {text result : List Letter}
      (search : pattern.matchAt isWord last (letter :: text) = none)
      (rest : Replaces pattern (some letter) text result) :
      Replaces pattern last (letter :: text) (letter :: result)

theorem Pattern.replaces_subFrom {pattern : Pattern Letter}
    (long : 0 < leastLength pattern.hidden) {fuel : Nat} {last : Option Letter}
    {text : List Letter} (enough : text.length ≤ fuel) :
    pattern.Replaces isWord last text (pattern.subFrom isWord fuel last text) := by
  induction fuel generalizing last text with
  | zero =>
      rw [List.eq_nil_of_length_eq_zero (Nat.le_zero.mp enough)]
      exact .done
  | succ fuel ih =>
      cases text with
      | nil => exact .done
      | cons letter text =>
          cases search : pattern.matchAt isWord last (letter :: text) with
          | none =>
              rw [subFrom, search]
              exact .copied search (ih (Nat.le_of_succ_le_succ enough))
          | some found =>
              obtain ⟨whole, _, hiddenMatches, _⟩ := matchAt_sound isWord search
              have size := congrArg List.length whole
              simp only [List.length_append, List.length_cons] at size enough
              have positive := hiddenMatches.least_le
              rw [subFrom, search]
              exact .replaced search (ih (by omega))

theorem Pattern.replaces_sub {pattern : Pattern Letter}
    (long : 0 < leastLength pattern.hidden) (text : List Letter) :
    pattern.Replaces isWord none text (pattern.sub isWord text) :=
  replaces_subFrom isWord long (Nat.le_refl _)

/-!
## Marks
-/

section Marks

variable {mark : Letter}

/-- No two letters in a row are anything but marks. -/
def Spaced (mark : Letter) : List Letter → Prop
  | [] => True
  | letter :: text => (letter = mark ∨ text.head? = some mark) ∧ Spaced mark text

/-- A replacement that starts with a mark and has nothing but single letters between
its marks. -/
structure Marking (mark : Letter) (replacement : List Letter) : Prop where
  starts : replacement.head? = some mark
  spaced : Spaced mark replacement

/-- A pattern of two letters or more that matches no mark, and hides whole matches. -/
structure Pattern.Solid (mark : Letter) (pattern : Pattern Letter) : Prop where
  whole : pattern.kept = []
  unmarked : ∀ item ∈ pattern.hidden, item.accepts mark = false
  long : 2 ≤ leastLength pattern.hidden

variable {isWord} {pattern : Pattern Letter}

theorem Pattern.Solid.of_match (solid : pattern.Solid mark) {kept hidden : List Letter}
    (keptMatches : Matches pattern.kept kept) (hiddenMatches : Matches pattern.hidden hidden) :
    kept = [] ∧ mark ∉ hidden ∧ 2 ≤ hidden.length := by
  rw [solid.whole] at keptMatches
  refine ⟨by cases keptMatches; rfl, ?_, Nat.le_trans solid.long hiddenMatches.least_le⟩
  intro member
  obtain ⟨item, among, accepts⟩ := hiddenMatches.accepted member
  rw [solid.unmarked item among] at accepts
  cases accepts

theorem mem_of_marked {replacement rest part : List Letter}
    (starts : replacement.head? = some mark) (front : part <+: replacement ++ rest)
    (some : part ≠ []) : mark ∈ part := by
  cases part with
  | nil => exact absurd rfl some
  | cons first part =>
      cases replacement with
      | nil => cases starts
      | cons letter replacement =>
          cases starts
          obtain ⟨rfl, _⟩ := List.cons_prefix_cons.mp front
          exact List.mem_cons_self

theorem front_of_marked {kept replacement rest front later : List Letter}
    (starts : replacement.head? = some mark)
    (same : kept ++ (replacement ++ rest) = front ++ later) (unmarked : mark ∉ front) :
    front <+: kept := by
  rcases List.append_eq_append_iff.mp same with ⟨left, rfl, marked⟩ | ⟨left, rfl, _⟩
  · cases left with
    | nil => simp
    | cons letter left =>
        have isMark := mem_of_marked starts ⟨later, marked.symm⟩ (List.cons_ne_nil _ _)
        exact absurd (List.mem_append_right _ isMark) unmarked
  · exact List.prefix_append _ _

/-- Without a mark in it, the front of a result was the front of the text. -/
theorem Pattern.Replaces.front (marking : Marking mark pattern.replacement)
    {last : Option Letter} {text result : List Letter}
    (replaces : pattern.Replaces isWord last text result) {front later : List Letter}
    (same : result = front ++ later) (unmarked : mark ∉ front) : front <+: text := by
  induction replaces generalizing front with
  | done =>
      obtain ⟨rfl, _⟩ := List.append_eq_nil_iff.mp same.symm
      exact List.nil_prefix
  | copied _ _ ih =>
      cases front with
      | nil => exact List.nil_prefix
      | cons letter front =>
          obtain ⟨rfl, sameRest⟩ := List.cons.inj same
          exact List.cons_prefix_cons.mpr
            ⟨rfl, ih sameRest (List.not_mem_of_not_mem_cons unmarked)⟩
  | replaced search _ _ =>
      obtain ⟨whole, _⟩ := matchAt_sound isWord search
      rw [whole]
      exact (front_of_marked marking.starts same unmarked).trans (List.prefix_append _ _)

/-- Where whole matches are hidden, the rest of the result comes from the rest of the text. -/
theorem Pattern.Replaces.split (marking : Marking mark pattern.replacement)
    (solid : pattern.Solid mark) {last : Option Letter} {text result : List Letter}
    (replaces : pattern.Replaces isWord last text result) {front later : List Letter}
    (same : result = front ++ later) (unmarked : mark ∉ front) :
    ∃ rest, text = front ++ rest ∧ pattern.Replaces isWord (lastOf last front) rest later := by
  induction front generalizing last text result with
  | nil =>
      cases same
      exact ⟨text, rfl, replaces⟩
  | cons letter front ih =>
      obtain ⟨notMark, restUnmarked⟩ := List.ne_and_not_mem_of_not_mem_cons unmarked
      cases replaces with
      | done => cases same
      | replaced search rest =>
          obtain ⟨_, keptMatches, hiddenMatches, _⟩ := matchAt_sound isWord search
          obtain ⟨empty, _⟩ := solid.of_match keptMatches hiddenMatches
          have head := congrArg List.head? same
          simp [empty, marking.starts] at head
          exact absurd head notMark
      | copied search rest =>
          obtain ⟨rfl, sameRest⟩ := List.cons.inj same
          obtain ⟨left, rfl, replaces⟩ := ih rest sameRest restUnmarked
          exact ⟨left, rfl, replaces⟩

/-!
## What is left
-/

/-- Of two letters in a row at the start of a replacement one is a mark. -/
theorem mem_of_spaced {letter : Letter} {replacement rest part : List Letter}
    (single : letter = mark ∨ replacement.head? = some mark)
    (front : part <+: letter :: (replacement ++ rest)) (long : 2 ≤ part.length) :
    mark ∈ part := by
  cases part with
  | nil => cases long
  | cons first part =>
      obtain ⟨rfl, others⟩ := List.cons_prefix_cons.mp front
      rcases single with rfl | isMark
      · exact List.mem_cons_self
      · have some : part ≠ [] := by
          rintro rfl
          exact absurd long (by simp)
        exact List.mem_cons_of_mem _ (mem_of_marked isMark others some)

theorem infix_of_spaced {replacement rest part : List Letter} (spaced : Spaced mark replacement)
    (unmarked : mark ∉ part) (long : 2 ≤ part.length)
    (within : part <:+: replacement ++ rest) : part <:+: rest := by
  induction replacement with
  | nil => exact within
  | cons letter replacement ih =>
      obtain ⟨single, spaced⟩ := spaced
      rcases List.infix_cons_iff.mp within with front | later
      · exact absurd (mem_of_spaced single front long) unmarked
      · exact ih spaced later

/-- A text of two letters or more without a mark was in the text already. -/
theorem Pattern.Replaces.within_text (marking : Marking mark pattern.replacement)
    {last : Option Letter} {text result : List Letter}
    (replaces : pattern.Replaces isWord last text result) {part : List Letter}
    (unmarked : mark ∉ part) (long : 2 ≤ part.length) (within : part <:+: result) :
    part <:+: text := by
  induction replaces with
  | done => exact within
  | copied _ rest ih =>
      rcases List.infix_cons_iff.mp within with front | later
      · cases part with
        | nil => exact List.nil_infix
        | cons first part =>
            obtain ⟨rfl, later, same⟩ := List.cons_prefix_cons.mp front
            have front := rest.front marking same.symm (List.not_mem_of_not_mem_cons unmarked)
            exact (List.cons_prefix_cons.mpr ⟨rfl, front⟩).isInfix
      · exact (ih later).trans (List.suffix_cons _ _).isInfix
  | @replaced last text result found search _ ih =>
      obtain ⟨whole, _⟩ := matchAt_sound isWord search
      rw [whole]
      rcases List.infix_append_iff.mp within with
        inKept | later | ⟨front, back, rfl, atEnd, atFront⟩
      · exact inKept.trans (List.prefix_append _ _).isInfix
      · have inAfter := ih (infix_of_spaced marking.spaced unmarked long later)
        exact inAfter.trans ⟨found.kept ++ found.hidden, [], by simp⟩
      · cases back with
        | nil =>
            rw [List.append_nil]
            exact atEnd.isInfix.trans (List.prefix_append _ _).isInfix
        | cons letter back =>
            have isMark := mem_of_marked marking.starts atFront (List.cons_ne_nil _ _)
            exact absurd (List.mem_append_right _ isMark) unmarked

theorem Pattern.Solid.of_matchesAt (solid : pattern.Solid mark) {last : Option Letter}
    {matched after : List Letter} (isMatch : pattern.MatchesAt isWord last matched after) :
    mark ∉ matched ∧ 2 ≤ matched.length := by
  obtain ⟨_, ⟨kept, hidden, rfl, keptMatches, hiddenMatches⟩, _⟩ := isMatch
  obtain ⟨rfl, unmarked, long⟩ := solid.of_match keptMatches hiddenMatches
  exact ⟨unmarked, long⟩

/-- No match reaches into a replacement. -/
theorem Pattern.Occurs.after_replacement (solid : pattern.Solid mark)
    {replacement : List Letter} (spaced : Spaced mark replacement) (some : replacement ≠ [])
    {last : Option Letter} {rest : List Letter}
    (occurs : pattern.Occurs isWord last (replacement ++ rest)) :
    pattern.Occurs isWord (.some mark) rest := by
  induction replacement generalizing last with
  | nil => exact absurd rfl some
  | cons letter replacement ih =>
      obtain ⟨single, spaced⟩ := spaced
      obtain ⟨before, matched, after, same, isMatch⟩ := occurs
      obtain ⟨unmarked, long⟩ := solid.of_matchesAt isMatch
      cases before with
      | nil => exact absurd (mem_of_spaced single ⟨after, same.symm⟩ long) unmarked
      | cons first before =>
          obtain ⟨rfl, sameRest⟩ := List.cons.inj same
          have later : pattern.Occurs isWord (.some letter) (replacement ++ rest) :=
            ⟨before, matched, after, sameRest, isMatch⟩
          cases replacement with
          | nil =>
              rcases single with rfl | isMark
              · exact later
              · cases isMark
          | cons second replacement => exact ih spaced (List.cons_ne_nil _ _) later

/-- Whether a match starts at the rest of a text, its result tells too. -/
theorem Pattern.Replaces.edge {last : Option Letter} {text result : List Letter}
    (replaces : pattern.Replaces isWord last text result)
    (edge : pattern.edge isWord last result.head? = true) :
    pattern.edge isWord last text.head? = true := by
  cases replaces with
  | done => exact edge
  | copied _ _ => exact edge
  | replaced search _ => exact (matchAt_sound isWord search).2.2.2.1

/-- After the replacement of all matches nothing matches any more. -/
theorem Pattern.Replaces.clean (marking : Marking mark pattern.replacement)
    (solid : pattern.Solid mark) {last : Option Letter} {text result : List Letter}
    (replaces : pattern.Replaces isWord last text result) {before : Option Letter}
    (starts : pattern.edge isWord before text.head? = true →
      pattern.edge isWord last text.head? = true) :
    ¬ pattern.Occurs isWord before result := by
  induction replaces generalizing before with
  | done =>
      rintro ⟨front, matched, after, same, isMatch⟩
      obtain ⟨_, long⟩ := solid.of_matchesAt isMatch
      have short := congrArg List.length same
      simp only [List.length_append, List.length_nil] at short
      omega
  | @copied last letter text result search rest ih =>
      rintro ⟨front, matched, after, same, isMatch⟩
      cases front with
      | nil =>
          obtain ⟨unmarked, long⟩ := solid.of_matchesAt isMatch
          cases matched with
          | nil => cases long
          | cons first matched =>
              obtain ⟨rfl, sameRest⟩ := List.cons.inj same
              obtain ⟨later, rfl, replaces⟩ := rest.split marking solid sameRest
                (List.not_mem_of_not_mem_cons unmarked)
              -- The match was in the text too, and the search would have found it.
              have inText : pattern.MatchesAt isWord last (letter :: matched) later :=
                ⟨starts isMatch.starts, isMatch.parts, replaces.edge isMatch.ends⟩
              have isFound := matchAt_complete isWord inText
              rw [List.cons_append, search] at isFound
              cases isFound
      | cons first front =>
          obtain ⟨rfl, sameRest⟩ := List.cons.inj same
          exact ih id ⟨front, matched, after, sameRest, isMatch⟩
  | @replaced last text result found search rest ih =>
      intro occurs
      obtain ⟨_, keptMatches, hiddenMatches, _, ends⟩ := matchAt_sound isWord search
      obtain ⟨empty, _⟩ := solid.of_match keptMatches hiddenMatches
      rw [empty, List.nil_append] at occurs
      have some : pattern.replacement ≠ [] := by
        intro none
        have starts := marking.starts
        rw [none] at starts
        cases starts
      exact ih (fun _ => ends) (occurs.after_replacement solid marking.spaced some)

theorem Pattern.not_occurs_sub (marking : Marking mark pattern.replacement)
    (solid : pattern.Solid mark) (text : List Letter) :
    ¬ pattern.Occurs isWord none (pattern.sub isWord text) := by
  have positive : 0 < leastLength pattern.hidden := Nat.lt_of_succ_lt solid.long
  exact (replaces_sub isWord positive text).clean marking solid id

/-- A replacement brings no new match of a pattern that does not look around. -/
theorem Pattern.occurs_of_occurs_sub {other : Pattern Letter}
    (marking : Marking mark other.replacement) (positive : 0 < leastLength other.hidden)
    (solid : pattern.Solid mark) (anywhere : pattern.wordEdges = false) {text : List Letter}
    (occurs : pattern.Occurs isWord none (other.sub isWord text)) :
    pattern.Occurs isWord none text := by
  obtain ⟨front, matched, after, same, isMatch⟩ := occurs
  obtain ⟨unmarked, long⟩ := solid.of_matchesAt isMatch
  have within : matched <:+: other.sub isWord text := ⟨front, after, by simp [same]⟩
  obtain ⟨before, rest, whole⟩ :=
    (replaces_sub isWord positive text).within_text marking unmarked long within
  refine ⟨before, matched, rest, by simp [← whole], ?_, isMatch.parts, ?_⟩
  · simp [edge, anywhere]
  · simp [edge, anywhere]

end Marks

end Patterns

end Lib.Substitution

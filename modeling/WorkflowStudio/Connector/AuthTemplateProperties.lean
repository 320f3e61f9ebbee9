import Mathlib.Data.List.MinMax
import WorkflowStudio.Connector.AuthProfile
import WorkflowStudio.Expression.InterpolationProperties

/-! The templates of an authentication profile are sent with all placeholders replaced at once,
whatever the secrets are, exactly when no placeholder of an earlier slot stands in them and they
neither start with a placeholder nor with an equals sign. -/

set_option autoImplicit false

namespace WorkflowStudio.Connector

open Lib Lib.Scanning Lib.Replacing Expression

/-!
## Replacing at once
-/

/-- The slot whose placeholder a text starts with; of several, the shortest. -/
def slotAt (slots : List String) (text : List Char) : Option String :=
  (slots.filter fun slot => (placeholder slot).isPrefixOf text).argmin String.length

def matchSlot (slots : List String) : Matcher Char String := fun text =>
  (slotAt slots text).map fun slot => (slot, (placeholder slot).length)

/-- All placeholders of the slots are replaced at once. -/
def substitute (secret : String → List Char) (slots : List String) (text : List Char) :
    List Char :=
  render secret (scan (matchSlot slots) text)

theorem placeholder_ne_nil (slot : String) : placeholder slot ≠ [] := List.cons_ne_nil _ _

theorem of_slotAt {slots : List String} {text : List Char} {slot : String}
    (here : slotAt slots text = some slot) : slot ∈ slots ∧ placeholder slot <+: text := by
  have member := List.argmin_mem (Option.mem_def.mpr here)
  obtain ⟨among, starts⟩ := List.mem_filter.mp member
  exact ⟨among, List.isPrefixOf_iff_prefix.mp starts⟩

theorem of_matchSlot {slots : List String} {text : List Char} {slot : String} {length : Nat}
    (here : matchSlot slots text = some (slot, length)) :
    slot ∈ slots ∧ placeholder slot <+: text ∧ length = (placeholder slot).length := by
  obtain ⟨found, at_, same⟩ := Option.map_eq_some_iff.mp here
  obtain ⟨rfl, rfl⟩ := Prod.mk.inj same
  exact ⟨(of_slotAt at_).1, (of_slotAt at_).2, rfl⟩

theorem slotAt_isSome {slots : List String} {text : List Char} {slot : String}
    (among : slot ∈ slots) (starts : placeholder slot <+: text) :
    ∃ found, slotAt slots text = some found := by
  cases here : slotAt slots text with
  | some found => exact ⟨found, rfl⟩
  | none =>
      have member : slot ∈ slots.filter fun slot => (placeholder slot).isPrefixOf text :=
        List.mem_filter.mpr ⟨among, List.isPrefixOf_iff_prefix.mpr starts⟩
      rw [List.argmin_eq_none.mp here] at member
      cases member

/-!
## Replacing one after the other
-/

/-- The slots are replaced in their order, each in the text that the others left. -/
def replaceSlots (secret : String → List Char) (slots : List String) (text : List Char) :
    List Char :=
  slots.foldl (fun text slot => replaceAll (placeholder slot) (secret slot) text) text

/-- Each slot is replaced as if the text of the earlier ones could not be read again. -/
def Undisturbed (secret : String → List Char) (slots : List String) (text : List Char) : Prop :=
  ∀ before slot after, slots = before ++ slot :: after →
    replaceAll (placeholder slot) (secret slot) (substitute secret before text) =
      substitute secret (before ++ [slot]) text

theorem substitute_none (secret : String → List Char) (text : List Char) :
    substitute secret [] text = text :=
  render_scan_self (fun _ _ _ here => absurd (of_matchSlot here).1 List.not_mem_nil) text

theorem replaceSlots_of_undisturbed {secret : String → List Char} {slots : List String}
    {text : List Char} (undisturbed : Undisturbed secret slots text) :
    replaceSlots secret slots text = substitute secret slots text := by
  induction slots using List.reverseRecOn with
  | nil => exact (substitute_none secret text).symm
  | append_singleton slots slot ih =>
      have earlier : Undisturbed secret slots text := fun before other after split =>
        undisturbed before other (after ++ [slot]) (by rw [split, List.append_assoc]; rfl)
      rw [replaceSlots, List.foldl_concat, ← undisturbed slots slot [] rfl, ← ih earlier]
      rfl

/-- No placeholder stands in the text but that of the last slot. -/
def LastOnly (slots : List String) (text : List Char) : Prop :=
  ∀ before slot after, slots = before ++ slot :: after → after ≠ [] →
    ¬ placeholder slot <:+: text

theorem replaceSlots_absent {secret : String → List Char} {slots : List String} {text : List Char}
    (absent : ∀ slot ∈ slots, replaceAll (placeholder slot) (secret slot) text = text) :
    replaceSlots secret slots text = text := by
  induction slots with
  | nil => rfl
  | cons slot slots ih =>
      obtain ⟨here, later⟩ := List.forall_mem_cons.mp absent
      rw [replaceSlots, List.foldl_cons, here]
      exact ih later

theorem replaceSlots_append (secret : String → List Char) (front back : List String)
    (text : List Char) :
    replaceSlots secret (front ++ back) text =
      replaceSlots secret back (replaceSlots secret front text) := List.foldl_append

/-- Where only the last slot stands, the order of replacing plays no role. -/
theorem replaceSlots_of_lastOnly {slots : List String} {text : List Char}
    (lastOnly : LastOnly slots text) (secret : String → List Char) :
    replaceSlots secret slots text = substitute secret slots text := by
  rcases List.eq_nil_or_concat' slots with rfl | ⟨before, last, rfl⟩
  · exact (substitute_none secret text).symm
  · have absent : ∀ slot ∈ before, ¬ placeholder slot <:+: text := by
      intro slot member
      obtain ⟨front, back, rfl⟩ := List.append_of_mem member
      refine lastOnly front slot (back ++ [last]) ?_ ?_
      · rw [List.append_assoc, List.cons_append]
      · exact List.append_ne_nil_of_right_ne_nil _ (List.cons_ne_nil _ _)
    have alone : scan (matchSlot (before ++ [last])) text =
        (scan (matchText (placeholder last)) text).map (Sum.map id fun _ => last) := by
      refine scan_congr fun back suffix => ?_
      by_cases starts : placeholder last <+: back
      · obtain ⟨found, here⟩ := slotAt_isSome
          (List.mem_append_right before (List.mem_singleton_self last)) starts
        obtain ⟨among, startsFound⟩ := of_slotAt here
        have same : found = last := by
          rcases List.mem_append.mp among with earlier | final
          · exact absurd (startsFound.isInfix.trans suffix.isInfix) (absent found earlier)
          · exact List.mem_singleton.mp final
        rw [matchSlot, here, same, matchText, if_pos (List.isPrefixOf_iff_prefix.mpr starts)]
        rfl
      · have none : slotAt (before ++ [last]) back = none := by
          cases here : slotAt (before ++ [last]) back with
          | none => rfl
          | some found =>
              obtain ⟨among, startsFound⟩ := of_slotAt here
              rcases List.mem_append.mp among with earlier | final
              · exact absurd (startsFound.isInfix.trans suffix.isInfix) (absent found earlier)
              · exact absurd (List.mem_singleton.mp final ▸ startsFound) starts
        rw [matchSlot, none, matchText,
          if_neg fun isPrefix => starts (List.isPrefixOf_iff_prefix.mp isPrefix)]
        rfl
    rw [replaceSlots_append, replaceSlots_absent fun slot member => replaceAll_absent
      (absent slot member), substitute, alone, render_map]
    rfl

/-!
## Evaluation
-/

section Evaluation

variable (python : Expression.Python)

theorem resolveStr_of_resolve {evaluator : Evaluator} {text sent : String}
    (resolved : (resolve python evaluator (.str text)).outcome = .ok (.str sent)) :
    (resolveStr python evaluator (.str text)).outcome = .ok sent := by
  rw [resolveStr, Logged.bind, resolved]
  change Except.ok (if Value.str sent = .none then "" else python.str (.str sent)) = _
  rw [if_neg (by rintro ⟨⟩), python.str_str]

theorem resolveStr_text {text : String} (plain : isExpressionMode text = false)
    (evaluator : Evaluator) : (resolveStr python evaluator (.str text)).outcome = .ok text := by
  refine resolveStr_of_resolve python ?_
  rw [resolve_plain python plain evaluator]
  rfl

theorem resolveStr_ok (evaluator : Evaluator) (value : Value) :
    ∃ sent, (resolveStr python evaluator value).outcome = .ok sent := by
  obtain ⟨-, result, resolved⟩ := resolve_logs python evaluator value
  rw [resolveStr, Logged.bind, resolved]
  exact ⟨_, rfl⟩

def failing : Evaluator := fun _ => .error ""

theorem scans_length {text : List Char} {found : List Piece} (scans : Scans text found) :
    ((found.map (pieceText python failing)).flatten).length ≤ text.length := by
  induction scans with
  | done => exact Nat.le_refl _
  | @template text inner after later opened scans ih =>
      unfold templateAt at opened
      split at opened
      next rest =>
        have whole := congrArg List.length (openTemplate_spec opened)
        have empty : pieceText python failing (.template inner) = [] := rfl
        rw [List.length_append, List.length_cons, List.length_cons] at whole
        rw [List.map_cons, List.flatten_cons, empty, List.nil_append, List.length_cons,
          List.length_cons]
        omega
      next => cases opened
  | text unopened scans ih => exact Nat.succ_le_succ ih

/-- A text that starts with an equals sign is sent shorter where nothing can be evaluated. -/
theorem resolveStr_expression {text sent : String} (mode : isExpressionMode text = true)
    (here : (resolveStr python failing (.str text)).outcome = .ok sent) :
    sent.toList.length < text.toList.length := by
  have body : (stripExpressionPrefix text).toList.length + 1 = text.toList.length := by
    rw [stripExpressionPrefix, mode, if_pos rfl, String.toList_ofList]
    cases letters : text.toList with
    | nil =>
        rw [isExpressionMode, letters] at mode
        cases mode
    | cons first rest => rfl
  have shorter {other : String}
      (resolved : (resolve python failing (.str text)).outcome = .ok (.str other))
      (small : other.toList.length ≤ (stripExpressionPrefix text).toList.length) :
      sent.toList.length < text.toList.length := by
    have same := (resolveStr_of_resolve python resolved).symm.trans here
    rw [← Except.ok.inj same, ← body]
    exact Nat.lt_succ_of_le small
  by_cases blank : stripChars (stripExpressionPrefix text).toList = []
  · refine @shorter "" ?_ (Nat.zero_le _)
    simp only [resolve, resolveString, mode, if_true, resolvePrefixedExpression, blank]
    rfl
  · cases full : fullTemplate (stripChars (stripExpressionPrefix text).toList) with
    | some inner =>
        refine shorter ?_ (Nat.le_refl _)
        simp only [resolve, resolveString, mode, if_true, resolvePrefixedExpression, blank,
          if_false, full]
        rfl
    | none =>
        refine shorter (resolve_pieces python failing mode blank full) ?_
        rw [String.toList_ofList]
        exact scans_length python (scans_pieces _)

end Evaluation

/-!
## Every secret
-/

/-- A template that is sent verbatim whatever the secrets are. -/
structure SafeTemplate (slots : List String) (text : List Char) : Prop where
  lastOnly : LastOnly slots text
  noEquals : text.head? ≠ some '='
  noStart : ∀ slot ∈ slots, ¬ placeholder slot <+: text

theorem SafeTemplate.head? {slots : List String} {text : List Char}
    (safe : SafeTemplate slots text) (secret : String → List Char) :
    (substitute secret slots text).head? ≠ some '=' := by
  cases text with
  | nil =>
      rintro ⟨⟩
  | cons letter rest =>
      have none : matchSlot slots (letter :: rest) = none := by
        cases here : slotAt slots (letter :: rest) with
        | none =>
            rw [matchSlot, here]
            rfl
        | some slot =>
            obtain ⟨among, starts⟩ := of_slotAt here
            exact absurd starts (safe.noStart slot among)
      rw [substitute, scan_letter none, render_letter]
      exact safe.noEquals

section Sent

variable (python : Expression.Python)

/-- What is sent for a template: its slots are replaced, and the result is resolved. -/
def Sends (evaluator : Evaluator) (secret : String → List Char) (slots : List String)
    (text sent : List Char) : Prop :=
  (resolveStr python evaluator (.str (String.ofList (replaceSlots secret slots text)))).outcome =
    .ok (String.ofList sent)

theorem mode_eq (text : List Char) :
    isExpressionMode (String.ofList text) = true ↔ text.head? = some '=' := by
  rw [isExpressionMode, String.toList_ofList, beq_iff_eq]

theorem sends_of_replaced {secret : String → List Char} {slots : List String} {text : List Char}
    (replaced : replaceSlots secret slots text = substitute secret slots text)
    (noEquals : (substitute secret slots text).head? ≠ some '=') (evaluator : Evaluator) :
    Sends python evaluator secret slots text (substitute secret slots text) := by
  rw [Sends, replaced]
  refine resolveStr_text python ?_ evaluator
  rw [Bool.eq_false_iff]
  exact fun mode => noEquals ((mode_eq _).mp mode)

theorem SafeTemplate.sends {slots : List String} {text : List Char}
    (safe : SafeTemplate slots text) (secret : String → List Char) (evaluator : Evaluator) :
    Sends python evaluator secret slots text (substitute secret slots text) :=
  sends_of_replaced python (replaceSlots_of_lastOnly safe.lastOnly secret) (safe.head? secret)
    evaluator

/-- Where what is sent keeps its length, it does not start with an equals sign. -/
theorem noEquals_of_sends {secret : String → List Char} {slots : List String}
    {text sent : List Char} (sends : Sends python failing secret slots text sent)
    (length : sent.length = (replaceSlots secret slots text).length) :
    (replaceSlots secret slots text).head? ≠ some '=' := by
  intro equals
  have shorter := resolveStr_expression python ((mode_eq _).mpr equals) sends
  rw [String.toList_ofList, String.toList_ofList, length] at shorter
  exact Nat.lt_irrefl _ shorter

theorem substitute_self {slots : List String} {secret : String → List Char}
    (own : ∀ slot ∈ slots, secret slot = placeholder slot) (text : List Char) :
    substitute secret slots text = text := by
  refine render_scan_self (fun _ slot length here => ?_) text
  obtain ⟨among, starts, length⟩ := of_matchSlot here
  rw [own slot among]
  exact ⟨placeholder_ne_nil slot, length, starts⟩

theorem replaceSlots_self {slots : List String} {secret : String → List Char}
    (own : ∀ slot ∈ slots, secret slot = placeholder slot) (text : List Char) :
    replaceSlots secret slots text = text := by
  refine replaceSlots_absent fun slot member => ?_
  rw [own slot member, replaceAll_self (placeholder_ne_nil slot)]

/-- A letter that no placeholder starts or ends with, repeated. -/
def block (count : Nat) : List Char := List.replicate count 'c'

theorem mem_block {count : Nat} {letter : Char} (member : letter ∈ block count) : letter = 'c' :=
  List.eq_of_mem_replicate member

/-- A block that is longer than a placeholder separates what stands before and behind it. -/
theorem replaceAll_block {slot : String} {count : Nat} (long : (placeholder slot).length ≤ count)
    (value front back : List Char) :
    replaceAll (placeholder slot) value (front ++ (block count ++ back)) =
      replaceAll (placeholder slot) value front ++
        (block count ++ replaceAll (placeholder slot) value back) := by
  have some := placeholder_ne_nil slot
  have alone : replaceAll (placeholder slot) value (block count) = block count := by
    refine replaceAll_absent fun inside => ?_
    have member : '\x7b' ∈ block count := inside.subset List.mem_cons_self
    exact absurd (mem_block member) (by decide)
  rw [replaceAll_append some, replaceAll_append some, alone]
  · intro left right nonempty _ split ends _
    obtain ⟨first, others, rfl⟩ := List.exists_cons_of_ne_nil nonempty
    have first_eq : '\x7b' = first := (List.cons.inj split).1
    exact absurd (first_eq.trans (mem_block (ends.subset List.mem_cons_self))) (by decide)
  · intro left right _ nonempty split _ starts
    have within : right <+: block count := by
      refine List.prefix_of_prefix_length_le starts (List.prefix_append _ _) ?_
      have lengths := congrArg List.length split
      rw [List.length_append] at lengths
      rw [block, List.length_replicate]
      omega
    have last : '\x7d' ∈ right := by
      have final := congrArg List.getLast? split
      rw [List.getLast?_append_of_ne_nil _ nonempty, placeholder,
        List.getLast?_append_of_ne_nil _ (List.cons_ne_nil _ _)] at final
      exact List.mem_of_getLast? final.symm
    exact absurd (mem_block (within.subset last)) (by decide)

/-- The secrets that show an earlier slot: its own holds the placeholder of a later one between
two blocks, and all others hold their own placeholders. -/
def revealing (count : Nat) (slot later : String) (other : String) : List Char :=
  if other = slot then block count ++ (placeholder later ++ block count)
  else if other = later then ['c']
  else placeholder other

theorem replaceSlots_revealing {count : Nat} {before rest : List String} {slot later : String}
    (distinct : (before ++ slot :: later :: rest).Nodup) (text : List Char) :
    replaceSlots (revealing count slot later) (before ++ slot :: later :: rest) text =
      replaceAll (placeholder later) ['c'] (replaceAll (placeholder slot)
        (block count ++ (placeholder later ++ block count)) text) := by
  obtain ⟨_, back, apart⟩ := List.nodup_append.mp distinct
  obtain ⟨noSlot, back⟩ := List.nodup_cons.mp back
  obtain ⟨noLater, _⟩ := List.nodup_cons.mp back
  have others {other : String} (noSlot : other ≠ slot) (noLater : other ≠ later) :
      revealing count slot later other = placeholder other := by
    rw [revealing, if_neg noSlot, if_neg noLater]
  have early : ∀ other ∈ before, revealing count slot later other = placeholder other := by
    intro other member
    exact others (apart other member slot List.mem_cons_self)
      (apart other member later (List.mem_cons_of_mem _ List.mem_cons_self))
  have late : ∀ other ∈ rest, revealing count slot later other = placeholder other := by
    intro other member
    refine others ?_ ?_
    · rintro rfl
      exact noSlot (List.mem_cons_of_mem _ member)
    · rintro rfl
      exact noLater member
  have different : later ≠ slot := by
    rintro rfl
    exact noSlot List.mem_cons_self
  rw [replaceSlots_append, replaceSlots_self early]
  change replaceSlots _ rest (replaceAll (placeholder later) (revealing count slot later later)
    (replaceAll (placeholder slot) (revealing count slot later slot) text)) = _
  rw [replaceSlots_self late, revealing, if_neg different, if_pos rfl, revealing, if_pos rfl]

theorem length_substitute_front {count : Nat} {slot later : String} {slots : List String}
    {text : List Char} {front back : List (Char ⊕ String)}
    (split : scan (matchSlot slots) text = front ++ back) (absent : .inr slot ∉ front) :
    (render (revealing count slot later) front).length ≤ text.length := by
  have small : ∀ text found length, matchSlot slots text = some (found, length) →
      0 < length ∧ length ≤ text.length ∧
        (if found = later then ['c'] else placeholder found).length ≤ length := by
    intro text found length here
    obtain ⟨_, starts, rfl⟩ := of_matchSlot here
    refine ⟨List.length_pos_iff.mpr (placeholder_ne_nil found), starts.length_le, ?_⟩
    split
    · exact List.length_pos_iff.mpr (placeholder_ne_nil found)
    · exact Nat.le_refl _
  have same : render (revealing count slot later) front =
      render (fun found => if found = later then ['c'] else placeholder found) front := by
    refine render_congr fun found member => ?_
    have other : found ≠ slot := by
      rintro rfl
      exact absent member
    rw [revealing, if_neg other]
  have bound := length_render_scan_le small text
  rw [split, render_append, List.length_append] at bound
  rw [same]
  omega

theorem lastOnly_of_sends {slots : List String} {text : List Char} (distinct : slots.Nodup)
    (noEquals : text.head? ≠ some '=')
    (sends : ∀ secret evaluator,
      Sends python evaluator secret slots text (substitute secret slots text)) :
    LastOnly slots text := by
  rintro before slot (_ | ⟨later, rest⟩) rfl nonempty inside
  · exact nonempty rfl
  obtain ⟨count, long⟩ : ∃ count, text.length + (placeholder later).length + 1 ≤ count :=
    ⟨_, Nat.le_refl _⟩
  have longLater : (placeholder later).length ≤ count := by omega
  obtain ⟨front, back, split, replaced⟩ := @replaceAll_first _ _ (placeholder slot)
    (block count ++ (placeholder later ++ block count)) (placeholder_ne_nil slot) text inside
  -- What is sent has a run of letters in the place of the placeholder of the later slot.
  obtain ⟨shown, behind, sequential, short, head⟩ : ∃ shown behind,
      replaceSlots (revealing count slot later) (before ++ slot :: later :: rest) text =
        shown ++ (block (count + 1 + count) ++ behind) ∧ shown.length ≤ text.length ∧
        (shown ++ (block (count + 1 + count) ++ behind)).head? ≠ some '=' := by
    have some := placeholder_ne_nil later
    refine ⟨replaceAll (placeholder later) ['c'] front, replaceAll (placeholder later) ['c']
      (replaceAll (placeholder slot) (block count ++ (placeholder later ++ block count)) back),
      ?_, ?_, ?_⟩
    · have run : block (count + 1 + count) = block count ++ 'c' :: block count := by
        rw [block, List.replicate_add, List.replicate_add, List.append_assoc]
        rfl
      have again := replaceAll_block longLater ['c'] [] (replaceAll (placeholder slot)
        (block count ++ (placeholder later ++ block count)) back)
      rw [List.nil_append, replaceAll_nil, List.nil_append] at again
      rw [replaceSlots_revealing distinct, replaced, List.append_assoc, List.append_assoc,
        List.append_assoc, replaceAll_block longLater, replaceAll_match some, again, run]
      simp only [List.append_assoc, List.cons_append, List.nil_append]
    · have small : ['c'].length ≤ (placeholder later).length := List.length_pos_iff.mpr some
      refine (length_replaceAll_le small some front).trans ?_
      rw [split, List.length_append, List.length_append]
      omega
    · have starts : (block (count + 1 + count)).head? = .some 'c' := by
        rw [block, Nat.add_right_comm, List.replicate_succ]
        rfl
      cases front with
      | nil =>
          rw [replaceAll_nil, List.nil_append, List.head?_append, starts]
          exact fun same => absurd (Option.some.inj same) (by decide)
      | cons letter front =>
          rcases @replaceAll_cases _ _ (placeholder later) ['c'] some letter front with
            ⟨_, _, _, here⟩ | ⟨_, here⟩
          · rw [here]
            exact fun same => absurd (Option.some.inj same) (by decide)
          · rw [here]
            rw [split] at noEquals
            exact noEquals
  have sent := sends (revealing count slot later) failing
  have plain : isExpressionMode (String.ofList (shown ++ (block (count + 1 + count) ++ behind))) =
      false := Bool.eq_false_iff.mpr fun mode => head ((mode_eq _).mp mode)
  rw [Sends, sequential, resolveStr_text python plain] at sent
  have same := String.ofList_injective (Except.ok.inj sent)
  -- Replaced at once, the placeholder of the later slot stays where the secret has it.
  by_cases found : .inr slot ∈ scan (matchSlot (before ++ slot :: later :: rest)) text
  · obtain ⟨front, back, absent, rendered, pieces⟩ :=
      render_split (revealing count slot later) found
    have bound := @length_substitute_front count slot later _ _ _ _ pieces absent
    rw [substitute, rendered, revealing, if_pos rfl] at same
    generalize render (revealing count slot later) front = start at bound same
    have run : (shown ++ (block (count + 1 + count) ++ behind))[start.length + count]? =
        some 'c' := by
      rw [List.getElem?_append_right (by omega), List.getElem?_append_left, block,
        List.getElem?_replicate, if_pos (by omega)]
      rw [block, List.length_replicate]
      omega
    have brace : (start ++ (block count ++ (placeholder later ++ block count)) ++
        render (revealing count slot later) back)[start.length + count]? = some '\x7b' := by
      have front : (start ++ block count).length = start.length + count := by
        rw [List.length_append, block, List.length_replicate]
      rw [List.append_assoc, List.append_assoc, ← List.append_assoc start,
        List.getElem?_append_right front.le, front, Nat.sub_self]
      rfl
    rw [same, brace] at run
    exact absurd (Option.some.inj run) (by decide)
  · have bound := @length_substitute_front count slot later _ text _ [] (List.append_nil _).symm found
    have lengths := congrArg List.length same
    rw [substitute, List.length_append, List.length_append, block, List.length_replicate] at lengths
    omega

theorem safeTemplate_iff {slots : List String} (distinct : slots.Nodup) (text : List Char) :
    (∀ secret evaluator,
        Sends python evaluator secret slots text (substitute secret slots text)) ↔
      SafeTemplate slots text := by
  constructor
  · intro sends
    have noEquals : text.head? ≠ some '=' := by
      have same := sends placeholder failing
      rw [substitute_self (fun _ _ => rfl)] at same
      have replaced := @replaceSlots_self slots placeholder (fun _ _ => rfl) text
      have noHead := noEquals_of_sends python same (by rw [replaced])
      rwa [replaced] at noHead
    have lastOnly := lastOnly_of_sends python distinct noEquals sends
    refine ⟨lastOnly, noEquals, fun slot member starts => ?_⟩
    have replaced := replaceSlots_of_lastOnly lastOnly fun _ => ['=']
    have noHead := noEquals_of_sends python (sends (fun _ => ['=']) failing) (by rw [replaced])
    rw [replaced] at noHead
    obtain ⟨found, here⟩ := slotAt_isSome member starts
    obtain ⟨_, rest, split⟩ := of_slotAt here
    have matched : matchSlot slots (placeholder found ++ rest) =
        some (found, (placeholder found).length) := by
      rw [split, matchSlot, here]
      rfl
    rw [← split, substitute, scan_match matched (placeholder_ne_nil found), render_match] at noHead
    exact noHead rfl
  · exact fun safe secret evaluator => safe.sends python secret evaluator

/-!
## The request
-/

variable {python}

theorem lookup_foldl_absent {pairs : Fields} {key : Value} (absent : key ∉ pairs.map Prod.fst)
    (start : Fields) :
    (pairs.foldl (fun fields pair => OrderedMap.setEntries pair.1 pair.2 fields) start).lookup
      key = start.lookup key := by
  induction pairs generalizing start with
  | nil => rfl
  | cons pair rest ih =>
      rw [List.map_cons, List.mem_cons, not_or] at absent
      rw [List.foldl_cons, ih absent.2, OrderedMap.lookup_setEntries, if_neg absent.1]

/-- The last pair of a key decides. -/
theorem lookup_foldl_last {pairs before after : Fields} {key value : Value}
    (split : pairs = before ++ (key, value) :: after) (last : key ∉ after.map Prod.fst) :
    (pairs.foldl (fun fields pair => OrderedMap.setEntries pair.1 pair.2 fields) []).lookup
      key = some value := by
  rw [split, List.foldl_append, List.foldl_cons, lookup_foldl_absent last,
    OrderedMap.lookup_setEntries, if_pos rfl]

theorem buildPair_row {evaluator : Evaluator} {key : String} (some : key ≠ "") {text : Value}
    {sent : String} (resolved : (resolveStr python evaluator text).outcome = .ok sent) :
    (buildPair python evaluator (.dict [(.str "key", .str key), (.str "value", text),
      (.str "enabled", .bool true)])).outcome = .ok [(.str key, .str sent)] := by
  have named : (Value.str key).truthy = true := by
    rw [Value.truthy]
    exact decide_eq_true some
  have pair : buildPair python evaluator (.dict [(.str "key", .str key), (.str "value", text),
      (.str "enabled", .bool true)]) =
      (resolveStr python evaluator text).bind fun sent => .done [(.str key, .str sent)] := by
    rw [buildPair]
    exact if_pos (Bool.and_eq_true_iff.mpr ⟨rfl, named⟩)
  rw [pair, Logged.bind, resolved]
  rfl

end Sent

end WorkflowStudio.Connector

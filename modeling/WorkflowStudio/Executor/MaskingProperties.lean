import WorkflowStudio.Executor.Masking
import WorkflowStudio.Lib.Attempts

/-! What masking hides: a masked text has no key and no address in it, a masked value
none but in what masking leaves as it is. -/

set_option autoImplicit false

namespace WorkflowStudio.Executor

open Lib Expression Substitution

/-!
## Texts
-/

section Texts

variable (isWord : Char → Bool)

/-- The patterns of keys and of addresses. -/
def secretPatterns : List (Pattern Char) := [keyPattern "sk-", keyPattern "key-", emailPattern]

/-- A text without a key and without an address. -/
def Unmatched (text : String) : Prop :=
  ∀ pattern ∈ secretPatterns, ¬ pattern.Occurs isWord none text.toList

theorem marking_key (start : String) : Marking '*' (keyPattern start).replacement :=
  ⟨rfl, by simp [keyPattern, Spaced]⟩

theorem marking_assignment (name : String) : Marking '*' (assignmentPattern name).replacement :=
  ⟨rfl, by simp [assignmentPattern, Spaced]⟩

theorem marking_email : Marking '*' emailPattern.replacement :=
  ⟨rfl, by simp [emailPattern, Spaced]⟩

theorem solid_sk : (keyPattern "sk-").Solid '*' := ⟨rfl, by decide, by decide⟩

theorem solid_key : (keyPattern "key-").Solid '*' := ⟨rfl, by decide, by decide⟩

theorem solid_email : emailPattern.Solid '*' := ⟨rfl, by decide, by decide⟩

theorem marking_of_mem {pattern : Pattern Char} (among : pattern ∈ maskPatterns) :
    Marking '*' pattern.replacement ∧ 0 < leastLength pattern.hidden := by
  simp only [maskPatterns, List.mem_cons, List.not_mem_nil, or_false] at among
  rcases among with rfl | rfl | rfl | rfl | rfl | rfl
  · exact ⟨marking_key _, by decide⟩
  · exact ⟨marking_key _, by decide⟩
  · exact ⟨marking_assignment _, by decide⟩
  · exact ⟨marking_assignment _, by decide⟩
  · exact ⟨marking_assignment _, by decide⟩
  · exact ⟨marking_email, by decide⟩

/-- The patterns after a pattern of keys bring none of its matches back. -/
theorem not_occurs_foldl {pattern : Pattern Char} (solid : pattern.Solid '*')
    (anywhere : pattern.wordEdges = false) {others : List (Pattern Char)}
    (among : ∀ other ∈ others, other ∈ maskPatterns) {text : List Char}
    (clean : ¬ pattern.Occurs isWord none text) :
    ¬ pattern.Occurs isWord none
      (others.foldl (fun result other => other.sub isWord result) text) := by
  induction others generalizing text with
  | nil => exact clean
  | cons other others ih =>
      obtain ⟨marking, positive⟩ := marking_of_mem (among other List.mem_cons_self)
      refine ih (fun later member => among later (List.mem_cons_of_mem _ member)) ?_
      exact fun occurs =>
        clean (Pattern.occurs_of_occurs_sub marking positive solid anywhere occurs)

theorem not_occurs_maskChars {pattern : Pattern Char} (solid : pattern.Solid '*')
    (anywhere : pattern.wordEdges = false) (among : pattern ∈ maskPatterns) (text : List Char) :
    ¬ pattern.Occurs isWord none (maskChars isWord text) := by
  obtain ⟨before, after, whole⟩ := List.append_of_mem among
  have later : ∀ other ∈ after, other ∈ maskPatterns := by
    intro other member
    rw [whole]
    exact List.mem_append_right _ (List.mem_cons_of_mem _ member)
  rw [maskChars, whole, List.foldl_append, List.foldl_cons]
  exact not_occurs_foldl isWord solid anywhere later
    (Pattern.not_occurs_sub (marking_of_mem among).1 solid _)

theorem not_occurs_email (text : List Char) :
    ¬ emailPattern.Occurs isWord none (maskChars isWord text) := by
  have last : maskPatterns = maskPatterns.dropLast ++ [emailPattern] := rfl
  rw [maskChars, last, List.foldl_append, List.foldl_cons, List.foldl_nil]
  exact Pattern.not_occurs_sub marking_email solid_email _

/-- A masked text has no key and no address in it. -/
theorem unmatched_maskText (text : String) : Unmatched isWord (maskText isWord text) := by
  intro pattern among
  rw [maskText, String.toList_ofList]
  simp only [secretPatterns, List.mem_cons, List.not_mem_nil, or_false] at among
  rcases among with rfl | rfl | rfl
  · exact not_occurs_maskChars isWord solid_sk rfl (by simp [maskPatterns]) _
  · exact not_occurs_maskChars isWord solid_key rfl (by simp [maskPatterns]) _
  · exact not_occurs_email isWord _

/-- A text without a letter that both patterns of keys need, and without an `@`. -/
theorem unmatched_of_without {wanted : Char} (needed : wanted ∈ ['k', '-']) {text : String}
    (noKey : ∀ value ∈ text.toList, isLetter wanted value = false)
    (noSign : ∀ value ∈ text.toList, (· == '@') value = false) : Unmatched isWord text := by
  intro pattern among
  simp only [List.mem_cons, List.not_mem_nil, or_false] at needed
  simp only [secretPatterns, List.mem_cons, List.not_mem_nil, or_false] at among
  rcases among with rfl | rfl | rfl
  · refine Pattern.not_occurs_of_letter isWord ?_ noKey
    rcases needed with rfl | rfl <;> simp [keyPattern, word]
  · refine Pattern.not_occurs_of_letter isWord ?_ noKey
    rcases needed with rfl | rfl <;> simp [keyPattern, word]
  · exact Pattern.not_occurs_of_letter isWord (by simp [emailPattern]) noSign

/-- No letter of a text is the dash of a key or the sign of an address. -/
def isPlainText (text : String) : Bool :=
  text.toList.all fun value => !(isLetter '-' value || value == '@')

theorem unmatched_of_plain {text : String} (plain : isPlainText text = true) :
    Unmatched isWord text := by
  have letters : ∀ value ∈ text.toList, isLetter '-' value = false ∧ (value == '@') = false := by
    intro value member
    have here := List.all_eq_true.mp plain value member
    rwa [Bool.not_eq_true', Bool.or_eq_false_iff] at here
  exact unmatched_of_without isWord (by simp) (fun value member => (letters value member).1)
    fun value member => (letters value member).2

end Texts

/-!
## Strings in values
-/

section Values

variable (objects : Objects)

/-- The values that a value is made of. -/
def partsOf : Value → List Value
  | .list items | .tuple items => items
  | .dict entries => entries.map Prod.fst ++ entries.map Prod.snd
  | .object truth identity =>
      (objects.iterate truth identity).getD [] ++
        match objects.form truth identity with
        | .set items => items
        | _ => []
  | _ => []

/-- A string somewhere in a value. -/
inductive Within (text : String) : Value → Prop
  | here : Within text (.str text)
  | part {value item : Value} (among : item ∈ partsOf objects value) (within : Within text item) :
      Within text value

/-- A string that masking leaves as it is: in a key, or in an object. -/
inductive Kept (text : String) : Value → Prop
  | key {entries : List (Value × Value)} {entry : Value × Value} (among : entry ∈ entries)
      (within : Within objects text entry.1) : Kept text (.dict entries)
  | value {entries : List (Value × Value)} {entry : Value × Value} (among : entry ∈ entries)
      (kept : Kept text entry.2) : Kept text (.dict entries)
  | listItem {items : List Value} {item : Value} (among : item ∈ items) (kept : Kept text item) :
      Kept text (.list items)
  | tupleItem {items : List Value} {item : Value} (among : item ∈ items) (kept : Kept text item) :
      Kept text (.tuple items)
  | object {truth : Bool} {identity : Nat} (within : Within objects text (.object truth identity)) :
      Kept text (.object truth identity)

variable {objects} {text : String}

theorem Kept.within {value : Value} (kept : Kept objects text value) :
    Within objects text value := by
  induction kept with
  | key among within => exact .part (List.mem_append_left _ (List.mem_map_of_mem among)) within
  | value among _ ih => exact .part (List.mem_append_right _ (List.mem_map_of_mem among)) ih
  | listItem among _ ih | tupleItem among _ ih => exact .part among ih
  | object within => exact within

theorem within_iff {value : Value} : Within objects text value ↔
    value = .str text ∨ ∃ item ∈ partsOf objects value, Within objects text item := by
  constructor
  · intro within
    cases within with
    | here => exact .inl rfl
    | part among within => exact .inr ⟨_, among, within⟩
  · rintro (rfl | ⟨item, among, within⟩)
    · exact .here
    · exact .part among within

@[simp] theorem within_str {other : String} : Within objects text (.str other) ↔ other = text := by
  rw [within_iff]
  simp [partsOf]

@[simp] theorem not_within_none : ¬ Within objects text .none := by
  rw [within_iff]
  simp [partsOf]

@[simp] theorem not_within_bool {value : Bool} : ¬ Within objects text (.bool value) := by
  rw [within_iff]
  simp [partsOf]

@[simp] theorem not_within_int {value : Int} : ¬ Within objects text (.int value) := by
  rw [within_iff]
  simp [partsOf]

@[simp] theorem within_list {items : List Value} :
    Within objects text (.list items) ↔ ∃ item ∈ items, Within objects text item := by
  rw [within_iff]
  simp [partsOf]

@[simp] theorem within_dict {entries : List (Value × Value)} :
    Within objects text (.dict entries) ↔
      ∃ entry ∈ entries, Within objects text entry.1 ∨ Within objects text entry.2 := by
  rw [within_iff]
  constructor
  · rintro (same | ⟨item, among, within⟩)
    · cases same
    · rcases List.mem_append.mp among with inKeys | inValues
      · obtain ⟨entry, member, rfl⟩ := List.mem_map.mp inKeys
        exact ⟨entry, member, .inl within⟩
      · obtain ⟨entry, member, rfl⟩ := List.mem_map.mp inValues
        exact ⟨entry, member, .inr within⟩
  · rintro ⟨entry, member, inKey | inValue⟩
    · exact .inr ⟨_, List.mem_append_left _ (List.mem_map_of_mem member), inKey⟩
    · exact .inr ⟨_, List.mem_append_right _ (List.mem_map_of_mem member), inValue⟩

@[simp] theorem kept_dict {entries : List (Value × Value)} :
    Kept objects text (.dict entries) ↔
      ∃ entry ∈ entries, Within objects text entry.1 ∨ Kept objects text entry.2 := by
  constructor
  · intro kept
    cases kept with
    | key member within => exact ⟨_, member, .inl within⟩
    | value member kept => exact ⟨_, member, .inr kept⟩
  · rintro ⟨entry, member, within | kept⟩
    · exact .key member within
    · exact .value member kept

@[simp] theorem kept_list {items : List Value} :
    Kept objects text (.list items) ↔ ∃ item ∈ items, Kept objects text item := by
  constructor
  · intro kept
    cases kept with
    | listItem member kept => exact ⟨_, member, kept⟩
  · rintro ⟨item, member, kept⟩
    exact .listItem member kept

@[simp] theorem not_kept_none : ¬ Kept objects text .none := nofun

@[simp] theorem not_kept_bool {value : Bool} : ¬ Kept objects text (.bool value) := nofun

@[simp] theorem not_kept_int {value : Int} : ¬ Kept objects text (.int value) := nofun

@[simp] theorem not_kept_str {other : String} : ¬ Kept objects text (.str other) := nofun

theorem mapItemTexts_eq (change : String → String) (items : List Value) :
    mapItemTexts change items = items.map (mapTexts change) := by
  induction items with
  | nil => rfl
  | cons item items ih => rw [mapItemTexts, ih, List.map_cons]

theorem mapEntryTexts_eq (change : String → String) (entries : List (Value × Value)) :
    mapEntryTexts change entries =
      entries.map fun entry => (entry.1, mapTexts change entry.2) := by
  induction entries with
  | nil => rfl
  | cons entry entries ih => rw [mapEntryTexts, ih, List.map_cons]

/-- A string in a changed value is a changed one, or one that was kept. -/
theorem within_mapTexts {change : String → String} {value : Value}
    (within : Within objects text (mapTexts change value)) :
    Kept objects text value ∨
      ∃ original, Within objects original value ∧ text = change original := by
  generalize same : mapTexts change value = changed at within
  induction within generalizing value with
  | here =>
      cases value with
      | str original => exact .inr ⟨original, .here, (Value.str.inj same).symm⟩
      | _ => cases same
  | part among within ih =>
      cases value with
      | dict entries =>
          subst same
          rw [mapTexts, mapEntryTexts_eq, partsOf, List.map_map, List.map_map] at among
          rcases List.mem_append.mp among with inKeys | inValues
          · obtain ⟨entry, member, rfl⟩ := List.mem_map.mp inKeys
            exact .inl (.key member within)
          · obtain ⟨entry, member, rfl⟩ := List.mem_map.mp inValues
            rcases ih rfl with kept | ⟨original, inner, changed⟩
            · exact .inl (.value member kept)
            · have here := List.mem_append_right (entries.map Prod.fst)
                (List.mem_map_of_mem (f := Prod.snd) member)
              exact .inr ⟨original, .part here inner, changed⟩
      | list items =>
          subst same
          rw [mapTexts, mapItemTexts_eq, partsOf] at among
          obtain ⟨item, member, rfl⟩ := List.mem_map.mp among
          rcases ih rfl with kept | ⟨original, inner, changed⟩
          · exact .inl (.listItem member kept)
          · exact .inr ⟨original, .part member inner, changed⟩
      | tuple items =>
          subst same
          rw [mapTexts, mapItemTexts_eq, partsOf] at among
          obtain ⟨item, member, rfl⟩ := List.mem_map.mp among
          rcases ih rfl with kept | ⟨original, inner, changed⟩
          · exact .inl (.tupleItem member kept)
          · exact .inr ⟨original, .part member inner, changed⟩
      | object truth identity =>
          subst same
          exact .inl (.object (.part among within))
      | _ =>
          subst same
          cases among

theorem within_mapTexts_of_kept {change : String → String} {value : Value}
    (kept : Kept objects text value) : Within objects text (mapTexts change value) := by
  induction kept with
  | key among within =>
      rw [mapTexts, mapEntryTexts_eq]
      refine .part (List.mem_append_left _ ?_) within
      rw [List.map_map]
      exact List.mem_map_of_mem (f := Prod.fst ∘ _) among
  | value among _ ih =>
      rw [mapTexts, mapEntryTexts_eq]
      refine .part (List.mem_append_right _ ?_) ih
      rw [List.map_map]
      exact List.mem_map_of_mem (f := Prod.snd ∘ _) among
  | listItem among _ ih | tupleItem among _ ih =>
      rw [mapTexts, mapItemTexts_eq]
      exact .part (List.mem_map_of_mem among) ih
  | object within => exact within

theorem within_toPlain {value : Value} (within : Within objects text (toPlain value)) :
    Within objects text value := by
  rcases within_mapTexts within with kept | ⟨original, inner, rfl⟩
  · exact kept.within
  · exact inner

end Values

/-!
## Normalisation
-/

section Normalization

variable (python : Python) {objects : Objects} {text : String}

/-- The texts that markers of records are made of. -/
def markerTexts : List String :=
  [recordRefsKey, recordRefsModelKey, recordRefsCountKey, recordRefsTruncatedKey, "model", "id"]

theorem unmatched_markerTexts (isWord : Char → Bool) (among : text ∈ markerTexts) :
    Unmatched isWord text := by
  have plain : markerTexts.all isPlainText = true := by decide +kernel
  exact unmatched_of_plain isWord (List.all_eq_true.mp plain text among)

theorem within_dictGet {entries : List (Value × Value)} {key : String}
    (within : Within objects text (dictGet entries key)) :
    Within objects text (.dict entries) := by
  unfold dictGet at within
  cases found : entries.lookup (.str key) with
  | none => simp [found] at within
  | some value =>
      rw [found, Option.getD_some] at within
      obtain ⟨before, after, whole, _⟩ := List.lookup_eq_some_iff.mp found
      exact within_dict.mpr ⟨(.str key, value), by simp [whole], .inr within⟩

theorem within_recordRef {model : Value} {id : Int}
    (within : Within objects text (recordRef model id)) :
    text ∈ markerTexts ∨ Within objects text model := by
  simp only [recordRef, within_dict, List.mem_cons, List.not_mem_nil, or_false,
    exists_eq_or_imp, exists_eq_left, within_str, not_within_int] at within
  rcases within with (rfl | inModel) | rfl
  · exact .inl (by simp [markerTexts])
  · exact .inr inModel
  · exact .inl (by simp [markerTexts])

theorem within_recordRefsMarker {refs : List Value} {model count : Value} {truncated : Bool}
    (within : Within objects text (recordRefsMarker refs model count truncated)) :
    text ∈ markerTexts ∨ (∃ ref ∈ refs, Within objects text ref) ∨ Within objects text model ∨
      Within objects text count := by
  simp only [recordRefsMarker, within_dict, List.mem_cons, List.not_mem_nil, or_false,
    exists_eq_or_imp, exists_eq_left, within_str, within_list, not_within_bool] at within
  rcases within with (rfl | inRefs) | (rfl | inModel) | (rfl | inCount) | rfl
  · exact .inl (by simp [markerTexts])
  · exact .inr (.inl inRefs)
  · exact .inl (by simp [markerTexts])
  · exact .inr (.inr (.inl inModel))
  · exact .inl (by simp [markerTexts])
  · exact .inr (.inr (.inr inCount))
  · exact .inl (by simp [markerTexts])

theorem within_of_iterate {value : Value} {items : List Value}
    (ends : iterate objects value = .ok items) {entries : List (Value × Value)}
    (among : .dict entries ∈ items) (within : Within objects text (.dict entries)) :
    Within objects text value := by
  cases value with
  | none | bool | int => cases ends
  | list | tuple =>
      cases ends
      exact .part among within
  | dict others =>
      cases ends
      exact .part (List.mem_append_left _ among) within
  | str letters =>
      cases ends
      obtain ⟨letter, _, same⟩ := List.mem_map.mp among
      cases same
  | object truth identity =>
      cases iterates : objects.iterate truth identity with
      | none =>
          rw [iterate, iterates] at ends
          cases ends
      | some listed =>
          rw [iterate, iterates] at ends
          cases ends
          refine .part (List.mem_append_left _ ?_) within
          rw [iterates]
          exact among

theorem within_normalizeMarker {entries : List (Value × Value)} {result : Value}
    (ends : normalizeMarker objects entries = .ok result) (within : Within objects text result) :
    text ∈ markerTexts ∨ Within objects text (.dict entries) := by
  obtain ⟨refs, iterates, rfl⟩ := map_eq_ok ends
  rcases within_recordRefsMarker within with constant | ⟨ref, member, inRef⟩ | inModel | inCount
  · exact .inl constant
  · obtain ⟨source, among, normalized⟩ := List.mem_filterMap.mp member
    cases source with
    | dict fields =>
        rw [normalizeRef, Option.ite_none_right_eq_some] at normalized
        obtain ⟨_, normalized⟩ := normalized
        obtain ⟨id, _, rfl⟩ := Option.map_eq_some_iff.mp normalized
        rcases within_recordRef inRef with constant | inModel
        · exact .inl constant
        · have inRefs := within_of_iterate iterates among (within_dictGet inModel)
          have inEntry : Within objects text (dictGet entries recordRefsKey) := by
            unfold Value.orElse at inRefs
            split at inRefs
            · exact inRefs
            · simp at inRefs
          exact .inr (within_dictGet inEntry)
    | _ => cases normalized
  · exact .inr (within_dictGet inModel)
  · split at inCount <;> simp at inCount

def isScalar : Value → Bool
  | .none | .bool _ | .int _ | .str _ => true
  | _ => false

/-- The values that are normalised item by item. -/
inductive Lists (objects : Objects) : Value → List Value → Prop
  | list (items : List Value) : Lists objects (.list items) items
  | tuple (items : List Value) : Lists objects (.tuple items) items
  | set {truth : Bool} {identity : Nat} {items : List Value}
      (form : objects.form truth identity = .set items) :
      Lists objects (.object truth identity) items

theorem Lists.mem_partsOf {value item : Value} {items : List Value}
    (lists : Lists objects value items) (member : item ∈ items) :
    item ∈ partsOf objects value := by
  cases lists with
  | list | tuple => exact member
  | set form =>
      rw [partsOf, form]
      exact List.mem_append_right _ member

/-- What one level of normalisation makes of a value. -/
inductive NormalizedAt (objects : Objects) (levels : Nat) : Value → Value → Prop
  | marker {entries : List (Value × Value)} {result : Value}
      (isMarker : (entries.lookup (.str recordRefsKey)).isSome = true)
      (ends : normalizeMarker objects entries = .ok result) :
      NormalizedAt objects levels (.dict entries) result
  | dict {entries results : List (Value × Value)}
      (plain : (entries.lookup (.str recordRefsKey)).isSome = false)
      (ends : List.Forall₂ (fun entry result => result.1 = entry.1 ∧
        normalizeLevels python objects levels entry.2 = .ok result.2) entries results) :
      NormalizedAt objects levels (.dict entries) (.dict results)
  | items {value : Value} {items results : List Value} (listed : Lists objects value items)
      (ends : List.Forall₂ (fun item result =>
        normalizeLevels python objects levels item = .ok result) items results) :
      NormalizedAt objects levels value (.list results)
  | text {truth : Bool} {identity : Nat} {printed : String}
      (form : objects.form truth identity = .text printed) :
      NormalizedAt objects levels (.object truth identity) (.str printed)
  | records {truth : Bool} {identity : Nat} {model : String} {ids : List Int}
      (form : objects.form truth identity = .records model ids) :
      NormalizedAt objects levels (.object truth identity) (buildRecordRefsMarker model ids)
  | itself {truth : Bool} {identity : Nat} (form : objects.form truth identity = .itself) :
      NormalizedAt objects levels (.object truth identity) (.object truth identity)
  | scalar {value : Value} (single : isScalar value = true) :
      NormalizedAt objects levels value value

variable {python}

theorem normalizedAt {levels : Nat} {value result : Value}
    (ends : normalizeLevels python objects (levels + 1) value = .ok result) :
    NormalizedAt python objects levels value result := by
  unfold normalizeLevels at ends
  cases value with
  | none | bool | int | str =>
      cases ends
      exact .scalar rfl
  | list items =>
      obtain ⟨results, collected, rfl⟩ := map_eq_ok ends
      exact .items (.list items) (mapM_ok_iff.mp collected)
  | tuple items =>
      obtain ⟨results, collected, rfl⟩ := map_eq_ok ends
      exact .items (.tuple items) (mapM_ok_iff.mp collected)
  | dict entries =>
      dsimp only at ends
      split at ends
      · next isMarker => exact .marker isMarker ends
      · next plain =>
        obtain ⟨results, collected, rfl⟩ := map_eq_ok ends
        refine .dict (Bool.eq_false_of_not_eq_true plain) ((mapM_ok_iff.mp collected).imp ?_)
        intro entry result mapped
        obtain ⟨item, normalized, rfl⟩ := map_eq_ok mapped
        exact ⟨rfl, normalized⟩
  | object truth identity =>
      dsimp only at ends
      split at ends
      · next form =>
          cases ends
          exact .itself form
      · next printed form =>
          cases ends
          exact .text form
      · next model ids form =>
          cases ends
          exact .records form
      · next items form =>
          obtain ⟨results, collected, rfl⟩ := map_eq_ok ends
          exact .items (.set form) (mapM_ok_iff.mp collected)

theorem forall₂_mem_right {Source Target : Type} {related : Source → Target → Prop}
    {sources : List Source} {targets : List Target} (pairs : List.Forall₂ related sources targets)
    {target : Target} (member : target ∈ targets) : ∃ source ∈ sources, related source target := by
  induction pairs with
  | nil => cases member
  | cons first _ ih =>
      rcases List.mem_cons.mp member with rfl | later
      · exact ⟨_, List.mem_cons_self, first⟩
      · obtain ⟨source, among, isRelated⟩ := ih later
        exact ⟨source, List.mem_cons_of_mem _ among, isRelated⟩

theorem kept_buildRecordRefsMarker {model : String} {ids : List Int}
    (kept : Kept objects text (buildRecordRefsMarker model ids)) : text ∈ markerTexts := by
  simp only [buildRecordRefsMarker, recordRefsMarker, recordRef, kept_dict, kept_list,
    List.mem_cons, List.not_mem_nil, or_false, exists_eq_or_imp, exists_eq_left, within_str,
    not_kept_str, not_kept_int, not_kept_bool, List.mem_map] at kept
  rcases kept with (rfl | ⟨_, ⟨id, _, rfl⟩, kept⟩) | rfl | rfl | rfl
  · simp [markerTexts]
  · simp only [kept_dict, List.mem_cons, List.not_mem_nil, or_false, exists_eq_or_imp,
      exists_eq_left, within_str, not_kept_str, not_kept_int] at kept
    rcases kept with rfl | rfl <;> simp [markerTexts]
  · simp [markerTexts]
  · simp [markerTexts]
  · simp [markerTexts]

/-- What masking keeps of a normalised value was in the value before. -/
theorem within_of_kept_normalize {levels : Nat} {value result : Value}
    (ends : normalizeLevels python objects levels value = .ok result)
    (kept : Kept objects text result) : text ∈ markerTexts ∨ Within objects text value := by
  induction levels generalizing value result with
  | zero =>
      cases ends
      cases kept
  | succ levels ih =>
      cases normalizedAt ends with
      | marker _ marked => exact within_normalizeMarker marked kept.within
      | dict _ pairs =>
          obtain ⟨pair, member, here⟩ := kept_dict.mp kept
          obtain ⟨entry, among, sameKey, normalized⟩ := forall₂_mem_right pairs member
          rcases here with inKey | inValue
          · rw [sameKey] at inKey
            exact .inr (within_dict.mpr ⟨entry, among, .inl inKey⟩)
          · exact (ih normalized inValue).imp_right fun within =>
              within_dict.mpr ⟨entry, among, .inr within⟩
      | items listed pairs =>
          obtain ⟨target, member, inTarget⟩ := kept_list.mp kept
          obtain ⟨item, among, normalized⟩ := forall₂_mem_right pairs member
          exact (ih normalized inTarget).imp_right fun within =>
            .part (listed.mem_partsOf among) within
      | text _ => cases kept
      | records _ => exact .inl (kept_buildRecordRefsMarker kept)
      | itself _ => exact .inr kept.within
      | scalar _ => exact .inr kept.within

/-- A value that normalisation would leave without new texts. -/
def Normal (objects : Objects) : Nat → Value → Prop
  | 0, value => ∃ text, value = .str text
  | levels + 1, .dict entries =>
      (entries.lookup (.str recordRefsKey)).isSome = true ∨
        ∀ entry ∈ entries, Normal objects levels entry.2
  | levels + 1, .list items => ∀ item ∈ items, Normal objects levels item
  | _ + 1, .tuple _ => False
  | _ + 1, .object truth identity => objects.form truth identity = .itself
  | _ + 1, _ => True

theorem normal_marker (levels : Nat) (refs : List Value) (model count : Value)
    (truncated : Bool) :
    Normal objects (levels + 1) (recordRefsMarker refs model count truncated) := by
  left
  rw [List.lookup_cons_self]
  rfl

theorem normal_of_normalize {levels : Nat} {value result : Value}
    (ends : normalizeLevels python objects levels value = .ok result) :
    Normal objects levels result := by
  induction levels generalizing value result with
  | zero =>
      cases ends
      exact ⟨_, rfl⟩
  | succ levels ih =>
      cases normalizedAt ends with
      | marker _ marked =>
          obtain ⟨refs, _, rfl⟩ := map_eq_ok marked
          exact normal_marker levels _ _ _ _
      | dict _ pairs =>
          right
          intro pair member
          obtain ⟨entry, _, _, normalized⟩ := forall₂_mem_right pairs member
          exact ih normalized
      | items _ pairs =>
          intro target member
          obtain ⟨item, _, normalized⟩ := forall₂_mem_right pairs member
          exact ih normalized
      | text _ => trivial
      | records _ => exact normal_marker levels _ _ _ _
      | itself form => exact form
      | scalar single =>
          cases value with
          | none | bool | int | str => trivial
          | list | tuple | dict | object => cases single

theorem lookup_mapEntryTexts (change : String → String) (key : Value)
    (entries : List (Value × Value)) :
    ((mapEntryTexts change entries).lookup key).isSome = (entries.lookup key).isSome := by
  induction entries with
  | nil => rfl
  | cons entry entries ih =>
      rw [mapEntryTexts, List.lookup_cons, List.lookup_cons]
      cases key == entry.1 with
      | true => rfl
      | false => exact ih

theorem Normal.mapTexts {levels : Nat} {value : Value} (normal : Normal objects levels value)
    (change : String → String) : Normal objects levels (mapTexts change value) := by
  induction levels generalizing value with
  | zero =>
      obtain ⟨text, rfl⟩ := normal
      exact ⟨_, rfl⟩
  | succ levels ih =>
      cases value with
      | none | bool | int | str => trivial
      | tuple items => cases normal
      | object truth identity => exact normal
      | list items =>
          rw [Executor.mapTexts, mapItemTexts_eq]
          intro item member
          obtain ⟨original, among, rfl⟩ := List.mem_map.mp member
          exact ih (normal original among)
      | dict entries =>
          rw [Executor.mapTexts]
          rcases normal with isMarker | plain
          · left
            rw [lookup_mapEntryTexts]
            exact isMarker
          · right
            rw [mapEntryTexts_eq]
            intro entry member
            obtain ⟨original, among, rfl⟩ := List.mem_map.mp member
            exact ih (plain original among)

/-- What is normal is normalised without new texts. -/
theorem Normal.within {levels : Nat} {value result : Value} (normal : Normal objects levels value)
    (ends : normalizeLevels python objects levels value = .ok result)
    (within : Within objects text result) : text ∈ markerTexts ∨ Within objects text value := by
  induction levels generalizing value result with
  | zero =>
      obtain ⟨printed, rfl⟩ := normal
      cases ends
      rw [python.str_str] at within
      exact .inr within
  | succ levels ih =>
      cases normalizedAt ends with
      | marker _ marked => exact within_normalizeMarker marked within
      | dict plain pairs =>
          obtain ⟨pair, member, here⟩ := within_dict.mp within
          obtain ⟨entry, among, sameKey, normalized⟩ := forall₂_mem_right pairs member
          rcases here with inKey | inValue
          · rw [sameKey] at inKey
            exact .inr (within_dict.mpr ⟨entry, among, .inl inKey⟩)
          · rcases normal with isMarker | normalEntries
            · rw [plain] at isMarker
              cases isMarker
            · exact (ih (normalEntries entry among) normalized inValue).imp_right fun inEntry =>
                within_dict.mpr ⟨entry, among, .inr inEntry⟩
      | items listed pairs =>
          obtain ⟨target, member, inTarget⟩ := within_list.mp within
          obtain ⟨item, among, normalized⟩ := forall₂_mem_right pairs member
          cases listed with
          | list items =>
              exact (ih (normal item among) normalized inTarget).imp_right fun inItem =>
                within_list.mpr ⟨item, among, inItem⟩
          | tuple items => cases normal
          | set form => cases form.symm.trans normal
      | text form => cases form.symm.trans normal
      | records form => cases form.symm.trans normal
      | itself _ => exact .inr within
      | scalar _ => exact .inr within

end Normalization

/-!
## Clean values
-/

section Clean

variable (isWord : Char → Bool) (objects : Objects)

/-- A value without a key and without an address in any of its strings. -/
def Clean (value : Value) : Prop := ∀ text, Within objects text value → Unmatched isWord text

@[simp] theorem clean_str_iff {text : String} :
    Clean isWord objects (.str text) ↔ Unmatched isWord text := by
  simp [Clean]

@[simp] theorem clean_none : Clean isWord objects .none := by simp [Clean]

@[simp] theorem clean_int {value : Int} : Clean isWord objects (.int value) := by simp [Clean]

@[simp] theorem clean_bool {value : Bool} : Clean isWord objects (.bool value) := by simp [Clean]

@[simp] theorem clean_list_iff {items : List Value} :
    Clean isWord objects (.list items) ↔ ∀ item ∈ items, Clean isWord objects item := by
  simp only [Clean, within_list]
  constructor
  · exact fun clean item member text within => clean text ⟨item, member, within⟩
  · rintro clean text ⟨item, member, within⟩
    exact clean item member text within

@[simp] theorem clean_dict_iff {entries : List (Value × Value)} :
    Clean isWord objects (.dict entries) ↔
      ∀ entry ∈ entries, Clean isWord objects entry.1 ∧ Clean isWord objects entry.2 := by
  simp only [Clean, within_dict]
  constructor
  · intro clean entry member
    exact ⟨fun text within => clean text ⟨entry, member, .inl within⟩,
      fun text within => clean text ⟨entry, member, .inr within⟩⟩
  · rintro clean text ⟨entry, member, within | within⟩
    · exact (clean entry member).1 text within
    · exact (clean entry member).2 text within

variable {isWord objects}

theorem clean_toPlain {value : Value} (clean : Clean isWord objects value) :
    Clean isWord objects (toPlain value) := fun text within => clean text (within_toPlain within)

/-- A masked value is clean exactly where masking keeps nothing unclean. -/
theorem clean_mask_iff {value : Value} :
    Clean isWord objects (maskSensitiveData isWord value) ↔
      ∀ text, Kept objects text value → Unmatched isWord text := by
  constructor
  · exact fun clean text kept => clean text (within_mapTexts_of_kept kept)
  · intro clean text within
    rcases within_mapTexts within with kept | ⟨original, _, rfl⟩
    · exact clean text kept
    · exact unmatched_maskText isWord original

/-- The masked display of a clean value is clean: whatever normalisation prints is masked. -/
theorem clean_redactOutput {python : Python} {output display : Value}
    (ends : redactOutput python objects isWord false output = .ok display)
    (clean : Clean isWord objects output) : Clean isWord objects display := by
  unfold redactOutput at ends
  cases normalized : normalizeOutputValue python objects (toPlain output) with
  | error error =>
      rw [normalized] at ends
      cases ends
  | ok outputRaw =>
      rw [normalized] at ends
      have displayed : normalizeOutputValue python objects (maskSensitiveData isWord outputRaw) =
        .ok display := ends
      have masked : Clean isWord objects (maskSensitiveData isWord outputRaw) := by
        refine clean_mask_iff.mpr fun text kept => ?_
        rcases within_of_kept_normalize normalized kept with constant | within
        · exact unmatched_markerTexts isWord constant
        · exact clean_toPlain clean text within
      intro text within
      rcases ((normal_of_normalize normalized).mapTexts _).within displayed within with
        constant | within
      · exact unmatched_markerTexts isWord constant
      · exact masked text within

end Clean

end WorkflowStudio.Executor

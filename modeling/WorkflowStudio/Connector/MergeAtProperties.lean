import WorkflowStudio.Connector.RequestExecution
import WorkflowStudio.Data.HeapProperties

/-! Merging on the objects refines merging of the values: what the merged dictionary holds is what
the values merge to, and only the objects of the dictionary itself change. -/

set_option autoImplicit false

namespace WorkflowStudio.Connector

open Lib Heap

/-- The dictionary at an address holds fields, each with its own part of the objects. -/
structure DictHeld (heap : Heap) (address : Address) (fields : Fields) (entries : Entries)
    (part : Value → Set Address) : Prop where
  here : heap[address]? = some (.dict entries)
  outside : ∀ key, address ∉ part key
  held : HeldFields heap fields entries part

/-- What the fields are after a merge: the objects of a field are those that it had and those of
the other dictionary, and lists are taken over as they are. -/
structure Merged (heap other : Heap) (base : Address) (entries : Entries)
    (part rest : Value → Set Address) (others : Fields) (overrides : Entries) (fields : Fields) :
    Prop where
  dict : ∃ entries' parts, DictHeld other base fields entries' parts ∧
    (∀ key, parts key ⊆ part key ∪ rest key) ∧
    (∀ key ∉ others.map Prod.fst, parts key = part key ∧ entries'.lookup key = entries.lookup key) ∧
    ∀ key items, others.lookup key = some (.list items) →
      entries'.lookup key = overrides.lookup key
  length : other.length = heap.length
  frame : ∀ address, address ≠ base → (∀ key ∈ others.map Prod.fst, address ∉ part key) →
    other[address]? = heap[address]?

theorem DictHeld.getAt {heap : Heap} {address : Address} {fields : Fields} {entries : Entries}
    {part : Value → Set Address} (dict : DictHeld heap address fields entries part) (key : Value) :
    heap.getAt address key = (entries.lookup key).getD (.leaf .none) := by
  rw [Heap.getAt, dict.here]

theorem DictHeld.setAt {heap : Heap} {address : Address} {fields : Fields} {entries : Entries}
    {part : Value → Set Address} (dict : DictHeld heap address fields entries part) (key : Value)
    (ref : Ref) : heap.setAt address key ref =
      heap.set address (.dict (OrderedMap.setEntries key ref entries)) := by
  rw [Heap.setAt, changeAt, dict.here]

theorem DictHeld.bound {heap : Heap} {address : Address} {fields : Fields} {entries : Entries}
    {part : Value → Set Address} (dict : DictHeld heap address fields entries part) :
    address < heap.length := (List.getElem?_eq_some_iff.mp dict.here).1

/-- Objects at other addresses may change. -/
theorem DictHeld.frame {heap other : Heap} {address : Address} {fields : Fields}
    {entries : Entries} {part : Value → Set Address}
    (dict : DictHeld heap address fields entries part)
    (bounded : ∀ key, part key ⊆ Set.Iio heap.length)
    (same : ∀ place < heap.length, other[place]? = heap[place]?) :
    DictHeld other address fields entries part :=
  ⟨(same address dict.bound).trans dict.here, dict.outside,
    dict.held.frame fun key _ place member => same place (bounded key member)⟩

/-- One field of the other dictionary is merged. -/
def mergeEntryAt (fuel : Nat) (base : Address) (heap : Heap) (entry : Value × Ref) : Heap :=
  if entry.2 = .leaf .none then heap
  else
    match heap.dictAt entry.2, heap.dictAt (heap.getAt base entry.1) with
    | some (_, fields), some (inner, _) => deepMergeAt fuel inner fields heap
    | _, _ => heap.setAt base entry.1 entry.2

theorem deepMergeAt_succ (fuel : Nat) (base : Address) (entries : Entries) (heap : Heap) :
    deepMergeAt (fuel + 1) base entries heap = entries.foldl (mergeEntryAt fuel base) heap := rfl

/-- The specification of a merge with some fuel. -/
def Merges (fuel : Nat) : Prop :=
  ∀ {heap : Heap} {base : Address} {fields : Fields} {entries : Entries}
    {part : Value → Set Address}, DictHeld heap base fields entries part →
  ∀ {others : Fields} {overrides : Entries} {rest : Value → Set Address} {whole : Set Address},
    HeldFields heap others overrides rest → (∀ key, rest key ⊆ whole) → whole.Finite →
    whole.ncard < fuel → (∀ key, ∀ other ∈ others.map Prod.fst, Disjoint (part key) (rest other)) →
    (∀ other ∈ others.map Prod.fst, base ∉ rest other) →
    Merged heap (deepMergeAt fuel base overrides heap) base entries part rest others overrides
      (deepMerge fields others)

/-- What one field does: the others keep their objects. -/
structure MergedEntry (heap other : Heap) (base : Address) (fields : Fields) (entries : Entries)
    (part : Value → Set Address) (key value : Value) (ref : Ref) (own : Set Address)
    (entries' : Entries) (parts : Value → Set Address) : Prop where
  dict : DictHeld other base fields entries' parts
  inside : parts key ⊆ part key ∪ own
  others : ∀ name, name ≠ key → parts name = part name
  list : ∀ items, value = .list items → entries'.lookup key = some ref
  keeps : ∀ name, name ≠ key → entries'.lookup name = entries.lookup name
  length : other.length = heap.length
  frame : ∀ address, address ≠ base → address ∉ part key → other[address]? = heap[address]?

section Step

variable {heap : Heap} {base : Address} {fields : Fields} {entries : Entries}
  {part : Value → Set Address}

theorem merged_replaced (dict : DictHeld heap base fields entries part) {key value : Value}
    {ref : Ref} {own : Set Address} (held : Held heap value ref own)
    (apart : ∀ name, Disjoint (part name) own) (outside : base ∉ own) :
    MergedEntry heap (heap.setAt base key ref) base (OrderedMap.setEntries key value fields) entries
      part key value ref own (OrderedMap.setEntries key ref entries)
      (Function.update part key own) := by
  have elsewhere {address : Address} (different : address ≠ base) :
      (heap.setAt base key ref)[address]? = heap[address]? := by
    rw [dict.setAt, List.getElem?_set_ne different.symm]
  have new : Held (heap.setAt base key ref) value ref own :=
    held.frame fun address member => elsewhere fun same => outside (same ▸ member)
  refine ⟨⟨?_, fun name => ?_, dict.held.set new (fun name _ _ => (apart name).symm) ?_⟩, ?_,
    fun name different => Function.update_of_ne different _ _, fun _ _ => ?_,
    fun name different => ?_, ?_, fun address different _ => elsewhere different⟩
  · rw [dict.setAt, List.getElem?_set_self dict.bound]
  · by_cases same : name = key
    · rwa [same, Function.update_self]
    · rw [Function.update_of_ne same]
      exact dict.outside name
  · exact fun name _ _ address member => elsewhere fun same => dict.outside name (same ▸ member)
  · rw [Function.update_self]
    exact Set.subset_union_right
  · rw [OrderedMap.lookup_setEntries, if_pos rfl]
  · rw [OrderedMap.lookup_setEntries, if_neg different]
  · rw [dict.setAt, List.length_set]

theorem merged_inner {fuel : Nat} (merges : Merges fuel)
    (dict : DictHeld heap base fields entries part) {key : Value} {inner others : Fields}
    {address : Address} {innerEntries : Entries} {innerPart : Value → Set Address}
    (found : fields.lookup key = some (.dict inner))
    (foundRef : entries.lookup key = some (.at address))
    (innerDict : DictHeld heap address inner innerEntries innerPart)
    (member : address ∈ part key) (innerInside : ∀ name, innerPart name ⊆ part key \ {address})
    {from_ : Address} {overrides : Entries} {rest : Value → Set Address} {own : Set Address}
    (held : HeldFields heap others overrides rest) (finite : own.Finite) (source : from_ ∈ own)
    (within : ∀ name, rest name ⊆ own \ {from_}) (enough : own.ncard < fuel + 1)
    (apart : ∀ name, Disjoint (part name) own) (outside : base ∉ own)
    (ref : Ref) :
    MergedEntry heap (deepMergeAt fuel address overrides heap) base
      (OrderedMap.setEntries key (.dict (deepMerge inner others)) fields) entries part key
      (.dict others) ref own entries (Function.update part key (part key ∪ own)) := by
  have less := Set.ncard_sdiff_singleton_add_one source finite
  have merged := merges innerDict held within finite.sdiff (by omega)
    (fun name other _ => (apart key).mono ((innerInside name).trans Set.sdiff_subset)
      ((within other).trans Set.sdiff_subset))
    fun other _ inside => Set.disjoint_left.mp (apart key) member (within other inside).1
  obtain ⟨merged', parts, innerMerged, innerParts, -, -⟩ := merged.dict
  have elsewhere {place : Address} (different : place ≠ address) (away : place ∉ part key) :
      (deepMergeAt fuel address overrides heap)[place]? = heap[place]? :=
    merged.frame place different fun name _ inside => away (innerInside name inside).1
  have new : Held (deepMergeAt fuel address overrides heap) (.dict (deepMerge inner others))
      (.at address) (part key ∪ own) := by
    refine .dict innerMerged.here (Set.mem_union_left _ member) (fun name place inside => ?_)
      innerMerged.held
    rcases innerParts name inside with old | new
    · obtain ⟨inPart, different⟩ := innerInside name old
      exact ⟨.inl inPart, different⟩
    · have inOwn := (within name new).1
      refine ⟨.inr inOwn, ?_⟩
      rintro rfl
      exact Set.disjoint_left.mp (apart key) member inOwn
  have named : key ∈ fields.map Prod.fst :=
    List.mem_map.mpr ⟨_, OrderedMap.mem_of_lookup found, rfl⟩
  have away {name : Value} (among : name ∈ fields.map Prod.fst) (different : name ≠ key) :
      Disjoint (part key) (part name) := dict.held.apart named among different.symm
  have fieldsHeld := dict.held.set new
    (fun name among different => Set.disjoint_union_left.mpr
      ⟨away among different, (apart name).symm⟩)
    fun name among different place inside => by
      have notHere := Set.disjoint_right.mp (away among different) inside
      refine elsewhere ?_ notHere
      rintro rfl
      exact notHere member
  rw [OrderedMap.setEntries_eq_self foundRef] at fieldsHeld
  have notBase : base ≠ address := by
    rintro rfl
    exact dict.outside key member
  refine ⟨⟨?_, fun name => ?_, fieldsHeld⟩, ?_,
    fun name different => Function.update_of_ne different _ _, ?_,
    fun name different => rfl, merged.length, fun place different notHere => ?_⟩
  · rw [elsewhere notBase (dict.outside key)]
    exact dict.here
  · by_cases same : name = key
    · rw [same, Function.update_self]
      exact fun inside => inside.elim (dict.outside key) outside
    · rw [Function.update_of_ne same]
      exact dict.outside name
  · rw [Function.update_self]
  · rintro items ⟨⟩
  · refine elsewhere ?_ notHere
    rintro rfl
    exact notHere member

theorem merged_entry {fuel : Nat} (merges : Merges fuel)
    (dict : DictHeld heap base fields entries part) {key value : Value} {ref : Ref}
    {own : Set Address} (held : Held heap value ref own) (finite : own.Finite)
    (enough : own.ncard < fuel + 1) (apart : ∀ name, Disjoint (part name) own)
    (outside : base ∉ own) :
    ∃ entries' parts, MergedEntry heap (mergeEntryAt fuel base heap (key, ref)) base
      (if value = .none then fields
        else OrderedMap.setEntries key (mergeValue (fields.lookup key) value) fields)
      entries part key value ref own entries' parts := by
  by_cases absent : value = .none
  · subst absent
    cases held with
    | leaf =>
        refine ⟨entries, part, ?_⟩
        rw [mergeEntryAt, if_pos rfl, if_pos rfl]
        refine ⟨dict, Set.subset_union_left, fun _ _ => rfl, ?_, fun _ _ => rfl, rfl,
          fun _ _ _ => rfl⟩
        rintro items ⟨⟩
  · have present : ref ≠ .leaf .none := by
      rintro rfl
      cases held
      exact absent rfl
    rw [if_neg absent, mergeEntryAt, if_neg present, dict.getAt]
    rcases held.dictAt with ⟨others, source, overrides, rest, rfl, there, rfl, here, member, within,
      heldFields⟩ | ⟨noDict, there⟩
    · rcases dict.held.lookup key with ⟨none, noneRef⟩ | ⟨current, currentRef, found, foundRef, old⟩
      · rw [there, noneRef, none, mergeValue]
        · exact ⟨_, _, merged_replaced dict held apart outside⟩
        · rintro _ _ ⟨⟩
      · rw [there, foundRef, found, Option.getD_some]
        rcases old.dictAt with ⟨inner, address, innerEntries, innerPart, rfl, innerThere, rfl,
          innerHere, innerMember, innerInside, innerHeld⟩ | ⟨noDict, noneThere⟩
        · rw [innerThere, mergeValue]
          have innerDict : DictHeld heap address inner innerEntries innerPart :=
            ⟨innerHere, fun name inside => (innerInside name inside).2 rfl, innerHeld⟩
          exact ⟨_, _, merged_inner merges dict found foundRef innerDict innerMember innerInside
            heldFields finite member within enough apart outside _⟩
        · rw [noneThere, mergeValue]
          · exact ⟨_, _, merged_replaced dict held apart outside⟩
          · rintro inner _ ⟨⟩
            exact absurd rfl (noDict inner)
    · rw [there, mergeValue]
      · exact ⟨_, _, merged_replaced dict held apart outside⟩
      · rintro _ others _ rfl
        exact absurd rfl (noDict others)

theorem merged_none (dict : DictHeld heap base fields entries part)
    {rest : Value → Set Address} : Merged heap heap base entries part rest [] [] fields := by
  refine ⟨⟨entries, part, dict, fun _ => Set.subset_union_left, fun _ _ => ⟨rfl, rfl⟩, ?_⟩, rfl,
    fun _ _ _ => rfl⟩
  rintro key items ⟨⟩

/-- One field is merged, and then the others. -/
theorem merged_cons {other final : Heap} {fields' result : Fields} {entries' overrides : Entries}
    {parts rest : Value → Set Address} {key value : Value} {ref : Ref} {others : Fields}
    (fresh : key ∉ others.map Prod.fst)
    (step : MergedEntry heap other base fields' entries part key value ref (rest key) entries' parts)
    (merged : Merged other final base entries' parts rest others overrides result) :
    Merged heap final base entries part rest ((key, value) :: others) ((key, ref) :: overrides)
      result := by
  obtain ⟨⟨entries'', parts', dict, inside, keeps, lists⟩, length, frame⟩ := merged
  refine ⟨⟨entries'', parts', dict, fun name => (inside name).trans ?_, fun name absent => ?_,
    fun name items found => ?_⟩, length.trans step.length, fun address different outside => ?_⟩
  · by_cases same : name = key
    · subst same
      exact Set.union_subset step.inside Set.subset_union_right
    · rw [step.others name same]
  · rw [List.map_cons, List.mem_cons, not_or] at absent
    obtain ⟨sameParts, sameEntries⟩ := keeps name absent.2
    exact ⟨sameParts.trans (step.others name absent.1),
      sameEntries.trans (step.keeps name absent.1)⟩
  · rw [OrderedMap.lookup_cons_eq] at found ⊢
    by_cases same : name = key
    · subst same
      rw [if_pos rfl] at found ⊢
      rw [(keeps name fresh).2]
      exact step.list items (Option.some.inj found)
    · rw [if_neg same] at found ⊢
      exact lists name items found
  · rw [List.map_cons, List.forall_mem_cons] at outside
    refine (frame address different fun name member => ?_).trans
      (step.frame address different outside.1)
    have other : name ≠ key := by
      rintro rfl
      exact fresh member
    rw [step.others name other]
    exact outside.2 name member

theorem merges (fuel : Nat) : Merges fuel := by
  induction fuel with
  | zero =>
      intro heap base fields entries part dict others overrides rest whole held inside finite enough
      exact absurd enough (Nat.not_lt_zero _)
  | succ fuel ih =>
      intro heap base fields entries part dict others overrides rest whole held inside finite enough
        apart outside
      rw [deepMergeAt_succ]
      induction others generalizing heap fields entries part overrides with
      | nil =>
          cases held
          exact merged_none dict
      | cons field others ihOthers =>
          cases held with
          | @cons key value ref _ overrides _ fresh apartFirst first later =>
              have small := (Set.ncard_le_ncard (inside key) finite).trans_lt enough
              obtain ⟨entries', parts, step⟩ := merged_entry ih dict first
                (finite.subset (inside key)) small
                (fun name => apart name key List.mem_cons_self) (outside key List.mem_cons_self)
              have kept := later.frame fun name member place within => step.frame place
                (fun same => outside name (List.mem_cons_of_mem _ member) (same ▸ within))
                (fun here => Set.disjoint_left.mp (apart key name (List.mem_cons_of_mem _ member))
                  here within)
              have rest' := ihOthers step.dict kept (fun name other member => ?_)
                fun other member => outside other (List.mem_cons_of_mem _ member)
              · refine merged_cons fresh step ?_
                rw [deepMerge]
                split
                · next absent =>
                  rw [if_pos absent] at rest'
                  exact rest'
                · next present =>
                  rw [if_neg present] at rest'
                  exact rest'
              · by_cases same : name = key
                · subst same
                  refine Set.disjoint_of_subset_left step.inside (Set.disjoint_union_left.mpr ⟨?_, ?_⟩)
                  · exact apart name other (List.mem_cons_of_mem _ member)
                  · exact apartFirst other member
                · rw [step.others name same]
                  exact apart name other (List.mem_cons_of_mem _ member)

end Step

end WorkflowStudio.Connector

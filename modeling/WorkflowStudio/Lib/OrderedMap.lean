import Mathlib.Data.List.Induction
import Mathlib.Data.List.Nodup
import Mathlib.Data.List.Perm.Basic

/-! Insertion-ordered finite maps: the common behaviour of a script `Map`, a
script object and a dictionary whose iteration order is insertion order. The
keys are distinct by construction, so a lookup determines the map up to the
order of its entries. -/

set_option autoImplicit false

namespace Lib

structure OrderedMap (Key Val : Type) where
  entries : List (Key × Val)
  distinct : (entries.map Prod.fst).Nodup

namespace OrderedMap

section Entries

variable {Key Val : Type} [DecidableEq Key]

/-- Replace the value of a present key in place, or append a new entry. -/
def setEntries (key : Key) (value : Val) : List (Key × Val) → List (Key × Val)
  | [] => [(key, value)]
  | entry :: rest =>
      if entry.1 = key then (key, value) :: rest
      else entry :: setEntries key value rest

theorem mem_keys_setEntries (key other : Key) (value : Val) (entries : List (Key × Val)) :
    other ∈ (setEntries key value entries).map Prod.fst ↔
      other = key ∨ other ∈ entries.map Prod.fst := by
  induction entries with
  | nil => simp [setEntries]
  | cons entry rest ih =>
      by_cases same : entry.1 = key
      · simp [setEntries, same]
      · simp only [setEntries, same, ↓reduceIte, List.map_cons, List.mem_cons, ih]
        tauto

theorem nodup_setEntries (key : Key) (value : Val) (entries : List (Key × Val))
    (distinct : (entries.map Prod.fst).Nodup) :
    ((setEntries key value entries).map Prod.fst).Nodup := by
  induction entries with
  | nil => simp [setEntries]
  | cons entry rest ih =>
      rw [List.map_cons, List.nodup_cons] at distinct
      by_cases same : entry.1 = key
      · simpa [setEntries, same] using distinct
      · simp only [setEntries, same, ↓reduceIte, List.map_cons, List.nodup_cons]
        refine ⟨?_, ih distinct.2⟩
        rw [mem_keys_setEntries]
        rintro (found | found)
        · exact same found
        · exact distinct.1 found

theorem lookup_cons_eq (key first : Key) (value : Val) (rest : List (Key × Val)) :
    List.lookup key ((first, value) :: rest) =
      if key = first then some value else rest.lookup key := by
  by_cases same : key = first
  · subst key
    simp
  · have test : (key == first) = false := beq_eq_false_iff_ne.mpr same
    simp only [List.lookup_cons, test, same, ↓reduceIte]

theorem lookup_setEntries (key other : Key) (value : Val) (entries : List (Key × Val)) :
    (setEntries key value entries).lookup other =
      if other = key then some value else entries.lookup other := by
  induction entries with
  | nil => simp only [setEntries, lookup_cons_eq, List.lookup_nil]
  | cons entry rest ih =>
      obtain ⟨first, current⟩ := entry
      by_cases here : first = key
      · subst first
        by_cases same : other = key <;> simp [setEntries, lookup_cons_eq, same]
      · by_cases found : other = first
        · subst other
          simp [setEntries, here]
        · simp [setEntries, lookup_cons_eq, here, found, ih]

theorem mem_of_lookup {key : Key} {value : Val} {entries : List (Key × Val)}
    (found : entries.lookup key = some value) : (key, value) ∈ entries := by
  induction entries with
  | nil => cases found
  | cons entry entries ih =>
      obtain ⟨first, item⟩ := entry
      rw [lookup_cons_eq] at found
      by_cases same : key = first
      · rw [if_pos same] at found
        cases found
        exact same ▸ List.mem_cons_self
      · rw [if_neg same] at found
        exact List.mem_cons_of_mem _ (ih found)

theorem lookup_eq_some_iff (key : Key) (value : Val) (entries : List (Key × Val))
    (distinct : (entries.map Prod.fst).Nodup) :
    entries.lookup key = some value ↔ (key, value) ∈ entries := by
  induction entries with
  | nil => simp
  | cons entry rest ih =>
      obtain ⟨first, current⟩ := entry
      rw [List.map_cons, List.nodup_cons] at distinct
      by_cases same : key = first
      · subst key
        have absent : (first, value) ∉ rest := fun member =>
          distinct.1 (List.mem_map.mpr ⟨(first, value), member, rfl⟩)
        simp [absent, eq_comm]
      · simp [lookup_cons_eq, same, ih distinct.2]

end Entries

variable {Key Val : Type}

@[ext] theorem ext_entries {left right : OrderedMap Key Val}
    (same : left.entries = right.entries) : left = right := by
  cases left
  cases right
  cases same
  rfl

def keys (map : OrderedMap Key Val) : List Key := map.entries.map Prod.fst

def values (map : OrderedMap Key Val) : List Val := map.entries.map Prod.snd

theorem keys_nodup (map : OrderedMap Key Val) : map.keys.Nodup := map.distinct

variable [DecidableEq Key]

instance [DecidableEq Val] : DecidableEq (OrderedMap Key Val) := fun left right =>
  decidable_of_iff (left.entries = right.entries)
    ⟨ext_entries, fun same => congrArg entries same⟩

def empty : OrderedMap Key Val := ⟨[], List.nodup_nil⟩

def get? (map : OrderedMap Key Val) (key : Key) : Option Val := map.entries.lookup key

def set (map : OrderedMap Key Val) (key : Key) (value : Val) : OrderedMap Key Val :=
  ⟨setEntries key value map.entries, nodup_setEntries key value map.entries map.distinct⟩

def erase (map : OrderedMap Key Val) (key : Key) : OrderedMap Key Val :=
  ⟨map.entries.filter (fun entry => decide (entry.1 ≠ key)),
    (map.entries.filter_sublist.map Prod.fst).nodup map.distinct⟩

/-- Later entries of the list win, as when the entries are set one by one. -/
def ofList (entries : List (Key × Val)) : OrderedMap Key Val :=
  entries.foldl (fun map entry => map.set entry.1 entry.2) empty

theorem get?_set (map : OrderedMap Key Val) (key other : Key) (value : Val) :
    (map.set key value).get? other = if other = key then some value else map.get? other :=
  lookup_setEntries key other value map.entries

@[simp] theorem get?_set_self (map : OrderedMap Key Val) (key : Key) (value : Val) :
    (map.set key value).get? key = some value := by
  simp [get?_set]

theorem get?_set_of_ne (map : OrderedMap Key Val) {key other : Key} (value : Val)
    (different : other ≠ key) : (map.set key value).get? other = map.get? other := by
  simp [get?_set, different]

/-- What is found in a map that is set entry by entry is one of the entries. -/
theorem mem_of_get?_ofList {entries : List (Key × Val)} {key : Key} {value : Val}
    (found : (ofList entries).get? key = some value) : (key, value) ∈ entries := by
  have listed : ∀ (entries : List (Key × Val)) (map : OrderedMap Key Val),
      (entries.foldl (fun map entry => map.set entry.1 entry.2) map).get? key = some value →
        (key, value) ∈ entries ∨ map.get? key = some value := by
    intro entries
    induction entries with
    | nil => exact fun _ kept => .inr kept
    | cons entry rest ih =>
        intro map reached
        rcases ih _ reached with later | here
        · exact .inl (List.mem_cons_of_mem _ later)
        · rw [get?_set] at here
          split at here
          · next same =>
              cases here
              exact .inl (same ▸ List.mem_cons_self)
          · exact .inr here
  rcases listed entries empty found with member | absent
  · exact member
  · cases absent

theorem keys_setEntries_of_mem {key : Key} {entries : List (Key × Val)}
    (present : key ∈ entries.map Prod.fst) (value : Val) :
    (setEntries key value entries).map Prod.fst = entries.map Prod.fst := by
  induction entries with
  | nil => cases present
  | cons entry rest ih =>
      by_cases same : entry.1 = key
      · simp only [setEntries, same, ↓reduceIte, List.map_cons]
      · have later : key ∈ rest.map Prod.fst := by
          rcases List.mem_cons.mp present with here | later
          · exact absurd here.symm same
          · exact later
        simp only [setEntries, same, ↓reduceIte, List.map_cons, ih later]

theorem get?_eq_some_iff {map : OrderedMap Key Val} {key : Key} {value : Val} :
    map.get? key = some value ↔ (key, value) ∈ map.entries :=
  lookup_eq_some_iff key value map.entries map.distinct

theorem mem_keys_iff {map : OrderedMap Key Val} {key : Key} :
    key ∈ map.keys ↔ ∃ value, map.get? key = some value := by
  simp only [keys, List.mem_map, Prod.exists, exists_and_right, exists_eq_right,
    get?_eq_some_iff]

theorem keys_set_of_get? {map : OrderedMap Key Val} {key : Key}
    (present : (map.get? key).isSome = true) (value : Val) : (map.set key value).keys = map.keys :=
  keys_setEntries_of_mem (mem_keys_iff.mpr (Option.isSome_iff_exists.mp present)) value

theorem get?_eq_none_iff {map : OrderedMap Key Val} {key : Key} :
    map.get? key = none ↔ key ∉ map.keys := by
  rw [mem_keys_iff]
  cases map.get? key <;> simp

theorem get?_erase (map : OrderedMap Key Val) (key other : Key) :
    (map.erase key).get? other = if other = key then none else map.get? other := by
  apply Option.ext
  intro value
  by_cases same : other = key
  · simp [get?_eq_some_iff, erase, same]
  · simp [get?_eq_some_iff, erase, same]

theorem erase_eq_self {map : OrderedMap Key Val} {key : Key} (absent : map.get? key = none) :
    map.erase key = map := by
  apply ext_entries
  refine List.filter_eq_self.mpr fun entry member => decide_eq_true fun same => ?_
  exact get?_eq_none_iff.mp absent (List.mem_map.mpr ⟨entry, member, same⟩)

theorem setEntries_eq_self {key : Key} {value : Val} {entries : List (Key × Val)}
    (present : entries.lookup key = some value) : setEntries key value entries = entries := by
  induction entries with
  | nil => cases present
  | cons entry rest ih =>
      obtain ⟨first, current⟩ := entry
      rw [lookup_cons_eq] at present
      by_cases same : key = first
      · subst key
        rw [if_pos rfl, Option.some.injEq] at present
        subst current
        simp only [setEntries, ↓reduceIte]
      · rw [if_neg same] at present
        rw [setEntries, if_neg fun equal => same equal.symm, ih present]

theorem set_eq_self {map : OrderedMap Key Val} {key : Key} {value : Val}
    (present : map.get? key = some value) : map.set key value = map :=
  ext_entries (setEntries_eq_self present)

theorem setEntries_setEntries (key : Key) (first second : Val) (entries : List (Key × Val)) :
    setEntries key second (setEntries key first entries) = setEntries key second entries := by
  induction entries with
  | nil => simp [setEntries]
  | cons entry rest ih =>
      by_cases same : entry.1 = key
      · simp [setEntries, same]
      · simp [setEntries, same, ih]

theorem set_set (map : OrderedMap Key Val) (key : Key) (first second : Val) :
    (map.set key first).set key second = map.set key second :=
  ext_entries (setEntries_setEntries key first second map.entries)

/-- Replace the values of the keys that the updates name. The keys stay. -/
def assign (map updates : OrderedMap Key Val) : OrderedMap Key Val where
  entries := map.entries.map fun entry => (entry.1, (updates.get? entry.1).getD entry.2)
  distinct := by
    rw [List.map_map]
    exact map.distinct

theorem get?_assign (map updates : OrderedMap Key Val) (key : Key) :
    (map.assign updates).get? key = (map.get? key).map fun value =>
      (updates.get? key).getD value := by
  change (map.entries.map fun entry => (entry.1, (updates.get? entry.1).getD entry.2)).lookup key =
    (map.entries.lookup key).map fun value => (updates.get? key).getD value
  induction map.entries with
  | nil => rfl
  | cons entry rest ih =>
      obtain ⟨first, value⟩ := entry
      rw [List.map_cons, lookup_cons_eq, lookup_cons_eq, ih]
      by_cases same : key = first
      · simp only [same, ↓reduceIte, Option.map_some]
      · simp only [same, ↓reduceIte]

theorem keys_assign (map updates : OrderedMap Key Val) : (map.assign updates).keys = map.keys := by
  simp only [keys, assign, List.map_map]
  rfl

/-- Another value for each key. -/
def mapValues {Other : Type} (map : OrderedMap Key Val) (change : Key → Val → Other) :
    OrderedMap Key Other where
  entries := map.entries.map fun entry => (entry.1, change entry.1 entry.2)
  distinct := by
    rw [List.map_map]
    exact map.distinct

theorem get?_mapValues {Other : Type} (map : OrderedMap Key Val) (change : Key → Val → Other)
    (key : Key) : (map.mapValues change).get? key = (map.get? key).map (change key) := by
  change (map.entries.map fun entry => (entry.1, change entry.1 entry.2)).lookup key =
    (map.entries.lookup key).map (change key)
  induction map.entries with
  | nil => rfl
  | cons entry rest ih =>
      obtain ⟨first, value⟩ := entry
      rw [List.map_cons, lookup_cons_eq, lookup_cons_eq, ih]
      by_cases same : key = first
      · simp only [same, ↓reduceIte, Option.map_some]
      · simp only [same, ↓reduceIte]

/-- The map followed by the entries of another one whose keys it lacks. -/
def union (map other : OrderedMap Key Val) : OrderedMap Key Val where
  entries := map.entries ++ other.entries.filter fun entry => decide (entry.1 ∉ map.keys)
  distinct := by
    rw [List.map_append, List.nodup_append]
    refine ⟨map.distinct, (other.entries.filter_sublist.map Prod.fst).nodup other.distinct, ?_⟩
    rintro key member _ added rfl
    obtain ⟨entry, kept, same⟩ := List.mem_map.mp added
    exact of_decide_eq_true (List.mem_filter.mp kept).2 (same ▸ member)

theorem get?_union (map other : OrderedMap Key Val) (key : Key) :
    (map.union other).get? key = (map.get? key).or (other.get? key) := by
  apply Option.ext
  intro value
  cases present : map.get? key with
  | some current =>
      have member := get?_eq_some_iff.mp present
      have listed : key ∈ map.keys := mem_keys_iff.mpr ⟨current, present⟩
      rw [Option.some_or, ← present, get?_eq_some_iff, get?_eq_some_iff]
      simp only [union, List.mem_append, List.mem_filter, decide_eq_true_eq]
      constructor
      · rintro (old | ⟨_, absent⟩)
        · exact old
        · exact absurd listed absent
      · exact .inl
  | none =>
      have absent := get?_eq_none_iff.mp present
      rw [Option.none_or, get?_eq_some_iff, get?_eq_some_iff]
      simp only [union, List.mem_append, List.mem_filter, decide_eq_true_eq]
      constructor
      · rintro (old | ⟨added, _⟩)
        · exact absurd (mem_keys_iff.mpr ⟨value, get?_eq_some_iff.mpr old⟩) absent
        · exact added
      · exact fun added => .inr ⟨added, absent⟩

/-- The entries of both maps, those of the second one winning. -/
def merge (map other : OrderedMap Key Val) : OrderedMap Key Val :=
  other.entries.foldl (fun merged entry => merged.set entry.1 entry.2) map

theorem setEntries_of_absent {key : Key} {entries : List (Key × Val)}
    (absent : key ∉ entries.map Prod.fst) (value : Val) :
    setEntries key value entries = entries ++ [(key, value)] := by
  induction entries with
  | nil => rfl
  | cons entry rest ih =>
      rw [List.map_cons, List.mem_cons, not_or] at absent
      rw [setEntries, if_neg (Ne.symm absent.1), ih absent.2, List.cons_append]

theorem keys_set_of_absent {map : OrderedMap Key Val} {key : Key} (absent : key ∉ map.keys)
    (value : Val) : (map.set key value).entries = map.entries ++ [(key, value)] :=
  setEntries_of_absent absent value

theorem keys_prefix_set {kept : List Key} {map : OrderedMap Key Val} (starts : kept <+: map.keys)
    (key : Key) (value : Val) : kept <+: (map.set key value).keys := by
  cases found : map.get? key with
  | some current =>
      rw [keys_set_of_get? (by rw [found]; rfl)]
      exact starts
  | none =>
      rw [keys, keys_set_of_absent (get?_eq_none_iff.mp found), List.map_append]
      exact starts.trans (List.prefix_append _ _)

theorem keys_prefix_merge {kept : List Key} {map : OrderedMap Key Val} (starts : kept <+: map.keys)
    (other : OrderedMap Key Val) : kept <+: (map.merge other).keys := by
  unfold merge
  induction other.entries generalizing map with
  | nil => exact starts
  | cons entry rest ih => exact ih (keys_prefix_set starts entry.1 entry.2)

theorem get?_merge (map other : OrderedMap Key Val) (key : Key) :
    (map.merge other).get? key = (other.get? key).or (map.get? key) := by
  unfold merge
  change _ = (other.entries.lookup key).or (map.get? key)
  have distinct := other.distinct
  generalize other.entries = entries at distinct
  induction entries generalizing map with
  | nil => rfl
  | cons entry rest ih =>
      obtain ⟨first, value⟩ := entry
      rw [List.map_cons, List.nodup_cons] at distinct
      rw [List.foldl_cons, ih _ distinct.2, lookup_cons_eq, get?_set]
      by_cases same : key = first
      · subst key
        have absent : rest.lookup first = none := by
          rw [List.lookup_eq_none_iff]
          intro entry member
          have different : first ≠ entry.1 := fun equal =>
            distinct.1 (List.mem_map.mpr ⟨entry, member, equal.symm⟩)
          simpa using different
        simp [absent]
      · simp [same]

theorem keys_merge (map other : OrderedMap Key Val) :
    (map.merge other).keys = map.keys ++ other.keys.filter fun key => decide (key ∉ map.keys) := by
  unfold merge
  change _ = map.keys ++ (other.entries.map Prod.fst).filter fun key => decide (key ∉ map.keys)
  have distinct := other.distinct
  generalize other.entries = entries at distinct
  induction entries generalizing map with
  | nil => exact (List.append_nil _).symm
  | cons entry rest ih =>
      rw [List.map_cons, List.nodup_cons] at distinct
      rw [List.foldl_cons, ih _ distinct.2, List.map_cons]
      by_cases present : entry.1 ∈ map.keys
      · have kept : (map.set entry.1 entry.2).keys = map.keys :=
          keys_set_of_get? (Option.isSome_iff_exists.mpr (mem_keys_iff.mp present)) _
        rw [kept, List.filter_cons_of_neg (by simpa using present)]
      · have grown : (map.set entry.1 entry.2).keys = map.keys ++ [entry.1] := by
          rw [keys, keys_set_of_absent present, List.map_append]
          rfl
        have same : ((rest.map Prod.fst).filter fun key => decide (key ∉ map.keys ++ [entry.1])) =
            (rest.map Prod.fst).filter fun key => decide (key ∉ map.keys) := by
          refine List.filter_congr fun key member => ?_
          have different : key ≠ entry.1 := fun equal => distinct.1 (equal ▸ member)
          simp [different]
        rw [grown, same, List.filter_cons_of_pos (by simpa using present), List.append_assoc,
          List.singleton_append]

theorem ext_keys {left right : OrderedMap Key Val} (sameKeys : left.keys = right.keys)
    (same : ∀ key ∈ left.keys, left.get? key = right.get? key) : left = right := by
  apply ext_entries
  refine List.ext_getElem? fun index => ?_
  have keyAt : (left.entries[index]?).map Prod.fst = (right.entries[index]?).map Prod.fst := by
    rw [← List.getElem?_map, ← List.getElem?_map]
    exact congrArg (fun listed => listed[index]?) sameKeys
  cases leftAt : left.entries[index]? with
  | none =>
      rw [leftAt] at keyAt
      cases rightAt : right.entries[index]? with
      | none => rfl
      | some entry => rw [rightAt] at keyAt; cases keyAt
  | some entry =>
      rw [leftAt] at keyAt
      cases rightAt : right.entries[index]? with
      | none => rw [rightAt] at keyAt; cases keyAt
      | some other =>
          rw [rightAt, Option.map_some, Option.map_some, Option.some.injEq] at keyAt
          have leftMember : (entry.1, entry.2) ∈ left.entries := List.mem_of_getElem? leftAt
          have rightMember : (entry.1, other.2) ∈ right.entries := by
            rw [keyAt]
            exact List.mem_of_getElem? rightAt
          have listed : entry.1 ∈ left.keys := List.mem_map.mpr ⟨entry, leftMember, rfl⟩
          have agreed := same entry.1 listed
          rw [get?_eq_some_iff.mpr leftMember, get?_eq_some_iff.mpr rightMember,
            Option.some.injEq] at agreed
          rw [Prod.ext keyAt agreed]

theorem merge_eq_right {map other : OrderedMap Key Val} (starts : map.keys <+: other.keys) :
    map.merge other = other := by
  obtain ⟨rest, split⟩ := starts
  have distinct := other.keys_nodup
  rw [← split, List.nodup_append] at distinct
  apply ext_keys
  · have fresh : ∀ key ∈ rest, key ∉ map.keys := fun key member listed =>
      distinct.2.2 key listed key member rfl
    rw [keys_merge, ← split, List.filter_append,
      List.filter_eq_nil_iff.mpr (by simp), List.nil_append,
      List.filter_eq_self.mpr (by simpa using fresh)]
  · intro key member
    have listed : key ∈ other.keys := by
      rw [keys_merge, ← split] at member
      rw [← split]
      rcases List.mem_append.mp member with old | new
      · exact List.mem_append_left _ old
      · exact (List.mem_filter.mp new).1
    obtain ⟨value, found⟩ := mem_keys_iff.mp listed
    rw [get?_merge, found, Option.some_or]

/-!
## Maps that are set entry by entry
-/

theorem ofList_concat (entries : List (Key × Val)) (entry : Key × Val) :
    ofList (entries ++ [entry]) = (ofList entries).set entry.1 entry.2 :=
  List.foldl_append

theorem mem_keys_set {map : OrderedMap Key Val} {key other : Key} {value : Val} :
    other ∈ (map.set key value).keys ↔ other = key ∨ other ∈ map.keys :=
  mem_keys_setEntries key other value map.entries

theorem mem_keys_union {map other : OrderedMap Key Val} {key : Key}
    (member : key ∈ (map.union other).keys) : key ∈ map.keys ∨ key ∈ other.keys := by
  rw [keys, union, List.map_append] at member
  rcases List.mem_append.mp member with own | added
  · exact .inl own
  · exact .inr ((List.filter_sublist.map Prod.fst).subset added)

theorem mem_keys_ofList {entries : List (Key × Val)} {key : Key} :
    key ∈ (ofList entries).keys ↔ key ∈ entries.map Prod.fst := by
  induction entries using List.reverseRecOn with
  | nil => exact Iff.rfl
  | append_singleton before entry ih =>
      rw [ofList_concat, mem_keys_set, ih, List.map_append, List.mem_append, or_comm]
      simp

/-- The last entry of a key wins. -/
theorem get?_ofList_last {before after : List (Key × Val)} {key : Key} (value : Val)
    (last : key ∉ after.map Prod.fst) :
    (ofList (before ++ (key, value) :: after)).get? key = some value := by
  induction after using List.reverseRecOn with
  | nil => rw [ofList_concat, get?_set_self]
  | append_singleton middle entry ih =>
      rw [List.map_append, List.mem_append, not_or] at last
      have different : key ≠ entry.1 := by simpa using last.2
      rw [← List.cons_append, ← List.append_assoc, ofList_concat, get?_set_of_ne _ _ different]
      exact ih last.1

/-- Of distinct keys each keeps its entry. -/
theorem get?_ofList_iff {entries : List (Key × Val)} (distinct : (entries.map Prod.fst).Nodup)
    {key : Key} {value : Val} :
    (ofList entries).get? key = some value ↔ (key, value) ∈ entries := by
  refine ⟨mem_of_get?_ofList, fun member => ?_⟩
  obtain ⟨before, after, rfl⟩ := List.append_of_mem member
  refine get?_ofList_last value fun later => ?_
  rw [List.map_append, List.map_cons, List.nodup_append] at distinct
  exact (List.nodup_cons.mp distinct.2.1).1 later

/-- Keys stand in the order in which they are first set. -/
theorem pairwise_keys_ofList (entries : List (Key × Val)) :
    (ofList entries).keys.Pairwise fun first second =>
      (entries.map Prod.fst).idxOf first < (entries.map Prod.fst).idxOf second := by
  induction entries using List.reverseRecOn with
  | nil => exact List.Pairwise.nil
  | append_singleton before entry ih =>
      have kept : (ofList before).keys.Pairwise fun first second =>
          ((before ++ [entry]).map Prod.fst).idxOf first <
            ((before ++ [entry]).map Prod.fst).idxOf second := by
        refine ih.imp_of_mem fun firstKey secondKey smaller => ?_
        rw [List.map_append, List.idxOf_append_of_mem (mem_keys_ofList.mp firstKey),
          List.idxOf_append_of_mem (mem_keys_ofList.mp secondKey)]
        exact smaller
      rw [ofList_concat]
      by_cases present : entry.1 ∈ (ofList before).keys
      · rw [keys_set_of_get? (Option.isSome_iff_exists.mpr (mem_keys_iff.mp present))]
        exact kept
      · have grown : ((ofList before).set entry.1 entry.2).keys =
            (ofList before).keys ++ [entry.1] := by
          rw [keys, keys_set_of_absent present, List.map_append]
          rfl
        rw [grown, List.pairwise_append]
        refine ⟨kept, List.pairwise_singleton _ _, fun first member second new => ?_⟩
        rcases List.mem_singleton.mp new with rfl
        rw [List.map_append, List.idxOf_append_of_mem (mem_keys_ofList.mp member),
          List.idxOf_append_of_notMem (mt mem_keys_ofList.mpr present)]
        have within := List.idxOf_lt_length_iff.mpr (mem_keys_ofList.mp member)
        omega

theorem values_set_of_absent {map : OrderedMap Key Val} {key : Key} (absent : key ∉ map.keys)
    (value : Val) : (map.set key value).values = map.values ++ [value] := by
  rw [values, keys_set_of_absent absent, List.map_append]
  rfl

/-- A key that is set again keeps its place. -/
theorem values_set_of_idxOf? {map : OrderedMap Key Val} {key : Key} {index : Nat}
    (place : map.keys.idxOf? key = some index) (value : Val) :
    (map.set key value).values = map.values.set index value := by
  change (setEntries key value map.entries).map Prod.snd =
    (map.entries.map Prod.snd).set index value
  have placed : (map.entries.map Prod.fst).idxOf? key = some index := place
  clear place
  generalize map.entries = entries at placed
  induction entries generalizing index with
  | nil => cases placed
  | cons entry rest ih =>
      rw [List.map_cons, List.idxOf?_cons] at placed
      by_cases same : entry.1 = key
      · rw [if_pos (beq_iff_eq.mpr same)] at placed
        cases placed
        simp only [setEntries, same, ↓reduceIte, List.map_cons, List.set_cons_zero]
      · rw [if_neg (by simpa using same)] at placed
        obtain ⟨later, found, rfl⟩ := Option.map_eq_some_iff.mp placed
        simp only [setEntries, same, ↓reduceIte, List.map_cons, List.set_cons_succ]
        rw [ih found]

/-- Lookups determine the entries up to their order. -/
theorem entries_perm_iff {left right : OrderedMap Key Val} :
    left.entries.Perm right.entries ↔ ∀ key, left.get? key = right.get? key := by
  have leftNodup : left.entries.Nodup := List.Nodup.of_map Prod.fst left.distinct
  have rightNodup : right.entries.Nodup := List.Nodup.of_map Prod.fst right.distinct
  rw [List.perm_ext_iff_of_nodup leftNodup rightNodup]
  constructor
  · intro same key
    apply Option.ext
    intro value
    rw [get?_eq_some_iff, get?_eq_some_iff, same]
  · intro same entry
    obtain ⟨key, value⟩ := entry
    rw [← get?_eq_some_iff, ← get?_eq_some_iff, same]

/-!
## Keys of two maps
-/

section Shared

variable {Other : Type}

/-- The keys of both maps with their values, in the order of the first map. -/
def shared (map : OrderedMap Key Val) (other : OrderedMap Key Other) : List (Key × Val × Other) :=
  map.entries.filterMap fun entry =>
    (other.get? entry.1).map fun value => (entry.1, entry.2, value)

theorem mem_shared {map : OrderedMap Key Val} {other : OrderedMap Key Other} {key : Key}
    {value : Val} {second : Other} :
    (key, value, second) ∈ shared map other ↔
      map.get? key = some value ∧ other.get? key = some second := by
  rw [shared, List.mem_filterMap]
  constructor
  · rintro ⟨⟨entryKey, entryValue⟩, listed, made⟩
    obtain ⟨found, holds, same⟩ := Option.map_eq_some_iff.mp made
    cases same
    exact ⟨get?_eq_some_iff.mpr listed, holds⟩
  · rintro ⟨holds, there⟩
    exact ⟨(key, value), get?_eq_some_iff.mp holds, by simp [there]⟩

theorem shared_nodup (map : OrderedMap Key Val) (other : OrderedMap Key Other) :
    (shared map other).Nodup := by
  have entriesNodup : map.entries.Nodup := List.Nodup.of_map Prod.fst map.distinct
  refine List.Nodup.filterMap ?_ entriesNodup
  intro first second made fromFirst fromSecond
  obtain ⟨_, _, sameFirst⟩ := Option.map_eq_some_iff.mp (Option.mem_def.mp fromFirst)
  obtain ⟨_, _, sameSecond⟩ := Option.map_eq_some_iff.mp (Option.mem_def.mp fromSecond)
  have same := sameFirst.trans sameSecond.symm
  simp only [Prod.mk.injEq] at same
  exact Prod.ext same.1 same.2.1

/-- Seen from the other map, the same keys with the values exchanged. -/
theorem shared_perm (map : OrderedMap Key Val) (other : OrderedMap Key Other) :
    (shared other map).Perm ((shared map other).map fun entry => (entry.1, entry.2.swap)) := by
  have injective : Function.Injective
      fun entry : Key × Val × Other => (entry.1, entry.2.swap) := by
    intro first second same
    obtain ⟨keys, values⟩ := Prod.mk.inj same
    exact Prod.ext keys (Prod.swap_inj.mp values)
  have swappedNodup := (shared_nodup map other).map injective
  refine (List.perm_ext_iff_of_nodup (shared_nodup other map) swappedNodup).mpr ?_
  rintro ⟨key, value, second⟩
  rw [mem_shared, List.mem_map]
  constructor
  · rintro ⟨there, holds⟩
    exact ⟨(key, second, value), mem_shared.mpr ⟨holds, there⟩, rfl⟩
  · rintro ⟨⟨entryKey, entryValue, entrySecond⟩, listed, same⟩
    cases same
    exact (mem_shared.mp listed).symm

end Shared

end OrderedMap

end Lib

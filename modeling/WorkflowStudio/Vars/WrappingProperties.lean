import WorkflowStudio.Lib.Attempts
import WorkflowStudio.Vars.Wrapping

/-! Which payloads survive being wrapped: a key of the name of a method that the
conversions call stands in their way. -/

set_option autoImplicit false

namespace WorkflowStudio.Vars.Wrapping

open Lib

variable {Scalar : Type}

/-- Scalars, lists, and plain dictionaries with distinct keys. -/
inductive JsonLike : Payload Scalar → Prop
  | scalar (value : Scalar) : JsonLike (.scalar value)
  | list (items : List (Payload Scalar)) (each : ∀ item ∈ items, JsonLike item) :
      JsonLike (.list items)
  | plain (entries : Entries Scalar) (distinct : (keysOf entries).Nodup)
      (each : ∀ entry ∈ entries, JsonLike entry.2) : JsonLike (.plain entries)

mutual

/-- The keys of every dictionary of a payload. -/
def dictKeys : Payload Scalar → List (List String)
  | .scalar _ => []
  | .list items | .tuple items => itemsDictKeys items
  | .plain entries | .mutable entries | .readonly entries =>
      keysOf entries :: entriesDictKeys entries

def itemsDictKeys : List (Payload Scalar) → List (List String)
  | [] => []
  | item :: items => dictKeys item ++ itemsDictKeys items

def entriesDictKeys : Entries Scalar → List (List String)
  | [] => []
  | (_, item) :: entries => dictKeys item ++ entriesDictKeys entries

end

mutual

/-- The keys of the dictionaries that are not inside of another one. -/
def outerKeys : Payload Scalar → List (List String)
  | .scalar _ => []
  | .list items | .tuple items => itemsOuterKeys items
  | .plain entries | .mutable entries | .readonly entries => [keysOf entries]

def itemsOuterKeys : List (Payload Scalar) → List (List String)
  | [] => []
  | item :: items => outerKeys item ++ itemsOuterKeys items

end

mutual

/-- A payload with all of its plain dictionaries wrapped. -/
def asMutable : Payload Scalar → Payload Scalar
  | .scalar value => .scalar value
  | .list items => .list (itemsAsMutable items)
  | .tuple items => .tuple (itemsAsMutable items)
  | .plain entries => .mutable (entriesAsMutable entries)
  | .mutable entries => .mutable entries
  | .readonly entries => .mutable (entriesAsMutable entries)

def itemsAsMutable : List (Payload Scalar) → List (Payload Scalar)
  | [] => []
  | item :: items => asMutable item :: itemsAsMutable items

def entriesAsMutable : Entries Scalar → Entries Scalar
  | [] => []
  | (key, item) :: entries => (key, asMutable item) :: entriesAsMutable entries

end

/-!
## Members
-/

theorem forall_itemsDictKeys {items : List (Payload Scalar)} {holds : List String → Prop} :
    (∀ keys ∈ itemsDictKeys items, holds keys) ↔
      ∀ item ∈ items, ∀ keys ∈ dictKeys item, holds keys := by
  induction items with
  | nil => simp [itemsDictKeys]
  | cons item items ih => rw [itemsDictKeys, List.forall_mem_append, ih, List.forall_mem_cons]

theorem forall_entriesDictKeys {entries : Entries Scalar} {holds : List String → Prop} :
    (∀ keys ∈ entriesDictKeys entries, holds keys) ↔
      ∀ entry ∈ entries, ∀ keys ∈ dictKeys entry.2, holds keys := by
  induction entries with
  | nil => simp [entriesDictKeys]
  | cons entry entries ih =>
      rw [entriesDictKeys, List.forall_mem_append, ih, List.forall_mem_cons]

theorem forall_itemsOuterKeys {items : List (Payload Scalar)} {holds : List String → Prop} :
    (∀ keys ∈ itemsOuterKeys items, holds keys) ↔
      ∀ item ∈ items, ∀ keys ∈ outerKeys item, holds keys := by
  induction items with
  | nil => simp [itemsOuterKeys]
  | cons item items ih => rw [itemsOuterKeys, List.forall_mem_append, ih, List.forall_mem_cons]

theorem forall_plainDictKeys {entries : Entries Scalar} {holds : List String → Prop} :
    (∀ keys ∈ dictKeys (.plain entries), holds keys) ↔
      holds (keysOf entries) ∧ ∀ entry ∈ entries, ∀ keys ∈ dictKeys entry.2, holds keys := by
  rw [dictKeys, List.forall_mem_cons, forall_entriesDictKeys]

@[simp] theorem keysOf_nil : keysOf ([] : Entries Scalar) = [] := rfl

@[simp] theorem keysOf_cons (key : String) (item : Payload Scalar) (entries : Entries Scalar) :
    keysOf ((key, item) :: entries) = key :: keysOf entries := rfl

@[simp] theorem keysOf_append (front back : Entries Scalar) :
    keysOf (front ++ back) = keysOf front ++ keysOf back := List.map_append

theorem keysOf_asMutable (entries : Entries Scalar) :
    keysOf (entriesAsMutable entries) = keysOf entries := by
  induction entries with
  | nil => rfl
  | cons entry entries ih =>
      obtain ⟨key, item⟩ := entry
      exact congrArg (List.cons key) ih

theorem itemsAsMutable_eq (items : List (Payload Scalar)) :
    itemsAsMutable items = items.map asMutable := by
  induction items with
  | nil => rfl
  | cons item items ih => exact congrArg (List.cons _) ih

theorem wrapReadonlyItems_eq (items : List (Payload Scalar)) :
    wrapReadonlyItems items = items.map wrapReadonly := by
  induction items with
  | nil => rfl
  | cons item items ih => exact congrArg (List.cons _) ih

/-!
## Going through parts
-/

theorem callMethod_yields (entries : Entries Scalar) (name : String) :
    Yields (callMethod entries name) (name ∉ keysOf entries) () where
  succeeds free := if_neg free
  fails taken := ⟨_, if_pos (not_not.mp taken)⟩

theorem wrapItems_yields (source : Payload Scalar → Payload Scalar)
    {items : List (Payload Scalar)} {holds : Payload Scalar → Prop}
    (each : ∀ item ∈ items, Yields (wrapMutable (source item)) (holds item) (asMutable item)) :
    Yields (wrapItems (items.map source)) (∀ item ∈ items, holds item)
      (itemsAsMutable items) := by
  induction items with
  | nil => exact (Yields.ok _).congr (by simp)
  | cons item items ih =>
      have first := each item List.mem_cons_self
      have rest := ih fun other member => each other (List.mem_cons_of_mem _ member)
      exact (first.bind rest.map).congr List.forall_mem_cons.symm

theorem toPlainItems_yields (source : Payload Scalar → Payload Scalar)
    {items : List (Payload Scalar)} {holds : Payload Scalar → Prop}
    (each : ∀ item ∈ items, Yields (toPlain (source item)) (holds item) item) :
    Yields (toPlainItems (items.map source)) (∀ item ∈ items, holds item) items := by
  induction items with
  | nil => exact (Yields.ok _).congr (by simp)
  | cons item items ih =>
      have first := each item List.mem_cons_self
      have rest := ih fun other member => each other (List.mem_cons_of_mem _ member)
      exact (first.bind rest.map).congr List.forall_mem_cons.symm

theorem toPlainEntries_yields {entries : Entries Scalar}
    {holds : String × Payload Scalar → Prop}
    (each : ∀ entry ∈ entries, Yields (toPlain (asMutable entry.2)) (holds entry) entry.2) :
    Yields (toPlainEntries (entriesAsMutable entries)) (∀ entry ∈ entries, holds entry)
      entries := by
  induction entries with
  | nil => exact (Yields.ok _).congr (by simp)
  | cons entry entries ih =>
      have first := each entry List.mem_cons_self
      have rest := ih fun other member => each other (List.mem_cons_of_mem _ member)
      refine (first.bind rest.map).congr ?_
      rw [List.forall_mem_cons]

theorem toPlainEntries_json {entries : Entries Scalar}
    (each : ∀ entry ∈ entries, toPlain entry.2 = .ok entry.2) :
    toPlainEntries entries = .ok entries := by
  induction entries with
  | nil => rfl
  | cons entry entries ih =>
      obtain ⟨key, item⟩ := entry
      have first := each (key, item) List.mem_cons_self
      have rest := ih fun other member => each other (List.mem_cons_of_mem _ member)
      simp only at first
      simp only [toPlainEntries, first, rest]
      rfl

theorem toPlainItems_all (source : Payload Scalar → Payload Scalar)
    {items : List (Payload Scalar)} (each : ∀ item ∈ items, toPlain (source item) = .ok item) :
    toPlainItems (items.map source) = .ok items := by
  have every : ∀ item ∈ items, Yields (toPlain (source item)) True item := by
    intro item member
    rw [each item member]
    exact Yields.ok item
  exact (toPlainItems_yields source every).succeeds fun _ _ => trivial

theorem setItem_yields {wrapped : Entries Scalar} {key : String} (value : Payload Scalar)
    (absent : key ∉ keysOf wrapped) (unmarked : "_mark_dirty" ∉ keysOf wrapped) :
    Yields (setItem wrapped key value) ("_child_path" ∉ keysOf wrapped ∧ key ≠ "_mark_dirty")
      (wrapped ++ [(key, value)]) := by
  have stored : Yields (callMethod (OrderedMap.setEntries key value wrapped) "_mark_dirty")
      (key ≠ "_mark_dirty") () := by
    refine (callMethod_yields _ _).congr ?_
    rw [OrderedMap.setEntries_of_absent absent, keysOf_append, List.mem_append, not_or,
      and_iff_right unmarked]
    simp [eq_comm]
  have assigned : Yields (setItem wrapped key value)
      ("_child_path" ∉ keysOf wrapped ∧ key ≠ "_mark_dirty" ∧ True)
      (OrderedMap.setEntries key value wrapped) :=
    (callMethod_yields wrapped "_child_path").bind (stored.bind (Yields.ok _))
  rw [OrderedMap.setEntries_of_absent absent] at assigned
  exact assigned.congr (by rw [and_true])

/-- Entries are stored next to others if no key among them is that of a method. -/
theorem wrapEntries_yields {wrapped entries : Entries Scalar}
    {holds : String × Payload Scalar → Prop}
    (distinct : (keysOf (wrapped ++ entries)).Nodup) (unmarked : "_mark_dirty" ∉ keysOf wrapped)
    (each : ∀ entry ∈ entries, Yields (wrapMutable entry.2) (holds entry) (asMutable entry.2)) :
    Yields (wrapEntries wrapped entries)
      ((∀ entry ∈ entries, holds entry) ∧ "_mark_dirty" ∉ keysOf entries ∧
        (entries ≠ [] → "_child_path" ∉ (keysOf (wrapped ++ entries)).dropLast))
      (wrapped ++ entriesAsMutable entries) := by
  induction entries generalizing wrapped with
  | nil =>
      unfold wrapEntries entriesAsMutable
      rw [List.append_nil]
      exact (Yields.ok wrapped).congr (by simp [keysOf])
  | cons entry entries ih =>
      obtain ⟨key, item⟩ := entry
      have first := each (key, item) List.mem_cons_self
      simp only [keysOf_append, keysOf_cons] at distinct ih ⊢
      have absent : key ∉ keysOf wrapped := by
        intro member
        exact (List.nodup_append.mp distinct).2.2 key member key List.mem_cons_self rfl
      have rest (marked : key ≠ "_mark_dirty") := @ih (wrapped ++ [(key, asMutable item)])
        (by simpa using distinct) (by simpa using ⟨unmarked, Ne.symm marked⟩)
        fun other member => each other (List.mem_cons_of_mem _ member)
      have all : Yields (wrapEntries wrapped ((key, item) :: entries)) _
          ((wrapped ++ [(key, asMutable item)]) ++ entriesAsMutable entries) :=
        first.bind ((setItem_yields (asMutable item) absent unmarked).bindWith
          fun room => rest room.2)
      rw [List.append_assoc] at all
      refine all.congr ?_
      simp only [keysOf_append, keysOf_cons, keysOf_nil, List.append_assoc, List.singleton_append]
      have room : ("_child_path" ∉ keysOf wrapped ∧ (entries ≠ [] →
          "_child_path" ∉ (keysOf wrapped ++ key :: keysOf entries).dropLast)) ↔
          "_child_path" ∉ (keysOf wrapped ++ key :: keysOf entries).dropLast := by
        rw [List.dropLast_append_of_ne_nil (List.cons_ne_nil _ _), List.mem_append, not_or]
        cases entries with
        | nil => simp
        | cons next entries =>
            constructor
            · rintro ⟨_, behind⟩
              exact behind (List.cons_ne_nil _ _)
            · intro behind
              exact ⟨behind.1, fun _ => behind⟩
      rw [List.forall_mem_cons, List.mem_cons, not_or]
      constructor
      · rintro ⟨here, ⟨before, marked⟩, others, unmarkedRest, behind⟩
        exact ⟨⟨here, others⟩, ⟨Ne.symm marked, unmarkedRest⟩,
          fun _ => room.mp ⟨before, behind⟩⟩
      · rintro ⟨⟨here, others⟩, ⟨marked, unmarkedRest⟩, free⟩
        obtain ⟨before, behind⟩ := room.mpr (free (List.cons_ne_nil _ _))
        exact ⟨here, ⟨before, Ne.symm marked⟩, others, unmarkedRest, behind⟩

/-!
## Payloads
-/

/-- Entries with these keys can be stored one after the other in a wrapped dictionary. -/
def Storable (keys : List String) : Prop :=
  "_mark_dirty" ∉ keys ∧ "_child_path" ∉ keys.dropLast

theorem plain_yields {entries : Entries Scalar} (distinct : (keysOf entries).Nodup)
    (each : ∀ entry ∈ entries, Yields (wrapMutable entry.2)
      (∀ keys ∈ dictKeys entry.2, Storable keys) (asMutable entry.2)) :
    Yields (wrapEntries [] entries) (∀ keys ∈ dictKeys (.plain entries), Storable keys)
      (entriesAsMutable entries) := by
  refine (wrapEntries_yields (by simpa using distinct) (by simp) each).congr ?_
  rw [forall_plainDictKeys, List.nil_append]
  constructor
  · rintro ⟨inner, marked, room⟩
    refine ⟨⟨marked, ?_⟩, inner⟩
    by_cases empty : entries = []
    · simp [empty]
    · exact room empty
  · rintro ⟨⟨marked, room⟩, inner⟩
    exact ⟨inner, marked, fun _ => room⟩

theorem wrapMutable_yields {payload : Payload Scalar} (json : JsonLike payload) :
    Yields (wrapMutable payload) (∀ keys ∈ dictKeys payload, Storable keys)
      (asMutable payload) := by
  induction json with
  | scalar value => exact (Yields.ok _).congr (by simp [dictKeys])
  | list items _ ih =>
      have each := wrapItems_yields id ih
      rw [List.map_id] at each
      exact each.map.congr forall_itemsDictKeys.symm
  | plain entries distinct _ ih => exact (plain_yields distinct ih).map

theorem toPlain_asMutable_yields {payload : Payload Scalar} (json : JsonLike payload) :
    Yields (toPlain (asMutable payload)) (∀ keys ∈ dictKeys payload, "items" ∉ keys) payload := by
  induction json with
  | scalar value => exact (Yields.ok _).congr (by simp [dictKeys])
  | list items _ ih =>
      have each := toPlainItems_yields asMutable ih
      rw [← itemsAsMutable_eq] at each
      exact each.map.congr forall_itemsDictKeys.symm
  | plain entries distinct _ ih =>
      refine ((callMethod_yields _ "items").bind (toPlainEntries_yields ih).map).congr ?_
      rw [keysOf_asMutable, forall_plainDictKeys]

theorem toPlain_json {payload : Payload Scalar} (json : JsonLike payload) :
    toPlain payload = .ok payload := by
  induction json with
  | scalar value => rfl
  | list items _ ih =>
      have each := toPlainItems_all id ih
      rw [List.map_id] at each
      rw [toPlain, each]
      rfl
  | plain entries _ _ ih =>
      rw [toPlain, toPlainEntries_json ih]
      rfl

theorem toPlain_readonly {payload : Payload Scalar} (json : JsonLike payload) :
    toPlain (wrapReadonly payload) = .ok payload := by
  induction json with
  | scalar value => rfl
  | list items _ ih =>
      rw [wrapReadonly, wrapReadonlyItems_eq, toPlain, toPlainItems_all wrapReadonly ih]
      rfl
  | plain entries _ each _ =>
      rw [wrapReadonly, toPlain, toPlainEntries_json fun entry member =>
        toPlain_json (each entry member)]
      rfl

theorem wrapMutable_readonly_yields {payload : Payload Scalar} (json : JsonLike payload) :
    Yields (wrapMutable (wrapReadonly payload))
      ((∀ keys ∈ outerKeys payload, "keys" ∉ keys) ∧ ∀ keys ∈ dictKeys payload, Storable keys)
      (asMutable payload) := by
  induction json with
  | scalar value => exact (Yields.ok _).congr (by simp [dictKeys, outerKeys])
  | list items _ ih =>
      have each := wrapItems_yields wrapReadonly ih
      rw [← wrapReadonlyItems_eq] at each
      refine each.map.congr ?_
      rw [outerKeys, dictKeys, forall_itemsOuterKeys, forall_itemsDictKeys]
      exact forall₂_and
  | plain entries distinct each _ =>
      have stored := plain_yields distinct fun entry member =>
        wrapMutable_yields (each entry member)
      refine ((callMethod_yields entries "keys").bind stored.map).congr ?_
      simp [outerKeys]

/-!
## Round trips
-/

/-- Wrapping and converting back give the payload again, whichever wrapper is taken. -/
structure Lossless (payload : Payload Scalar) : Prop where
  mutable : wrapMutable payload >>= toPlain = .ok payload
  readonly : toPlain (wrapReadonly payload) = .ok payload
  both : wrapMutable (wrapReadonly payload) >>= toPlain = .ok payload

/-- No key stands in the way: `items` in no dictionary, `_mark_dirty` and `_child_path`
(before another key) in none either, and `keys` in none that is wrapped as readonly. -/
structure Unshadowed (payload : Payload Scalar) : Prop where
  items : ∀ keys ∈ dictKeys payload, "items" ∉ keys
  storable : ∀ keys ∈ dictKeys payload, Storable keys
  keys : ∀ keys ∈ outerKeys payload, "keys" ∉ keys

theorem lossless_iff (payload : Payload Scalar) (json : JsonLike payload) :
    Lossless payload ↔ Unshadowed payload := by
  have back := toPlain_asMutable_yields json
  have mutable := ((wrapMutable_yields json).bind back).ok_iff
  have both := ((wrapMutable_readonly_yields json).bind back).ok_iff
  constructor
  · intro lossless
    obtain ⟨storable, items⟩ := mutable.mp lossless.mutable
    obtain ⟨⟨keys, _⟩, _⟩ := both.mp lossless.both
    exact ⟨items, storable, keys⟩
  · intro free
    exact ⟨mutable.mpr ⟨free.storable, free.items⟩, toPlain_readonly json,
      both.mpr ⟨⟨free.keys, free.storable⟩, free.items⟩⟩

def nestedPayload : Payload Int :=
  .plain [("a", .list [.plain [("b", .scalar 1)]]), ("_child_path", .scalar 2)]

theorem lossless_iff_nested : Lossless nestedPayload := by
  have inner : JsonLike (.plain [("b", .scalar 1)] : Payload Int) :=
    .plain _ (by decide) (by simpa using JsonLike.scalar 1)
  have listed : JsonLike (.list [.plain [("b", .scalar 1)]] : Payload Int) :=
    .list _ (by simpa using inner)
  refine (lossless_iff nestedPayload (.plain _ (by decide) ?_)).mpr ⟨?_, ?_, ?_⟩
  · simpa using ⟨listed, JsonLike.scalar 2⟩
  · simp [nestedPayload, dictKeys, entriesDictKeys, itemsDictKeys, keysOf]
  · simp [nestedPayload, dictKeys, entriesDictKeys, itemsDictKeys, keysOf, Storable]
  · simp [nestedPayload, outerKeys, keysOf]

def itemsPayload : Payload Int := .plain [("items", .list [.scalar 1])]

theorem items_key_is_not_converted :
    wrapMutable itemsPayload >>= toPlain = .error "object is not callable" ∧
      toPlain (wrapReadonly itemsPayload) = .ok itemsPayload ∧ ¬ Lossless itemsPayload := by
  have raised : wrapMutable itemsPayload >>= toPlain = .error "object is not callable" := by rfl
  refine ⟨raised, by rfl, ?_⟩
  rintro ⟨converted, _, _⟩
  rw [raised] at converted
  cases converted

end WorkflowStudio.Vars.Wrapping

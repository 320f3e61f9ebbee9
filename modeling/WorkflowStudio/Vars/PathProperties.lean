import WorkflowStudio.Vars.Paths
import WorkflowStudio.Vars.WrappingProperties

/-! What the accessors of dotted paths do to the heap: which values can be wrapped, where
the walk along a path ends, and what a write and a removal leave there. -/

set_option autoImplicit false

namespace WorkflowStudio.Vars.Paths

open Lib LinkedHeap

open Wrapping (Storable)

variable {Scalar : Type}

/-- What a value to store is made of; the kind of a dictionary is left out. -/
def givenContent (heap : Heap Scalar) : Nat → Given Scalar → Content String Sequence Scalar
  | 0, _ => .cut
  | _ + 1, .scalar value => .scalar value
  | depth + 1, .sequence shape items => .sequence shape (items.map (givenContent heap depth))
  | depth + 1, .plain entries | depth + 1, .readonly entries =>
      .map (entries.map fun entry => (entry.1, givenContent heap depth entry.2))
  | depth + 1, .mutable address => content heap (depth + 1) (.map address)

/-- A value that the program has: the keys of a dictionary are distinct, and a
`MutableDotDict` is in the heap. -/
inductive Present (count : Nat) : Given Scalar → Prop
  | scalar (value : Scalar) : Present count (.scalar value)
  | sequence (shape : Sequence) (items : List (Given Scalar))
      (each : ∀ item ∈ items, Present count item) : Present count (.sequence shape items)
  | plain (entries : List (String × Given Scalar)) (distinct : (entries.map Prod.fst).Nodup)
      (each : ∀ entry ∈ entries, Present count entry.2) : Present count (.plain entries)
  | readonly (entries : List (String × Given Scalar)) (distinct : (entries.map Prod.fst).Nodup)
      (each : ∀ entry ∈ entries, Present count entry.2) : Present count (.readonly entries)
  | mutable (address : Nat) (below : address < count) : Present count (.mutable address)

/-- No key of a dictionary that is not wrapped yet stands in the way of wrapping it. -/
inductive Wrappable : Given Scalar → Prop
  | scalar (value : Scalar) : Wrappable (.scalar value)
  | sequence (shape : Sequence) (items : List (Given Scalar))
      (each : ∀ item ∈ items, Wrappable item) : Wrappable (.sequence shape items)
  | plain (entries : List (String × Given Scalar)) (storable : Storable (entries.map Prod.fst))
      (each : ∀ entry ∈ entries, Wrappable entry.2) : Wrappable (.plain entries)
  | readonly (entries : List (String × Given Scalar)) (keyless : "keys" ∉ entries.map Prod.fst)
      (storable : Storable (entries.map Prod.fst))
      (each : ∀ entry ∈ entries, Wrappable entry.2) : Wrappable (.readonly entries)
  | mutable (address : Nat) : Wrappable (.mutable address)

/-!
## Wrapping
-/

/-- A later heap still has the dictionaries that were created. -/
def Keeps (heap after later : Heap Scalar) : Prop :=
  ∀ address, heap.length ≤ address → address < after.length →
    mapAt later address = mapAt after address

theorem Keeps.first {heap middle after later : Heap Scalar} (keeps : Keeps heap after later)
    (grows : middle <+: after) : Keeps heap middle later := by
  intro address created below
  rw [keeps address created (Nat.lt_of_lt_of_le below grows.length_le), mapAt_of_grows grows below]

theorem Keeps.second {heap middle after later : Heap Scalar} (keeps : Keeps heap after later)
    (grows : heap <+: middle) : Keeps middle after later := fun address created below =>
  keeps address (Nat.le_trans grows.length_le created) below

/-- A value is wrapped by new dictionaries only, and has the content of what was given. -/
def Made (heap : Heap Scalar) (given : Given Scalar) (result : Value Scalar × Heap Scalar) :
    Prop :=
  heap <+: result.2 ∧ ∀ later, Keeps heap result.2 later → ∀ depth,
    content later depth result.1 = givenContent later depth given

theorem callMethod_yields (keys : List String) (name : String) :
    Yields (callMethod keys name) (name ∉ keys) () where
  succeeds free := if_neg free
  fails taken := ⟨_, if_pos (not_not.mp taken)⟩

theorem wrapItems_achieves {items : List (Given Scalar)}
    (each : ∀ item ∈ items, ∀ heap, Achieves (wrapMutable item heap) (Wrappable item)
      (Made heap item)) (heap : Heap Scalar) :
    Achieves (wrapItems items heap) (∀ item ∈ items, Wrappable item) fun result =>
      heap <+: result.2 ∧ ∀ later, Keeps heap result.2 later → ∀ depth,
        result.1.map (content later depth) = items.map (givenContent later depth) := by
  induction items generalizing heap with
  | nil =>
      refine ((Yields.ok ([], heap)).congr (by simp)).achieves ⟨List.prefix_rfl, ?_⟩
      exact fun _ _ _ => rfl
  | cons item items ih =>
      have rest := ih fun other member => each other (List.mem_cons_of_mem _ member)
      refine Achieves.congr ?_ List.forall_mem_cons.symm
      rw [wrapItems]
      refine (each item List.mem_cons_self heap).bind ?_
      rintro ⟨value, middle⟩ _ ⟨grows, here⟩
      refine Achieves.congr ((rest middle).bind ?_) (and_iff_left trivial)
      rintro ⟨values, after⟩ _ ⟨growsOn, there⟩
      refine (Yields.ok _).achieves ⟨grows.trans growsOn, fun later keeps depth => ?_⟩
      rw [List.map_cons, List.map_cons, here later (keeps.first growsOn) depth,
        there later (keeps.second grows) depth]

theorem keys_set_of_absent {wrapped : Dict Scalar} {key : String} (absent : key ∉ wrapped.keys)
    (value : Value Scalar) : (wrapped.set key value).keys = wrapped.keys ++ [key] := by
  rw [OrderedMap.keys, OrderedMap.keys_set_of_absent absent, List.map_append]
  rfl

theorem setWrapped_yields {wrapped : Dict Scalar} {key : String} (value : Value Scalar)
    (absent : key ∉ wrapped.keys) (unmarked : "_mark_dirty" ∉ wrapped.keys) :
    Yields (setWrapped wrapped key value)
      ("_child_path" ∉ wrapped.keys ∧ key ≠ "_mark_dirty") (wrapped.set key value) := by
  have stored : Yields (callMethod (wrapped.set key value).keys "_mark_dirty")
      (key ≠ "_mark_dirty") () := by
    refine (callMethod_yields _ _).congr ?_
    rw [keys_set_of_absent absent, List.mem_append, not_or, and_iff_right unmarked]
    simp [eq_comm]
  have assigned : Yields (setWrapped wrapped key value)
      ("_child_path" ∉ wrapped.keys ∧ key ≠ "_mark_dirty" ∧ True) (wrapped.set key value) :=
    (callMethod_yields _ "_child_path").bind (stored.bind (Yields.ok _))
  exact assigned.congr (by rw [and_true])

/-- The content of the entries of a dictionary. -/
def dictContent (heap : Heap Scalar) (depth : Nat) (dict : Dict Scalar) :
    List (String × Content String Sequence Scalar) :=
  dict.entries.map fun entry => (entry.1, content heap depth entry.2)

/-- Entries can be wrapped after others that are. -/
def Addable (earlier : List String) (entries : List (String × Given Scalar)) : Prop :=
  (∀ entry ∈ entries, Wrappable entry.2) ∧ "_mark_dirty" ∉ entries.map Prod.fst ∧
    (entries ≠ [] → "_child_path" ∉ (earlier ++ entries.map Prod.fst).dropLast)

theorem addable_cons {earlier : List String} {key : String} {item : Given Scalar}
    {entries : List (String × Given Scalar)} :
    Addable earlier ((key, item) :: entries) ↔
      Wrappable item ∧ ("_child_path" ∉ earlier ∧ key ≠ "_mark_dirty") ∧
        Addable (earlier ++ [key]) entries := by
  have room : ("_child_path" ∉ earlier ∧ (entries ≠ [] →
      "_child_path" ∉ (earlier ++ [key] ++ entries.map Prod.fst).dropLast)) ↔
      "_child_path" ∉ (earlier ++ key :: entries.map Prod.fst).dropLast := by
    rw [List.append_assoc, List.singleton_append,
      List.dropLast_append_of_ne_nil (List.cons_ne_nil _ _), List.mem_append, not_or]
    cases entries with
    | nil => simp
    | cons next entries =>
        constructor
        · rintro ⟨_, behind⟩
          exact behind (List.cons_ne_nil _ _)
        · intro behind
          exact ⟨behind.1, fun _ => behind⟩
  rw [Addable, Addable, List.forall_mem_cons, List.map_cons, List.mem_cons, not_or, ← room]
  simp only [ne_eq, reduceCtorEq, not_false_eq_true, forall_true_left, eq_comm (a := "_mark_dirty")]
  tauto

/-- Entries are stored next to others if no key among them is that of a method. -/
theorem wrapEntries_achieves {entries : List (String × Given Scalar)}
    (each : ∀ entry ∈ entries, ∀ heap, Achieves (wrapMutable entry.2 heap) (Wrappable entry.2)
      (Made heap entry.2)) (heap : Heap Scalar) {wrapped : Dict Scalar}
    (distinct : (wrapped.keys ++ entries.map Prod.fst).Nodup)
    (unmarked : "_mark_dirty" ∉ wrapped.keys) :
    Achieves (wrapEntries wrapped entries heap) (Addable wrapped.keys entries) fun result =>
      heap <+: result.2 ∧ ∀ later, Keeps heap result.2 later → ∀ depth,
        dictContent later depth result.1 = dictContent later depth wrapped ++
          entries.map fun entry => (entry.1, givenContent later depth entry.2) := by
  induction entries generalizing heap wrapped with
  | nil =>
      refine ((Yields.ok (wrapped, heap)).congr (by simp [Addable])).achieves
        ⟨List.prefix_rfl, ?_⟩
      exact fun _ _ _ => (List.append_nil _).symm
  | cons entry entries ih =>
      obtain ⟨key, item⟩ := entry
      rw [List.map_cons] at distinct
      have absent : key ∉ wrapped.keys := fun member =>
        (List.nodup_append.mp distinct).2.2 key member key List.mem_cons_self rfl
      refine Achieves.congr ?_ addable_cons.symm
      rw [wrapEntries]
      refine (each (key, item) List.mem_cons_self heap).bind ?_
      rintro ⟨value, middle⟩ _ ⟨grows, here⟩
      refine Achieves.after (setWrapped_yields value absent unmarked) fun ⟨_, marked⟩ => ?_
      have keys := keys_set_of_absent absent value
      have rest : Achieves (wrapEntries (wrapped.set key value) entries middle) _ _ :=
        ih (fun other member => each other (List.mem_cons_of_mem _ member)) middle
          (by rw [keys]; simpa using distinct) (by rw [keys]; simpa using ⟨unmarked, marked.symm⟩)
      rw [keys] at rest
      refine rest.mono ?_
      rintro ⟨complete, after⟩ _ ⟨growsOn, there⟩
      refine ⟨grows.trans growsOn, fun later keeps depth => ?_⟩
      rw [there later (keeps.second grows) depth, dictContent, dictContent,
        OrderedMap.keys_set_of_absent absent, List.map_append, List.append_assoc, List.map_cons,
        List.map_nil, List.map_cons, here later (keeps.first growsOn) depth]
      rfl

theorem wrapFresh_achieves {entries : List (String × Given Scalar)}
    (distinct : (entries.map Prod.fst).Nodup)
    (each : ∀ entry ∈ entries, ∀ heap, Achieves (wrapMutable entry.2 heap) (Wrappable entry.2)
      (Made heap entry.2)) (heap : Heap Scalar) :
    Achieves (do
        let (wrapped, heap) ← wrapEntries .empty entries heap
        return (.map heap.length, heap ++ [wrapped]))
      (Storable (entries.map Prod.fst) ∧ ∀ entry ∈ entries, Wrappable entry.2)
      (Made heap (.plain entries)) := by
  have addable : Addable [] entries ↔
      Storable (entries.map Prod.fst) ∧ ∀ entry ∈ entries, Wrappable entry.2 := by
    rw [Addable, Storable, List.nil_append]
    cases entries with
    | nil => simp
    | cons entry entries => simp; tauto
  have filled : Achieves (wrapEntries .empty entries heap) (Addable [] entries) _ :=
    wrapEntries_achieves each heap distinct List.not_mem_nil
  refine Achieves.congr (filled.bind ?_) ((and_iff_left trivial).trans addable)
  rintro ⟨wrapped, after⟩ _ ⟨grows, there⟩
  refine (Yields.ok _).achieves ⟨grows.trans (List.prefix_append _ _), fun later keeps depth => ?_⟩
  have placed : mapAt later after.length = wrapped :=
    (keeps after.length grows.length_le (by simp)).trans (mapAt_length wrapped)
  cases depth with
  | zero => rfl
  | succ depth =>
      have inner := there later (keeps.first (List.prefix_append _ _)) depth
      rw [content, givenContent, placed]
      exact congrArg Content.map inner

/-- Exactly the wrappable values are wrapped. -/
theorem Present.wrapMutable_achieves {count : Nat} {given : Given Scalar}
    (present : Present count given) (heap : Heap Scalar) :
    Achieves (wrapMutable given heap) (Wrappable given) (Made heap given) := by
  induction present generalizing heap with
  | scalar value =>
      refine ((Yields.ok _).congr (iff_of_true trivial (.scalar value))).achieves ?_
      exact ⟨List.prefix_rfl, fun _ _ depth => by cases depth <;> rfl⟩
  | sequence shape items _ ih =>
      have wrappable : (∀ item ∈ items, Wrappable item) ↔ Wrappable (.sequence shape items) := by
        refine ⟨.sequence shape items, fun whole => ?_⟩
        cases whole with
        | sequence _ _ each => exact each
      rw [wrapMutable]
      refine Achieves.congr ((wrapItems_achieves ih heap).bind ?_)
        ((and_iff_left trivial).trans wrappable)
      rintro ⟨values, after⟩ _ ⟨grows, there⟩
      refine (Yields.ok _).achieves ⟨grows, fun later keeps depth => ?_⟩
      cases depth with
      | zero => rfl
      | succ depth => rw [content, givenContent, there later keeps depth]
  | plain entries distinct _ ih =>
      refine (wrapFresh_achieves distinct ih heap).congr ⟨fun parts => .plain _ parts.1 parts.2, ?_⟩
      intro whole
      cases whole with
      | plain _ storable each => exact ⟨storable, each⟩
  | readonly entries distinct _ ih =>
      have fresh : Achieves _ _ (Made heap (.readonly entries)) :=
        (wrapFresh_achieves distinct ih heap).mono fun result _ made =>
          ⟨made.1, fun later keeps depth =>
            (made.2 later keeps depth).trans (by cases depth <;> rfl)⟩
      refine (Achieves.after (callMethod_yields _ "keys") fun _ => fresh).congr ?_
      constructor
      · rintro ⟨keyless, storable, each⟩
        exact .readonly _ keyless storable each
      · intro whole
        cases whole with
        | readonly _ keyless storable each => exact ⟨keyless, storable, each⟩
  | mutable address below =>
      refine ((Yields.ok _).congr (iff_of_true trivial (.mutable address))).achieves ?_
      exact ⟨List.prefix_rfl, fun _ _ depth => by cases depth <;> rfl⟩

theorem Present.mono {count more : Nat} {given : Given Scalar} (present : Present count given)
    (le : count ≤ more) : Present more given := by
  induction present with
  | scalar value => exact .scalar value
  | sequence shape items _ ih => exact .sequence shape items ih
  | plain entries distinct _ ih => exact .plain entries distinct ih
  | readonly entries distinct _ ih => exact .readonly entries distinct ih
  | mutable address below => exact .mutable address (Nat.lt_of_lt_of_le below le)

/-!
## Assignments
-/

/-- An entry can be assigned under the key. -/
def Accepts (keys : List String) (key : String) : Prop :=
  "_child_path" ∉ keys ∧ "_mark_dirty" ∉ keys ∧ key ≠ "_mark_dirty"

theorem mem_keys_set {dict : Dict Scalar} {key other : String} {value : Value Scalar} :
    other ∈ (dict.set key value).keys ↔ other = key ∨ other ∈ dict.keys :=
  OrderedMap.mem_keys_setEntries key other value dict.entries

/-- An assignment stores what wrapping makes of the value. -/
theorem setItem_achieves {heap : Heap Scalar} {current : Nat} (below : current < heap.length)
    {given : Given Scalar} {condition : Prop} {kind : Value Scalar × Heap Scalar → Prop}
    (wraps : Achieves (wrapMutable given heap) condition kind)
    (grows : ∀ result, kind result → heap <+: result.2) (key : String) :
    Achieves (setItem current key given heap)
      (Accepts (mapAt heap current).keys key ∧ condition) fun after =>
        ∃ result, kind result ∧
          after = put result.2 current ((mapAt heap current).set key result.1) := by
  have assigned : Achieves (setItem current key given heap)
      ("_child_path" ∉ (mapAt heap current).keys ∧ condition ∧
        ("_mark_dirty" ∉ (mapAt heap current).keys ∧ key ≠ "_mark_dirty") ∧ True) fun after =>
        ∃ result, kind result ∧
          after = put result.2 current ((mapAt heap current).set key result.1) := by
    refine Achieves.after (callMethod_yields _ "_child_path") fun _ => wraps.bind ?_
    rintro ⟨value, middle⟩ _ made
    have same : mapAt middle current = mapAt heap current := mapAt_of_grows (grows _ made) below
    have room : current < middle.length := Nat.lt_of_lt_of_le below (grows _ made).length_le
    have marked := callMethod_yields ((mapAt heap current).set key value).keys "_mark_dirty"
    simp only [same, mapAt_put_self room]
    refine Achieves.after (marked.congr ?_) fun _ =>
      (Yields.ok _).achieves ⟨(value, middle), made, rfl⟩
    rw [mem_keys_set, not_or, and_comm, ne_comm]
  exact assigned.congr (by rw [Accepts]; tauto)

/-!
## The walk
-/

/-- Where the walk along a path ends: the dictionaries that it leaves, the last one, and
the keys from there on. -/
structure Landing where
  passed : List Nat
  target : Nat
  key : String
  rest : List String

def landing (heap : Heap Scalar) : Nat → List String → Landing
  | current, [] => ⟨[], current, "", []⟩
  | current, [last] => ⟨[], current, last, []⟩
  | current, part :: next :: rest =>
      match dictUnder heap current part with
      | none => ⟨[], current, part, next :: rest⟩
      | some found =>
          let below := landing heap found (next :: rest)
          { below with passed := current :: below.passed }

inductive Lands (heap : Heap Scalar) : Nat → List String → Landing → Prop
  | last (current : Nat) (key : String) : Lands heap current [key] ⟨[], current, key, []⟩
  | missing {current : Nat} {part : String} (absent : dictUnder heap current part = none)
      (next : String) (rest : List String) :
      Lands heap current (part :: next :: rest) ⟨[], current, part, next :: rest⟩
  | step {current found : Nat} {part next : String} {rest : List String} {landing : Landing}
      (held : dictUnder heap current part = some found)
      (below : Lands heap found (next :: rest) landing) :
      Lands heap current (part :: next :: rest)
        { landing with passed := current :: landing.passed }

theorem landing_lands {heap : Heap Scalar} {parts : List String} (nonempty : parts ≠ [])
    (current : Nat) : Lands heap current parts (landing heap current parts) := by
  induction parts generalizing current with
  | nil => exact absurd rfl nonempty
  | cons part rest ih =>
      cases rest with
      | nil => exact .last current part
      | cons next rest =>
          rw [landing]
          cases held : dictUnder heap current part with
          | none => exact .missing held next rest
          | some found => exact .step held (ih (List.cons_ne_nil _ _) found)

theorem dictUnder_eq_some {heap : Heap Scalar} {current found : Nat} {part : String} :
    dictUnder heap current part = some found ↔
      (mapAt heap current).get? part = some (.map found) := by
  rw [dictUnder]
  cases (mapAt heap current).get? part with
  | none => simp
  | some value => cases value <;> simp

theorem dictUnder_lt {heap : Heap Scalar} (sound : Sound heap) {current found : Nat}
    {part : String} (held : dictUnder heap current part = some found) : found < heap.length := by
  cases sound.within_of_get? (dictUnder_eq_some.mp held) with
  | map _ below => exact below

theorem Lands.lt {heap : Heap Scalar} (sound : Sound heap) {current : Nat} {parts : List String}
    {landing : Landing} (lands : Lands heap current parts landing)
    (below : current < heap.length) :
    (∀ address ∈ landing.passed, address < heap.length) ∧ landing.target < heap.length := by
  induction lands with
  | last | missing => exact ⟨List.forall_mem_nil _, below⟩
  | step held _ ih =>
      obtain ⟨passed, target⟩ := ih (dictUnder_lt sound held)
      exact ⟨List.forall_mem_cons.mpr ⟨below, passed⟩, target⟩

/-!
## Writes
-/

/-- The new dictionaries along the rest of a path, each with one entry, to the value. -/
inductive Chain (after : Heap Scalar) (given : Given Scalar) :
    Nat → List String → Value Scalar → Prop
  | done (created : Nat) {value : Value Scalar}
      (same : ∀ depth, content after depth value = givenContent after depth given) :
      Chain after given created [] value
  | next {created : Nat} {part : String} {rest : List String} {below : Value Scalar}
      (single : mapAt after created = OrderedMap.empty.set part below)
      (chain : Chain after given (created + 1) rest below) :
      Chain after given created (part :: rest) (.map created)

/-- A write changes the last dictionary of the walk alone, in the key from which the new
dictionaries lead to the value. -/
structure Planted (heap after : Heap Scalar) (target : Nat) (key : String) (rest : List String)
    (given : Given Scalar) : Prop where
  grows : heap.length ≤ after.length
  kept : ∀ address < heap.length, address ≠ target → mapAt after address = mapAt heap address
  planted : ∃ top, mapAt after target = (mapAt heap target).set key top ∧
    Chain after given heap.length rest top

/-- The value can be stored where the walk ends. -/
def Settable (heap : Heap Scalar) (landing : Landing) : Prop :=
  (∀ address ∈ landing.passed, "get" ∉ (mapAt heap address).keys) ∧
    (landing.rest ≠ [] → "get" ∉ (mapAt heap landing.target).keys) ∧
    Accepts (mapAt heap landing.target).keys landing.key ∧ "_mark_dirty" ∉ landing.rest

theorem setItem_planted {heap : Heap Scalar} {current count : Nat} {given : Given Scalar}
    (below : current < heap.length) (present : Present count given) (key : String) :
    Achieves (setItem current key given heap)
      (Accepts (mapAt heap current).keys key ∧ Wrappable given)
      fun after => Planted heap after current key [] given := by
  refine (setItem_achieves below (present.wrapMutable_achieves heap) (fun _ made => made.1)
    key).mono ?_
  rintro _ _ ⟨⟨value, middle⟩, ⟨grows, made⟩, rfl⟩
  have room : current < middle.length := Nat.lt_of_lt_of_le below grows.length_le
  refine ⟨by simpa using grows.length_le, fun address old different => ?_, value,
    mapAt_put_self room _, .done _ (made _ fun address created _ => ?_)⟩
  · rw [mapAt_put_of_ne different, mapAt_of_grows grows old]
  · exact mapAt_put_of_ne (Nat.ne_of_gt (Nat.lt_of_lt_of_le below created)) _

/-- The heap after an empty dictionary was stored under a key. -/
def sprout (heap : Heap Scalar) (current : Nat) (part : String) : Heap Scalar :=
  put (heap ++ [.empty]) current ((mapAt heap current).set part (.map heap.length))

theorem setItem_sprout {heap : Heap Scalar} {current : Nat} (below : current < heap.length)
    (part : String) :
    Achieves (setItem current part (.mutable heap.length) (heap ++ [.empty]))
      (Accepts (mapAt heap current).keys part) (· = sprout heap current part) := by
  have same : mapAt (heap ++ [.empty]) current = mapAt heap current :=
    mapAt_of_grows (List.prefix_append _ _) below
  have wraps : Achieves (wrapMutable (.mutable heap.length) (heap ++ [.empty])) True
      (· = (.map heap.length, heap ++ [.empty])) := (Yields.ok _).achieves rfl
  have room : current < (heap ++ [OrderedMap.empty]).length := by simp; omega
  have stored := setItem_achieves room wraps (by rintro _ rfl; exact List.prefix_rfl) part
  rw [same] at stored
  refine (stored.congr (and_iff_left trivial)).mono ?_
  rintro _ _ ⟨_, rfl, rfl⟩
  rfl

section Sprout

variable {heap : Heap Scalar} {current : Nat} {part : String}

@[simp] theorem length_sprout : (sprout heap current part).length = heap.length + 1 := by
  simp [sprout]

theorem mapAt_sprout_self (below : current < heap.length) :
    mapAt (sprout heap current part) current =
      (mapAt heap current).set part (.map heap.length) :=
  mapAt_put_self (by simp; omega) _

theorem mapAt_sprout_created (below : current < heap.length) (part : String) :
    mapAt (sprout heap current part) heap.length = OrderedMap.empty :=
  (mapAt_put_of_ne (Nat.ne_of_gt below) _).trans (mapAt_length _)

theorem mapAt_sprout_of_ne {address : Nat} (old : address < heap.length)
    (different : address ≠ current) :
    mapAt (sprout heap current part) address = mapAt heap address :=
  (mapAt_put_of_ne different _).trans (mapAt_of_grows (List.prefix_append _ _) old)

/-- What is planted below a new dictionary is planted below its key. -/
theorem Planted.of_sprout {after : Heap Scalar} {next : String} {rest : List String}
    {given : Given Scalar} (below : current < heap.length)
    (planted : Planted (sprout heap current part) after heap.length next rest given) :
    Planted heap after current part (next :: rest) given := by
  obtain ⟨top, stored, chain⟩ := planted.planted
  rw [mapAt_sprout_created below part] at stored
  rw [length_sprout] at chain
  have kept (address : Nat) (old : address < heap.length) :
      mapAt after address = mapAt (sprout heap current part) address :=
    planted.kept address (by rw [length_sprout]; omega) (Nat.ne_of_lt old)
  refine ⟨?_, fun address old different => ?_, .map heap.length, ?_, .next stored chain⟩
  · have grows := planted.grows
    rw [length_sprout] at grows
    omega
  · rw [kept address old, mapAt_sprout_of_ne old different]
  · rw [kept current below, mapAt_sprout_self below]

end Sprout

theorem dictUnder_of_empty {heap : Heap Scalar} {current : Nat}
    (empty : mapAt heap current = OrderedMap.empty) (part : String) :
    dictUnder heap current part = none := by
  rw [dictUnder, empty]
  rfl

theorem settable_of_empty {heap : Heap Scalar} {current : Nat}
    (empty : mapAt heap current = OrderedMap.empty) (part : String) (rest : List String) :
    Settable heap ⟨[], current, part, rest⟩ ↔ "_mark_dirty" ∉ part :: rest := by
  have bare : (mapAt heap current).keys = [] := by rw [empty]; rfl
  rw [Settable, Accepts, bare, List.mem_cons, not_or, eq_comm (a := "_mark_dirty")]
  simp

theorem setVarParts_missing {heap : Heap Scalar} {given : Given Scalar} {current : Nat}
    {part next : String} {rest : List String} (below : current < heap.length)
    (absent : dictUnder heap current part = none)
    (goesOn : Achieves (setVarParts given heap.length (next :: rest) (sprout heap current part))
      ("_mark_dirty" ∉ next :: rest ∧ Wrappable given)
      fun after => Planted (sprout heap current part) after heap.length next rest given) :
    Achieves (setVarParts given current (part :: next :: rest) heap)
      (Settable heap ⟨[], current, part, next :: rest⟩ ∧ Wrappable given)
      fun after => Planted heap after current part (next :: rest) given := by
  have settable : Settable heap ⟨[], current, part, next :: rest⟩ ↔
      "get" ∉ (mapAt heap current).keys ∧ Accepts (mapAt heap current).keys part ∧
        "_mark_dirty" ∉ next :: rest := by
    simp [Settable]
  rw [setVarParts, absent, settable, and_assoc, and_assoc]
  refine Achieves.after (callMethod_yields _ "get") fun _ => (setItem_sprout below part).bind ?_
  rintro _ _ rfl
  exact goesOn.mono fun after _ planted => planted.of_sprout below

theorem setVarParts_fresh {heap : Heap Scalar} {given : Given Scalar}
    {count : Nat} (present : Present count given) {current : Nat} (below : current < heap.length)
    (empty : mapAt heap current = OrderedMap.empty) (part : String) (rest : List String) :
    Achieves (setVarParts given current (part :: rest) heap)
      ("_mark_dirty" ∉ part :: rest ∧ Wrappable given)
      fun after => Planted heap after current part rest given := by
  rw [← settable_of_empty empty]
  induction rest generalizing heap current part with
  | nil =>
      have settable : Settable heap ⟨[], current, part, []⟩ ↔
          Accepts (mapAt heap current).keys part := by simp [Settable]
      rw [settable]
      exact setItem_planted below present part
  | cons next rest ih =>
      have created := mapAt_sprout_created below part
      have goesOn := ih (by simp) created next
      rw [settable_of_empty created] at goesOn
      exact setVarParts_missing below (dictUnder_of_empty empty part) goesOn

/-- A write reaches the end of the walk, or raises. -/
theorem setVarParts_achieves {heap : Heap Scalar} (sound : Sound heap) {given : Given Scalar}
    {count : Nat} (present : Present count given) {parts : List String} {current : Nat}
    {landing : Landing} (lands : Lands heap current parts landing)
    (below : current < heap.length) :
    Achieves (setVarParts given current parts heap) (Settable heap landing ∧ Wrappable given)
      fun after => Planted heap after landing.target landing.key landing.rest given := by
  induction lands with
  | last current key =>
      have settable : Settable heap ⟨[], current, key, []⟩ ↔
          Accepts (mapAt heap current).keys key := by simp [Settable]
      rw [settable]
      exact setItem_planted below present key
  | @missing current part absent next rest =>
      have created := mapAt_sprout_created below part
      exact setVarParts_missing below absent
        (setVarParts_fresh present (by simp) created next rest)
  | @step current found part next rest landing held lower ih =>
      have settable : Settable heap { landing with passed := current :: landing.passed } ↔
          "get" ∉ (mapAt heap current).keys ∧ Settable heap landing := by
        simp [Settable, and_assoc]
      rw [setVarParts, held, settable, and_assoc]
      exact Achieves.after (callMethod_yields _ "get") fun _ => ih (dictUnder_lt sound held)

/-!
## The variable node
-/

theorem setItem_plain {heap : Heap Scalar} {current : Nat} (below : current < heap.length)
    (part : String) :
    setItem current part (.plain []) heap =
      setItem current part (.mutable heap.length) (heap ++ [.empty]) := by
  have same : mapAt (heap ++ [.empty]) current = mapAt heap current :=
    mapAt_of_grows (List.prefix_append _ _) below
  rw [setItem, setItem, same]
  rfl

theorem heldDict_of_free {heap : Heap Scalar} {current : Nat}
    (free : "get" ∉ (mapAt heap current).keys) (part : String) :
    heldDict heap current part = .ok (dictUnder heap current part) := by
  have called := (callMethod_yields (mapAt heap current).keys "get").succeeds free
  rw [heldDict, dictUnder]
  cases (mapAt heap current).get? part with
  | none => rfl
  | some found => simp only [called]; rfl

theorem setPathParts_missing {heap : Heap Scalar} {given : Given Scalar} {current : Nat}
    {part next : String} {rest : List String} (below : current < heap.length)
    (absent : dictUnder heap current part = none) (free : "get" ∉ (mapAt heap current).keys)
    (goesOn : setPathParts given heap.length (next :: rest) (sprout heap current part) =
      setVarParts given heap.length (next :: rest) (sprout heap current part)) :
    setPathParts given current (part :: next :: rest) heap =
      setVarParts given current (part :: next :: rest) heap := by
  have called := (callMethod_yields (mapAt heap current).keys "get").succeeds free
  have created : dictUnder (sprout heap current part) current part = some heap.length := by
    rw [dictUnder_eq_some, mapAt_sprout_self below, OrderedMap.get?_set_self]
  simp only [setPathParts, setVarParts, heldDict_of_free free, absent, called, ok_bind]
  rw [setItem_plain below]
  refine bind_congr_of_ok fun after stored => ?_
  obtain rfl := ((setItem_sprout below part).of_ok stored).2
  simp only [created]
  exact goesOn

theorem setPathParts_fresh {heap : Heap Scalar} (given : Given Scalar) {current : Nat}
    (below : current < heap.length) (empty : mapAt heap current = OrderedMap.empty)
    (part : String) (rest : List String) :
    setPathParts given current (part :: rest) heap =
      setVarParts given current (part :: rest) heap := by
  induction rest generalizing heap current part with
  | nil => rfl
  | cons next rest ih =>
      have bare : "get" ∉ (mapAt heap current).keys := by
        rw [empty]
        exact List.not_mem_nil
      refine setPathParts_missing below (dictUnder_of_empty empty part) bare ?_
      exact ih (by simp) (mapAt_sprout_created below part) next

/-- Where no dictionary of the walk has a key `get`, the variable node writes what the
executor writes. -/
theorem setPathParts_eq {heap : Heap Scalar} (sound : Sound heap) {given : Given Scalar}
    {parts : List String} {current : Nat} {landing : Landing}
    (lands : Lands heap current parts landing) (below : current < heap.length)
    (reads : ∀ address ∈ landing.passed, "get" ∉ (mapAt heap address).keys)
    (last : landing.rest ≠ [] → "get" ∉ (mapAt heap landing.target).keys) :
    setPathParts given current parts heap = setVarParts given current parts heap := by
  induction lands with
  | last current key => rfl
  | @missing current part absent next rest =>
      exact setPathParts_missing below absent (last (List.cons_ne_nil _ _))
        (setPathParts_fresh given (by simp) (mapAt_sprout_created below part) next rest)
  | step held lower ih =>
      obtain ⟨here, there⟩ := List.forall_mem_cons.mp reads
      have called := (callMethod_yields _ "get").succeeds here
      rw [setPathParts, setVarParts, heldDict_of_free here, held, called]
      exact ih (dictUnder_lt sound held) there last

end WorkflowStudio.Vars.Paths

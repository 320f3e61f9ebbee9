import WorkflowStudio.Vars.PathProperties

/-! A change at the end of a walk bounds what other paths read. The value of a path can be
replaced on the same way, writes of one value leave the same content, and a removal leaves
the other keys. -/

set_option autoImplicit false

namespace WorkflowStudio.Vars.Paths

open Lib LinkedHeap

variable {Scalar : Type}

/-- Neither path leads to the other. -/
def Independent (left right : List String) : Prop := ¬ left <+: right ∧ ¬ right <+: left

theorem Independent.tail {part : String} {left right : List String}
    (independent : Independent (part :: left) (part :: right)) : Independent left right := by
  simpa only [Independent, List.cons_prefix_cons, true_and] using independent

theorem Independent.cons {left right : List String} (independent : Independent left right)
    (part : String) : Independent (part :: left) (part :: right) := by
  simpa only [Independent, List.cons_prefix_cons, true_and] using independent

theorem Independent.left_ne_nil {left right : List String} (independent : Independent left right) :
    left ≠ [] := by
  rintro rfl
  exact independent.1 List.nil_prefix

theorem Independent.right_ne_nil {left right : List String}
    (independent : Independent left right) : right ≠ [] := by
  rintro rfl
  exact independent.2 List.nil_prefix

/-- Paths are independent if they part at the first key. -/
theorem independent_of_ne {part first : String} (different : first ≠ part)
    (left right : List String) : Independent (part :: left) (first :: right) := by
  constructor
  · exact fun starts => different (List.cons_prefix_cons.mp starts).1.symm
  · exact fun starts => different (List.cons_prefix_cons.mp starts).1

/-- The keys that the parts of a path can name: none is empty or has a dot. -/
def Addressable (parts : List String) : Prop := ∀ part ∈ parts, part ≠ "" ∧ '.' ∉ part.toList

theorem Addressable.head {first : String} {others : List String}
    (addressable : Addressable (first :: others)) : Addressable [first] :=
  fun part member => addressable part (List.mem_singleton.mp member ▸ List.mem_cons_self)

theorem Addressable.tail {first : String} {others : List String}
    (addressable : Addressable (first :: others)) : Addressable others :=
  fun part member => addressable part (List.mem_cons_of_mem _ member)

theorem not_mem_of_mem_splitOn {separator : Char} {text segment : List Char}
    (member : segment ∈ text.splitOn separator) : separator ∉ segment := by
  induction text generalizing segment with
  | nil =>
      obtain rfl := List.mem_singleton.mp member
      exact List.not_mem_nil
  | cons first text ih =>
      rw [List.splitOn_cons_eq_if_modifyHead] at member
      split at member
      case isTrue =>
        rcases List.mem_cons.mp member with rfl | later
        · exact List.not_mem_nil
        · exact ih later
      case isFalse different =>
        obtain ⟨head, rest, split⟩ :=
          List.exists_cons_of_ne_nil (List.splitOn_ne_nil separator text)
        rw [split, List.modifyHead_cons] at member
        rw [split] at ih
        rcases List.mem_cons.mp member with rfl | later
        · rw [List.mem_cons, not_or]
          exact ⟨fun same => different (beq_iff_eq.mpr same.symm), ih List.mem_cons_self⟩
        · exact ih (List.mem_cons_of_mem _ later)

theorem splitPath_addressable (path : String) : Addressable (splitPath path) := by
  intro part member
  obtain ⟨segment, kept, rfl⟩ := List.mem_map.mp member
  obtain ⟨split, nonempty⟩ := List.mem_filter.mp kept
  rw [String.toList_ofList]
  refine ⟨fun empty => of_decide_eq_true nonempty ?_, not_mem_of_mem_splitOn split⟩
  simpa using congrArg String.toList empty

/-- Every list of such keys is that of a path. -/
theorem exists_splitPath {parts : List String} (addressable : Addressable parts)
    (nonempty : parts ≠ []) : ∃ path, splitPath path = parts := by
  refine ⟨String.ofList (['.'].intercalate (parts.map String.toList)), ?_⟩
  have dotless : ∀ segment ∈ parts.map String.toList, '.' ∉ segment := by
    intro segment member
    obtain ⟨part, listed, rfl⟩ := List.mem_map.mp member
    exact (addressable part listed).2
  rw [splitPath, String.toList_ofList, List.splitOn_intercalate _ dotless (by simpa using nonempty),
    List.filter_eq_self.mpr, List.map_map]
  · exact (List.map_congr_left fun part _ => String.ofList_toList).trans (List.map_id parts)
  · intro segment member
    obtain ⟨part, listed, rfl⟩ := List.mem_map.mp member
    refine decide_eq_true fun empty => (addressable part listed).1 ?_
    rw [← String.ofList_toList (s := part), empty]

/-!
## Reads
-/

section Reads

variable {heap after : Heap Scalar} {current : Nat}

theorem walk_of_some {part : String} {value : Value Scalar}
    (free : "get" ∉ (mapAt heap current).keys)
    (found : (mapAt heap current).get? part = some value) (rest : List String) :
    walk heap (.map current) (part :: rest) = walk heap value rest := by
  rw [walk, found]
  simp only [(callMethod_yields _ "get").succeeds free, ok_bind]

theorem walk_of_none {part : String} (missing : (mapAt heap current).get? part = none)
    (rest : List String) : walk heap (.map current) (part :: rest) = .ok none := by
  rw [walk, missing]

theorem walk_of_dictUnder_none {part next : String}
    (free : "get" ∉ (mapAt heap current).keys) (absent : dictUnder heap current part = none)
    (rest : List String) : walk heap (.map current) (part :: next :: rest) = .ok none := by
  cases found : (mapAt heap current).get? part with
  | none => exact walk_of_none found _
  | some value =>
      rw [walk_of_some free found]
      cases value with
      | scalar value => rfl
      | sequence shape items => rfl
      | map address =>
          rw [dictUnder, found] at absent
          cases absent

/-- Heaps that agree on the dictionaries to which a value leads are read alike from there. -/
theorem walk_congr {value : Value Scalar}
    (agree : ∀ address, Reaches heap address value → mapAt after address = mapAt heap address)
    (parts : List String) : walk after value parts = walk heap value parts := by
  induction parts generalizing value with
  | nil => rfl
  | cons part rest ih =>
      cases value with
      | scalar value => rfl
      | sequence shape items => rfl
      | map address =>
          rw [walk, walk, agree address .here]
          cases found : (mapAt heap address).get? part with
          | none => rfl
          | some below =>
              have deeper := ih fun target reached =>
                agree target (.entry (OrderedMap.get?_eq_some_iff.mp found) reached)
              simp only [deeper]

theorem reaches_of_walk {value read : Value Scalar} {parts : List String} {target : Nat}
    (reads : walk heap value parts = .ok (some read)) (reached : Reaches heap target read) :
    Reaches heap target value := by
  induction parts generalizing value with
  | nil =>
      cases reads
      exact reached
  | cons part rest ih =>
      cases value with
      | scalar value => cases reads
      | sequence shape items => cases reads
      | map address =>
          rw [walk] at reads
          cases found : (mapAt heap address).get? part with
          | none => simp [found] at reads
          | some below =>
              simp only [found] at reads
              obtain ⟨_, _, deeper⟩ := bind_eq_ok reads
              exact .entry (OrderedMap.get?_eq_some_iff.mp found) (ih deeper)

theorem Lands.dictUnder_none {parts : List String} {landing : Landing}
    (lands : Lands heap current parts landing) (nonempty : landing.rest ≠ []) :
    dictUnder heap landing.target landing.key = none := by
  induction lands with
  | last => exact absurd rfl nonempty
  | missing absent => exact absent
  | step _ _ ih => exact ih nonempty

/-- A read along the path goes on from the end of the walk. -/
theorem Lands.walk_eq {parts : List String} {landing : Landing}
    (lands : Lands heap current parts landing)
    (agree : ∀ address ∈ landing.passed, mapAt after address = mapAt heap address)
    (reads : ∀ address ∈ landing.passed, "get" ∉ (mapAt heap address).keys) :
    walk after (.map current) parts =
      walk after (.map landing.target) (landing.key :: landing.rest) := by
  induction lands with
  | last | missing => rfl
  | step held _ ih =>
      obtain ⟨here, deeper⟩ := List.forall_mem_cons.mp agree
      obtain ⟨free, below⟩ := List.forall_mem_cons.mp reads
      have found := dictUnder_eq_some.mp held
      rw [← here] at free found
      rw [walk_of_some free found]
      exact ih deeper below

end Reads

/-!
## Reading what was written
-/

section Written

variable {heap after : Heap Scalar} {given : Given Scalar}

theorem keys_single (part : String) (value : Value Scalar) :
    (OrderedMap.empty.set part value).keys = [part] := rfl

theorem get?_single (part : String) (value : Value Scalar) :
    (OrderedMap.empty.set part value).get? part = some value :=
  OrderedMap.get?_set_self _ _ _

/-- The new dictionaries are found on the way to the value. -/
theorem Chain.walk_eq {created : Nat} {rest : List String} {top : Value Scalar}
    (chain : Chain after given created rest top) (segments : "get" ∉ rest) :
    ∃ got, walk after top rest = .ok (some got) ∧
      ∀ depth, content after depth got = givenContent after depth given := by
  induction chain with
  | @done created value same => exact ⟨value, rfl, same⟩
  | @next created part rest below single _ ih =>
      rw [List.mem_cons, not_or] at segments
      obtain ⟨got, read, same⟩ := ih segments.2
      have free : "get" ∉ (mapAt after created).keys := by
        rw [single, keys_single, List.mem_singleton]
        exact segments.1
      exact ⟨got, (walk_of_some free (single ▸ get?_single part below) rest).trans read, same⟩

/-- A path that parts from the new dictionaries leads nowhere. -/
theorem Chain.walk_independent {created : Nat} {rest others : List String} {top : Value Scalar}
    (chain : Chain after given created rest top) (segments : "get" ∉ rest)
    (independent : Independent rest others) : walk after top others = .ok none := by
  induction chain generalizing others with
  | done => exact absurd rfl independent.left_ne_nil
  | @next created part rest below single _ ih =>
      rw [List.mem_cons, not_or] at segments
      have free : "get" ∉ (mapAt after created).keys := by
        rw [single, keys_single, List.mem_singleton]
        exact segments.1
      cases others with
      | nil => exact absurd rfl independent.right_ne_nil
      | cons first others =>
          by_cases same : first = part
          · subst first
            rw [walk_of_some free (single ▸ get?_single part below)]
            exact ih segments.2 independent.tail
          · refine walk_of_none ?_ others
            rw [single, OrderedMap.get?_set_of_ne _ _ same]
            rfl

end Written

/-!
## Other paths
-/

/-- A change that one key of one dictionary bounds, and below which no path that parts from
the rest leads anywhere. -/
structure Edited (heap after : Heap Scalar) (target : Nat) (key : String) (rest : List String) :
    Prop where
  kept : ∀ address < heap.length, address ≠ target → mapAt after address = mapAt heap address
  others : ∀ other ≠ key, (mapAt after target).get? other = (mapAt heap target).get? other
  free : "get" ∉ (mapAt after target).keys
  below : ∀ others, Independent rest others → walk after (.map target) (key :: others) = .ok none

/-- No value that is read at an independent path leads to the dictionary. -/
def Unshared (heap : Heap Scalar) (current : Nat) (parts : List String) (target : Nat) : Prop :=
  ∀ other value, Addressable other → Independent parts other →
    walk heap (.map current) other = .ok (some value) → ¬ Reaches heap target value

/-- A read finds what it found before, with the content that it had. -/
def ReadsAlike (heap after : Heap Scalar) (current : Nat) (other : List String) : Prop :=
  walk after (.map current) other = walk heap (.map current) other ∧
    ∀ value, walk heap (.map current) other = .ok (some value) →
      ∀ depth, content after depth value = content heap depth value

section Others

variable {heap after : Heap Scalar} {current target : Nat} {key part first : String}
  {rest others : List String}

/-- A read below an entry that leads away from the change. -/
theorem readsAlike_beside (sound : Sound heap)
    (kept : ∀ address < heap.length, address ≠ target → mapAt after address = mapAt heap address)
    (free : "get" ∉ (mapAt heap current).keys) (freeAfter : "get" ∉ (mapAt after current).keys)
    (same : (mapAt after current).get? first = (mapAt heap current).get? first)
    (different : first ≠ part) (addressable : Addressable [first])
    (unshared : Unshared heap current (part :: rest) target) :
    ReadsAlike heap after current (first :: others) := by
  cases found : (mapAt heap current).get? first with
  | none =>
      rw [ReadsAlike, walk_of_none (same.trans found), walk_of_none found]
      exact ⟨rfl, fun value read => by cases read⟩
  | some value =>
      have apart : ¬ Reaches heap target value :=
        unshared [first] value addressable (independent_of_ne different rest [])
          (walk_of_some free found [])
      have agree (address : Nat) (reached : Reaches heap address value) :
          mapAt after address = mapAt heap address :=
        kept address (sound.reaches_lt (sound.within_of_get? found) reached)
          fun equal => apart (equal ▸ reached)
      rw [ReadsAlike, walk_of_some freeAfter (same.trans found), walk_of_some free found]
      refine ⟨walk_congr agree others, fun read reads => content_congr fun address reached => ?_⟩
      exact agree address (reaches_of_walk reads reached)

theorem Unshared.below {found : Nat} (unshared : Unshared heap current (part :: rest) target)
    (addressable : Addressable [part]) (free : "get" ∉ (mapAt heap current).keys)
    (held : dictUnder heap current part = some found) :
    Unshared heap found rest target := by
  intro other value addressableOther independent read
  refine unshared (part :: other) value ?_ (independent.cons part) ?_
  · exact List.forall_mem_cons.mpr ⟨addressable part List.mem_cons_self, addressableOther⟩
  rw [walk_of_some free (dictUnder_eq_some.mp held)]
  exact read

/-- A change at the end of the walk leaves the independent paths alone, unless they share
the dictionary that changes. -/
theorem Edited.readsAlike (sound : Sound heap) {parts other : List String} {landing : Landing}
    (lands : Lands heap current parts landing) (below : current < heap.length)
    (straight : landing.target ∉ landing.passed)
    (reads : ∀ address ∈ landing.passed, "get" ∉ (mapAt heap address).keys)
    (last : "get" ∉ (mapAt heap landing.target).keys)
    (edited : Edited heap after landing.target landing.key landing.rest)
    (unshared : Unshared heap current parts landing.target) (addressable : Addressable other)
    (independent : Independent parts other) : ReadsAlike heap after current other := by
  obtain ⟨first, others, rfl⟩ := List.exists_cons_of_ne_nil independent.right_ne_nil
  induction lands generalizing first others with
  | last current key =>
      by_cases same : first = key
      · subst first
        exact absurd rfl independent.tail.left_ne_nil
      · exact readsAlike_beside sound edited.kept last edited.free (edited.others first same) same
          addressable.head unshared
  | @missing current part absent next rest =>
      by_cases same : first = part
      · subst first
        obtain ⟨second, others, rfl⟩ := List.exists_cons_of_ne_nil independent.tail.right_ne_nil
        rw [ReadsAlike, edited.below _ independent.tail, walk_of_dictUnder_none last absent]
        exact ⟨rfl, fun value read => by cases read⟩
      · exact readsAlike_beside sound edited.kept last edited.free (edited.others first same) same
          addressable.head unshared
  | @step current found part next rest landing held _ ih =>
      obtain ⟨free, lower⟩ := List.forall_mem_cons.mp reads
      obtain ⟨here, straightBelow⟩ := not_or.mp fun either => straight (List.mem_cons.mpr either)
      have kept := edited.kept current below (Ne.symm here)
      have freeAfter := kept ▸ free
      by_cases same : first = part
      · subst first
        have foundHere := dictUnder_eq_some.mp held
        rw [ReadsAlike, walk_of_some free foundHere, walk_of_some freeAfter (kept ▸ foundHere)]
        obtain ⟨second, others, rfl⟩ := List.exists_cons_of_ne_nil independent.tail.right_ne_nil
        exact ih (dictUnder_lt sound held) straightBelow lower last edited
          (unshared.below addressable.head free held) second others addressable.tail
          independent.tail
      · exact readsAlike_beside sound edited.kept free freeAfter (by rw [kept]) same
          addressable.head unshared

theorem Planted.edited {given : Given Scalar} (planted : Planted heap after target key rest given)
    (last : "get" ∉ (mapAt heap target).keys) (segments : "get" ∉ key :: rest) :
    Edited heap after target key rest := by
  obtain ⟨top, stored, chain⟩ := planted.planted
  rw [List.mem_cons, not_or] at segments
  have free : "get" ∉ (mapAt after target).keys := by
    rw [stored, mem_keys_set, not_or]
    exact ⟨segments.1, last⟩
  refine ⟨planted.kept, fun other different => ?_, free, fun others independent => ?_⟩
  · rw [stored, OrderedMap.get?_set_of_ne _ _ different]
  · have found : (mapAt after target).get? key = some top := by
      rw [stored, OrderedMap.get?_set_self]
    rw [walk_of_some free found]
    exact chain.walk_independent segments.2 independent

theorem Planted.walk_eq {given : Given Scalar} (planted : Planted heap after target key rest given)
    (last : "get" ∉ (mapAt heap target).keys) (segments : "get" ∉ key :: rest) :
    ∃ got, walk after (.map target) (key :: rest) = .ok (some got) ∧
      ∀ depth, content after depth got = givenContent after depth given := by
  have free := (planted.edited last segments).free
  obtain ⟨top, stored, chain⟩ := planted.planted
  have found : (mapAt after target).get? key = some top := by
    rw [stored, OrderedMap.get?_set_self]
  rw [walk_of_some free found]
  rw [List.mem_cons, not_or] at segments
  exact chain.walk_eq segments.2

end Others

/-!
## The second write
-/

section Second

variable {heap after : Heap Scalar} {given second : Given Scalar} {count : Nat}

theorem Chain.lt {created : Nat} {part : String} {rest : List String} {top : Value Scalar}
    (chain : Chain after given created (part :: rest) top) : created < after.length := by
  cases chain with
  | next single _ =>
      by_contra beyond
      have empty : mapAt after created = OrderedMap.empty := by
        rw [mapAt, List.getD_eq_getElem?_getD, List.getElem?_eq_none (by omega)]
        rfl
      rw [empty] at single
      cases congrArg OrderedMap.keys single

theorem accepts_set {dict : Dict Scalar} {key : String} (accepts : Accepts dict.keys key)
    (value : Value Scalar) : Accepts (dict.set key value).keys key ↔ key ≠ "_child_path" := by
  obtain ⟨childless, unmarked, different⟩ := accepts
  rw [Accepts, mem_keys_set, mem_keys_set, not_or, not_or]
  constructor
  · rintro ⟨⟨same, _⟩, _⟩
    exact Ne.symm same
  · exact fun other => ⟨⟨other.symm, childless⟩, ⟨different.symm, unmarked⟩, different⟩

/-- One step through the new dictionaries. -/
theorem Chain.step {created : Nat} {part next : String} {rest : List String} {top : Value Scalar}
    (chain : Chain after given created (part :: next :: rest) top) (different : "get" ≠ part) :
    mapAt after created = OrderedMap.empty.set part (.map (created + 1)) ∧
      "get" ∉ (mapAt after created).keys ∧ dictUnder after created part = some (created + 1) ∧
      Chain after given (created + 1) (next :: rest) (.map (created + 1)) := by
  cases chain with
  | next single deeper =>
      cases deeper with
      | next singleBelow deeper =>
          refine ⟨single, ?_, ?_, .next singleBelow deeper⟩
          · rw [single, keys_single, List.mem_singleton]
            exact different
          · rw [dictUnder_eq_some, single, get?_single]

/-- The step from the last dictionary of the walk to the new ones. -/
theorem Planted.step {target : Nat} {part next : String} {rest : List String}
    (planted : Planted heap after target part (next :: rest) given)
    (free : "get" ∉ (mapAt heap target).keys) (different : "get" ≠ part) :
    mapAt after target = (mapAt heap target).set part (.map heap.length) ∧
      "get" ∉ (mapAt after target).keys ∧ dictUnder after target part = some heap.length ∧
      Chain after given heap.length (next :: rest) (.map heap.length) := by
  obtain ⟨top, stored, chain⟩ := planted.planted
  cases chain with
  | next single deeper =>
      refine ⟨stored, ?_, ?_, .next single deeper⟩
      · rw [stored, mem_keys_set, not_or]
        exact ⟨different, free⟩
      · rw [dictUnder_eq_some, stored, OrderedMap.get?_set_self]

/-- The value of a path is replaced without any new dictionary on the way. -/
theorem Chain.reset {created : Nat} {part : String} {rest : List String}
    (chain : Chain after given created (part :: rest) (.map created))
    (present : Present count second) (segments : "get" ∉ part :: rest)
    (unmarked : "_mark_dirty" ∉ part :: rest) :
    Achieves (setVarParts second created (part :: rest) after)
      ((part :: rest).getLast? ≠ some "_child_path" ∧ Wrappable second) fun final =>
        after.length ≤ final.length ∧
          (∀ address < created, mapAt final address = mapAt after address) ∧
          Chain final second created (part :: rest) (.map created) := by
  have room := chain.lt
  induction rest generalizing created part with
  | nil =>
      cases chain with
      | @next _ _ _ below single _ =>
          have accepts : Accepts (mapAt after created).keys part ↔
              [part].getLast? ≠ some "_child_path" := by
            rw [single, accepts_set ⟨List.not_mem_nil, List.not_mem_nil, ?_⟩]
            · simp
            · simpa [eq_comm] using unmarked
          refine ((setItem_planted room present part).congr (and_congr_left' accepts)).mono ?_
          rintro final _ ⟨grows, kept, top, stored, chain⟩
          obtain ⟨_, same⟩ := chain
          have replaced : mapAt final created = OrderedMap.empty.set part top := by
            rw [stored, single, OrderedMap.set_set]
          refine ⟨grows, fun address early => ?_, .next replaced (.done _ same)⟩
          exact kept address (Nat.lt_trans early room) (Nat.ne_of_lt early)
  | cons next rest ih =>
      rw [List.mem_cons, not_or] at segments unmarked
      obtain ⟨single, free, held, deeper⟩ := chain.step segments.1
      rw [setVarParts, (callMethod_yields _ "get").succeeds free, held, List.getLast?_cons_cons]
      refine (ih deeper segments.2 unmarked.2 deeper.lt).mono ?_
      rintro final _ ⟨grows, kept, chain⟩
      refine ⟨grows, fun address early => kept address (by omega), .next ?_ chain⟩
      rw [kept created (by omega), single]

theorem Chain.setPathParts_eq {created : Nat} {part : String} {rest : List String}
    (chain : Chain after given created (part :: rest) (.map created))
    (segments : "get" ∉ part :: rest) :
    setPathParts second created (part :: rest) after =
      setVarParts second created (part :: rest) after := by
  induction rest generalizing created part with
  | nil => rfl
  | cons next rest ih =>
      rw [List.mem_cons, not_or] at segments
      obtain ⟨_, free, held, deeper⟩ := chain.step segments.1
      rw [setPathParts, setVarParts, heldDict_of_free free, held,
        (callMethod_yields _ "get").succeeds free]
      exact ih deeper segments.2

theorem Planted.replace {final : Heap Scalar} {target : Nat} {key : String}
    (planted : Planted heap after target key [] given)
    (again : Planted after final target key [] second) :
    Planted heap final target key [] second := by
  obtain ⟨first, stored, _⟩ := planted.planted
  obtain ⟨top, storedAgain, ⟨_, same⟩⟩ := again.planted
  refine ⟨Nat.le_trans planted.grows again.grows, fun address old different => ?_, top, ?_,
    .done _ same⟩
  · rw [again.kept address (Nat.lt_of_lt_of_le old planted.grows) different,
      planted.kept address old different]
  · rw [storedAgain, stored, OrderedMap.set_set]

/-- The second write finds the way of the first one, and replaces its value. -/
theorem Planted.reset (sound : Sound heap) {current : Nat} {parts : List String}
    {landing : Landing} (lands : Lands heap current parts landing) (below : current < heap.length)
    (straight : landing.target ∉ landing.passed) (settable : Settable heap landing)
    (segments : "get" ∉ landing.key :: landing.rest) (present : Present count second)
    (planted : Planted heap after landing.target landing.key landing.rest given) :
    Achieves (setVarParts second current parts after)
      ((landing.key :: landing.rest).getLast? ≠ some "_child_path" ∧ Wrappable second)
      fun final => Planted heap final landing.target landing.key landing.rest second := by
  induction lands with
  | last current key =>
      obtain ⟨top, stored, _⟩ := planted.planted
      have accepts : Accepts (mapAt after current).keys key ↔
          [key].getLast? ≠ some "_child_path" := by
        rw [stored, accepts_set settable.2.2.1]
        simp
      have room := Nat.lt_of_lt_of_le below planted.grows
      refine ((setItem_planted room present key).congr (and_congr_left' accepts)).mono ?_
      exact fun final _ again => planted.replace again
  | @missing current part absent next rest =>
      obtain ⟨_, free, accepts, unmarked⟩ := settable
      rw [List.mem_cons, not_or] at segments
      obtain ⟨stored, freeAfter, held, chain⟩ :=
        planted.step (free (List.cons_ne_nil _ _)) segments.1
      rw [setVarParts, (callMethod_yields _ "get").succeeds freeAfter, held,
        List.getLast?_cons_cons]
      refine (chain.reset present segments.2 unmarked).mono ?_
      rintro final _ ⟨grows, kept, chain⟩
      refine ⟨Nat.le_trans planted.grows grows, fun address old different => ?_, _, ?_, chain⟩
      · rw [kept address old, planted.kept address old different]
      · rw [kept current below, stored]
  | @step current found part next rest landing held lower ih =>
      obtain ⟨reads, others⟩ := settable
      obtain ⟨here, deeper⟩ := List.forall_mem_cons.mp reads
      obtain ⟨apart, straightBelow⟩ := not_or.mp fun either => straight (List.mem_cons.mpr either)
      have kept := planted.kept current below (Ne.symm apart)
      have called := (callMethod_yields _ "get").succeeds (kept ▸ here)
      have heldAfter : dictUnder after current part = some found := by
        rw [dictUnder, kept, ← dictUnder, held]
      rw [setVarParts, called, heldAfter]
      exact ih (dictUnder_lt sound held) straightBelow ⟨deeper, others⟩ segments planted

theorem Planted.setPathParts_eq (sound : Sound heap) {current : Nat} {parts : List String}
    {landing : Landing} (lands : Lands heap current parts landing) (below : current < heap.length)
    (straight : landing.target ∉ landing.passed) (settable : Settable heap landing)
    (segments : "get" ∉ landing.key :: landing.rest)
    (planted : Planted heap after landing.target landing.key landing.rest given) :
    setPathParts second current parts after = setVarParts second current parts after := by
  induction lands with
  | last => rfl
  | @missing current part absent next rest =>
      rw [List.mem_cons, not_or] at segments
      obtain ⟨_, free, held, chain⟩ :=
        planted.step (settable.2.1 (List.cons_ne_nil _ _)) segments.1
      rw [setPathParts, setVarParts, heldDict_of_free free, held,
        (callMethod_yields _ "get").succeeds free]
      exact chain.setPathParts_eq segments.2
  | @step current found part next rest landing held lower ih =>
      obtain ⟨reads, others⟩ := settable
      obtain ⟨here, deeper⟩ := List.forall_mem_cons.mp reads
      obtain ⟨apart, straightBelow⟩ := not_or.mp fun either => straight (List.mem_cons.mpr either)
      have kept := planted.kept current below (Ne.symm apart)
      have free := kept ▸ here
      have heldAfter : dictUnder after current part = some found := by
        rw [dictUnder, kept, ← dictUnder, held]
      rw [setPathParts, setVarParts, heldDict_of_free free, heldAfter,
        (callMethod_yields _ "get").succeeds free]
      exact ih (dictUnder_lt sound held) straightBelow ⟨deeper, others⟩ segments planted

end Second

/-!
## The content that a write leaves
-/

section Content

variable {heap left right : Heap Scalar} {given : Given Scalar} {count : Nat}

/-- Heaps give the first of their dictionaries the same content, up to a depth. -/
def Alike (left right : Heap Scalar) (count depth : Nat) : Prop :=
  ∀ less ≤ depth, ∀ value, Within count value → content left less value = content right less value

theorem Alike.mono {depth less : Nat} (alike : Alike left right count depth) (le : less ≤ depth) :
    Alike left right count less := fun lower bound => alike lower (Nat.le_trans bound le)

theorem Present.givenContent_eq (present : Present count given) {depth : Nat}
    (alike : Alike left right count depth) :
    givenContent left depth given = givenContent right depth given := by
  induction present generalizing depth with
  | scalar value => cases depth <;> rfl
  | sequence shape items _ ih =>
      cases depth with
      | zero => rfl
      | succ depth =>
          rw [givenContent, givenContent]
          exact congrArg _ (List.map_congr_left fun item member =>
            ih item member (alike.mono (Nat.le_succ depth)))
  | plain entries _ _ ih | readonly entries _ _ ih =>
      cases depth with
      | zero => rfl
      | succ depth =>
          rw [givenContent, givenContent]
          refine congrArg _ (List.map_congr_left fun entry member => ?_)
          rw [ih entry member (alike.mono (Nat.le_succ depth))]
  | mutable address below =>
      cases depth with
      | zero => rfl
      | succ depth => exact alike _ (Nat.le_refl _) _ (.map address below)

theorem Chain.content_eq {created : Nat} {rest : List String} {top other : Value Scalar}
    (chain : Chain left given created rest top) (chainRight : Chain right given created rest other)
    (present : Present count given) {depth : Nat} (alike : Alike left right count depth) :
    content left depth top = content right depth other := by
  induction chain generalizing other depth with
  | done _ same =>
      cases chainRight with
      | done _ sameRight => rw [same, sameRight, present.givenContent_eq alike]
  | next single _ ih =>
      cases chainRight with
      | next singleRight chainRight =>
          cases depth with
          | zero => rfl
          | succ depth =>
              rw [content, content, single, singleRight]
              refine congrArg (fun below => Content.map [(_, below)]) ?_
              exact ih chainRight (alike.mono (Nat.le_succ depth))

/-- Writes of one value at one place leave the same content. -/
theorem Planted.alike {target : Nat} {key : String} {rest : List String} (sound : Sound heap)
    (present : Present heap.length given) (planted : Planted heap left target key rest given)
    (plantedRight : Planted heap right target key rest given) (depth : Nat) :
    Alike left right heap.length depth := by
  induction depth with
  | zero =>
      intro less bound value _
      obtain rfl := Nat.le_zero.mp bound
      rfl
  | succ depth ih =>
      intro less bound value within
      rcases Nat.le_succ_iff.mp bound with lower | rfl
      · exact ih less lower value within
      have entries (dict : Dict Scalar)
          (each : ∀ entry ∈ dict.entries, Within heap.length entry.2) :
          dictContent left depth dict = dictContent right depth dict :=
        List.map_congr_left fun entry member => by
          rw [ih depth (Nat.le_refl _) entry.2 (each entry member)]
      cases within with
      | scalar value => rfl
      | sequence shape items each =>
          exact congrArg _ (List.map_congr_left fun item member =>
            ih depth (Nat.le_refl _) item (each item member))
      | map address below =>
          have unchanged := entries (mapAt heap address) fun entry member => sound.within member
          refine congrArg Content.map ?_
          by_cases here : address = target
          · subst address
            obtain ⟨top, stored, chain⟩ := planted.planted
            obtain ⟨other, storedRight, chainRight⟩ := plantedRight.planted
            rw [stored, storedRight, content_map_set, content_map_set,
              chain.content_eq chainRight present ih]
            exact congrArg _ unchanged
          · rw [planted.kept address below here, plantedRight.kept address below here]
            exact unchanged

end Content

/-!
## Removals
-/

/-- The heap without the entry, where the walk leads to it. -/
def uproot (heap : Heap Scalar) (landing : Landing) : Heap Scalar :=
  if landing.rest = [] ∧ landing.key ∈ (mapAt heap landing.target).keys then
    put heap landing.target ((mapAt heap landing.target).erase landing.key)
  else heap

theorem mem_keys_erase {dict : Dict Scalar} {key other : String}
    (member : other ∈ (dict.erase key).keys) : other ∈ dict.keys := by
  obtain ⟨entry, kept, rfl⟩ := List.mem_map.mp member
  exact List.mem_map.mpr ⟨entry, (List.mem_filter.mp kept).1, rfl⟩

section Removal

variable {heap : Heap Scalar} {current : Nat}

theorem pop_yields {key : String} (childless : "_child_path" ∉ (mapAt heap current).keys)
    (unmarked : "_mark_dirty" ∉ (mapAt heap current).keys) :
    Yields (pop current key heap) ("pop" ∉ (mapAt heap current).keys)
      (uproot heap ⟨[], current, key, []⟩) := by
  have child := (callMethod_yields ((mapAt heap current).erase key).keys "_child_path").succeeds
    fun member => childless (mem_keys_erase member)
  have mark := (callMethod_yields ((mapAt heap current).erase key).keys "_mark_dirty").succeeds
    fun member => unmarked (mem_keys_erase member)
  have popped : Yields (pop current key heap) ("pop" ∉ (mapAt heap current).keys ∧ True)
      (uproot heap ⟨[], current, key, []⟩) := by
    refine (callMethod_yields _ "pop").bind ?_
    by_cases member : key ∈ (mapAt heap current).keys
    · simp only [member, ↓reduceIte, child, mark, ok_bind, uproot, and_self]
      exact Yields.ok _
    · simp only [member, ↓reduceIte, uproot, and_false]
      exact Yields.ok _
  exact popped.congr (and_iff_left trivial)

/-- A removal is refused by a key `pop` in the dictionary of the last key. -/
theorem deletePathParts_yields {parts : List String} {landing : Landing}
    (lands : Lands heap current parts landing)
    (reads : ∀ address ∈ landing.passed, "get" ∉ (mapAt heap address).keys)
    (last : "get" ∉ (mapAt heap landing.target).keys)
    (childless : "_child_path" ∉ (mapAt heap landing.target).keys)
    (unmarked : "_mark_dirty" ∉ (mapAt heap landing.target).keys) :
    Yields (deletePathParts (.map current) parts heap)
      (landing.rest = [] → "pop" ∉ (mapAt heap landing.target).keys) (uproot heap landing) := by
  induction lands with
  | last current key =>
      exact (pop_yields childless unmarked).congr ⟨fun free _ => free, fun free => free rfl⟩
  | @missing current part absent next rest =>
      have whole : uproot heap ⟨[], current, part, next :: rest⟩ = heap := if_neg (by simp)
      refine Yields.congr ?_ (iff_of_true trivial fun other => by cases other)
      rw [whole, deletePathParts]
      cases found : (mapAt heap current).get? part with
      | none => exact Yields.ok heap
      | some value =>
          simp only [(callMethod_yields _ "get").succeeds last, ok_bind]
          cases value with
          | scalar value => exact Yields.ok heap
          | sequence shape items => exact Yields.ok heap
          | map address =>
              rw [dictUnder, found] at absent
              cases absent
  | @step current found part next rest landing held _ ih =>
      obtain ⟨here, deeper⟩ := List.forall_mem_cons.mp reads
      rw [deletePathParts, dictUnder_eq_some.mp held]
      simp only [(callMethod_yields _ "get").succeeds here, ok_bind]
      exact ih deeper last childless unmarked

theorem uproot_edited {landing : Landing} (below : landing.target < heap.length)
    (last : "get" ∉ (mapAt heap landing.target).keys)
    (absent : landing.rest ≠ [] → dictUnder heap landing.target landing.key = none) :
    Edited heap (uproot heap landing) landing.target landing.key landing.rest := by
  rw [uproot]
  split
  case isTrue removed =>
    have erased := mapAt_put_self below ((mapAt heap landing.target).erase landing.key)
    refine ⟨fun address _ different => mapAt_put_of_ne different _, fun other different => ?_, ?_,
      fun others independent => absurd removed.1 independent.left_ne_nil⟩
    · rw [erased, OrderedMap.get?_erase, if_neg different]
    · rw [erased]
      exact fun member => last (mem_keys_erase member)
  case isFalse =>
    refine ⟨fun _ _ _ => rfl, fun _ _ => rfl, last, fun others independent => ?_⟩
    obtain ⟨next, others, rfl⟩ := List.exists_cons_of_ne_nil independent.right_ne_nil
    exact walk_of_dictUnder_none last (absent independent.left_ne_nil) others

theorem walk_uproot {landing : Landing} (below : landing.target < heap.length)
    (last : "get" ∉ (mapAt heap landing.target).keys)
    (absent : landing.rest ≠ [] → dictUnder heap landing.target landing.key = none) :
    walk (uproot heap landing) (.map landing.target) (landing.key :: landing.rest) = .ok none := by
  rw [uproot]
  split
  case isTrue removed =>
    refine walk_of_none ?_ _
    rw [mapAt_put_self below, OrderedMap.get?_erase, if_pos rfl]
  case isFalse stays =>
    cases rest : landing.rest with
    | nil =>
        refine walk_of_none (OrderedMap.get?_eq_none_iff.mpr fun member => ?_) _
        exact stays ⟨rest, member⟩
    | cons next others =>
        exact walk_of_dictUnder_none last (absent (by simp [rest])) others

end Removal

end WorkflowStudio.Vars.Paths

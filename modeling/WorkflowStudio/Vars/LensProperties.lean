import WorkflowStudio.Vars.PathEditProperties

/-! The paths of the variables form a lens exactly where no key has the name of a method
that the accessors call on the way, and where nothing but the path leads to the dictionary
that a write changes. -/

set_option autoImplicit false

namespace WorkflowStudio.Vars.Paths

open Lib LinkedHeap

variable {Scalar : Type}

/-- One implementation of reading and writing paths. -/
structure Accessors (Scalar : Type) where
  get : Store Scalar → String → Except String (Option (Value Scalar))
  set : Store Scalar → String → Given Scalar → Except String (Store Scalar)

def executor : Accessors Scalar := ⟨getVarPath, setVarPath⟩

def variableNode : Accessors Scalar := ⟨getPath, setPath⟩

/-- Both stores give the same value at a path, with the same content. -/
def Unchanged (get : Store Scalar → String → Except String (Option (Value Scalar)))
    (store changed : Store Scalar) (path : String) : Prop :=
  get changed path = get store path ∧ ∀ value, get store path = .ok (some value) →
    ∀ depth, content changed.heap depth value = content store.heap depth value

/-- The laws of reading and writing the path in the store, the second write being one of
another value. -/
structure Accessors.Laws (accessors : Accessors Scalar) (store : Store Scalar) (path : String)
    (value second : Given Scalar) : Prop where
  getSet : ∃ changed got, accessors.set store path value = .ok changed ∧
    accessors.get changed path = .ok (some got) ∧
      ∀ depth, content changed.heap depth got = givenContent changed.heap depth value
  setSet : ∃ changed final direct, accessors.set store path value = .ok changed ∧
    accessors.set changed path second = .ok final ∧ accessors.set store path second = .ok direct ∧
      ∀ depth, content final.heap depth final.vars = content direct.heap depth direct.vars
  independent : ∀ other, Independent (splitPath path) (splitPath other) →
    ∃ changed, accessors.set store path value = .ok changed ∧
      Unchanged accessors.get store changed other

/-- The path forms a lens: the laws hold for both implementations, which agree, and for the
removals of the variable node. -/
structure Lens (store : Store Scalar) (path : String) (value second : Given Scalar) : Prop where
  executorLaws : executor.Laws store path value second
  nodeLaws : variableNode.Laws store path value second
  getDelete : ∃ left, deletePath store path = .ok left ∧ getPath left path = .ok none
  independentDelete : ∀ other, Independent (splitPath path) (splitPath other) →
    ∃ left, deletePath store path = .ok left ∧ Unchanged getPath store left other
  sameGet : getVarPath store path = getPath store path
  sameSet : setVarPath store path value = setPath store path value

/-- Nothing stands in the way of the path. A read asks every dictionary on the way for
`get`, a write the last of them for `_child_path` and `_mark_dirty`, and a removal for `pop`;
the last one is not passed on the way, and no other path leads to it. -/
structure Clear (heap : Heap Scalar) (root : Nat) (parts : List String) (landing : Landing) :
    Prop where
  segments : "get" ∉ parts
  reads : ∀ address ∈ landing.target :: landing.passed, "get" ∉ (mapAt heap address).keys
  stores : "_child_path" ∉ (mapAt heap landing.target).keys ∧
    "_mark_dirty" ∉ (mapAt heap landing.target).keys
  creates : "_mark_dirty" ∉ landing.key :: landing.rest
  replaces : parts.getLast? ≠ some "_child_path"
  removes : landing.rest = [] → "pop" ∉ (mapAt heap landing.target).keys
  straight : landing.target ∉ landing.passed
  unshared : Unshared heap root parts landing.target

/-!
## Sufficiency
-/

section Store

variable {heap : Heap Scalar} {root : Nat} {path other : String} {value second : Given Scalar}
  {landing : Landing}

theorem getVarPath_eq (nonempty : splitPath path ≠ []) :
    getVarPath ⟨heap, .map root⟩ path = walk heap (.map root) (splitPath path) := by
  rw [getVarPath]
  cases parts : splitPath path with
  | nil => exact absurd parts nonempty
  | cons part rest => rfl

theorem getPath_eq : getPath ⟨heap, .map root⟩ path = walk heap (.map root) (splitPath path) := rfl

theorem setVarPath_eq (nonempty : splitPath path ≠ []) (value : Given Scalar) :
    setVarPath ⟨heap, .map root⟩ path value =
      (setVarParts value root (splitPath path) heap).map (Store.mk · (.map root)) := by
  rw [setVarPath]
  cases parts : splitPath path with
  | nil => exact absurd parts nonempty
  | cons part rest => rfl

theorem setPath_eq (value : Given Scalar) : setPath ⟨heap, .map root⟩ path value =
    (setPathParts value root (splitPath path) heap).map (Store.mk · (.map root)) := rfl

theorem deletePath_eq : deletePath ⟨heap, .map root⟩ path =
    (deletePathParts (.map root) (splitPath path) heap).map (Store.mk · (.map root)) := rfl

theorem Lands.ne_nil {parts : List String} (lands : Lands heap root parts landing) :
    parts ≠ [] := by
  cases lands <;> exact List.cons_ne_nil _ _

theorem Lands.suffix {parts : List String} (lands : Lands heap root parts landing) :
    landing.key :: landing.rest <:+ parts := by
  induction lands with
  | last | missing => exact List.suffix_rfl
  | step _ _ ih => exact ih.trans (List.suffix_cons _ _)

theorem Lands.getLast? {parts : List String} (lands : Lands heap root parts landing) :
    (landing.key :: landing.rest).getLast? = parts.getLast? := by
  induction lands with
  | last | missing => rfl
  | step _ _ ih => rw [List.getLast?_cons_cons, ← ih]

theorem Clear.settable {parts : List String} (clear : Clear heap root parts landing) :
    Settable heap landing := by
  obtain ⟨last, passed⟩ := List.forall_mem_cons.mp clear.reads
  obtain ⟨different, unmarked⟩ := not_or.mp fun either => clear.creates (List.mem_cons.mpr either)
  exact ⟨passed, fun _ => last, ⟨clear.stores.1, clear.stores.2, Ne.symm different⟩, unmarked⟩

theorem Clear.segmentsLeft {parts : List String} (clear : Clear heap root parts landing)
    (lands : Lands heap root parts landing) : "get" ∉ landing.key :: landing.rest :=
  fun member => clear.segments (lands.suffix.subset member)

/-- Accessors that walk, and that write what the executor writes, obey the laws. -/
theorem Accessors.laws_of_clear (accessors : Accessors Scalar) (sound : Sound heap)
    (below : root < heap.length) (lands : Lands heap root (splitPath path) landing)
    (clear : Clear heap root (splitPath path) landing) (present : Present heap.length value)
    (presentSecond : Present heap.length second) (wrappable : Wrappable value)
    (wrappableSecond : Wrappable second)
    (gets : ∀ heap path, splitPath path ≠ [] →
      accessors.get ⟨heap, .map root⟩ path = walk heap (.map root) (splitPath path))
    (sets : ∀ current given, current = heap ∨
      (∃ value, Planted heap current landing.target landing.key landing.rest value) →
        accessors.set ⟨current, .map root⟩ path given =
          (setVarParts given root (splitPath path) current).map (Store.mk · (.map root))) :
    accessors.Laws ⟨heap, .map root⟩ path value second := by
  obtain ⟨last, passed⟩ := List.forall_mem_cons.mp clear.reads
  have segments := clear.segmentsLeft lands
  have nonempty := lands.ne_nil
  obtain ⟨after, written, planted⟩ :=
    (setVarParts_achieves sound present lands below).succeeds ⟨clear.settable, wrappable⟩
  obtain ⟨direct, writtenDirect, plantedDirect⟩ :=
    (setVarParts_achieves sound presentSecond lands below).succeeds
      ⟨clear.settable, wrappableSecond⟩
  obtain ⟨final, writtenAgain, plantedAgain⟩ :=
    (planted.reset sound lands below clear.straight clear.settable segments presentSecond).succeeds
      ⟨lands.getLast? ▸ clear.replaces, wrappableSecond⟩
  have stored : accessors.set ⟨heap, .map root⟩ path value = .ok ⟨after, .map root⟩ := by
    rw [sets heap value (.inl rfl), written]
    rfl
  constructor
  · obtain ⟨got, read, same⟩ := planted.walk_eq last segments
    refine ⟨_, got, stored, ?_, same⟩
    rw [gets after path nonempty, lands.walk_eq (fun address member => ?_) passed, read]
    have inside := (lands.lt sound below).1 address member
    exact planted.kept address inside fun equal => clear.straight (equal ▸ member)
  · refine ⟨_, ⟨final, .map root⟩, ⟨direct, .map root⟩, stored, ?_, ?_, fun depth => ?_⟩
    · rw [sets after second (.inr ⟨value, planted⟩), writtenAgain]
      rfl
    · rw [sets heap second (.inl rfl), writtenDirect]
      rfl
    · exact plantedAgain.alike sound presentSecond plantedDirect depth depth (Nat.le_refl _) _
        (.map root below)
  · intro other independent
    have otherNonempty := independent.right_ne_nil
    refine ⟨_, stored, ?_⟩
    have alike := (planted.edited last segments).readsAlike sound lands below clear.straight passed
      last clear.unshared (splitPath_addressable other) independent
    rw [Unchanged, gets after other otherNonempty, gets heap other otherNonempty]
    exact alike

theorem lens_of_clear (sound : Sound heap) (below : root < heap.length)
    (lands : Lands heap root (splitPath path) landing)
    (clear : Clear heap root (splitPath path) landing) (present : Present heap.length value)
    (presentSecond : Present heap.length second) (wrappable : Wrappable value)
    (wrappableSecond : Wrappable second) : Lens ⟨heap, .map root⟩ path value second := by
  obtain ⟨last, passed⟩ := List.forall_mem_cons.mp clear.reads
  have segments := clear.segmentsLeft lands
  obtain ⟨inside, targetInside⟩ := lands.lt sound below
  have nonempty := lands.ne_nil
  have same (given : Given Scalar) : setPathParts given root (splitPath path) heap =
      setVarParts given root (splitPath path) heap :=
    setPathParts_eq sound lands below passed fun _ => last
  have deleted := (deletePathParts_yields lands passed last clear.stores.1 clear.stores.2).succeeds
    clear.removes
  have left : deletePath ⟨heap, .map root⟩ path = .ok ⟨uproot heap landing, .map root⟩ := by
    rw [deletePath_eq, deleted]
    rfl
  have edited := uproot_edited targetInside last lands.dictUnder_none
  refine ⟨?_, ?_, ⟨_, left, ?_⟩, fun other independent => ⟨_, left, ?_⟩, ?_, ?_⟩
  · refine executor.laws_of_clear sound below lands clear present presentSecond wrappable
      wrappableSecond (fun heap path some => getVarPath_eq some) ?_
    exact fun current given _ => setVarPath_eq nonempty given
  · refine variableNode.laws_of_clear sound below lands clear present presentSecond wrappable
      wrappableSecond (fun heap path some => getPath_eq) ?_
    rintro current given (rfl | ⟨value, planted⟩)
    · exact (setPath_eq given).trans (by rw [same])
    · refine (setPath_eq given).trans ?_
      rw [planted.setPathParts_eq sound lands below clear.straight clear.settable segments]
  · rw [getPath_eq, lands.walk_eq (fun address member => ?_) passed]
    · exact walk_uproot targetInside last lands.dictUnder_none
    · exact edited.kept address (inside address member) fun equal =>
        clear.straight (equal ▸ member)
  · exact edited.readsAlike sound lands below clear.straight passed last clear.unshared
      (splitPath_addressable other) independent
  · rw [getVarPath_eq nonempty, getPath_eq]
  · rw [setVarPath_eq nonempty, setPath_eq, same]

end Store

/-!
## Necessity

Writes of an empty list and of an empty tuple differ wherever they are seen.
-/

def bare (shape : Sequence) : Given Scalar := .sequence shape []

theorem content_bare {heap : Heap Scalar} {value : Value Scalar} {shape : Sequence}
    (same : ∀ depth, content heap depth value = givenContent heap depth (bare shape)) :
    value = .sequence shape [] := by
  have first := same 1
  cases value with
  | scalar value => cases first
  | map address => cases first
  | sequence other items =>
      obtain ⟨rfl, none⟩ := Content.sequence.inj first
      rw [List.map_eq_nil_iff.mp none]

theorem Chain.walk_long {after : Heap Scalar} {shape : Sequence} {created : Nat}
    {rest others : List String} {top got : Value Scalar}
    (chain : Chain after (bare shape) created rest top) (longer : rest.length < others.length) :
    walk after top others ≠ .ok (some got) := by
  have nonempty : others ≠ [] := List.ne_nil_of_length_pos (Nat.zero_lt_of_lt longer)
  obtain ⟨first, others, rfl⟩ := List.exists_cons_of_ne_nil nonempty
  induction chain generalizing first others with
  | done _ same =>
      rw [content_bare same]
      exact fun read => by cases read
  | @next created part rest below single _ ih =>
      intro read
      rw [walk, single] at read
      by_cases here : first = part
      · subst first
        rw [get?_single] at read
        obtain ⟨_, _, deeper⟩ := bind_eq_ok read
        simp only [List.length_cons, Nat.add_lt_add_iff_right] at longer
        have goesOn : others ≠ [] := List.ne_nil_of_length_pos (Nat.zero_lt_of_lt longer)
        obtain ⟨second, others, rfl⟩ := List.exists_cons_of_ne_nil goesOn
        exact ih second others longer goesOn deeper
      · rw [OrderedMap.get?_set_of_ne _ _ here] at read
        cases read

theorem Chain.free_of_walk {after : Heap Scalar} {given : Given Scalar} {created : Nat}
    {rest : List String} {top got : Value Scalar} (chain : Chain after given created rest top)
    (read : walk after top rest = .ok (some got)) : "get" ∉ rest := by
  induction chain with
  | done => exact List.not_mem_nil
  | @next created part rest below single _ ih =>
      rw [walk, single, get?_single] at read
      obtain ⟨_, called, deeper⟩ := bind_eq_ok read
      have free := ((callMethod_yields _ "get").of_ok called).1
      rw [keys_single, List.mem_singleton] at free
      exact not_or.mpr ⟨free, ih deeper⟩ ∘ List.mem_cons.mp

section Differs

variable {heap left right : Heap Scalar} {target created : Nat} {key : String}
  {rest : List String}

theorem Chain.differs {top other : Value Scalar}
    (chain : Chain left (bare .list) created rest top)
    (chainRight : Chain right (bare .tuple) created rest other) :
    content left (rest.length + 1) top ≠ content right (rest.length + 1) other := by
  induction chain generalizing other with
  | done _ same =>
      cases chainRight with
      | done _ sameRight =>
          rw [content_bare same, content_bare sameRight]
          exact fun equal => by cases equal
  | next single _ ih =>
      cases chainRight with
      | next singleRight chainRight =>
          rw [content, content, single, singleRight]
          intro equal
          refine ih chainRight ?_
          have entries := Content.map.inj equal
          exact (Prod.mk.inj (List.cons.inj entries).1).2

/-- Where a value leads to the dictionary, the two writes leave it different content. -/
theorem exists_content_ne (sound : Sound heap)
    (planted : Planted heap left target key rest (bare .list))
    (plantedRight : Planted heap right target key rest (bare .tuple)) {value : Value Scalar}
    (within : Within heap.length value) (reached : Reaches heap target value) :
    ∃ depth, content left depth value ≠ content right depth value := by
  obtain ⟨top, stored, chain⟩ := planted.planted
  obtain ⟨other, storedRight, chainRight⟩ := plantedRight.planted
  have here : content left (rest.length + 2) (.map target) ≠
      content right (rest.length + 2) (.map target) := by
    intro equal
    have entries := Content.map.inj equal
    rw [stored, storedRight, content_map_set, content_map_set] at entries
    have found := congrArg (List.lookup key) entries
    rw [OrderedMap.lookup_setEntries, OrderedMap.lookup_setEntries, if_pos rfl, if_pos rfl] at found
    exact chain.differs chainRight (Option.some.inj found)
  induction reached with
  | here => exact ⟨_, here⟩
  | @item shape items item member _ ih =>
      cases within with
      | sequence _ _ each =>
          obtain ⟨depth, different⟩ := ih (each item member)
          refine ⟨depth + 1, fun equal => different ?_⟩
          exact List.map_inj_left.mp (Content.sequence.inj equal).2 item member
  | @entry address entry member _ ih =>
      by_cases same : address = target
      · subst address
        exact ⟨_, here⟩
      · cases within with
        | map _ below =>
            obtain ⟨depth, different⟩ := ih (sound.within member)
            refine ⟨depth + 1, fun equal => different ?_⟩
            have entries := Content.map.inj equal
            rw [planted.kept address below same, plantedRight.kept address below same] at entries
            exact (Prod.mk.inj (List.map_inj_left.mp entries entry member)).2

end Differs

/-- The two writes, and reads of independent paths that see neither. -/
structure Invisible (heap left right : Heap Scalar) (current : Nat) (parts : List String)
    (target : Nat) (key : String) (rest : List String) : Prop where
  planted : Planted heap left target key rest (bare .list)
  plantedRight : Planted heap right target key rest (bare .tuple)
  alike : ∀ other, Addressable other → Independent parts other →
    ReadsAlike heap left current other ∧ ReadsAlike heap right current other

section Invisible

variable {heap left right : Heap Scalar} {current found target : Nat} {part key : String}
  {parts rest others : List String} {landing : Landing}

theorem ReadsAlike.below {after : Heap Scalar}
    (alike : ReadsAlike heap after current (part :: others))
    (kept : mapAt after current = mapAt heap current) (free : "get" ∉ (mapAt heap current).keys)
    (held : dictUnder heap current part = some found) : ReadsAlike heap after found others := by
  have foundHere := dictUnder_eq_some.mp held
  have freeAfter := kept ▸ free
  rw [ReadsAlike, walk_of_some free foundHere, walk_of_some freeAfter (kept ▸ foundHere)] at alike
  exact alike

theorem Invisible.below
    (invisible : Invisible heap left right current (part :: parts) target key rest)
    (addressable : Addressable (part :: parts)) (inside : current < heap.length)
    (apart : current ≠ target) (free : "get" ∉ (mapAt heap current).keys)
    (held : dictUnder heap current part = some found) :
    Invisible heap left right found parts target key rest := by
  refine ⟨invisible.planted, invisible.plantedRight, fun other addressableOther independent => ?_⟩
  have named : Addressable (part :: other) :=
    List.forall_mem_cons.mpr ⟨addressable part List.mem_cons_self, addressableOther⟩
  obtain ⟨alike, alikeRight⟩ := invisible.alike (part :: other) named (independent.cons part)
  exact ⟨alike.below (invisible.planted.kept current inside apart) free held,
    alikeRight.below (invisible.plantedRight.kept current inside apart) free held⟩

/-- A walk that finds something called `get` where it began. -/
theorem free_of_walk {after : Heap Scalar} {value got : Value Scalar}
    (found : (mapAt after current).get? part = some value)
    (read : walk after (.map current) (part :: rest) = .ok (some got)) :
    "get" ∉ (mapAt after current).keys ∧ walk after value rest = .ok (some got) := by
  rw [walk, found] at read
  obtain ⟨_, called, deeper⟩ := bind_eq_ok read
  exact ⟨((callMethod_yields _ "get").of_ok called).1, deeper⟩

/-- A path that reads the entry itself sees the writes. -/
theorem Invisible.not_beside
    (invisible : Invisible heap left right target parts target key rest)
    (free : "get" ∉ (mapAt left target).keys) (named : Addressable [key])
    (independent : Independent parts [key]) : False := by
  obtain ⟨top, stored, chain⟩ := invisible.planted.planted
  obtain ⟨other, storedRight, chainRight⟩ := invisible.plantedRight.planted
  have freeRight : "get" ∉ (mapAt right target).keys := by
    rw [stored, mem_keys_set] at free
    rw [storedRight, mem_keys_set]
    exact free
  have read : walk left (.map target) [key] = .ok (some top) :=
    walk_of_some free (by rw [stored, OrderedMap.get?_set_self]) []
  have readRight : walk right (.map target) [key] = .ok (some other) :=
    walk_of_some freeRight (by rw [storedRight, OrderedMap.get?_set_self]) []
  obtain ⟨⟨same, content⟩, sameRight, contentRight⟩ := invisible.alike _ named independent
  rw [read] at same
  rw [readRight] at sameRight
  obtain rfl := Option.some.inj (Except.ok.inj (same.trans sameRight.symm))
  exact chain.differs chainRight
    ((content top same.symm _).trans (contentRight top same.symm _).symm)

/-- The last dictionary of the walk is not passed before: the path would come back to its
entry, or another path would lead to it. -/
theorem Lands.straight_of_invisible (sound : Sound heap) (lands : Lands heap current parts landing)
    (inside : current < heap.length)
    (passed : ∀ address ∈ landing.passed, "get" ∉ (mapAt heap address).keys)
    (addressable : Addressable parts) {got : Value Scalar}
    (read : walk left (.map current) parts = .ok (some got))
    (invisible : Invisible heap left right current parts landing.target landing.key landing.rest) :
    landing.target ∉ landing.passed := by
  induction lands with
  | last | missing => exact List.not_mem_nil
  | @step current found part next rest landing held lower ih =>
      obtain ⟨free, deeper⟩ := List.forall_mem_cons.mp passed
      have foundHere := dictUnder_eq_some.mp held
      by_cases apart : current = landing.target
      · exfalso
        subst apart
        obtain ⟨top, stored, chain⟩ := invisible.planted.planted
        by_cases again : part = landing.key
        · have entry : (mapAt left landing.target).get? part = some top := by
            rw [stored, again, OrderedMap.get?_set_self]
          exact chain.walk_long lower.suffix.length_le (free_of_walk entry read).2
        · have entry : (mapAt left landing.target).get? part = some (.map found) := by
            rw [stored, OrderedMap.get?_set_of_ne _ _ again, foundHere]
          have listed := List.mem_cons_of_mem part (lower.suffix.subset List.mem_cons_self)
          refine invisible.not_beside (free_of_walk entry read).1 (fun key member => ?_)
            (independent_of_ne (Ne.symm again) _ _)
          exact addressable key (List.mem_singleton.mp member ▸ listed)
      · have kept := invisible.planted.kept current inside apart
        obtain ⟨_, readBelow⟩ := free_of_walk (kept ▸ foundHere) read
        have straight := ih (dictUnder_lt sound held) deeper addressable.tail readBelow
          (invisible.below addressable inside apart free held)
        exact fun member => (List.mem_cons.mp member).elim (Ne.symm apart) straight

/-- No key in which the walk looks is `get`, if a read comes to the value that was written. -/
theorem Lands.free_of_walk {after : Heap Scalar} {given : Given Scalar} (sound : Sound heap)
    (lands : Lands heap current parts landing) (inside : current < heap.length)
    (straight : landing.target ∉ landing.passed)
    (passed : ∀ address ∈ landing.passed, "get" ∉ (mapAt heap address).keys)
    (planted : Planted heap after landing.target landing.key landing.rest given)
    {got : Value Scalar} (read : walk after (.map current) parts = .ok (some got)) :
    "get" ∉ (mapAt heap landing.target).keys ∧ "get" ∉ landing.key :: landing.rest := by
  have kept : ∀ address ∈ landing.passed, mapAt after address = mapAt heap address :=
    fun address member => planted.kept address ((lands.lt sound inside).1 address member)
      fun equal => straight (equal ▸ member)
  rw [lands.walk_eq kept passed] at read
  obtain ⟨top, stored, chain⟩ := planted.planted
  have entry : (mapAt after landing.target).get? landing.key = some top := by
    rw [stored, OrderedMap.get?_set_self]
  obtain ⟨free, deeper⟩ := Paths.free_of_walk entry read
  rw [stored, mem_keys_set, not_or] at free
  exact ⟨free.2, not_or.mpr ⟨free.1, chain.free_of_walk deeper⟩ ∘ List.mem_cons.mp⟩

theorem Lands.segments (lands : Lands heap current parts landing)
    (passed : ∀ address ∈ landing.passed, "get" ∉ (mapAt heap address).keys)
    (left : "get" ∉ landing.key :: landing.rest) : "get" ∉ parts := by
  induction lands with
  | last | missing => exact left
  | step held _ ih =>
      obtain ⟨free, deeper⟩ := List.forall_mem_cons.mp passed
      have listed := OrderedMap.mem_keys_iff.mpr ⟨_, dictUnder_eq_some.mp held⟩
      rw [List.mem_cons, not_or]
      exact ⟨fun same => free (same ▸ listed), ih deeper left⟩

/-- What is read beside the path does not lead to the dictionary. -/
theorem Invisible.not_reaches (sound : Sound heap) {first : String} {value : Value Scalar}
    (invisible : Invisible heap left right current (part :: parts) target key rest)
    (different : first ≠ part) (named : Addressable [first])
    (read : walk heap (.map current) (first :: others) = .ok (some value)) :
    ¬ Reaches heap target value := by
  intro reached
  cases found : (mapAt heap current).get? first with
  | none =>
      rw [walk_of_none found] at read
      cases read
  | some item =>
      obtain ⟨free, deeper⟩ := Paths.free_of_walk found read
      have alike := invisible.alike [first] named (independent_of_ne different _ _)
      have here := walk_of_some free found []
      obtain ⟨depth, differs⟩ := exists_content_ne sound invisible.planted invisible.plantedRight
        (sound.within_of_get? found) (reaches_of_walk deeper reached)
      exact differs ((alike.1.2 item here depth).trans (alike.2.2 item here depth).symm)

theorem Lands.unshared_of_invisible (sound : Sound heap) (lands : Lands heap current parts landing)
    (inside : current < heap.length) (straight : landing.target ∉ landing.passed)
    (passed : ∀ address ∈ landing.passed, "get" ∉ (mapAt heap address).keys)
    (last : "get" ∉ (mapAt heap landing.target).keys) (addressable : Addressable parts)
    (invisible : Invisible heap left right current parts landing.target landing.key landing.rest) :
    Unshared heap current parts landing.target := by
  intro other value named independent read
  obtain ⟨first, others, rfl⟩ := List.exists_cons_of_ne_nil independent.right_ne_nil
  induction lands generalizing first others with
  | last current key =>
      by_cases same : first = key
      · subst first
        exact absurd rfl independent.tail.left_ne_nil
      · exact invisible.not_reaches sound same named.head read
  | @missing current part absent next rest =>
      by_cases same : first = part
      · subst first
        obtain ⟨second, others, rfl⟩ := List.exists_cons_of_ne_nil independent.tail.right_ne_nil
        rw [walk_of_dictUnder_none last absent] at read
        cases read
      · exact invisible.not_reaches sound same named.head read
  | @step current found part next rest landing held lower ih =>
      obtain ⟨free, deeper⟩ := List.forall_mem_cons.mp passed
      obtain ⟨apart, straightBelow⟩ := not_or.mp fun either => straight (List.mem_cons.mpr either)
      by_cases same : first = part
      · subst first
        obtain ⟨second, others, rfl⟩ := List.exists_cons_of_ne_nil independent.tail.right_ne_nil
        rw [walk_of_some free (dictUnder_eq_some.mp held)] at read
        exact ih (dictUnder_lt sound held) straightBelow deeper last addressable.tail
          (invisible.below addressable inside (Ne.symm apart) free held) second others named.tail
          independent.tail read
      · exact invisible.not_reaches sound same named.head read

end Invisible

/-!
## The lens
-/

section Lens

variable {heap : Heap Scalar} {root : Nat} {path : String}

/-- What the laws say about the heap that a write of the executor leaves. -/
theorem Lens.written {value second : Given Scalar} {landing : Landing}
    (lens : Lens ⟨heap, .map root⟩ path value second) (sound : Sound heap)
    (lands : Lands heap root (splitPath path) landing) (inside : root < heap.length)
    (present : Present heap.length value) :
    ∃ after, Settable heap landing ∧
      Planted heap after landing.target landing.key landing.rest value ∧
      (∃ got, walk after (.map root) (splitPath path) = .ok (some got)) ∧
      (∃ final, setVarParts second root (splitPath path) after = .ok final) ∧
      ∀ other, Addressable other → Independent (splitPath path) other →
        ReadsAlike heap after root other := by
  have nonempty := lands.ne_nil
  obtain ⟨changed, got, stored, read, _⟩ := lens.executorLaws.getSet
  obtain ⟨after, written, rfl⟩ := map_eq_ok ((setVarPath_eq nonempty value).symm.trans stored)
  obtain ⟨⟨settable, _⟩, planted⟩ := (setVarParts_achieves sound present lands inside).of_ok written
  refine ⟨after, settable, planted, ⟨got, (getVarPath_eq nonempty).symm.trans read⟩, ?_, ?_⟩
  · obtain ⟨changed, final, _, storedHere, again, _⟩ := lens.executorLaws.setSet
    obtain rfl := Except.ok.inj (stored.symm.trans storedHere)
    obtain ⟨final, rewritten, _⟩ := map_eq_ok ((setVarPath_eq nonempty second).symm.trans again)
    exact ⟨final, rewritten⟩
  · intro other addressable independent
    have otherNonempty := independent.right_ne_nil
    obtain ⟨otherPath, rfl⟩ := exists_splitPath addressable otherNonempty
    obtain ⟨changed, storedHere, alike⟩ := lens.executorLaws.independent otherPath independent
    obtain rfl := Except.ok.inj (stored.symm.trans storedHere)
    rw [Unchanged] at alike
    simp only [executor, getVarPath_eq otherNonempty] at alike
    exact alike

theorem clear_of_lens (sound : Sound heap) (inside : root < heap.length) {landing : Landing}
    (lands : Lands heap root (splitPath path) landing)
    (lens : Lens ⟨heap, .map root⟩ path (bare .list) (bare .list))
    (lensRight : Lens ⟨heap, .map root⟩ path (bare .tuple) (bare .tuple)) :
    Clear heap root (splitPath path) landing := by
  have blank (shape : Sequence) : Present heap.length (bare shape : Given Scalar) :=
    .sequence shape [] (List.forall_mem_nil _)
  obtain ⟨left, settable, planted, ⟨got, read⟩, ⟨final, rewritten⟩, alike⟩ :=
    lens.written sound lands inside (blank .list)
  obtain ⟨right, _, plantedRight, _, _, alikeRight⟩ :=
    lensRight.written sound lands inside (blank .tuple)
  have invisible : Invisible heap left right root (splitPath path) landing.target landing.key
      landing.rest :=
    ⟨planted, plantedRight, fun other named independent =>
      ⟨alike other named independent, alikeRight other named independent⟩⟩
  have addressable := splitPath_addressable path
  have straight := lands.straight_of_invisible sound inside settable.1 addressable read invisible
  obtain ⟨last, segments⟩ := lands.free_of_walk sound inside straight settable.1 planted read
  have replaced := ((planted.reset sound lands inside straight settable segments
    (blank .list)).of_ok rewritten).1.1
  obtain ⟨⟨childless, unmarked, different⟩, unmarkedRest⟩ := settable.2.2
  obtain ⟨removed, deleted, _⟩ := lens.getDelete
  obtain ⟨remaining, popped, _⟩ := map_eq_ok (deletePath_eq.symm.trans deleted)
  exact {
    segments := lands.segments settable.1 segments
    reads := List.forall_mem_cons.mpr ⟨last, settable.1⟩
    stores := ⟨childless, unmarked⟩
    creates := not_or.mpr ⟨Ne.symm different, unmarkedRest⟩ ∘ List.mem_cons.mp
    replaces := lands.getLast? ▸ replaced
    removes := ((deletePathParts_yields lands settable.1 last childless unmarked).of_ok popped).1
    straight := straight
    unshared := lands.unshared_of_invisible sound inside straight settable.1 last addressable
      invisible }

theorem wrappable_of_stored {landing : Landing} {value : Given Scalar} {changed : Store Scalar}
    (sound : Sound heap) (inside : root < heap.length)
    (lands : Lands heap root (splitPath path) landing) (present : Present heap.length value)
    (stored : setVarPath ⟨heap, .map root⟩ path value = .ok changed) : Wrappable value := by
  obtain ⟨_, written, _⟩ := map_eq_ok ((setVarPath_eq lands.ne_nil value).symm.trans stored)
  exact ((setVarParts_achieves sound present lands inside).of_ok written).1.2

/-- The path is clear exactly if it forms a lens for the values that can be wrapped, and
for no others. -/
theorem lens_iff (sound : Sound heap) (inside : root < heap.length)
    (nonempty : splitPath path ≠ []) :
    (∀ value second, Present heap.length value → Present heap.length second →
        (Lens ⟨heap, .map root⟩ path value second ↔ Wrappable value ∧ Wrappable second)) ↔
      Clear heap root (splitPath path) (landing heap root (splitPath path)) := by
  have lands : Lands heap root (splitPath path) (landing heap root (splitPath path)) :=
    landing_lands nonempty root
  constructor
  · intro exactly
    have blank (shape : Sequence) : Present heap.length (bare shape : Given Scalar) :=
      .sequence shape [] (List.forall_mem_nil _)
    have wraps (shape : Sequence) : Wrappable (bare shape : Given Scalar) :=
      .sequence shape [] (List.forall_mem_nil _)
    have lens (shape : Sequence) : Lens ⟨heap, .map root⟩ path (bare shape) (bare shape) :=
      (exactly _ _ (blank shape) (blank shape)).mpr ⟨wraps shape, wraps shape⟩
    exact clear_of_lens sound inside lands (lens .list) (lens .tuple)
  · intro clear value second present presentSecond
    constructor
    · intro lens
      obtain ⟨_, _, _, stored, _, storedSecond, _⟩ := lens.executorLaws.setSet
      exact ⟨wrappable_of_stored sound inside lands present stored,
        wrappable_of_stored sound inside lands presentSecond storedSecond⟩
    · rintro ⟨wrappable, wrappableSecond⟩
      exact lens_of_clear sound inside lands clear present presentSecond wrappable wrappableSecond

end Lens

def nestedHeap : Heap Int :=
  [.ofList [("a", .map 1), ("get_total", .scalar 3)],
    .ofList [("b", .scalar 1), ("pop", .scalar 2)]]

theorem nestedHeap_sound : Sound nestedHeap := by
  refine List.forall_mem_cons.mpr ⟨?_, List.forall_mem_singleton.mpr ?_⟩
  · exact List.forall_mem_cons.mpr ⟨.map 1 (by decide), List.forall_mem_singleton.mpr (.scalar 3)⟩
  · exact List.forall_mem_cons.mpr ⟨.scalar 1, List.forall_mem_singleton.mpr (.scalar 2)⟩

theorem nestedHeap_unshared : Unshared nestedHeap 0 ["a", "b", "c"] 1 := by
  intro other value _ independent read reached
  have scalar {current : Nat} {part : String} {item : Int} {others : List String}
      (found : (mapAt nestedHeap current).get? part = some (.scalar item))
      (read : walk nestedHeap (.map current) (part :: others) = .ok (some value)) : False := by
    cases reaches_of_walk (free_of_walk found read).2 reached
  obtain ⟨first, others, rfl⟩ := List.exists_cons_of_ne_nil independent.right_ne_nil
  cases found : (mapAt nestedHeap 0).get? first with
  | none =>
      rw [walk_of_none found] at read
      cases read
  | some item =>
      have listed := OrderedMap.mem_of_get?_ofList found
      simp only [List.mem_cons, Prod.mk.injEq, List.not_mem_nil, or_false] at listed
      rcases listed with ⟨rfl, rfl⟩ | ⟨rfl, rfl⟩
      · have inner := (free_of_walk found read).2
        obtain ⟨second, others, rfl⟩ := List.exists_cons_of_ne_nil independent.tail.right_ne_nil
        cases foundInner : (mapAt nestedHeap 1).get? second with
        | none =>
            rw [walk_of_none foundInner] at inner
            cases inner
        | some item =>
            have listed := OrderedMap.mem_of_get?_ofList foundInner
            simp only [List.mem_cons, Prod.mk.injEq, List.not_mem_nil, or_false] at listed
            rcases listed with ⟨rfl, rfl⟩ | ⟨rfl, rfl⟩ <;> exact scalar foundInner inner
      · exact scalar found read

theorem lens_iff_nested :
    Lens ⟨nestedHeap, .map 0⟩ "a..b.c" (.plain [("k", .scalar 4)]) (.scalar 5) := by
  have split : splitPath "a..b.c" = ["a", "b", "c"] := by rfl
  have ends : landing nestedHeap 0 ["a", "b", "c"] = ⟨[0], 1, "b", ["c"]⟩ := by rfl
  have clear : Clear nestedHeap 0 ["a", "b", "c"] ⟨[0], 1, "b", ["c"]⟩ := {
    segments := by decide
    reads := by decide
    stores := by decide
    creates := by decide
    replaces := by decide
    removes := by decide
    straight := by decide
    unshared := nestedHeap_unshared }
  have exact_iff := @lens_iff Int nestedHeap 0 "a..b.c" nestedHeap_sound (by decide)
    (by rw [split]; decide)
  rw [split, ends] at exact_iff
  refine (exact_iff.mpr clear _ _ ?_ (.scalar 5)).mpr ⟨?_, .scalar 5⟩
  · exact .plain _ (by decide) (by simpa using Present.scalar 4)
  · exact .plain _ (by simp [Wrapping.Storable]) (by simpa using Wrappable.scalar 4)

def shadowedHeap : Heap Int := [.ofList [("get", .scalar 1), ("x", .scalar 2)]]

theorem get_key_blocks_reads :
    getVarPath ⟨shadowedHeap, .map 0⟩ "x" = .error "object is not callable" ∧
      setVarPath ⟨shadowedHeap, .map 0⟩ "x" (.scalar 3) =
        .ok ⟨[.ofList [("get", .scalar 1), ("x", .scalar 3)]], .map 0⟩ ∧
      getVarPath ⟨[.ofList [("get", .scalar 1), ("x", .scalar (3 : Int))]], .map 0⟩ "x" =
        .error "object is not callable" ∧
      ¬ Lens ⟨shadowedHeap, .map 0⟩ "x" (.scalar 3) (.scalar 4) := by
  have stored : setVarPath ⟨shadowedHeap, .map 0⟩ "x" (.scalar 3) =
      .ok ⟨[.ofList [("get", .scalar 1), ("x", .scalar 3)]], .map 0⟩ := by rfl
  have raised : getVarPath ⟨[.ofList [("get", .scalar 1), ("x", .scalar (3 : Int))]], .map 0⟩ "x" =
      .error "object is not callable" := by rfl
  refine ⟨by rfl, stored, raised, ?_⟩
  intro lens
  obtain ⟨changed, got, changedStore, read, _⟩ := lens.executorLaws.getSet
  obtain rfl := Except.ok.inj (stored.symm.trans changedStore)
  cases raised.symm.trans read

def sharedHeap (x : Int) : Heap Int :=
  [.ofList [("a", .map 1), ("b", .map 1)], .ofList [("x", .scalar x)]]

/-- After `setvar('b', _vars.a)` a write of `a.x` is one of `b.x`. -/
theorem shared_dict_written :
    setVarPath ⟨[.ofList [("a", .map 1)], .ofList [("x", .scalar 1)]], .map 0⟩ "b" (.mutable 1) =
        .ok ⟨sharedHeap 1, .map 0⟩ ∧
      setVarPath ⟨sharedHeap 1, .map 0⟩ "a.x" (.scalar 3) = .ok ⟨sharedHeap 3, .map 0⟩ ∧
      getVarPath ⟨sharedHeap 1, .map 0⟩ "b.x" = .ok (some (.scalar 1)) ∧
      getVarPath ⟨sharedHeap 3, .map 0⟩ "b.x" = .ok (some (.scalar 3)) ∧
      ¬ Lens ⟨sharedHeap 1, .map 0⟩ "a.x" (.scalar 3) (.scalar 4) := by
  have stored : setVarPath ⟨sharedHeap 1, .map 0⟩ "a.x" (.scalar 3) =
      .ok ⟨sharedHeap 3, .map 0⟩ := by rfl
  refine ⟨by rfl, stored, by rfl, by rfl, fun lens => ?_⟩
  have independent : Independent (splitPath "a.x") (splitPath "b.x") := by
    refine independent_of_ne ?_ ["x"] ["x"]
    decide
  obtain ⟨changed, changedStore, same, _⟩ := lens.executorLaws.independent "b.x" independent
  obtain rfl := Except.ok.inj (stored.symm.trans changedStore)
  cases same

end WorkflowStudio.Vars.Paths

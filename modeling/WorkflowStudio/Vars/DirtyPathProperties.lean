import Mathlib.Data.List.TakeWhile
import WorkflowStudio.Lib.GreedyCover
import WorkflowStudio.Lib.Ordered
import WorkflowStudio.Vars.DirtyPaths

/-! The dirty paths are collapsed to a minimal cover, whatever order the set is iterated in,
unless one of them is an index of another: a sort by dots does not tell these two apart. -/

set_option autoImplicit false

namespace WorkflowStudio.Vars

open Lib.GreedyCover

variable {path existing : String} {paths : List String}

/-- The path goes on from the existing one at a mark. -/
def Extends (mark : Char) (path existing : String) : Prop :=
  existing.toList ++ [mark] <+: path.toList

/-- The path properly lies below the existing one. -/
def ProperlyBelow (path existing : String) : Prop :=
  Extends '.' path existing ∨ Extends '[' path existing

/-- Some of the paths, none of which lies below another, and which between them lie above
all; the empty path is the root of the variables. -/
structure MinimalCover (paths collapsed : List String) : Prop where
  subset : collapsed ⊆ paths
  minimal : ∀ existing ∈ collapsed, ∀ path ∈ collapsed, ¬ ProperlyBelow path existing
  covers : ∀ path ∈ paths, ∃ existing ∈ collapsed,
    existing = "" ∨ path = existing ∨ ProperlyBelow path existing
  root : "" ∈ paths → collapsed = [""]

/-- The path is an index of the existing one, below the same number of dots, and no other
path lies above the existing one. -/
structure Tied (paths : List String) (path existing : String) : Prop where
  indexed : Extends '[' path existing
  level : depth path = depth existing
  top : ∀ other ∈ paths, ¬ ProperlyBelow existing other

theorem extends_iff {mark : Char} :
    Extends mark path existing ↔
      existing.toList <+: path.toList ∧
        ∃ rest, path.toList.drop existing.toList.length = mark :: rest := by
  constructor
  · rintro ⟨rest, split⟩
    refine ⟨⟨mark :: rest, by simpa using split⟩, rest, ?_⟩
    rw [← split]
    simp
  · rintro ⟨⟨rest, split⟩, tail, dropped⟩
    refine ⟨tail, ?_⟩
    rw [← split] at dropped ⊢
    rw [List.drop_left] at dropped
    simp [dropped]

theorem liesBelow_iff : liesBelow path existing = true ↔
    path = existing ∨ ProperlyBelow path existing := by
  unfold liesBelow ProperlyBelow
  rw [extends_iff, extends_iff, Bool.or_eq_true, Bool.and_eq_true, beq_iff_eq,
    List.isPrefixOf_iff_prefix]
  cases path.toList.drop existing.toList.length with
  | nil => simp
  | cons next rest =>
      simp only [Bool.or_eq_true, beq_iff_eq, List.cons.injEq, exists_and_left, exists_eq', and_true]
      tauto

theorem liesBelow_self (path : String) : liesBelow path path = true :=
  liesBelow_iff.mpr (.inl rfl)

theorem Extends.prefix_toList {mark : Char} (goesOn : Extends mark path existing) :
    existing.toList <+: path.toList :=
  (extends_iff.mp goesOn).1

theorem ProperlyBelow.length_lt (below : ProperlyBelow path existing) :
    existing.toList.length < path.toList.length := by
  have shorter : ∀ {mark}, Extends mark path existing →
      existing.toList.length < path.toList.length := by
    intro mark goesOn
    have long := List.IsPrefix.length_le goesOn
    rwa [List.length_append] at long
  exact below.elim shorter shorter

theorem ProperlyBelow.extend {last : String} (below : ProperlyBelow path existing)
    (onto : path.toList <+: last.toList) : ProperlyBelow last existing :=
  below.imp (fun dot => dot.trans onto) fun bracket => bracket.trans onto

theorem ProperlyBelow.prefix_toList (below : ProperlyBelow path existing) :
    existing.toList <+: path.toList :=
  below.elim Extends.prefix_toList Extends.prefix_toList

/-- Two paths that begin a third one: what it properly lies below begins the other, or is
begun by it. -/
theorem ProperlyBelow.linear {other : String} (below : ProperlyBelow path other)
    (onto : existing.toList <+: path.toList) :
    ProperlyBelow existing other ∨ existing.toList <+: other.toList := by
  rcases Nat.lt_or_ge other.toList.length existing.toList.length with shorter | longer
  · have onward : ∀ {mark}, Extends mark path other → Extends mark existing other :=
      fun goesOn => List.prefix_of_prefix_length_le goesOn onto (by
        rwa [List.length_append])
    exact .inl (below.imp onward onward)
  · exact .inr (List.prefix_of_prefix_length_le onto below.prefix_toList longer)

theorem liesBelow_trans {last : String} (below : liesBelow last path = true)
    (above : liesBelow path existing = true) : liesBelow last existing = true := by
  rcases liesBelow_iff.mp below with rfl | below
  · exact above
  rcases liesBelow_iff.mp above with rfl | above
  · exact liesBelow_iff.mpr (.inr below)
  exact liesBelow_iff.mpr (.inr (above.extend below.prefix_toList))

/-!
## The order of the pass
-/

theorem depth_mono (onto : existing.toList <+: path.toList) : depth existing ≤ depth path :=
  onto.sublist.count_le '.'

theorem Extends.depth_lt (goesOn : Extends '.' path existing) : depth existing < depth path := by
  have counted := List.Sublist.count_le '.' (List.IsPrefix.sublist goesOn)
  simp only [List.count_append, List.count_singleton_self] at counted
  exact counted

/-- A path that the pass comes to before one above it is one of its indices. -/
theorem ProperlyBelow.indexed_of_depth_le (below : ProperlyBelow path existing)
    (level : depth path ≤ depth existing) :
    Extends '[' path existing ∧ depth path = depth existing := by
  rcases below with dot | bracket
  · exact absurd dot.depth_lt (Nat.not_lt.mpr level)
  · exact ⟨bracket, le_antisymm level (depth_mono bracket.prefix_toList)⟩

variable (interpreter : Interpreter)

/-- The paths in the order of the pass. -/
def passOrder (paths : List String) : List String :=
  (interpreter.order paths).insertionSort fun left right => depth left ≤ depth right

def pass (paths : List String) : List String := (passOrder interpreter paths).foldl addPath []

theorem collapseDirtyPaths_of_not_mem (rootless : "" ∉ paths) :
    collapseDirtyPaths interpreter paths = pass interpreter paths :=
  if_neg rootless

theorem mem_passOrder : path ∈ passOrder interpreter paths ↔ path ∈ paths :=
  ((List.perm_insertionSort _ _).trans (interpreter.reorders paths)).mem_iff

theorem pass_eq : pass interpreter paths = (passOrder interpreter paths).foldl (keep liesBelow) [] :=
  rfl

theorem pass_subset : pass interpreter paths ⊆ paths := by
  intro path member
  rw [pass_eq] at member
  rcases mem_foldl member with none | member
  · exact absurd none List.not_mem_nil
  · exact (mem_passOrder interpreter).mp member

theorem pass_covers (member : path ∈ paths) :
    ∃ existing ∈ pass interpreter paths, liesBelow path existing = true :=
  foldl_covers liesBelow_self ((mem_passOrder interpreter).mpr member)

/-- Of two paths that are kept, one properly below the other is one of its indices. -/
theorem pass_indexed (lower : path ∈ pass interpreter paths)
    (upper : existing ∈ pass interpreter paths) (below : ProperlyBelow path existing) :
    Extends '[' path existing ∧ depth path = depth existing := by
  have ordered : (passOrder interpreter paths).Pairwise fun left right => depth left ≤ depth right :=
    List.pairwise_insertionSort _ _
  have kept : (pass interpreter paths).Pairwise fun early late =>
      depth early ≤ depth late ∧ liesBelow late early = false := by
    refine foldl_pairwise ordered List.Pairwise.nil ?_ fun _ _ level apart => ⟨level, apart⟩
    exact fun _ none => absurd none List.not_mem_nil
  have apart : path ≠ existing := fun same => (same ▸ below.length_lt).ne rfl
  rcases Lib.either_order kept lower upper apart with early | late
  · exact below.indexed_of_depth_le early.1
  · exact absurd (liesBelow_iff.mpr (.inr below)) (by simp [late.2])

/-- A kept path properly below another one is tied with the topmost path above them. -/
theorem exists_tied (lower : path ∈ pass interpreter paths)
    (upper : existing ∈ pass interpreter paths) (below : ProperlyBelow path existing) :
    ∃ top ∈ paths, Tied paths path top := by
  have descends : ∀ first second, liesBelow first second = true → first ≠ second →
      second.toList.length < first.toList.length := by
    intro first second lies apart
    exact ((liesBelow_iff.mp lies).resolve_left apart).length_lt
  obtain ⟨top, listed, above, alone⟩ := exists_uncovered (·.toList.length) liesBelow_self
    (fun _ _ _ => liesBelow_trans) descends (pass_subset interpreter upper)
  have lone : ∀ other ∈ paths, ¬ ProperlyBelow top other := by
    intro other member lies
    obtain rfl := alone other member (liesBelow_iff.mpr (.inr lies))
    exact lies.length_lt.ne rfl
  -- nothing lies above the topmost path, so that the pass has kept it
  obtain ⟨cover, keeps, covers⟩ := pass_covers interpreter listed
  obtain rfl := (liesBelow_iff.mp covers).resolve_right (lone cover (pass_subset interpreter keeps))
  have under : ProperlyBelow path top := by
    rcases liesBelow_iff.mp above with rfl | above
    · exact below
    · exact above.extend below.prefix_toList
  obtain ⟨indexed, level⟩ := pass_indexed interpreter lower keeps under
  exact ⟨top, listed, indexed, level, lone⟩

/-- The path that is an index of another one is kept if it is iterated first. -/
theorem pass_keeps_tied {before after : List String} (member : existing ∈ paths)
    (tied : Tied paths path existing)
    (first : passOrder interpreter paths = before ++ path :: after)
    (level : ∀ other ∈ before, depth other < depth path) :
    path ∈ pass interpreter paths ∧ existing ∈ pass interpreter paths := by
  constructor
  · rw [pass_eq, first]
    refine mem_foldl_of_uncovered fun other early => ?_
    rw [Bool.eq_false_iff]
    intro lies
    have listed : other ∈ paths :=
      (mem_passOrder interpreter).mp (first ▸ List.mem_append_left _ early)
    have less := level other early
    rcases liesBelow_iff.mp lies with rfl | below
    · exact less.ne rfl
    rcases below.linear tied.indexed.prefix_toList with lies | longer
    · exact tied.top other listed lies
    · exact absurd (depth_mono longer) (Nat.not_le.mpr (tied.level ▸ less))
  · obtain ⟨cover, keeps, covers⟩ := pass_covers interpreter member
    obtain rfl := (liesBelow_iff.mp covers).resolve_right
      (tied.top cover (pass_subset interpreter keeps))
    exact keeps

/-!
## Every order of iteration
-/

/-- Python, where it iterates sets in a certain order. -/
def iterating (order : List String → List String) (reorders : ∀ paths, (order paths).Perm paths) :
    Interpreter :=
  ⟨order, reorders⟩

def python : Interpreter := iterating id fun paths => .refl paths

/-- One path comes first, if it is among the others. -/
def startingWith (path : String) (paths : List String) : List String :=
  if path ∈ paths then path :: paths.erase path else paths

theorem startingWith_perm (path : String) (paths : List String) :
    (startingWith path paths).Perm paths := by
  unfold startingWith
  split
  case isTrue member => exact (List.perm_cons_erase member).symm
  case isFalse => exact .refl _

/-- A sort by dots puts the first path in front of all that have as many. -/
theorem passOrder_startingWith (member : path ∈ paths) :
    ∃ before after,
      passOrder (iterating (startingWith path) (startingWith_perm path)) paths =
        before ++ path :: after ∧ ∀ other ∈ before, depth other < depth path := by
  have start : startingWith path paths = path :: paths.erase path := if_pos member
  let rest := (paths.erase path).insertionSort fun left right => depth left ≤ depth right
  have sorted : passOrder (iterating (startingWith path) (startingWith_perm path)) paths =
      rest.orderedInsert (fun left right => depth left ≤ depth right) path := by
    show (startingWith path paths).insertionSort _ = _
    rw [start, List.insertionSort_cons]
  refine ⟨_, _, sorted.trans (List.orderedInsert_eq_take_drop _ _ _), fun other early => ?_⟩
  simpa using List.mem_takeWhile_imp early

theorem minimalCover_of_root (root : "" ∈ paths) :
    MinimalCover paths (collapseDirtyPaths interpreter paths) := by
  have collapsed : collapseDirtyPaths interpreter paths = [""] := if_pos root
  rw [collapsed]
  exact {
    subset := by simpa using root
    minimal := by
      intro existing upper path lower below
      obtain rfl := List.mem_singleton.mp upper
      obtain rfl := List.mem_singleton.mp lower
      exact below.length_lt.ne rfl
    covers := fun _ _ => ⟨"", List.mem_singleton_self _, .inl rfl⟩
    root := fun _ => rfl }

theorem minimalCover_of_untied (rootless : "" ∉ paths)
    (untied : ∀ path ∈ paths, ∀ existing ∈ paths, ¬ Tied paths path existing) :
    MinimalCover paths (collapseDirtyPaths interpreter paths) := by
  rw [collapseDirtyPaths_of_not_mem interpreter rootless]
  exact {
    subset := pass_subset interpreter
    minimal := by
      intro existing upper path lower below
      obtain ⟨top, listed, tied⟩ := exists_tied interpreter lower upper below
      exact untied path (pass_subset interpreter lower) top listed tied
    covers := by
      intro path member
      obtain ⟨existing, kept, lies⟩ := pass_covers interpreter member
      exact ⟨existing, kept, .inr (liesBelow_iff.mp lies)⟩
    root := fun member => absurd member rootless }

/-- The paths are collapsed to a minimal cover, in every order, exactly if the empty path is
among them or none of them is tied with another. -/
theorem collapse_minimal_iff (paths : List String) :
    (∀ interpreter : Interpreter,
        MinimalCover paths (collapseDirtyPaths interpreter paths)) ↔
      ("" ∈ paths ∨ ∀ path ∈ paths, ∀ existing ∈ paths, ¬ Tied paths path existing) := by
  constructor
  · intro minimal
    refine or_iff_not_imp_left.mpr fun rootless path member existing listed tied => ?_
    obtain ⟨before, after, first, level⟩ := passOrder_startingWith member
    have cover := minimal (iterating (startingWith path) (startingWith_perm path))
    rw [collapseDirtyPaths_of_not_mem _ rootless] at cover
    obtain ⟨lower, upper⟩ := pass_keeps_tied _ listed tied first level
    exact cover.minimal existing upper path lower (.inr tied.indexed)
  · rintro (root | untied) interpreter
    · exact minimalCover_of_root interpreter root
    · by_cases root : "" ∈ paths
      · exact minimalCover_of_root interpreter root
      · exact minimalCover_of_untied interpreter root untied

/-- The index is iterated before the path it belongs to, and both are kept. -/
theorem collapse_keeps_index :
    ¬ ∀ (interpreter : Interpreter) (paths : List String),
        MinimalCover paths (collapseDirtyPaths interpreter paths) := by
  intro minimal
  have collapsed : collapseDirtyPaths python ["a[0]", "a"] = ["a[0]", "a"] := by decide
  have cover := minimal python ["a[0]", "a"]
  rw [collapsed] at cover
  exact cover.minimal "a" (by decide) "a[0]" (by decide) (.inr ⟨['0', ']'], rfl⟩)

/-!
## The tracker
-/

/-- No dirty path goes on to an index. -/
def Unindexed (dirtyPaths : List String) : Prop := ∀ path ∈ dirtyPaths, '[' ∉ path.toList

theorem Unindexed.trackVarPath {dirtyPaths : List String} (unindexed : Unindexed dirtyPaths)
    (path : String) : Unindexed (trackVarPath dirtyPaths path) := by
  intro tracked member
  unfold Vars.trackVarPath at member
  extract_lets cut at member
  split at member
  · exact unindexed tracked member
  · rcases List.mem_append.mp member with early | late
    · exact unindexed tracked early
    · obtain rfl := List.mem_singleton.mp late
      intro bracket
      rw [String.toList_ofList] at bracket
      simpa using List.mem_takeWhile_imp bracket

theorem Unindexed.foldl {dirtyPaths : List String} (unindexed : Unindexed dirtyPaths)
    (reported : List String) : Unindexed (reported.foldl Vars.trackVarPath dirtyPaths) := by
  induction reported generalizing dirtyPaths with
  | nil => exact unindexed
  | cons path reported ih => exact ih (unindexed.trackVarPath path)

/-- What the tracker records of any changes is collapsed to a minimal cover. -/
theorem tracked_minimalCover (reported : List String) :
    MinimalCover (reported.foldl trackVarPath [])
      (collapseDirtyPaths interpreter (reported.foldl trackVarPath [])) := by
  have unindexed : Unindexed (reported.foldl trackVarPath []) :=
    Unindexed.foldl (List.forall_mem_nil _) reported
  by_cases root : "" ∈ reported.foldl trackVarPath []
  · exact minimalCover_of_root interpreter root
  · refine minimalCover_of_untied interpreter root fun path member existing _ tied => ?_
    exact unindexed path member (List.IsPrefix.subset tied.indexed (by simp))

end WorkflowStudio.Vars

import WorkflowStudio.Executor.LoopEntryProperties
import WorkflowStudio.Lib.Chunks

/-! What a loop node emits when it is entered with items and continued for good:
the batches, the first done output, and the positions of the emitted items. -/

set_option autoImplicit false

namespace WorkflowStudio.Executor

open Lib

/-!
## Calls of the runner
-/

/-- The items of an output socket. -/
def socketItems (index : Nat) : Except String NodeOutput → List Value
  | .ok result => (result.outputs.getD []).getD index []
  | .error _ => []

def doneSocket : Except String NodeOutput → List Value := socketItems 0

def loopSocket : Except String NodeOutput → List Value := socketItems 1

/-- A loop node that is entered with items and then continued, whatever its expression
stands for at the back edges. -/
def loopCall (config : List (String × Value)) (items : List Value)
    (backEdges : Nat → Except String (List Value)) :
    Nat → Option LoopState × Except String NodeOutput
  | 0 => executeLoopNode config (.ok items) none
  | call + 1 =>
      executeLoopNode config (backEdges call) (loopCall config items backEdges call).1

section Positive

variable {config : List (String × Value)} {size : Nat}

theorem continueLoop_ok (given : batchStep (loopBatchSize config) = .ok ↑size)
    (items : List Value) (index : Nat) :
    ∃ result, (stateAt config size items index).continueLoop.2 = .ok result := by
  have step : batchStep (stateAt config size items index).batchSize = .ok ↑size := given
  unfold LoopState.continueLoop
  simp only [step, advance_stateAt, emitBatch_stateAt given]
  split
  · exact ⟨_, rfl⟩
  · exact ⟨_, rfl⟩

theorem initLoop_ok (given : batchStep (loopBatchSize config) = .ok ↑size) (items : List Value) :
    ∃ result, (initLoop config items).2 = .ok result := by
  have step : batchStep (LoopState.started config items).batchSize = .ok ↑size := given
  unfold initLoop LoopState.emitBatch
  simp only [step]
  split
  · exact ⟨_, rfl⟩
  · exact ⟨_, rfl⟩

/-- The calls of the runner emit what they would emit in a run. -/
theorem loopCall_emissionAt (given : batchStep (loopBatchSize config) = .ok ↑size)
    (items : List Value) (backEdges : Nat → Except String (List Value)) (call : Nat) :
    (loopCall config items backEdges call).1 = some (stateAt config size items call) ∧
      ∃ result, (loopCall config items backEdges call).2 = .ok result ∧
        result.outputs = some (emissionAt size items call) := by
  induction call with
  | zero =>
      obtain ⟨result, returned⟩ := initLoop_ok given items
      obtain ⟨reached, emitted⟩ := initLoop_stateAt given items (Prod.ext rfl returned)
      exact ⟨congrArg some reached, result, returned, emitted⟩
  | succ call ih =>
      obtain ⟨state, _⟩ := ih
      obtain ⟨result, returned⟩ := continueLoop_ok given items call
      obtain ⟨reached, emitted⟩ :=
        continueLoop_stateAt given items call (Prod.ext rfl returned)
      unfold loopCall
      rw [state]
      exact ⟨congrArg some reached, result, returned, emitted⟩

theorem socketItems_loopCall (given : batchStep (loopBatchSize config) = .ok ↑size)
    (items : List Value) (backEdges : Nat → Except String (List Value)) (index call : Nat) :
    socketItems index (loopCall config items backEdges call).2 =
      (emissionAt size items call).getD index [] := by
  obtain ⟨_, result, returned, emitted⟩ := loopCall_emissionAt given items backEdges call
  rw [returned]
  simp [socketItems, emitted]

theorem emissionAt_done {items : List Value} {index : Nat} (later : index ≠ 0)
    (beyond : items.length ≤ index * size) :
    (emissionAt size items index).getD 0 [] =
      [.list ((List.range index).map fun earlier => batchData (batchAt size items earlier))] := by
  unfold emissionAt
  rw [if_neg (fun both => later both.2), if_neg (Nat.not_lt.mpr beyond)]
  rfl

theorem emissionAt_undone {items : List Value} {index : Nat}
    (early : index = 0 ∨ index * size < items.length) :
    (emissionAt size items index).getD 0 [] = [] := by
  unfold emissionAt
  split
  · rfl
  · rename_i other
    rcases early with first | more
    · subst first
      have some : 0 * size < items.length := by
        rw [Nat.zero_mul]
        exact List.length_pos_iff.mpr fun empty => other ⟨empty, rfl⟩
      rw [if_pos some]
      rfl
    · rw [if_pos more]
      rfl

end Positive

/-!
## Batches
-/

/-- Before its first done output the node emits the batches of the list, and that output
carries them: as many as the list has, together the list, all but the last full. -/
def Batched (size : Nat) (items : List Value) (output : Nat → Except String NodeOutput) : Prop :=
  ∃ parts : List (List Value),
    parts.length = items.length ⌈/⌉ size ∧ parts.flatten = items ∧
    (∀ part ∈ parts.dropLast, part.length = size) ∧
    ∃ last, (∀ call < last, doneSocket (output call) = []) ∧
      (List.range last).flatMap (fun call => loopSocket (output call)) = parts.map batchData ∧
      doneSocket (output last) = [.list (parts.map batchData)]

theorem loopBatchSize_int {config : List (String × Value)} {size : Int}
    (configured : config.lookup "batchSize" = some (.int size)) :
    batchStep (loopBatchSize config) = .ok (if size = 0 then 1 else size) := by
  unfold loopBatchSize
  rw [configured]
  by_cases zero : size = 0
  · subst zero
    rfl
  · simp [batchStep, Value.orElse, Value.truthy, zero]

section Count

variable {config : List (String × Value)} {size : Nat}
  {backEdges : Nat → Except String (List Value)}

/-- A node without items still notes one batch when it is continued. -/
theorem not_batched_nil (given : batchStep (loopBatchSize config) = .ok ↑size) :
    ¬ Batched size [] fun call => (loopCall config [] backEdges call).2 := by
  rintro ⟨parts, counted, _, _, last, _, _, done⟩
  have none : parts = [] := by
    rw [List.length_nil, zero_ceilDiv] at counted
    exact List.eq_nil_of_length_eq_zero counted
  have emitted := socketItems_loopCall given [] backEdges 0 last
  unfold doneSocket at done
  rw [done, none] at emitted
  cases last with
  | zero =>
      rw [emissionAt_undone (.inl rfl)] at emitted
      cases emitted
  | succ last =>
      rw [emissionAt_done (Nat.succ_ne_zero last) (Nat.zero_le _)] at emitted
      simp [List.range_succ] at emitted

theorem batched_of_items (positive : 1 ≤ size)
    (given : batchStep (loopBatchSize config) = .ok ↑size) {items : List Value}
    (some : items ≠ []) :
    Batched size items fun call => (loopCall config items backEdges call).2 := by
  have counted (call : Nat) := lt_batchCount positive items call
  refine ⟨batches size items, length_chunks size items, flatten_chunks positive items,
    length_of_mem_dropLast positive, batchCount size items, ?_, ?_, ?_⟩
  · intro call before
    exact (socketItems_loopCall given items backEdges 0 call).trans
      (emissionAt_undone (.inr ((counted call).mp before)))
  · have emitted := @emissions_first size items positive (batchCount size items)
    rw [List.flatMap_map, Nat.min_self] at emitted
    unfold batches
    rw [List.map_map]
    exact (List.flatMap_congr fun call _ => socketItems_loopCall given items backEdges 1 call).trans
      emitted
  · have nonzero : batchCount size items ≠ 0 := by
      intro zero
      have nothing := mt (counted 0).mpr (by omega)
      rw [Nat.zero_mul, List.length_pos_iff, not_not] at nothing
      exact some nothing
    have covered := Nat.le_of_not_lt (mt (counted (batchCount size items)).mpr (lt_irrefl _))
    have done := (socketItems_loopCall given items backEdges 0 (batchCount size items)).trans
      (emissionAt_done nonzero covered)
    unfold batches
    rw [List.map_map]
    exact done

end Count

/-- The batches of a list that is not empty come before the first done output, which
carries them. Continued without items, the node counts a batch that it did not emit. -/
theorem loop_batches_iff (config : List (String × Value)) (size : Int) (positive : 1 ≤ size)
    (configured : config.lookup "batchSize" = some (.int size)) (items : List Value)
    (backEdges : Nat → Except String (List Value)) :
    (Batched size.toNat items fun call => (loopCall config items backEdges call).2) ↔
      items ≠ [] := by
  obtain ⟨width, rfl⟩ := Int.eq_ofNat_of_zero_le (Int.le_trans (by decide) positive)
  have wide : 1 ≤ width := by omega
  have given : batchStep (loopBatchSize config) = .ok ↑width := by
    rw [loopBatchSize_int configured, if_neg (by omega)]
  rw [Int.toNat_natCast]
  constructor
  · rintro batched rfl
    exact not_batched_nil given batched
  · exact batched_of_items wide given

def batchesOfTwo : List (String × Value) := [("batchSize", .int 2)]

theorem loop_batches_iff_three :
    (Batched 2 [.int 1, .int 2, .int 3] fun call =>
      (loopCall batchesOfTwo [.int 1, .int 2, .int 3] (fun _ => .ok []) call).2) :=
  (loop_batches_iff batchesOfTwo 2 (by decide) rfl [.int 1, .int 2, .int 3]
    (fun _ => .ok [])).mpr (by decide)

theorem empty_loop_counts_batch :
    doneSocket (loopCall batchesOfTwo [] (fun _ => .ok []) 1).2 = [.list [.list []]] ∧
      ¬ Batched 2 [] fun call => (loopCall batchesOfTwo [] (fun _ => .ok []) call).2 :=
  ⟨by decide, not_batched_nil rfl⟩

/-!
## Termination
-/

/-- The positions at which a slice finds its items. -/
def slicePositions (length : Nat) (start stop : Int) : List Nat :=
  List.range' (sliceBound length start) (sliceBound length stop - sliceBound length start)

/-- The positions of the items that a call emits on the loop socket. -/
def emittedPositions (called : Option LoopState × Except String NodeOutput) : List Nat :=
  match called.1 with
  | none => []
  | some state =>
      if (loopSocket called.2).isEmpty then []
      else
        match batchStep state.batchSize with
        | .ok size =>
            slicePositions state.items.length state.currentIndex (state.currentIndex + size)
        | .error _ => []

/-- Some call within as many continuations as there are items emits nothing on the loop
socket, and no two calls emit the item at one position. -/
def LoopEnds (items : List Value)
    (called : Nat → Option LoopState × Except String NodeOutput) : Prop :=
  (∃ call ≤ items.length, loopSocket (called call).2 = []) ∧
    ∀ first second, first < second →
      (emittedPositions (called first)).Disjoint (emittedPositions (called second))

theorem sliceBound_le (length : Nat) (index : Int) : sliceBound length index ≤ length := by
  unfold sliceBound
  split
  · omega
  · omega

theorem mem_slicePositions {length position : Nat} {start stop : Int} :
    position ∈ slicePositions length start stop ↔
      sliceBound length start ≤ position ∧ position < sliceBound length stop := by
  unfold slicePositions
  rw [List.mem_range'_1]
  omega

section Positions

variable {config : List (String × Value)} {items : List Value}
  {backEdges : Nat → Except String (List Value)}

theorem continueLoop_keeps (state : LoopState) :
    state.continueLoop.1.items = state.items ∧
      state.continueLoop.1.batchSize = state.batchSize := by
  unfold LoopState.continueLoop
  split
  · exact ⟨rfl, rfl⟩
  · dsimp only
    split
    · exact ⟨rfl, rfl⟩
    · exact ⟨rfl, rfl⟩

theorem initLoop_state : (initLoop config items).1 = LoopState.started config items := by
  unfold initLoop
  dsimp only
  split
  · rfl
  · rfl

variable (config items backEdges) in
theorem loopCall_keeps (call : Nat) :
    ∃ state, (loopCall config items backEdges call).1 = some state ∧ state.items = items ∧
      state.batchSize = loopBatchSize config := by
  induction call with
  | zero =>
      refine ⟨_, rfl, ?_, ?_⟩
      · rw [initLoop_state]
        rfl
      · rw [initLoop_state]
        rfl
  | succ call ih =>
      obtain ⟨state, reached, sameItems, sameSize⟩ := ih
      obtain ⟨keepsItems, keepsSize⟩ := continueLoop_keeps state
      refine ⟨state.continueLoop.1, ?_, keepsItems.trans sameItems, keepsSize.trans sameSize⟩
      unfold loopCall
      rw [reached]
      rfl

theorem emitBatch_ok (state : LoopState) {size : Int}
    (step : batchStep state.batchSize = .ok size) :
    state.emitBatch = .ok {
      outputs := some [[], [state.currentBatch size]]
      json := some (state.currentBatch size) } := by
  unfold LoopState.emitBatch
  rw [step]

theorem emittedPositions_within {state : LoopState} {size : Int} {position : Nat}
    {outcome : Except String NodeOutput} (step : batchStep state.batchSize = .ok size)
    (member : position ∈ emittedPositions (some state, outcome)) :
    sliceBound state.items.length state.currentIndex ≤ position ∧
      position < sliceBound state.items.length (state.currentIndex + size) := by
  unfold emittedPositions at member
  dsimp only at member
  split at member
  · cases member
  · rw [step] at member
    exact mem_slicePositions.mp member

theorem loopEnds_of_positive {size : Nat} (positive : 1 ≤ size)
    (given : batchStep (loopBatchSize config) = .ok ↑size) :
    LoopEnds items (loopCall config items backEdges) := by
  have positions (call position : Nat)
      (member : position ∈ emittedPositions (loopCall config items backEdges call)) :
      min (call * size) items.length ≤ position ∧ position < call * size + size ∧
        position < items.length := by
    obtain ⟨state, _⟩ := loopCall_emissionAt given items backEdges call
    have same : loopCall config items backEdges call =
        (some (stateAt config size items call), (loopCall config items backEdges call).2) :=
      Prod.ext state rfl
    rw [same] at member
    obtain ⟨from_, until_⟩ := emittedPositions_within given member
    change sliceBound items.length ↑(call * size) ≤ position at from_
    change position < sliceBound items.length (↑(call * size) + ↑size) at until_
    unfold sliceBound at from_ until_
    rw [if_neg (by omega)] at from_ until_
    omega
  constructor
  · refine ⟨items.length, le_rfl, ?_⟩
    exact (socketItems_loopCall given items backEdges 1 items.length).trans
      (emissionAt_beyond (Nat.le_mul_of_pos_right _ positive))
  · intro first second before position inFirst inSecond
    obtain ⟨_, early, within⟩ := positions first position inFirst
    obtain ⟨late, _⟩ := positions second position inSecond
    have apart : (first + 1) * size ≤ second * size := Nat.mul_le_mul_right size before
    rw [Nat.succ_mul] at apart
    omega

/-- Without items no call emits any. -/
theorem loopEnds_nil : LoopEnds [] (loopCall config [] backEdges) := by
  constructor
  · exact ⟨0, le_rfl, rfl⟩
  · intro first second _ position inFirst _
    obtain ⟨state, reached, noItems, _⟩ := loopCall_keeps config [] backEdges first
    unfold emittedPositions at inFirst
    rw [reached] at inFirst
    dsimp only at inFirst
    split at inFirst
    · cases inFirst
    · split at inFirst
      · rw [noItems] at inFirst
        obtain ⟨_, within⟩ := mem_slicePositions.mp inFirst
        exact Nat.not_lt_zero position (within.trans_le (sliceBound_le 0 _))
      · cases inFirst

/-- A batch size below zero moves the index away from the end of the list. -/
theorem not_loopEnds_of_negative {size : Int} (negative : size < 0)
    (given : batchStep (loopBatchSize config) = .ok size) (some : items ≠ []) :
    ¬ LoopEnds items (loopCall config items backEdges) := by
  have emits (call : Nat) : ∃ state batch,
      (loopCall config items backEdges call).1 = .some state ∧ state.items = items ∧
        state.currentIndex ≤ 0 ∧ state.batchSize = loopBatchSize config ∧
        loopSocket (loopCall config items backEdges call).2 = [batch] := by
    induction call with
    | zero =>
        unfold loopCall executeLoopNode initLoop
        dsimp only
        rw [if_neg some]
        rw [emitBatch_ok (LoopState.started config items) given]
        exact ⟨_, _, rfl, rfl, le_rfl, rfl, rfl⟩
    | succ call ih =>
        obtain ⟨state, batch, reached, same, below, stays, _⟩ := ih
        have step : batchStep state.batchSize = .ok size := by
          rw [stays]
          exact given
        have unfinished : ¬ ((state.advance size).items.length : Int) ≤
            (state.advance size).currentIndex := by
          have length := List.length_pos_iff.mpr some
          change ¬ (state.items.length : Int) ≤ state.currentIndex + size
          rw [same]
          omega
        unfold loopCall
        rw [reached]
        unfold executeLoopNode LoopState.continueLoop
        dsimp only
        rw [step]
        dsimp only
        rw [if_neg unfinished]
        rw [emitBatch_ok (state.advance size) step]
        refine ⟨_, _, rfl, same, ?_, stays, rfl⟩
        change state.currentIndex + size ≤ 0
        omega
  rintro ⟨⟨call, _, silent⟩, _⟩
  obtain ⟨_, batch, _, _, _, _, emitted⟩ := emits call
  rw [silent] at emitted
  cases emitted

end Positions

def negativeBatches : List (String × Value) := [("batchSize", .int (-1))]

end WorkflowStudio.Executor

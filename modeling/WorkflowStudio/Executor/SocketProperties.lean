import WorkflowStudio.Executor.OutputValue

/-! The name of an output socket leads back to its index, and every declared socket to its
position, as long as a node has no more outputs than its type declares sockets. -/

set_option autoImplicit false

namespace WorkflowStudio.Executor

open Lib Expression

variable {sockets : List String} {index : Nat} {name : String}

/-- The names of the outputs of a node lead back to them, and the connections of the declared
sockets lead to these. -/
structure SocketsAgree (sockets : List String) (outputs : Nat) : Prop where
  named : ∀ index < outputs,
    socketToIndex sockets (some (outputIndexToSocketName sockets index)) = some index
  connected : ∀ (conn : Connection) (index : Nat) (name : String),
    sockets[index]? = some name → conn.sourceHandle = some (some name) →
      socketToIndex sockets (conn.sourceHandle.getD (some "output")) = some index

theorem socketToIndex_declared (distinct : sockets.Nodup) (declared : sockets[index]? = some name)
    (some_ : name ≠ "") : socketToIndex sockets (some name) = some index := by
  obtain ⟨within, same⟩ := List.getElem?_eq_some_iff.mp declared
  have named : present (some name) = some name := present_eq_some.mpr ⟨rfl, some_⟩
  unfold socketToIndex
  rw [named]
  dsimp only
  rw [if_pos (List.mem_of_getElem? declared), ← same, distinct.idxOf_getElem index within]

theorem outputIndexToSocketName_declared (declared : sockets[index]? = some name) :
    outputIndexToSocketName sockets index = name := by
  simp [outputIndexToSocketName, List.getD_eq_getElem?_getD, declared]

theorem outputIndexToSocketName_undeclared (beyond : sockets.length ≤ index) :
    outputIndexToSocketName sockets index = toString index := by
  simp [outputIndexToSocketName, List.getD_eq_getElem?_getD, List.getElem?_eq_none beyond]

/-- A number begins with a digit. -/
theorem toString_letters (index : Nat) :
    ∃ first rest, (toString index).toList = first :: rest ∧ first.isDigit = true := by
  have digits : (toString index).toList = Nat.toDigits 10 index := by
    rw [Nat.toString_eq_repr, Nat.toList_repr]
  rw [digits]
  cases written : Nat.toDigits 10 index with
  | nil => exact absurd written Nat.toDigits_ne_nil
  | cons first rest =>
      have member : first ∈ Nat.toDigits 10 index := written ▸ List.mem_cons_self
      exact ⟨first, rest, rfl, Nat.isDigit_of_mem_toDigits (by decide) (by decide) member⟩

theorem toString_ne {text : String} (letter : text.toList.head?.any Char.isDigit = false)
    (index : Nat) : toString index ≠ text := by
  rintro rfl
  obtain ⟨first, rest, split, digit⟩ := toString_letters index
  rw [split, List.head?_cons, Option.any_some, digit] at letter
  cases letter

theorem caseSocket_toString (index : Nat) : caseSocket? (toString index) = none := by
  obtain ⟨first, rest, letters, digit⟩ := toString_letters index
  unfold caseSocket?
  rw [letters]
  split
  case h_1 same =>
    obtain ⟨rfl, -⟩ := List.cons.inj same
    cases digit
  case h_2 => rfl

/-- The number of an output is no socket that the fallbacks know. -/
theorem socketToIndex_number (undeclared : toString index ∉ sockets) :
    socketToIndex sockets (some (toString index)) = none := by
  have named : present (some (toString index)) = some (toString index) :=
    present_eq_some.mpr ⟨rfl, toString_ne (by decide) index⟩
  have common : toString index ∉ ["output", "result", "data"] := by
    simp only [List.mem_cons, List.not_mem_nil, or_false, not_or]
    exact ⟨toString_ne (by decide) index, toString_ne (by decide) index,
      toString_ne (by decide) index⟩
  unfold socketToIndex
  rw [named]
  dsimp only
  rw [if_neg undeclared, caseSocket_toString]
  dsimp only
  rw [if_neg (toString_ne (by decide) index), if_neg common]

/-- An output behind the declared sockets is named by a number, which leads to a declared
socket or to none. -/
theorem socketToIndex_undeclared (beyond : sockets.length ≤ index) :
    socketToIndex sockets (some (outputIndexToSocketName sockets index)) ≠ some index := by
  rw [outputIndexToSocketName_undeclared beyond]
  by_cases declared : toString index ∈ sockets
  · have named : present (some (toString index)) = some (toString index) :=
      present_eq_some.mpr ⟨rfl, toString_ne (by decide) index⟩
    unfold socketToIndex
    rw [named]
    dsimp only
    rw [if_pos declared, ne_eq, Option.some.injEq]
    exact ((List.idxOf_lt_length_of_mem declared).trans_le beyond).ne
  · rw [socketToIndex_number declared]
    exact fun absent => nomatch absent

theorem socketsAgree_of_declared {outputs : Nat} (distinct : sockets.Nodup)
    (within : outputs ≤ sockets.length) (named : "" ∉ sockets) : SocketsAgree sockets outputs := by
  have leads : ∀ (index : Nat) (name : String), sockets[index]? = some name →
      socketToIndex sockets (some name) = some index := fun index name declared =>
    socketToIndex_declared distinct declared fun empty =>
      named (empty ▸ List.mem_of_getElem? declared)
  constructor
  · intro index produced
    have declared := List.getElem?_eq_getElem (produced.trans_le within)
    rw [outputIndexToSocketName_declared declared]
    exact leads index _ declared
  · intro conn index name declared handle
    rw [handle]
    exact leads index name declared

/-- Names and indices agree exactly if no output lies behind the declared sockets, all of
which have a name. -/
theorem socketsAgree_iff {sockets : List String} (distinct : sockets.Nodup) (outputs : Nat) :
    SocketsAgree sockets outputs ↔ outputs ≤ sockets.length ∧ "" ∉ sockets := by
  constructor
  · intro agree
    constructor
    · by_contra beyond
      exact socketToIndex_undeclared le_rfl (agree.named sockets.length (Nat.not_le.mp beyond))
    · intro unnamed
      obtain ⟨index, declared⟩ := List.getElem?_of_mem unnamed
      have reached := agree.connected ⟨none, none, some (some ""), none, none⟩ index "" declared rfl
      cases reached
  · rintro ⟨within, named⟩
    exact socketsAgree_of_declared distinct within named

/-- Sockets with names that the fallbacks know, in an order that these do not. -/
theorem fallback_sockets_agree :
    ["case_2", "default", "output", "result"].Nodup ∧
      SocketsAgree ["case_2", "default", "output", "result"] 4 :=
  ⟨by decide, (socketsAgree_iff (by decide) 4).mpr ⟨le_rfl, by decide⟩⟩

/-- The one output of a node whose type declares no sockets is named `0`, a name that leads
nowhere. -/
theorem undeclared_output_lost :
    ¬ ∀ (sockets : List String) (outputs : Nat), sockets.Nodup → SocketsAgree sockets outputs := by
  intro agree
  have lost := (agree [] 1 List.nodup_nil).named 0 Nat.one_pos
  rw [outputIndexToSocketName_undeclared (Nat.zero_le _),
    socketToIndex_number List.not_mem_nil] at lost
  cases lost

/-- The sockets that are read off an output schema agree with as many outputs. -/
theorem outputSockets_agree (schema : OrderedMap String Value) :
    SocketsAgree (outputSockets schema) (outputSockets schema).length := by
  refine socketsAgree_of_declared (schema.keys_nodup.filter _) le_rfl fun unnamed => ?_
  simpa using (List.mem_filter.mp unnamed).2

end WorkflowStudio.Executor

import Mathlib.Data.List.Basic

/-! Computations that log entries and may fail, with the log kept on failure,
and the rules by which the log of a computation is known before it runs. -/

set_option autoImplicit false

namespace Lib

structure Logged (Entry Error Result : Type) where
  log : List Entry
  outcome : Except Error Result

namespace Logged

variable {Entry Error Result Other : Type}

def done (result : Result) : Logged Entry Error Result := ⟨[], .ok result⟩

def fail (error : Error) : Logged Entry Error Result := ⟨[], .error error⟩

def bind (first : Logged Entry Error Result) (next : Result → Logged Entry Error Other) :
    Logged Entry Error Other :=
  match first.outcome with
  | .ok result => ⟨first.log ++ (next result).log, (next result).outcome⟩
  | .error error => ⟨first.log, .error error⟩

def recover (first : Logged Entry Error Result) (handler : Error → Logged Entry Error Result) :
    Logged Entry Error Result :=
  match first.outcome with
  | .ok _ => first
  | .error error => ⟨first.log ++ (handler error).log, (handler error).outcome⟩

def each (action : Result → Logged Entry Error Other) :
    List Result → Logged Entry Error (List Other)
  | [] => done []
  | item :: rest => (action item).bind fun result =>
      (each action rest).bind fun results => done (result :: results)

/-!
## Logs known beforehand
-/

/-- The computation ends with a result and logs exactly these entries. -/
def Logs (computation : Logged Entry Error Result) (entries : List Entry) : Prop :=
  computation.log = entries ∧ ∃ result, computation.outcome = .ok result

theorem logs_done (result : Result) : (done result : Logged Entry Error Result).Logs [] :=
  ⟨rfl, result, rfl⟩

theorem Logs.bind {first : Logged Entry Error Result} {before after : List Entry}
    (logs : first.Logs before) {next : Result → Logged Entry Error Other}
    (later : ∀ result, (next result).Logs after) : (first.bind next).Logs (before ++ after) := by
  obtain ⟨same, result, outcome⟩ := logs
  obtain ⟨sameLater, final, outcomeLater⟩ := later result
  unfold Logged.bind
  rw [outcome]
  exact ⟨by simp only [same, sameLater], final, outcomeLater⟩

theorem log_bind_done (first : Logged Entry Error Result) (next : Result → Other) :
    (first.bind fun result => (done (next result) : Logged Entry Error Other)).log = first.log := by
  unfold Logged.bind
  split
  · exact List.append_nil _
  · rfl

theorem Logs.bind_done {first : Logged Entry Error Result} {entries : List Entry}
    (logs : first.Logs entries) (next : Result → Other) :
    (first.bind fun result => (done (next result) : Logged Entry Error Other)).Logs entries := by
  have both := logs.bind fun result => logs_done (next result)
  rwa [List.append_nil] at both

/-- A computation that always recovers logs what it logs before it fails. -/
theorem logs_recover_done (first : Logged Entry Error Result) (fallback : Result) :
    (first.recover fun _ => done fallback).Logs first.log := by
  unfold Logged.recover
  cases outcome : first.outcome with
  | ok result => exact ⟨rfl, result, outcome⟩
  | error error => exact ⟨List.append_nil _, fallback, rfl⟩

theorem logs_each {action : Result → Logged Entry Error Other}
    {entries : Result → List Entry} {items : List Result}
    (logs : ∀ item ∈ items, (action item).Logs (entries item)) :
    (each action items).Logs (items.flatMap entries) := by
  induction items with
  | nil => exact logs_done _
  | cons item rest ih =>
      refine (logs item List.mem_cons_self).bind fun result => ?_
      exact (ih fun other member => logs other (List.mem_cons_of_mem _ member)).bind_done _

/-!
## Outcomes
-/

theorem bind_ok_iff {first : Logged Entry Error Result}
    {next : Result → Logged Entry Error Other} {final : Other} :
    (first.bind next).outcome = .ok final ↔
      ∃ result, first.outcome = .ok result ∧ (next result).outcome = .ok final := by
  unfold Logged.bind
  cases outcome : first.outcome with
  | ok result => simp
  | error error => simp

theorem each_ok {action : Result → Logged Entry Error Other} {items : List Result}
    {results : List Other} (ends : (each action items).outcome = .ok results) :
    List.Forall₂ (fun item result => (action item).outcome = .ok result) items results := by
  induction items generalizing results with
  | nil =>
      cases ends
      exact .nil
  | cons item rest ih =>
      obtain ⟨result, here, ends⟩ := bind_ok_iff.mp ends
      obtain ⟨others, there, same⟩ := bind_ok_iff.mp ends
      cases same
      exact .cons here (ih there)

theorem mem_each {action : Result → Logged Entry Error Other} {items : List Result}
    {results : List Other} (ends : (each action items).outcome = .ok results) {result : Other}
    (member : result ∈ results) : ∃ item ∈ items, (action item).outcome = .ok result := by
  induction items generalizing results with
  | nil =>
      cases ends
      cases member
  | cons item rest ih =>
      obtain ⟨first, here, ends⟩ := bind_ok_iff.mp ends
      obtain ⟨others, there, same⟩ := bind_ok_iff.mp ends
      cases same
      rcases List.mem_cons.mp member with rfl | later
      · exact ⟨item, List.mem_cons_self, here⟩
      · obtain ⟨other, among, ends⟩ := ih there later
        exact ⟨other, List.mem_cons_of_mem _ among, ends⟩

theorem each_ok_split {action : Result → Logged Entry Error Other} {front back : List Result}
    {item : Result} {results : List Other}
    (ends : (each action (front ++ item :: back)).outcome = .ok results) :
    ∃ early result late, results = early ++ result :: late ∧
      (action item).outcome = .ok result ∧
      (each action back).outcome = .ok late := by
  induction front generalizing results with
  | nil =>
      obtain ⟨result, here, ends⟩ := bind_ok_iff.mp ends
      obtain ⟨late, there, same⟩ := bind_ok_iff.mp ends
      cases same
      exact ⟨[], result, late, rfl, here, there⟩
  | cons first front ih =>
      obtain ⟨result, -, ends⟩ := bind_ok_iff.mp ends
      obtain ⟨others, there, same⟩ := bind_ok_iff.mp ends
      cases same
      obtain ⟨early, found, late, rfl, rest⟩ := ih there
      exact ⟨result :: early, found, late, rfl, rest⟩

theorem each_outcome {action : Result → Logged Entry Error Other} {result : Result → Other}
    (ends : ∀ item, (action item).outcome = .ok (result item)) (items : List Result) :
    (each action items).outcome = .ok (items.map result) := by
  induction items with
  | nil => rfl
  | cons item rest ih => simp [each, bind, ends, ih, done]

/-!
## Later entries
-/

theorem log_bind_ok {first : Logged Entry Error Result} {result : Result}
    (outcome : first.outcome = .ok result) (next : Result → Logged Entry Error Other) :
    (first.bind next).log = first.log ++ (next result).log := by
  unfold Logged.bind
  rw [outcome]

theorem mem_log_bind {first : Logged Entry Error Result}
    {next : Result → Logged Entry Error Other} {entry : Entry} (member : entry ∈ first.log) :
    entry ∈ (first.bind next).log := by
  unfold Logged.bind
  split
  · exact List.mem_append_left _ member
  · exact member

theorem mem_log_bind_ok {first : Logged Entry Error Result} {result : Result}
    (outcome : first.outcome = .ok result) {next : Result → Logged Entry Error Other}
    {entry : Entry} (member : entry ∈ (next result).log) : entry ∈ (first.bind next).log := by
  rw [log_bind_ok outcome]
  exact List.mem_append_right _ member

end Logged

end Lib

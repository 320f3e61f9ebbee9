import Mathlib.Data.List.Forall2

/-! Computations that may fail: when they succeed and with which result, one after the
other and item by item. -/

set_option autoImplicit false

namespace Lib

variable {Item Result Error : Type} {attempt : Item → Except Error Result}

theorem map_eq_ok {Target : Type} {convert : Result → Target} {source : Except Error Result}
    {target : Target} (mapped : source.map convert = .ok target) :
    ∃ value, source = .ok value ∧ convert value = target := by
  cases source with
  | error error => cases mapped
  | ok value => exact ⟨value, rfl, Except.ok.inj mapped⟩

theorem bind_eq_ok {Target : Type} {source : Except Error Result}
    {next : Result → Except Error Target} {target : Target}
    (ends : source >>= next = .ok target) : ∃ value, source = .ok value ∧ next value = .ok target := by
  cases source with
  | error error => cases ends
  | ok value => exact ⟨value, rfl, ends⟩

theorem ok_bind {Target : Type} (value : Result) (next : Result → Except Error Target) :
    (Except.ok value >>= next) = next value := rfl

/-- What comes after a computation matters for the results that it has. -/
theorem bind_congr_of_ok {Target : Type} {source : Except Error Result}
    {next other : Result → Except Error Target}
    (same : ∀ value, source = .ok value → next value = other value) :
    source >>= next = source >>= other := by
  cases source with
  | error error => rfl
  | ok value => exact same value rfl

theorem mapM_ok_iff {items : List Item} {results : List Result} :
    items.mapM attempt = .ok results ↔
      List.Forall₂ (fun item result => attempt item = .ok result) items results := by
  induction items generalizing results with
  | nil =>
      rw [List.mapM_nil, List.forall₂_nil_left_iff]
      exact ⟨fun same => (Except.ok.inj same).symm, fun same => same ▸ rfl⟩
  | cons item items ih =>
      rw [List.mapM_cons]
      cases first : attempt item with
      | error error =>
          constructor
          · intro mapped
            cases mapped
          · intro related
            cases related with
            | cons head _ =>
                rw [first] at head
                cases head
      | ok value =>
          cases rest : items.mapM attempt with
          | error error =>
              constructor
              · intro mapped
                cases mapped
              · intro related
                cases related with
                | cons _ tail =>
                    rw [ih.mpr tail] at rest
                    cases rest
          | ok values =>
              constructor
              · intro mapped
                cases mapped
                exact .cons first (ih.mp rest)
              · intro related
                cases related with
                | cons head tail =>
                    rw [ih.mpr tail] at rest
                    rw [first] at head
                    cases rest
                    cases head
                    rfl

/-- One computation after another succeeds with what holds exactly if both do. -/
theorem exists_bind_ok_iff {Target : Type} {source : Except Error Result}
    {next : Result → Except Error Target} {holds : Target → Prop} :
    (∃ target, source >>= next = .ok target ∧ holds target) ↔
      ∃ value, source = .ok value ∧ ∃ target, next value = .ok target ∧ holds target := by
  constructor
  · rintro ⟨target, ends, after⟩
    obtain ⟨value, given, ends⟩ := bind_eq_ok ends
    exact ⟨value, given, target, ends, after⟩
  · rintro ⟨value, rfl, after⟩
    exact after

/-- Converting each result is converting the results. -/
theorem mapM_map_eq {Next : Type} (convert : Result → Next) (items : List Item) :
    items.mapM (fun item => (attempt item).map convert) =
      (items.mapM attempt).map (List.map convert) := by
  induction items with
  | nil => rfl
  | cons item items ih =>
      rw [List.mapM_cons, List.mapM_cons, ih]
      cases attempt item with
      | error error => rfl
      | ok result =>
          cases items.mapM attempt with
          | error error => rfl
          | ok results => rfl

theorem exists_related_of_mem {relation : Item → Result → Prop} {items : List Item}
    {results : List Result} (related : List.Forall₂ relation items results) {item : Item}
    (member : item ∈ items) : ∃ result ∈ results, relation item result := by
  induction related with
  | nil => cases member
  | cons here _ ih =>
      rcases List.mem_cons.mp member with rfl | later
      · exact ⟨_, List.mem_cons_self, here⟩
      · obtain ⟨result, among, holds⟩ := ih later
        exact ⟨result, List.mem_cons_of_mem _ among, holds⟩

/-- All items succeed with what holds exactly if each of them does. -/
theorem exists_mapM_ok_iff {holds : Result → Prop} {items : List Item} :
    (∃ results, items.mapM attempt = .ok results ∧ ∀ result ∈ results, holds result) ↔
      ∀ item ∈ items, ∃ result, attempt item = .ok result ∧ holds result := by
  simp only [mapM_ok_iff]
  induction items with
  | nil =>
      constructor
      · intro _ item member
        cases member
      · exact fun _ => ⟨[], .nil, List.forall_mem_nil _⟩
  | cons item items ih =>
      rw [List.forall_mem_cons, ← ih]
      constructor
      · rintro ⟨results, related, all⟩
        cases related with
        | cons first rest =>
            obtain ⟨head, tail⟩ := List.forall_mem_cons.mp all
            exact ⟨⟨_, first, head⟩, _, rest, tail⟩
      · rintro ⟨⟨result, first, head⟩, results, rest, tail⟩
        exact ⟨result :: results, .cons first rest, List.forall_mem_cons.mpr ⟨head, tail⟩⟩

/-- A computation succeeds with one result exactly under a condition. -/
structure Yields (outcome : Except Error Result) (condition : Prop) (result : Result) : Prop where
  succeeds : condition → outcome = .ok result
  fails : ¬ condition → ∃ error, outcome = .error error

namespace Yields

variable {Next : Type} {outcome : Except Error Result} {condition other : Prop} {result : Result}

theorem ok (result : Result) : Yields (.ok result : Except Error Result) True result where
  succeeds _ := rfl
  fails refused := absurd trivial refused

theorem congr (yields : Yields outcome condition result) (same : condition ↔ other) :
    Yields outcome other result where
  succeeds holds := yields.succeeds (same.mpr holds)
  fails refused := yields.fails fun holds => refused (same.mp holds)

/-- What comes after a computation may count on its condition. -/
theorem bindWith {next : Result → Except Error Next} {final : Next}
    (yields : Yields outcome condition result)
    (afterwards : condition → Yields (next result) other final) :
    Yields (outcome >>= next) (condition ∧ other) final where
  succeeds := by
    rintro ⟨holds, holdsNext⟩
    rw [yields.succeeds holds]
    exact (afterwards holds).succeeds holdsNext
  fails := by
    intro refused
    by_cases holds : condition
    · rw [yields.succeeds holds]
      exact (afterwards holds).fails fun holdsNext => refused ⟨holds, holdsNext⟩
    · obtain ⟨error, raised⟩ := yields.fails holds
      exact ⟨error, by rw [raised]; rfl⟩

theorem bind {next : Result → Except Error Next} {final : Next}
    (yields : Yields outcome condition result) (afterwards : Yields (next result) other final) :
    Yields (outcome >>= next) (condition ∧ other) final :=
  yields.bindWith fun _ => afterwards

theorem map {convert : Result → Next} (yields : Yields outcome condition result) :
    Yields (outcome >>= fun value => pure (convert value)) condition (convert result) :=
  (yields.bind (ok (convert result))).congr (and_iff_left trivial)

theorem ok_iff (yields : Yields outcome condition result) :
    outcome = .ok result ↔ condition := by
  constructor
  · intro succeeded
    by_contra refused
    obtain ⟨error, raised⟩ := yields.fails refused
    rw [raised] at succeeded
    cases succeeded
  · exact yields.succeeds

theorem of_ok {value : Result} (yields : Yields outcome condition result)
    (succeeded : outcome = .ok value) : condition ∧ value = result := by
  by_cases holds : condition
  · rw [yields.succeeds holds] at succeeded
    exact ⟨holds, (Except.ok.inj succeeded).symm⟩
  · obtain ⟨error, raised⟩ := yields.fails holds
    rw [raised] at succeeded
    cases succeeded

end Yields

/-- A computation succeeds exactly under a condition, and then with a result of some kind. -/
structure Achieves (outcome : Except Error Result) (condition : Prop) (kind : Result → Prop) :
    Prop where
  succeeds : condition → ∃ result, outcome = .ok result ∧ kind result
  fails : ¬ condition → ∃ error, outcome = .error error

theorem Yields.achieves {outcome : Except Error Result} {condition : Prop} {result : Result}
    (yields : Yields outcome condition result) {kind : Result → Prop} (holds : kind result) :
    Achieves outcome condition kind where
  succeeds free := ⟨result, yields.succeeds free, holds⟩
  fails := yields.fails

namespace Achieves

variable {Next : Type} {outcome : Except Error Result} {condition other : Prop}
  {kind : Result → Prop}

theorem congr (achieves : Achieves outcome condition kind) (same : condition ↔ other) :
    Achieves outcome other kind where
  succeeds holds := achieves.succeeds (same.mpr holds)
  fails refused := achieves.fails fun holds => refused (same.mp holds)

theorem mono {weaker : Result → Prop} (achieves : Achieves outcome condition kind)
    (weaken : ∀ result, condition → kind result → weaker result) :
    Achieves outcome condition weaker where
  succeeds holds := by
    obtain ⟨result, ends, here⟩ := achieves.succeeds holds
    exact ⟨result, ends, weaken result holds here⟩
  fails := achieves.fails

/-- What comes after a computation may count on its condition and on its result. -/
theorem bind {next : Result → Except Error Next} {final : Next → Prop}
    (achieves : Achieves outcome condition kind)
    (afterwards : ∀ result, condition → kind result → Achieves (next result) other final) :
    Achieves (outcome >>= next) (condition ∧ other) final where
  succeeds := by
    rintro ⟨holds, holdsNext⟩
    obtain ⟨result, ends, here⟩ := achieves.succeeds holds
    rw [ends]
    exact (afterwards result holds here).succeeds holdsNext
  fails := by
    intro refused
    by_cases holds : condition
    · obtain ⟨result, ends, here⟩ := achieves.succeeds holds
      rw [ends]
      exact (afterwards result holds here).fails fun holdsNext => refused ⟨holds, holdsNext⟩
    · obtain ⟨error, raised⟩ := achieves.fails holds
      exact ⟨error, by rw [raised]; rfl⟩

/-- A computation of which the result is known comes before another one. -/
theorem after {next : Result → Except Error Next} {final : Next → Prop} {result : Result}
    (yields : Yields outcome condition result)
    (afterwards : condition → Achieves (next result) other final) :
    Achieves (outcome >>= next) (condition ∧ other) final := by
  have known : Achieves outcome condition (· = result) := yields.achieves rfl
  refine known.bind ?_
  rintro _ holds rfl
  exact afterwards holds

theorem of_ok {result : Result} (achieves : Achieves outcome condition kind)
    (succeeded : outcome = .ok result) : condition ∧ kind result := by
  by_cases holds : condition
  · obtain ⟨value, ends, here⟩ := achieves.succeeds holds
    obtain rfl := Except.ok.inj (ends.symm.trans succeeded)
    exact ⟨holds, here⟩
  · obtain ⟨error, raised⟩ := achieves.fails holds
    rw [raised] at succeeded
    cases succeeded

end Achieves

end Lib

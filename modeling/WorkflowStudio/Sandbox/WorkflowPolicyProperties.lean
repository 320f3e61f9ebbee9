import WorkflowStudio.Sandbox.ModelPolicy

/-! Whatever JSON the settings of a workflow hold, a proxy that is made from them denies the
system models: it is made only if the deny list has a pattern for these, as an item, as a key
or as a part of a text, whose wildcard then denies every model. -/

set_option autoImplicit false

namespace WorkflowStudio.Sandbox

open SafeEnvProxy

variable {modelName : String} {patterns : List Value} {denylist : Value}

/-!
## Patterns
-/

/-- A pattern that ends with a wildcard matches every name that begins with the rest. -/
theorem matchesItems_chars (front text : List Char) :
    matchesItems (front.map .char ++ [.anyText]) (front ++ text) = true := by
  induction front with
  | nil =>
      rw [List.map_nil, List.nil_append, List.nil_append, matchesItems]
      exact List.any_eq_true.mpr ⟨[], (List.mem_tails [] text).mpr List.nil_suffix, rfl⟩
  | cons letter front ih =>
      rw [List.map_cons, List.cons_append, List.cons_append, matchesItems, ih,
        PatternItem.admits, beq_self_eq_true, Bool.true_and]
      exact fun same => nomatch same

theorem fnmatch_system {pattern : String} (system : pattern = "ir.%" ∨ pattern = "ir.*")
    (starts : "ir.".toList <+: modelName.toList) :
    fnmatch modelName (fnmatchPattern pattern) = true := by
  have shell : fnmatchPattern pattern = ['i', 'r', '.', '*'] := by
    rcases system with rfl | rfl <;> rfl
  obtain ⟨rest, split⟩ := starts
  rw [fnmatch, shell, ← split]
  exact matchesItems_chars ['i', 'r', '.'] rest

theorem fnmatch_wildcard {letter : Char} (wild : letter = '%' ∨ letter = '*') :
    fnmatch modelName (fnmatchPattern (String.ofList [letter])) = true := by
  have shell : fnmatchPattern (String.ofList [letter]) = ['*'] := by
    rcases wild with rfl | rfl <;> rfl
  rw [fnmatch, shell]
  exact matchesItems_chars [] modelName.toList

/-!
## Denied names
-/

/-- Some pattern that the loop over the list comes to matches the name. -/
def Matched (patterns : Value) (modelName : String) : Prop :=
  ∃ items pattern, patternsOf patterns = .ok items ∧ .str pattern ∈ items ∧
    fnmatch modelName (fnmatchPattern pattern) = true

/-- A pattern that matches is found, unless the loop fails before. -/
theorem anyMatches_ne_false {pattern : String} (listed : .str pattern ∈ patterns)
    (found : fnmatch modelName (fnmatchPattern pattern) = true) :
    anyMatches modelName patterns ≠ .ok false := by
  induction patterns with
  | nil => exact absurd listed List.not_mem_nil
  | cons first rest ih =>
      cases first with
      | str text =>
          rw [anyMatches]
          split
          case isTrue => exact fun missed => nomatch missed
          case isFalse unmatched =>
            rcases List.mem_cons.mp listed with same | later
            · cases same
              exact absurd found unmatched
            · exact ih later
      | none | bool _ | int _ | list _ | tuple _ | dict _ | object _ _ =>
          exact fun missed => nomatch missed

theorem Matched.listMatches_ne_false (matched : Matched denylist modelName) :
    listMatches modelName denylist ≠ .ok false := by
  obtain ⟨items, pattern, loop, listed, found⟩ := matched
  unfold listMatches
  rw [loop]
  exact anyMatches_ne_false listed found

/-- No allow list brings back a name that the deny list matches. -/
theorem Matched.not_allowed (matched : Matched denylist modelName) (allowlist : Value) :
    isModelAllowed ⟨allowlist, denylist⟩ modelName ≠ .ok true := by
  have denied := matched.listMatches_ne_false
  unfold isModelAllowed
  dsimp only
  cases outcome : listMatches modelName denylist with
  | error error => exact fun allowed => nomatch allowed
  | ok found =>
      cases found with
      | false => exact absurd outcome denied
      | true => exact fun allowed => nomatch allowed

/-!
## The system pattern
-/

/-- What holds one of the system patterns, in Python's sense, matches the system models. -/
theorem matched_of_contains {pattern : String} (system : pattern = "ir.%" ∨ pattern = "ir.*")
    (contained : contains pattern denylist = .ok true)
    (starts : "ir.".toList <+: modelName.toList) : Matched denylist modelName := by
  have found := fnmatch_system system starts
  cases denylist with
  | str text =>
      -- one of the letters of the text is the wildcard of the pattern, and matches every name
      have inside : pattern.toList <:+: text.toList := by simpa [contains] using contained
      obtain ⟨letter, wild, member⟩ : ∃ letter, (letter = '%' ∨ letter = '*') ∧
          letter ∈ pattern.toList := by
        rcases system with rfl | rfl
        · exact ⟨'%', .inl rfl, by decide⟩
        · exact ⟨'*', .inr rfl, by decide⟩
      exact ⟨_, _, rfl, List.mem_map_of_mem (inside.subset member), fnmatch_wildcard wild⟩
  | list items | tuple items =>
      exact ⟨_, pattern, rfl, by simpa [contains] using contained, found⟩
  | dict entries => exact ⟨_, pattern, rfl, by simpa [contains] using contained, found⟩
  | none | bool _ | int _ | object _ _ => cases contained

theorem matched_of_append {appended : Value}
    (added : appendPattern "ir.%" denylist = .ok appended)
    (starts : "ir.".toList <+: modelName.toList) : Matched appended modelName := by
  cases denylist with
  | list items =>
      obtain rfl := Except.ok.inj added
      exact ⟨_, "ir.%", rfl, List.mem_append_right _ (List.mem_singleton_self _),
        fnmatch_system (.inl rfl) starts⟩
  | none | bool _ | int _ | str _ | tuple _ | dict _ | object _ _ => cases added

/-- A list that matches something is true, so that it is not replaced by the default. -/
theorem Matched.truthy (matched : Matched denylist modelName) : denylist.truthy = true := by
  obtain ⟨items, pattern, loop, listed, -⟩ := matched
  have some : items ≠ [] := List.ne_nil_of_mem listed
  cases denylist with
  | str text =>
      obtain rfl := Except.ok.inj loop
      simpa [Value.truthy] using some
  | list _ | tuple _ | dict _ =>
      obtain rfl := Except.ok.inj loop
      simpa [Value.truthy] using some
  | none | bool _ | int _ | object _ _ => cases loop

theorem new_matched (allowlist : Value) (matched : Matched denylist modelName) :
    Matched (new allowlist denylist).denylist modelName := by
  have kept : (new allowlist denylist).denylist = denylist := if_pos matched.truthy
  rwa [kept]

theorem matched_of_withSystemModels {extended : Value}
    (included : withSystemModels denylist = .ok extended)
    (starts : "ir.".toList <+: modelName.toList) : Matched extended modelName := by
  unfold withSystemModels at included
  cases first : contains "ir.%" denylist with
  | error error =>
      rw [first] at included
      cases included
  | ok found =>
      rw [first] at included
      cases found with
      | true =>
          obtain rfl := Except.ok.inj included
          exact matched_of_contains (.inl rfl) first starts
      | false =>
          cases second : contains "ir.*" denylist with
          | error error =>
              rw [second] at included
              cases included
          | ok found =>
              rw [second] at included
              cases found with
              | true =>
                  obtain rfl := Except.ok.inj included
                  exact matched_of_contains (.inr rfl) second starts
              | false => exact matched_of_append included starts

/-- The deny list of a proxy that is returned matches the system models. -/
theorem fromWorkflow_matched {jsonLoads : String → Option Value}
    {modelAllowlist modelDenylist : Option String} {proxy : SafeEnvProxy}
    (returned : fromWorkflow jsonLoads modelAllowlist modelDenylist = .ok proxy)
    (starts : "ir.".toList <+: modelName.toList) : Matched proxy.denylist modelName := by
  unfold fromWorkflow at returned
  extract_lets allowlist denylist at returned
  cases included : withSystemModels denylist with
  | error error =>
      rw [included] at returned
      cases returned
  | ok extended =>
      rw [included] at returned
      obtain rfl := Except.ok.inj returned
      exact new_matched _ (matched_of_withSystemModels included starts)

/-- Whatever the settings hold, a proxy that is made from them denies the system models, and
no allow list brings back a name that its deny list matches. -/
theorem system_models_denied {jsonLoads : String → Option Value}
    {modelAllowlist modelDenylist : Option String} {proxy : SafeEnvProxy}
    (returned : fromWorkflow jsonLoads modelAllowlist modelDenylist = .ok proxy)
    (modelName : String) :
    ("ir.".toList <+: modelName.toList → isModelAllowed proxy modelName ≠ .ok true) ∧
      (Matched proxy.denylist modelName → ∀ allowlist : Value,
        isModelAllowed ⟨allowlist, proxy.denylist⟩ modelName ≠ .ok true) := by
  constructor
  · intro starts
    exact (fromWorkflow_matched returned starts).not_allowed proxy.allowlist
  · exact Matched.not_allowed

/-- The deny list is a text with the pattern inside: its wildcard denies every model. -/
theorem text_denies_system :
    fromWorkflow (fun _ => some (.str "sale.%, ir.%")) none (some "\"sale.%, ir.%\"") =
        .ok (new (.list []) (.str "sale.%, ir.%")) ∧
      (("ir.".toList <+: "ir.rule".toList →
          isModelAllowed (new (.list []) (.str "sale.%, ir.%")) "ir.rule" ≠ .ok true) ∧
        (Matched (new (.list []) (.str "sale.%, ir.%")).denylist "ir.rule" → ∀ allowlist : Value,
          isModelAllowed ⟨allowlist, (new (.list []) (.str "sale.%, ir.%")).denylist⟩ "ir.rule" ≠
            .ok true)) := by
  have made : fromWorkflow (fun _ => some (.str "sale.%, ir.%")) none (some "\"sale.%, ir.%\"") =
      .ok (new (.list []) (.str "sale.%, ir.%")) := by rfl
  exact ⟨made, system_models_denied made "ir.rule"⟩

end WorkflowStudio.Sandbox

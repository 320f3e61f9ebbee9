import WorkflowStudio.Connector.EffectiveConfig
import WorkflowStudio.Editor.ConnectorRequest

/-! The editor leaves out only what the server would not apply: a field that the
clean-up of a connector request drops is blank for the server as well. -/

set_option autoImplicit false

namespace WorkflowStudio.Connector

open Lib Editor

/-!
## What is sent
-/

/-- The white space of the browser in the text is in the ASCII range. -/
def AsciiSpaced (text : String) : Prop :=
  ∀ char ∈ text.toList, isScriptSpace char = true → char.toNat < 128

/-- A text key, and a boolean flag or none. -/
structure FitRow (row : Fields) : Prop where
  key : ∀ value, getField row "key" = some value → ∃ text, value = .str text ∧ AsciiSpaced text
  enabled : ∀ value, getField row "enabled" = some value → ∃ flag, value = .bool flag

def FitRows (rows : Value) : Prop :=
  ∀ listed row, rows = .list listed → .dict row ∈ listed → FitRow row

structure FitBody (body : Fields) : Prop where
  contentType : ∀ value, getField body "content_type" = some value →
    ∃ text, value = .str text ∧ AsciiSpaced text
  formData : ∀ rows, getField body "form_data" = some rows → FitRows rows

/-- The configuration of a node as the editor writes it. -/
structure FitConfig (config : Config) : Prop where
  texts : ∀ key ∈ ["url", "method"], ∀ value, config.get? key = some value →
    ∃ text, value = .str text ∧ AsciiSpaced text
  rows : ∀ key ∈ ["headers", "query_params"], ∀ value, config.get? key = some value →
    FitRows value
  body : ∀ body, config.get? "body_config" = some (.dict body) → FitBody body

/-- The dictionary that the server reads the configuration as. -/
def received (config : Config) : Fields :=
  config.entries.map fun entry => (.str entry.1, entry.2)

/-!
## Blank texts
-/

theorem ascii_isSpace {char : Char} (space : isScriptSpace char = true)
    (ascii : char.toNat < 128) : Expression.isSpace char = true := by
  unfold isScriptSpace at space
  unfold Expression.isSpace
  simp only [Bool.or_eq_true, Bool.and_eq_true, decide_eq_true_eq, List.contains_eq_mem,
    List.mem_cons, List.not_mem_nil, or_false] at space ⊢
  omega

theorem space_toLower {char : Char} (space : Expression.isSpace char = true) :
    char.toLower = char := by
  unfold Expression.isSpace at space
  unfold Char.toLower
  split
  · next upper =>
      simp [UInt32.le_iff_toNat_le] at upper space
      omega
  · rfl

theorem AsciiSpaced.blank {text : String} (spaced : AsciiSpaced text)
    (blank : text.toList.all isScriptSpace = true) :
    text.toList.all Expression.isSpace = true := by
  rw [List.all_eq_true] at blank ⊢
  intro char member
  exact ascii_isSpace (blank char member) (spaced char member (blank char member))

/-- Both sides read a text as the same word when the word has no spaces. -/
theorem AsciiSpaced.strip_toLower {text word : String} (spaced : AsciiSpaced text)
    (solid : word.toList.any Expression.isSpace = false)
    (reads : (scriptTrim text).toLower = word) : (Expression.strip text).toLower = word := by
  have same : Expression.stripChars text.toList = trim isScriptSpace text.toList := by
    apply trim_coarser
    · intro char member space
      exact ascii_isSpace space (spaced char member space)
    · intro char member
      by_contra space
      rw [Bool.not_eq_false] at space
      have kept : char ∈ word.toList := by
        have mapped : (scriptTrim text).toLower.toList =
            (trim isScriptSpace text.toList).map Char.toLower := by
          change (String.map Char.toLower (scriptTrim text)).toList = _
          rw [String.toList_map, scriptTrim, String.toList_ofList]
        rw [← reads, mapped, List.mem_map]
        exact ⟨char, member, space_toLower space⟩
      exact List.any_eq_false.mp solid char kept space
  unfold Expression.strip
  rw [same]
  exact reads

/-!
## Rows
-/

theorem FitRow.enabled_of_pair {row : Fields} (fit : FitRow row)
    (enabled : isEnabledPair (.dict row) = true) : isEnabledRow (.dict row) = true := by
  unfold isEnabledPair at enabled
  unfold isEnabledRow
  rw [Bool.and_eq_true] at enabled ⊢
  obtain ⟨flag, key⟩ := enabled
  constructor
  · cases named : getField row "key" with
    | none =>
        rw [named] at key
        cases key
    | some value =>
        obtain ⟨text, rfl, spaced⟩ := fit.key value named
        rw [named] at key
        have shown : row.lookup (.str "key") = some (.str text) := named
        rw [shown]
        dsimp only
        rw [Bool.not_eq_true', Bool.eq_false_iff]
        intro blank
        have solid : text.toList.all Expression.isSpace = false := by simpa [isSolid] using key
        exact absurd (solid.symm.trans (spaced.blank blank)) (by decide)
  · rw [decide_eq_true_iff]
    intro off
    have shown : getField row "enabled" = some (.bool false) := off
    rw [shown] at flag
    cases flag

theorem FitRows.hasEnabled {rows : Value} (fit : FitRows rows)
    (enabled : hasEnabledPairs rows = true) : hasEnabledKeyValueEntries (some rows) = true := by
  cases rows with
  | list listed =>
      unfold hasEnabledPairs at enabled
      unfold hasEnabledKeyValueEntries
      rw [List.any_eq_true] at enabled ⊢
      obtain ⟨row, member, able⟩ := enabled
      cases row with
      | dict fields => exact ⟨_, member, (fit listed fields rfl member).enabled_of_pair able⟩
      | _ => cases able
  | _ => cases enabled

theorem FitBody.blankForm {body : Fields} (fit : FitBody body)
    (blank : (!hasEnabledKeyValueEntries (body.lookup (.str "form_data"))) = true) :
    (!hasEnabledPairs ((getField body "form_data").getD .none)) = true := by
  rw [Bool.not_eq_true', Bool.eq_false_iff] at blank ⊢
  intro enabled
  cases form : getField body "form_data" with
  | none =>
      rw [form] at enabled
      cases enabled
  | some rows =>
      rw [form] at enabled
      have shown : body.lookup (.str "form_data") = some rows := form
      rw [shown] at blank
      exact blank ((fit.formData rows form).hasEnabled enabled)

theorem isBlankBodyConfig_of_text {body : Fields} {text : String}
    (read : ((getField body "content_type").getD .none).orElse (.str "none") = .str text) :
    isBlankBodyConfig (.dict body) =
      if (Expression.strip text).toLower = "" ∨ (Expression.strip text).toLower = "none" then true
      else if (Expression.strip text).toLower = "form_data" ∨
          (Expression.strip text).toLower = "urlencoded" then
        !hasEnabledPairs ((getField body "form_data").getD .none)
      else false := by
  simp only [isBlankBodyConfig, read]

theorem none_reads : (Expression.strip "none").toLower = "none" := by
  change String.map Char.toLower (Expression.strip "none") = "none"
  rw [← String.toList_inj, String.toList_map]
  decide

theorem FitBody.blank {body : Fields} (fit : FitBody body)
    (blank : Editor.isBlankBodyConfig (some (.dict body)) = true) :
    isBlankBodyConfig (.dict body) = true := by
  unfold Editor.isBlankBodyConfig at blank
  cases given : getField body "content_type" with
  | none =>
      have read : ((getField body "content_type").getD .none).orElse (.str "none") =
          .str "none" := by rw [given]; rfl
      rw [isBlankBodyConfig_of_text read, if_pos (.inr none_reads)]
  | some value =>
      obtain ⟨text, rfl, spaced⟩ := fit.contentType value given
      have shown : body.lookup (.str "content_type") = some (.str text) := given
      simp only [shown] at blank
      by_cases empty : text = ""
      · subst empty
        have read : ((getField body "content_type").getD .none).orElse (.str "none") =
            .str "none" := by rw [given]; rfl
        rw [isBlankBodyConfig_of_text read, if_pos (.inr none_reads)]
      · have read : ((getField body "content_type").getD .none).orElse (.str "none") =
            .str text := by simp [given, Value.orElse, Value.truthy, empty]
        rw [isBlankBodyConfig_of_text read]
        split at blank
        · next none =>
            rcases none with reads | reads
            · rw [if_pos (.inl (spaced.strip_toLower (by decide) reads))]
            · rw [if_pos (.inr (spaced.strip_toLower (by decide) reads))]
        · split at blank
          · next form =>
              have unset := fit.blankForm blank
              split
              · rfl
              · rcases form with reads | reads
                · rw [if_pos (.inl (spaced.strip_toLower (by decide) reads))]
                  exact unset
                · rw [if_pos (.inr (spaced.strip_toLower (by decide) reads))]
                  exact unset
          · cases blank

/-!
## Left out by the editor
-/

section Overrides

variable (python : Python) (bridge : Option Bridge)

/-- The server applies the field as an override. -/
def applies (key : String) (value : Value) : Bool :=
  decide (Value.str key ∉ relationKeys.map Value.str) &&
    shouldApplySnapshotOverride python (.str key) value bridge

/-- A part of a configuration with all the fields that the server applies. -/
structure Cleaned (config cleaned : Config) : Prop where
  kept : ∀ key value, cleaned.get? key = some value → config.get? key = some value
  overrides : buildSnapshotOverrides python (received cleaned) bridge =
    buildSnapshotOverrides python (received config) bridge

variable {python bridge} {config cleaned : Config}

theorem Cleaned.refl (config : Config) : Cleaned python bridge config config :=
  ⟨fun _ _ found => found, rfl⟩

theorem buildSnapshotOverrides_erase {key : String}
    (unapplied : ∀ value, config.get? key = some value → applies python bridge key value = false) :
    buildSnapshotOverrides python (received (config.erase key)) bridge =
      buildSnapshotOverrides python (received config) bridge := by
  unfold buildSnapshotOverrides received OrderedMap.erase
  rw [List.filter_map, List.filter_map, List.filter_filter]
  refine congrArg (List.map fun entry : String × Value => (Value.str entry.1, entry.2)) ?_
  refine List.filter_congr fun entry member => ?_
  by_cases same : entry.1 = key
  · subst same
    have off := unapplied entry.2 (OrderedMap.get?_eq_some_iff.mpr member)
    unfold applies at off
    simp only [Function.comp_apply, off, Bool.false_and]
  · simp [same]

theorem Cleaned.eraseIf (state : Cleaned python bridge config cleaned) {key : String}
    {test : Option Value → Bool}
    (unapplied : ∀ value, config.get? key = some value → test (some value) = true →
      applies python bridge key value = false) :
    Cleaned python bridge config (eraseIf cleaned key test) := by
  unfold Editor.eraseIf
  split
  · next drops =>
      constructor
      · intro other value found
        rw [OrderedMap.get?_erase] at found
        split at found
        · cases found
        · exact state.kept other value found
      · rw [← state.overrides]
        refine buildSnapshotOverrides_erase fun value found => ?_
        rw [found] at drops
        exact unapplied value (state.kept key value found) drops
  · exact state

theorem applies_relation {key : String} (relation : key ∈ relationKeys) (value : Value) :
    applies python bridge key value = false := by
  have listed : Value.str key ∈ relationKeys.map Value.str := List.mem_map_of_mem relation
  simp [applies, listed]

theorem applies_text {key : String} (named : key ∈ ["url", "method"]) {text : String}
    (spaced : AsciiSpaced text) (blank : isBlankText (some (.str text)) = true) :
    applies python bridge key (.str text) = false := by
  have solid : isSolid ((Value.str text).orElse (.str "")) = false := by
    by_cases empty : text = ""
    · subst empty
      decide
    · have spaces : text.toList.all isScriptSpace = true := by
        simpa [isBlankText, isBlankString, Value.scriptTruthy, empty] using blank
      have kept : (Value.str text).orElse (.str "") = .str text := by
        simp [Value.orElse, Value.truthy, empty]
      rw [kept]
      simp only [isSolid, spaced.blank spaces, Bool.not_true]
  rcases List.mem_cons.mp named with rfl | second
  · simp only [applies, shouldApplySnapshotOverride, solid, Bool.and_false]
  · rcases List.mem_singleton.mp second with rfl
    simp only [applies, shouldApplySnapshotOverride, solid, Bool.and_false]

theorem applies_rows {key : String} (named : key ∈ ["headers", "query_params"]) {rows : Value}
    (fit : FitRows rows) (blank : (!hasEnabledKeyValueEntries (some rows)) = true) :
    applies python bridge key rows = false := by
  have unset : hasEnabledPairs rows = false := by
    rw [Bool.not_eq_true', Bool.eq_false_iff] at blank
    rw [Bool.eq_false_iff]
    exact fun enabled => blank (fit.hasEnabled enabled)
  rcases List.mem_cons.mp named with rfl | second
  · simp only [applies, shouldApplySnapshotOverride, unset, Bool.and_false]
  · rcases List.mem_singleton.mp second with rfl
    simp only [applies, shouldApplySnapshotOverride, unset, Bool.and_false]

theorem applies_body {value : Value} (fit : ∀ body, value = .dict body → FitBody body)
    (blank : Editor.isBlankBodyConfig (some value) = true) :
    applies python bridge "body_config" value = false := by
  have empty : isBlankBodyConfig value = true := by
    cases value with
    | dict body => exact (fit body rfl).blank blank
    | _ => rfl
  simp only [applies, shouldApplySnapshotOverride, empty, Bool.not_true, Bool.and_false]

theorem applies_timeout {value : Value} (blank : value = .none ∨ value = .str "") :
    applies python bridge "timeout" value = false := by
  rcases blank with rfl | rfl
  · simp [applies, shouldApplySnapshotOverride, appliesTimeout]
  · simp [applies, shouldApplySnapshotOverride, appliesTimeout]

theorem cleaned_relations (keys : List String) (relations : ∀ key ∈ keys, key ∈ relationKeys)
    (state : Cleaned python bridge config cleaned) :
    Cleaned python bridge config
      (keys.foldl (fun config key => Editor.eraseIf config key isEmptyRelation) cleaned) := by
  induction keys generalizing cleaned with
  | nil => exact state
  | cons key rest ih =>
      refine ih (fun other member => relations other (List.mem_cons_of_mem _ member)) ?_
      exact state.eraseIf fun value _ _ => applies_relation (relations key List.mem_cons_self) value

theorem sanitize_cleaned (fit : FitConfig config) :
    Cleaned python bridge config (sanitizeConnectorRequestConfig (some config)) := by
  have texts : ∀ key ∈ ["url", "method"], ∀ value, config.get? key = some value →
      isBlankText (some value) = true → applies python bridge key value = false := by
    intro key named value found blank
    obtain ⟨text, rfl, spaced⟩ := fit.texts key named value found
    exact applies_text named spaced blank
  have rows : ∀ key ∈ ["headers", "query_params"], ∀ value, config.get? key = some value →
      (!hasEnabledKeyValueEntries (some value)) = true → applies python bridge key value = false :=
    fun key named value found blank => applies_rows named (fit.rows key named value found) blank
  have bodies : ∀ value, config.get? "body_config" = some value →
      Editor.isBlankBodyConfig (some value) = true →
        applies python bridge "body_config" value = false :=
    fun value found blank => applies_body (fun body same => fit.body body (same ▸ found)) blank
  have started : Cleaned python bridge config config := Cleaned.refl config
  have relations := cleaned_relations connectorRelationKeys (fun key member => member) started
  have url := relations.eraseIf (texts "url" (by decide))
  have method := url.eraseIf (texts "method" (by decide))
  have headers : Cleaned python bridge config (Editor.eraseIf _ "headers" fun rows =>
      !hasEnabledKeyValueEntries rows) := method.eraseIf (rows "headers" (by decide))
  have query : Cleaned python bridge config (Editor.eraseIf _ "query_params" fun rows =>
      !hasEnabledKeyValueEntries rows) := headers.eraseIf (rows "query_params" (by decide))
  unfold sanitizeConnectorRequestConfig
  dsimp only
  apply (query.eraseIf bodies).eraseIf
  intro value _ blank
  apply applies_timeout
  split at blank
  · next missing => cases missing
  · next null =>
      cases null
      exact .inl rfl
  · next empty =>
      cases empty
      exact .inr rfl
  · cases blank

end Overrides

/-- A connector request runs with the same configuration whether the editor has
cleaned up its node or not, whatever preset the bridge provides. -/
theorem sanitize_effectiveConfig (python : Python) (config : Config) (fit : FitConfig config)
    (bridge : Option Bridge) :
    buildEffectiveConfig python (received (sanitizeConnectorRequestConfig (some config))) bridge =
      buildEffectiveConfig python (received config) bridge := by
  unfold buildEffectiveConfig
  rw [(sanitize_cleaned fit).overrides]

/-- A node as it is added: a blank address, one empty header and no time limit. -/
def addedConfig : Config := OrderedMap.ofList [
  ("url", .str " "),
  ("headers", .list [.dict [(.str "key", .str ""), (.str "value", .str ""),
    (.str "enabled", .bool true)]]),
  ("timeout", .str "")]

theorem addedConfig_fit : FitConfig addedConfig := by
  constructor
  · intro key named value found
    rcases List.mem_cons.mp named with rfl | second
    · cases found
      refine ⟨" ", rfl, ?_⟩
      intro char member _
      rcases List.mem_singleton.mp member with rfl
      decide
    · rcases List.mem_singleton.mp second with rfl
      cases found
  · intro key named value found listed row shown member
    rcases List.mem_cons.mp named with rfl | second
    · cases found
      cases shown
      cases List.mem_singleton.mp member
      constructor
      · intro key shown
        cases shown
        exact ⟨"", rfl, fun char member => by cases member⟩
      · intro flag shown
        cases shown
        exact ⟨true, rfl⟩
    · rcases List.mem_singleton.mp second with rfl
      cases found
  · intro body found
    cases found

/-- Python where no text is a document and only numbers are read. -/
def numberPython : Python where
  int
    | .int value => some value
    | _ => none
  loads _ := none
  dumps _ := ""

def ordersBridge : Bridge where
  endpoint := some {
    method := .str "GET"
    connector := some ⟨"https://shop.example/"⟩
    path := "/orders"
    timeoutSeconds := 20
    headersTemplate := ""
    queryTemplate := ""
    bodyTemplate := "" }
  connector := none
  backendConfigJson := ""

theorem sanitize_effectiveConfig_addedConfig :
    sanitizeConnectorRequestConfig (some addedConfig) ≠ addedConfig ∧
      buildEffectiveConfig numberPython
          (received (sanitizeConnectorRequestConfig (some addedConfig))) (some ordersBridge) =
        buildEffectiveConfig numberPython (received addedConfig) (some ordersBridge) :=
  ⟨by decide, sanitize_effectiveConfig numberPython addedConfig addedConfig_fit (some ordersBridge)⟩

example : buildEffectiveConfig numberPython (received addedConfig) (some ordersBridge) =
    some [(.str "method", .str "GET"), (.str "url", .str "https://shop.example/orders"),
      (.str "timeout", .int 20)] := by decide

end WorkflowStudio.Connector

import WorkflowStudio.Connector.AuthTemplateProperties

/-! The texts of an authentication profile in the request: they are added behind the rows of the
configuration, so that the last row of a name is the one that is sent. -/

set_option autoImplicit false

namespace WorkflowStudio.Connector

open Lib Lib.Scanning Lib.Replacing Expression

/-- A template of texts, as it is parsed. -/
def textFields (template : OrderedMap String String) : Fields :=
  template.entries.map fun entry => (.str entry.1, .str entry.2)

/-- The references of the slots to the keys of the broker. -/
def slotFields (refs : OrderedMap String Value) : Fields :=
  refs.entries.map fun entry => (.str entry.1, entry.2)

/-- The text that the broker has for a slot; it is empty where the broker refuses. -/
def secretOf (broker : Value → Option String) (refs : OrderedMap String Value) (slot : String) :
    List Char :=
  (((refs.get? slot).bind broker).getD "").toList

def textBroker (broker : Value → Option String) (ref : Value) : Option Value :=
  (broker ref).map .str

def textSecrets (secret : String → List Char) (slots : List String) : Secrets :=
  slots.map fun slot => (slot, .str (String.ofList (secret slot)))

/-!
## Templates
-/

theorem resolveSecrets_slotFields (python : Expression.Python) (broker : Value → Option String)
    (refs : OrderedMap String Value) :
    resolveSecrets python (textBroker broker) (slotFields refs) =
      textSecrets (secretOf broker refs) refs.keys := by
  rw [resolveSecrets, slotFields, textSecrets, OrderedMap.keys, List.map_map, List.map_map]
  refine List.map_congr_left fun entry member => ?_
  have found : refs.get? entry.1 = some entry.2 := OrderedMap.get?_eq_some_iff.mpr member
  refine Prod.ext (python.str_str _) ?_
  change (textBroker broker entry.2).getD (.str "") = _
  rw [Function.comp_apply, secretOf, found, Option.bind_some, String.ofList_toList, textBroker]
  cases broker entry.2 <;> rfl

theorem headerText_eq (secret : String → List Char) (slots : List String) (text : List Char) :
    headerText (textSecrets secret slots) (.str (String.ofList text)) =
      some (.str (String.ofList (replaceSlots secret slots text))) := by
  induction slots generalizing text with
  | nil => rfl
  | cons slot slots ih =>
      have step : replaceSlot (.str (String.ofList text)) (slot, .str (String.ofList (secret slot))) =
          some (.str (String.ofList (replaceAll (placeholder slot) (secret slot) text))) := by
        rw [replaceSlot, String.toList_ofList, String.toList_ofList]
      rw [headerText, textSecrets, List.map_cons, List.foldlM_cons, step]
      exact ih _

theorem queryText_eq (python : Expression.Python) (secrets : Secrets) (text : String) :
    queryText python secrets (.str text) = headerText secrets (.str text) := by
  have texts {value result : Value} {secret : String × Value}
      (here : replaceSlot value secret = some result) : ∃ text, result = .str text := by
    unfold replaceSlot at here
    split at here
    · exact ⟨_, (Option.some.inj here).symm⟩
    · cases here
  induction secrets generalizing text with
  | nil => rfl
  | cons secret secrets ih =>
      rw [queryText, headerText, List.foldlM_cons, List.foldlM_cons, python.str_str]
      cases here : replaceSlot (.str text) secret with
      | none => rfl
      | some result =>
          obtain ⟨next, rfl⟩ := texts here
          exact ih next

/-- The fields that a template of texts gives. -/
def replacedFields (secret : String → List Char) (slots : List String)
    (template : OrderedMap String String) : Fields :=
  template.entries.map fun entry =>
    (.str entry.1, .str (String.ofList (replaceSlots secret slots entry.2.toList)))

theorem mapM_textFields {rendered : Value → Option Value} {secret : String → List Char}
    {slots : List String}
    (texts : ∀ text, rendered (.str text) =
      some (.str (String.ofList (replaceSlots secret slots text.toList))))
    (template : OrderedMap String String) :
    ((textFields template).mapM fun field =>
      (rendered field.2).map fun text => (field.1, text)) =
        some (replacedFields secret slots template) := by
  rw [textFields, replacedFields]
  induction template.entries with
  | nil => rfl
  | cons entry entries ih =>
      rw [List.map_cons, List.map_cons, List.mapM_cons, ih, texts]
      rfl

theorem templateHeaders_textFields (secret : String → List Char) (slots : List String)
    (template : OrderedMap String String) :
    templateHeaders (textSecrets secret slots) (.dict (textFields template)) =
      some (replacedFields secret slots template) :=
  mapM_textFields (fun text => by
    have same := headerText_eq secret slots text.toList
    rwa [String.ofList_toList] at same) template

theorem authQueryParams_textFields (python : Expression.Python) {authType : AuthType}
    (some : authType ≠ .none) (secret : String → List Char) (slots : List String)
    (template : OrderedMap String String) :
    authQueryParams python authType (textSecrets secret slots) (.dict (textFields template)) =
      .some (replacedFields secret slots template) := by
  rw [authQueryParams, if_neg some]
  exact mapM_textFields (fun text => by
    have same := headerText_eq secret slots text.toList
    rw [String.ofList_toList] at same
    rw [queryText_eq, same]) template

/-- The profiles that write their secrets into a template of headers. -/
def AuthType.templated : AuthType → Bool
  | .apiKey | .hmac | .jwtAssertion | .custom => true
  | _ => false

/-- The texts that a profile writes its secrets into; every profile with secrets has query
parameters. -/
def AuthType.usedTexts (authType : AuthType) (headers queries : OrderedMap String String) :
    List (String × String) :=
  (if authType.templated then headers.entries else []) ++
    if authType = .none then [] else queries.entries

theorem authHeaders_textFields (python : Expression.Python) (base64 : String → String)
    {authType : AuthType} (templated : authType.templated = true) (secret : String → List Char)
    (slots : List String) (template : OrderedMap String String) :
    authHeaders python base64 authType (textSecrets secret slots) (.dict (textFields template)) =
      some (replacedFields secret slots template) := by
  have same := templateHeaders_textFields secret slots template
  cases authType with
  | apiKey | hmac | jwtAssertion | custom => exact same
  | bearer | basic | oauth2ClientCredentials | oauth2RefreshToken | none => cases templated

/-- The other profiles make their header themselves. -/
theorem authHeaders_fixed (python : Expression.Python) (base64 : String → String)
    {authType : AuthType} (fixed : authType.templated ≠ true) (secrets : Secrets)
    (template : Value) :
    ∃ fields, authHeaders python base64 authType secrets template = some fields := by
  cases authType with
  | apiKey | hmac | jwtAssertion | custom => exact absurd rfl fixed
  | bearer | basic | oauth2ClientCredentials | oauth2RefreshToken | none => exact ⟨_, rfl⟩

/-!
## The request
-/

section Request

variable {python : Expression.Python} {evaluator : Evaluator}

theorem buildPair_keys {row : Value} {pairs : Fields}
    (built : (buildPair python evaluator row).outcome = .ok pairs) {key : Value}
    (member : key ∈ pairs.map Prod.fst) :
    ∃ fields, row = .dict fields ∧ key = (getField fields "key").getD (.str "") := by
  unfold buildPair at built
  split at built
  · next fields =>
    dsimp only at built
    split at built
    · obtain ⟨text, -, built⟩ := Logged.bind_ok_iff.mp built
      split at built
      · cases built
        exact ⟨fields, rfl, List.mem_singleton.mp member⟩
      · cases built
    · cases built
      cases member
  · cases built
    cases member

/-- The rows of the profile are the last ones, and so they are sent. -/
theorem lookup_buildPairs {existing : List Value} {fields sent : Fields}
    (distinct : (fields.map Prod.fst).Nodup)
    (built : (buildPairs python evaluator (.list (existing ++ authRows fields))).outcome =
      .ok sent)
    {key text : String} (named : key ≠ "") (member : (.str key, .str text) ∈ fields)
    {value : String} (resolved : (resolveStr python evaluator (.str text)).outcome = .ok value) :
    sent.lookup (.str key) = some (.str value) := by
  obtain ⟨found, each, same⟩ := Logged.bind_ok_iff.mp built
  cases same
  obtain ⟨front, back, rfl⟩ := List.append_of_mem member
  have rows : existing ++ authRows (front ++ (.str key, .str text) :: back) =
      (existing ++ authRows front) ++
        .dict [(.str "key", .str key), (.str "value", .str text), (.str "enabled", .bool true)] ::
          authRows back := by
    rw [authRows, authRows, authRows, List.map_append, List.map_cons, List.append_assoc]
  rw [rows] at each
  obtain ⟨early, pairs, late, rfl, here, behind⟩ := Logged.each_ok_split each
  obtain rfl := Except.ok.inj ((buildPair_row named resolved).symm.trans here)
  rw [List.flatten_append, List.flatten_cons]
  refine lookup_foldl_last rfl fun again => ?_
  obtain ⟨pair, inside, same⟩ := List.mem_map.mp again
  obtain ⟨pairs, amongPairs, inside⟩ := List.mem_flatten.mp inside
  obtain ⟨row, among, built⟩ := Logged.mem_each behind amongPairs
  obtain ⟨other, amongOther, rfl⟩ := List.mem_map.mp among
  obtain ⟨_, whole, key_eq⟩ := buildPair_keys built (List.mem_map.mpr ⟨pair, inside, same⟩)
  cases whole
  have twice : Value.str key = other.1 := key_eq
  rw [List.map_append, List.map_cons] at distinct
  obtain ⟨_, distinct, _⟩ := List.nodup_append.mp distinct
  exact (List.nodup_cons.mp distinct).1 (List.mem_map.mpr ⟨other, amongOther, twice.symm⟩)

variable (python evaluator)

/-- Each named text of a template is sent with its slots replaced at once, whatever rows the
configuration has. -/
def SentVerbatim (secret : String → List Char) (slots : List String)
    (template : OrderedMap String String) (fields : Fields) : Prop :=
  ∀ existing sent,
    (buildPairs python evaluator (.list (existing ++ authRows fields))).outcome = .ok sent →
      ∀ entry ∈ template.entries, entry.1 ≠ "" →
        sent.lookup (.str entry.1) =
          some (.str (String.ofList (substitute secret slots entry.2.toList)))

variable {python evaluator}

theorem replacedFields_keys_nodup (secret : String → List Char) (slots : List String)
    (template : OrderedMap String String) :
    ((replacedFields secret slots template).map Prod.fst).Nodup := by
  rw [replacedFields, List.map_map]
  have keys : template.entries.map (Prod.fst ∘ fun entry : String × String => (Value.str entry.1,
      Value.str (String.ofList (replaceSlots secret slots entry.2.toList)))) =
      (template.entries.map Prod.fst).map Value.str := by
    rw [List.map_map]
    rfl
  rw [keys]
  exact template.distinct.map fun _ _ same => Value.str.inj same

theorem sentVerbatim_of_sends {secret : String → List Char} {slots : List String}
    {template : OrderedMap String String}
    (sends : ∀ entry ∈ template.entries, entry.1 ≠ "" →
      Sends python evaluator secret slots entry.2.toList
        (substitute secret slots entry.2.toList)) :
    SentVerbatim python evaluator secret slots template
      (replacedFields secret slots template) := fun _ _ built entry member named =>
  lookup_buildPairs (replacedFields_keys_nodup secret slots template) built named
    (List.mem_map.mpr ⟨entry, member, rfl⟩) (sends entry member named)

theorem buildPairs_authRows {secret : String → List Char} {slots : List String}
    {template : OrderedMap String String} :
    ∃ sent, (buildPairs python evaluator
      (.list ([] ++ authRows (replacedFields secret slots template)))).outcome = .ok sent := by
  have each (rows : List Value) (texts : ∀ row ∈ rows, ∃ key text : String, row =
      .dict [(.str "key", .str key), (.str "value", .str text), (.str "enabled", .bool true)]) :
      ∃ found, (Logged.each (buildPair python evaluator) rows).outcome = .ok found := by
    induction rows with
    | nil => exact ⟨[], rfl⟩
    | cons row rows ih =>
        obtain ⟨found, there⟩ := ih fun other member => texts other (List.mem_cons_of_mem _ member)
        obtain ⟨key, text, rfl⟩ := texts row List.mem_cons_self
        obtain ⟨pairs, here⟩ : ∃ pairs, (buildPair python evaluator (.dict [(.str "key", .str key),
            (.str "value", .str text), (.str "enabled", .bool true)])).outcome = .ok pairs := by
          by_cases named : key = ""
          · subst named
            exact ⟨[], rfl⟩
          · obtain ⟨sent, resolved⟩ := resolveStr_ok python evaluator (.str text)
            exact ⟨_, buildPair_row named resolved⟩
        exact ⟨pairs :: found, Logged.bind_ok_iff.mpr
          ⟨pairs, here, Logged.bind_ok_iff.mpr ⟨found, there, rfl⟩⟩⟩
  obtain ⟨found, ends⟩ := each (authRows (replacedFields secret slots template)) fun row member => by
    obtain ⟨field, among, rfl⟩ := List.mem_map.mp member
    obtain ⟨entry, _, rfl⟩ := List.mem_map.mp among
    exact ⟨_, _, rfl⟩
  exact ⟨_, Logged.bind_ok_iff.mpr ⟨found, ends, rfl⟩⟩

theorem sends_of_sentVerbatim {secret : String → List Char} {slots : List String}
    {template : OrderedMap String String}
    (verbatim : SentVerbatim python evaluator secret slots template
      (replacedFields secret slots template))
    {entry : String × String} (member : entry ∈ template.entries) (named : entry.1 ≠ "") :
    Sends python evaluator secret slots entry.2.toList
      (substitute secret slots entry.2.toList) := by
  obtain ⟨sent, built⟩ := @buildPairs_authRows python evaluator secret slots template
  obtain ⟨value, resolved⟩ := resolveStr_ok python evaluator
    (.str (String.ofList (replaceSlots secret slots entry.2.toList)))
  have found := lookup_buildPairs (replacedFields_keys_nodup secret slots template) built named
    (List.mem_map.mpr ⟨entry, member, rfl⟩) resolved
  have same := (verbatim [] sent built entry member named).symm.trans found
  rw [Sends, resolved, Value.str.inj (Option.some.inj same)]

end Request

/-!
## Every profile
-/

/-- What the profile adds to the request are the templates that it uses, with all slots replaced at
once. -/
def TemplatesSent (python : Expression.Python) (base64 : String → String) (evaluator : Evaluator)
    (authType : AuthType) (secrets : Secrets) (secret : String → List Char) (slots : List String)
    (headers queries : OrderedMap String String) : Prop :=
  ∃ headerFields queryFields,
    authHeaders python base64 authType secrets (.dict (textFields headers)) = some headerFields ∧
    authQueryParams python authType secrets (.dict (textFields queries)) = some queryFields ∧
    (authType.templated = true →
      SentVerbatim python evaluator secret slots headers headerFields) ∧
    (authType ≠ .none → SentVerbatim python evaluator secret slots queries queryFields)

section Halves

variable (python : Expression.Python) (base64 : String → String) (evaluator : Evaluator)
  (authType : AuthType) (secret : String → List Char) (slots : List String)

theorem headersSent_iff (headers : OrderedMap String String) :
    (∃ fields, authHeaders python base64 authType (textSecrets secret slots)
        (.dict (textFields headers)) = some fields ∧
      (authType.templated = true → SentVerbatim python evaluator secret slots headers fields)) ↔
      ∀ entry ∈ (if authType.templated then headers.entries else []), entry.1 ≠ "" →
        Sends python evaluator secret slots entry.2.toList
          (substitute secret slots entry.2.toList) := by
  by_cases templated : authType.templated = true
  · have written := authHeaders_textFields python base64 templated secret slots headers
    rw [if_pos templated]
    constructor
    · rintro ⟨_, same, sent⟩ entry member named
      obtain rfl := Option.some.inj (written.symm.trans same)
      exact sends_of_sentVerbatim (sent templated) member named
    · intro sends
      exact ⟨_, written, fun _ => sentVerbatim_of_sends sends⟩
  · obtain ⟨fields, written⟩ := authHeaders_fixed python base64 templated
      (textSecrets secret slots) (.dict (textFields headers))
    rw [if_neg templated]
    constructor
    · intro _ entry member
      cases member
    · intro _
      exact ⟨fields, written, fun here => absurd here templated⟩

theorem queriesSent_iff (queries : OrderedMap String String) :
    (∃ fields, authQueryParams python authType (textSecrets secret slots)
        (.dict (textFields queries)) = some fields ∧
      (authType ≠ .none → SentVerbatim python evaluator secret slots queries fields)) ↔
      ∀ entry ∈ (if authType = .none then [] else queries.entries), entry.1 ≠ "" →
        Sends python evaluator secret slots entry.2.toList
          (substitute secret slots entry.2.toList) := by
  by_cases absent : authType = .none
  · rw [if_pos absent]
    constructor
    · intro _ entry member
      cases member
    · intro _
      exact ⟨[], by rw [authQueryParams, if_pos absent], fun used => absurd absent used⟩
  · have written := authQueryParams_textFields python absent secret slots queries
    rw [if_neg absent]
    constructor
    · rintro ⟨_, same, sent⟩ entry member named
      obtain rfl := Option.some.inj (written.symm.trans same)
      exact sends_of_sentVerbatim (sent absent) member named
    · intro sends
      exact ⟨_, written, fun _ => sentVerbatim_of_sends sends⟩

theorem templatesSent_iff (headers queries : OrderedMap String String) :
    TemplatesSent python base64 evaluator authType (textSecrets secret slots) secret slots headers
        queries ↔
      ∀ entry ∈ authType.usedTexts headers queries, entry.1 ≠ "" →
        Sends python evaluator secret slots entry.2.toList
          (substitute secret slots entry.2.toList) := by
  have headerHalf := headersSent_iff python base64 evaluator authType secret slots headers
  have queryHalf := queriesSent_iff python evaluator authType secret slots queries
  constructor
  · rintro ⟨headerFields, queryFields, inHeaders, inQueries, headersSent, queriesSent⟩ entry member
    rcases List.mem_append.mp member with header | query
    · exact headerHalf.mp ⟨headerFields, inHeaders, headersSent⟩ entry header
    · exact queryHalf.mp ⟨queryFields, inQueries, queriesSent⟩ entry query
  · intro sends
    obtain ⟨headerFields, inHeaders, headersSent⟩ := headerHalf.mpr fun entry member =>
      sends entry (List.mem_append_left _ member)
    obtain ⟨queryFields, inQueries, queriesSent⟩ := queryHalf.mpr fun entry member =>
      sends entry (List.mem_append_right _ member)
    exact ⟨headerFields, queryFields, inHeaders, inQueries, headersSent, queriesSent⟩

end Halves

/-- References under which the broker knows each slot by its name. -/
def ownRefs (slots : List String) (distinct : slots.Nodup) : OrderedMap String Value :=
  ⟨slots.map fun slot => (slot, .str slot), by
    rw [List.map_map]
    exact (List.map_id slots).symm ▸ distinct⟩

theorem ownRefs_keys (slots : List String) (distinct : slots.Nodup) :
    (ownRefs slots distinct).keys = slots := by
  rw [OrderedMap.keys, ownRefs, List.map_map]
  exact List.map_id slots

def nameBroker (secret : String → List Char) : Value → Option String
  | .str slot => some (String.ofList (secret slot))
  | _ => none

theorem secretOf_ownRefs {slots : List String} (distinct : slots.Nodup)
    (secret : String → List Char) {slot : String} (member : slot ∈ slots) :
    secretOf (nameBroker secret) (ownRefs slots distinct) slot = secret slot := by
  have found : (ownRefs slots distinct).get? slot = some (.str slot) :=
    OrderedMap.get?_eq_some_iff.mpr (List.mem_map.mpr ⟨slot, member, rfl⟩)
  rw [secretOf, found]
  exact String.toList_ofList

theorem sends_congr {python : Expression.Python} {evaluator : Evaluator}
    {one two : String → List Char} {slots : List String}
    (same : ∀ slot ∈ slots, one slot = two slot) {text : List Char}
    (sends : Sends python evaluator one slots text (substitute one slots text)) :
    Sends python evaluator two slots text (substitute two slots text) := by
  have atOnce : substitute one slots text = substitute two slots text := by
    refine render_congr fun slot member => same slot ?_
    obtain ⟨_, back, length, _, here⟩ := exists_of_mem_scanFrom member
    exact (of_matchSlot here).1
  have sequential : replaceSlots one slots text = replaceSlots two slots text := by
    unfold replaceSlots
    refine List.foldl_ext _ _ _ fun text slot member => ?_
    rw [same slot member]
  rwa [Sends, sequential, atOnce] at sends

def tokenRefs : OrderedMap String Value := ⟨[("token", .str "api")], by decide⟩

end WorkflowStudio.Connector

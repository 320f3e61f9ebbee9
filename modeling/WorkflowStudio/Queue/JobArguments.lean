import WorkflowStudio.Lib.OrderedMap

/-! How the arguments of a job are stored: what the encoder makes of recordsets, dates and
elements, and what the decoder reads back. -/

set_option autoImplicit false

namespace WorkflowStudio.Queue

open Lib

/-- What the encoder and the decoder call of other libraries. `truth` is the truth value
of an element. -/
structure Library (DateTime Date Element : Type) where
  isoformat : DateTime → String
  dateIsoformat : Date → String
  parse : String → Option DateTime
  date : DateTime → Date
  tostring : Element → String
  fromstring : String → Option Element
  truth : Element → Bool

inductive Key where
  | null
  | bool (value : Bool)
  | number (value : Int)
  | text (value : String)

/-- A key as a text, as `json.dumps` writes it. -/
def Key.jsonText : Key → String
  | .null => "null"
  | .bool true => "true"
  | .bool false => "false"
  | .number value => toString value
  | .text value => value

/-- What a job may be called with, but for floats. Of all other objects (`other`) the encoder knows
nothing. -/
inductive Argument (DateTime Date Element : Type) where
  | null
  | bool (value : Bool)
  | number (value : Int)
  | text (value : String)
  | list (items : List (Argument DateTime Date Element))
  | tuple (items : List (Argument DateTime Date Element))
  | dict (entries : List (Key × Argument DateTime Date Element))
  | recordset (model : String) (ids : List Int) (uid : Int) (su : Bool)
      (context : List (String × Argument DateTime Date Element))
  | datetime (value : DateTime)
  | date (value : Date)
  | element (value : Element)
  | lazy (value : Argument DateTime Date Element)
  | other

inductive Json where
  | null
  | bool (value : Bool)
  | number (value : Int)
  | text (value : String)
  | array (items : List Json)
  | object (entries : List (String × Json))

/-- What is read back. A recordset is told by what it was made with:
`env(user=user, su=su)[model].with_context(**context).browse(ids)`. -/
inductive Decoded (DateTime Date Element : Type) where
  | null
  | bool (value : Bool)
  | number (value : Int)
  | text (value : String)
  | list (items : List (Decoded DateTime Date Element))
  | dict (entries : List (String × Decoded DateTime Date Element))
  | recordset (user su model : Decoded DateTime Date Element)
      (context : List (String × Decoded DateTime Date Element))
      (ids : Decoded DateTime Date Element)
  | datetime (value : DateTime)
  | date (value : Date)
  | element (value : Element)

section Formats

variable {DateTime Date Element : Type} (library : Library DateTime Date Element)

/-- `_job_prepare_context_before_enqueue_keys`. -/
def contextKeys : List String :=
  ["tz", "lang", "allowed_company_ids", "force_company", "active_test"]

/-!
## The encoder
-/

mutual

/-- `json.dumps` with `JobEncoder.default`, up to the text. -/
def encode : Argument DateTime Date Element → Option Json
  | .null => some .null
  | .bool value => some (.bool value)
  | .number value => some (.number value)
  | .text value => some (.text value)
  | .list items => (encodeItems items).map .array
  | .tuple items => (encodeItems items).map .array
  | .dict entries => (encodeEntries entries).map .object
  | .recordset model ids uid su context =>
      (encodeContext context).map fun context =>
        .object [("_type", .text "odoo_recordset"), ("model", .text model),
          ("ids", .array (ids.map .number)), ("uid", .number uid), ("su", .bool su),
          ("context", .object context)]
  | .datetime value =>
      some (.object [("_type", .text "datetime_isoformat"),
        ("value", .text (library.isoformat value))])
  | .date value =>
      some (.object [("_type", .text "date_isoformat"),
        ("value", .text (library.dateIsoformat value))])
  | .element value =>
      some (.object [("_type", .text "etree_element"), ("value", .text (library.tostring value))])
  | .lazy value => encode value
  | .other => none

def encodeItems : List (Argument DateTime Date Element) → Option (List Json)
  | [] => some []
  | item :: rest => (encode item).bind fun item => (encodeItems rest).map fun rest => item :: rest

def encodeEntries : List (Key × Argument DateTime Date Element) → Option (List (String × Json))
  | [] => some []
  | (key, value) :: rest =>
      (encode value).bind fun value =>
        (encodeEntries rest).map fun rest => (key.jsonText, value) :: rest

/-- `_job_prepare_context_before_enqueue`, which keeps some keys only. -/
def encodeContext : List (String × Argument DateTime Date Element) → Option (List (String × Json))
  | [] => some []
  | (key, value) :: rest =>
      if key ∈ contextKeys then
        (encode value).bind fun value => (encodeContext rest).map fun rest => (key, value) :: rest
      else encodeContext rest

end

/-!
## The decoder
-/

def truthy : Decoded DateTime Date Element → Bool
  | .null => false
  | .bool value => value
  | .number value => decide (value ≠ 0)
  | .text value => decide (value ≠ "")
  | .list items => !items.isEmpty
  | .dict entries => !entries.isEmpty
  | .recordset _ _ _ _ ids => truthy ids
  | .datetime _ => true
  | .date _ => true
  | .element value => library.truth value

/-- `with_context(**context)`, of a context that is not empty. -/
def contextOf : Option (Decoded DateTime Date Element) →
    Option (List (String × Decoded DateTime Date Element))
  | none => some []
  | some context =>
      if truthy library context then
        match context with
        | .dict entries => some entries
        | _ => none
      else some []

def textOf : Option (Decoded DateTime Date Element) → Option String
  | some (.text value) => some value
  | _ => none

/-- `object_hook`, or nothing where it raises. -/
def objectHook (obj : OrderedMap String (Decoded DateTime Date Element)) :
    Option (Decoded DateTime Date Element) :=
  match obj.get? "_type" with
  | some (.text type) =>
      if type = "odoo_recordset" then
        (obj.get? "model").bind fun model =>
          (contextOf library (obj.get? "context")).bind fun context =>
            (obj.get? "ids").map fun ids =>
              .recordset ((obj.get? "uid").getD .null) ((obj.get? "su").getD .null) model context
                ids
      else if type = "datetime_isoformat" then
        ((textOf (obj.get? "value")).bind library.parse).map .datetime
      else if type = "date_isoformat" then
        ((textOf (obj.get? "value")).bind library.parse).map fun value =>
          .date (library.date value)
      else if type = "etree_element" then
        ((textOf (obj.get? "value")).bind library.fromstring).map .element
      else some (.dict obj.entries)
  | _ => some (.dict obj.entries)

mutual

/-- `json.loads` with `JobDecoder`, from what was parsed. The last of the entries with one
key counts. -/
def decode : Json → Option (Decoded DateTime Date Element)
  | .null => some .null
  | .bool value => some (.bool value)
  | .number value => some (.number value)
  | .text value => some (.text value)
  | .array items => (decodeItems items).map .list
  | .object entries =>
      (decodeEntries entries).bind fun entries => objectHook library (OrderedMap.ofList entries)

def decodeItems : List Json → Option (List (Decoded DateTime Date Element))
  | [] => some []
  | item :: rest => (decode item).bind fun item => (decodeItems rest).map fun rest => item :: rest

def decodeEntries : List (String × Json) → Option (List (String × Decoded DateTime Date Element))
  | [] => some []
  | (key, value) :: rest =>
      (decode value).bind fun value => (decodeEntries rest).map fun rest => (key, value) :: rest

end

/-!
## Reading back
-/

mutual

/-- What an argument comes back as: tuples as lists, keys as texts, a value that is lazy as
that value, and a recordset with the part of its context that is kept. -/
def plain : Argument DateTime Date Element → Option (Decoded DateTime Date Element)
  | .null => some .null
  | .bool value => some (.bool value)
  | .number value => some (.number value)
  | .text value => some (.text value)
  | .list items => (plainItems items).map .list
  | .tuple items => (plainItems items).map .list
  | .dict entries => (plainEntries entries).map fun entries =>
      .dict (OrderedMap.ofList entries).entries
  | .recordset model ids uid su context =>
      (plainContext context).map fun context =>
        .recordset (.number uid) (.bool su) (.text model) (OrderedMap.ofList context).entries
          (.list (ids.map .number))
  | .datetime value => some (.datetime value)
  | .date value => some (.date value)
  | .element value => some (.element value)
  | .lazy value => plain value
  | .other => none

def plainItems : List (Argument DateTime Date Element) →
    Option (List (Decoded DateTime Date Element))
  | [] => some []
  | item :: rest => (plain item).bind fun item => (plainItems rest).map fun rest => item :: rest

def plainEntries : List (Key × Argument DateTime Date Element) →
    Option (List (String × Decoded DateTime Date Element))
  | [] => some []
  | (key, value) :: rest =>
      (plain value).bind fun value =>
        (plainEntries rest).map fun rest => (key.jsonText, value) :: rest

def plainContext : List (String × Argument DateTime Date Element) →
    Option (List (String × Decoded DateTime Date Element))
  | [] => some []
  | (key, value) :: rest =>
      if key ∈ contextKeys then
        (plain value).bind fun value => (plainContext rest).map fun rest => (key, value) :: rest
      else plainContext rest

end

/-- The decoder takes the dictionary for something that the encoder wrote. -/
def Reserved (obj : OrderedMap String (Decoded DateTime Date Element)) : Prop :=
  ∃ type ∈ ["odoo_recordset", "datetime_isoformat", "date_isoformat", "etree_element"],
    obj.get? "_type" = some (.text type)

mutual

/-- No dictionary in the argument is reserved, and every element is read back from its own
text, as those are to which no text is attached. -/
def Readable : Argument DateTime Date Element → Prop
  | .list items => ReadableItems items
  | .tuple items => ReadableItems items
  | .dict entries => ReadableEntries entries ∧
      ∀ read, plainEntries entries = some read → ¬ Reserved (OrderedMap.ofList read)
  | .recordset _ _ _ _ context => ReadableContext context
  | .element value => library.fromstring (library.tostring value) = some value
  | .lazy value => Readable value
  | _ => True

def ReadableItems : List (Argument DateTime Date Element) → Prop
  | [] => True
  | item :: rest => Readable item ∧ ReadableItems rest

def ReadableEntries : List (Key × Argument DateTime Date Element) → Prop
  | [] => True
  | (_, value) :: rest => Readable value ∧ ReadableEntries rest

def ReadableContext : List (String × Argument DateTime Date Element) → Prop
  | [] => True
  | (key, value) :: rest => (key ∈ contextKeys → Readable value) ∧ ReadableContext rest

end

/-- Dates and times are read back from their texts in the ISO format. -/
structure Library.Lawful : Prop where
  datetime : ∀ value, library.parse (library.isoformat value) = some value
  date : ∀ value, (library.parse (library.dateIsoformat value)).map library.date = some value

variable {library}

/-- The decoder leaves exactly the other dictionaries as they are. -/
theorem objectHook_eq_dict_iff {obj : OrderedMap String (Decoded DateTime Date Element)} :
    objectHook library obj = some (.dict obj.entries) ↔ ¬ Reserved obj := by
  unfold objectHook Reserved
  constructor
  · rintro same ⟨type, member, found⟩
    rw [found] at same
    simp only [List.mem_cons, List.not_mem_nil, or_false] at member
    rcases member with rfl | rfl | rfl | rfl
    · obtain ⟨_, _, same⟩ := Option.bind_eq_some_iff.mp (same : Option.bind _ _ = _)
      obtain ⟨_, _, same⟩ := Option.bind_eq_some_iff.mp same
      obtain ⟨_, _, same⟩ := Option.map_eq_some_iff.mp same
      cases same
    · obtain ⟨_, _, same⟩ := Option.map_eq_some_iff.mp (same : Option.map _ _ = _)
      cases same
    · obtain ⟨_, _, same⟩ := Option.map_eq_some_iff.mp (same : Option.map _ _ = _)
      cases same
    · obtain ⟨_, _, same⟩ := Option.map_eq_some_iff.mp (same : Option.map _ _ = _)
      cases same
  · intro free
    split
    · rename_i type found
      have none : ∀ reserved ∈ ["odoo_recordset", "datetime_isoformat", "date_isoformat",
          "etree_element"], type ≠ reserved := fun reserved member same =>
        free ⟨reserved, member, same ▸ found⟩
      rw [if_neg (none _ (by decide)), if_neg (none _ (by decide)), if_neg (none _ (by decide)),
        if_neg (none _ (by decide))]
    · rfl

/-- What is kept of a context is not reserved. -/
theorem not_reserved_context {context : List (String × Argument DateTime Date Element)}
    {read : List (String × Decoded DateTime Date Element)}
    (result : plainContext context = some read) : ¬ Reserved (OrderedMap.ofList read) := by
  have kept : ∀ key ∈ read.map Prod.fst, key ∈ contextKeys := by
    induction context generalizing read with
    | nil =>
        cases result
        exact fun _ absent => absurd absent List.not_mem_nil
    | cons entry rest ih =>
        rw [plainContext] at result
        split at result
        · rename_i isKept
          obtain ⟨value, _, result⟩ := Option.bind_eq_some_iff.mp result
          obtain ⟨others, first, rfl⟩ := Option.map_eq_some_iff.mp result
          intro key member
          rcases List.mem_cons.mp member with rfl | later
          · exact isKept
          · exact ih first key later
        · exact ih result
  rintro ⟨type, _, found⟩
  have member := OrderedMap.mem_keys_ofList.mp (OrderedMap.mem_keys_iff.mpr ⟨_, found⟩)
  exact absurd (kept "_type" member) (by decide)

/-- What the decoder makes of a recordset that the encoder wrote. -/
theorem objectHook_recordset (model : String) (ids : List Int) (uid : Int) (su : Bool)
    (context : List (String × Decoded DateTime Date Element)) :
    objectHook library (OrderedMap.ofList [("_type", .text "odoo_recordset"),
        ("model", .text model), ("ids", .list (ids.map .number)), ("uid", .number uid),
        ("su", .bool su), ("context", .dict context)]) =
      some (.recordset (.number uid) (.bool su) (.text model) context
        (.list (ids.map .number))) := by
  cases context with
  | nil => rfl
  | cons entry rest => rfl

theorem decodeItems_numbers (ids : List Int) :
    decodeItems library (ids.map .number) = some (ids.map .number) := by
  induction ids with
  | nil => rfl
  | cons id rest ih =>
      rw [List.map_cons, decodeItems, ih]
      rfl

/-- Two parts that are written one after the other are read one after the other. -/
theorem read_both {First Rest Read ReadRest Whole ReadWhole : Type} {first : Option First}
    {rest : Option Rest} {read : First → Option Read} {readRest : Rest → Option ReadRest}
    {join : First → Rest → Whole} {joinRead : Read → ReadRest → ReadWhole}
    {readWhole : Whole → Option ReadWhole}
    (joined : ∀ part others, readWhole (join part others) =
      (read part).bind fun part => (readRest others).map (joinRead part)) :
    (first.bind fun part => rest.map (join part)).bind readWhole =
      (first.bind read).bind fun part => (rest.bind readRest).map (joinRead part) := by
  cases first with
  | none => rfl
  | some part =>
      cases rest with
      | some others => exact joined part others
      | none =>
          change none = (read part).bind fun _ => none
          cases read part <;> rfl

theorem decode_object {pairs : List (String × Json)}
    {read : Option (List (String × Decoded DateTime Date Element))}
    (inside : decodeEntries library pairs = read) : decode library (.object pairs) =
      read.bind fun entries => objectHook library (OrderedMap.ofList entries) := by
  rw [decode, inside]

mutual

/-- What was encoded is decoded as what it is, by cases of what the encoder wrote. -/
theorem decode_encode (lawful : library.Lawful) (argument : Argument DateTime Date Element)
    (readable : Readable library argument) :
    (encode library argument).bind (decode library) = plain argument := by
  cases argument with
  | null => rfl
  | bool value => rfl
  | number value => rfl
  | text value => rfl
  | other => rfl
  | list items =>
      have inside := decode_encodeItems lawful items readable
      rw [encode, plain, ← inside, Option.bind_map, Option.map_bind]
      rfl
  | tuple items =>
      have inside := decode_encodeItems lawful items readable
      rw [encode, plain, ← inside, Option.bind_map, Option.map_bind]
      rfl
  | dict entries =>
      have inside := decode_encodeEntries lawful entries readable.1
      rw [encode, plain]
      cases written : encodeEntries library entries with
      | none =>
          rw [written] at inside
          rw [← inside]
          rfl
      | some pairs =>
          rw [written] at inside
          change decode library (.object pairs) = _
          rw [decode_object inside]
          cases read : plainEntries entries with
          | none => rfl
          | some decoded => exact objectHook_eq_dict_iff.mpr (readable.2 decoded read)
  | recordset model ids uid su context =>
      have inside := decode_encodeContext lawful context readable
      rw [encode, plain]
      cases written : encodeContext library context with
      | none =>
          rw [written] at inside
          rw [← inside]
          rfl
      | some pairs =>
          rw [written] at inside
          have inner : decode library (.object pairs) = (plainContext context).bind fun read =>
              some (.dict (OrderedMap.ofList read).entries) := by
            rw [decode_object inside]
            refine Option.bind_congr fun read found => ?_
            exact objectHook_eq_dict_iff.mpr (not_reserved_context found)
          change decode library (.object _) = _
          simp only [decode, decodeEntries, decodeItems_numbers, Option.map_some,
            Option.bind_some] at inner ⊢
          rw [inner]
          cases plainContext context with
          | none => rfl
          | some read => exact objectHook_recordset model ids uid su _
  | datetime value =>
      change (library.parse (library.isoformat value)).map Decoded.datetime = some _
      rw [lawful.datetime value]
      rfl
  | date value =>
      change (library.parse (library.dateIsoformat value)).map
        (fun read => Decoded.date (library.date read)) = some _
      have same := lawful.date value
      obtain ⟨midnight, parsed, rfl⟩ := Option.map_eq_some_iff.mp same
      rw [parsed]
      rfl
  | element value =>
      change (library.fromstring (library.tostring value)).map Decoded.element = some _
      rw [show library.fromstring (library.tostring value) = some value from readable]
      rfl
  | lazy value => exact decode_encode lawful value readable

theorem decode_encodeItems (lawful : library.Lawful)
    (items : List (Argument DateTime Date Element)) (readable : ReadableItems library items) :
    (encodeItems library items).bind (decodeItems library) = plainItems items := by
  cases items with
  | nil => rfl
  | cons item rest =>
      have first := decode_encode lawful item readable.1
      have others := decode_encodeItems lawful rest readable.2
      rw [encodeItems, plainItems, ← first, ← others]
      exact read_both fun _ _ => rfl

theorem decode_encodeEntries (lawful : library.Lawful)
    (entries : List (Key × Argument DateTime Date Element))
    (readable : ReadableEntries library entries) :
    (encodeEntries library entries).bind (decodeEntries library) = plainEntries entries := by
  cases entries with
  | nil => rfl
  | cons entry rest =>
      have first := decode_encode lawful entry.2 readable.1
      have others := decode_encodeEntries lawful rest readable.2
      rw [encodeEntries, plainEntries, ← first, ← others]
      exact read_both fun _ _ => rfl

theorem decode_encodeContext (lawful : library.Lawful)
    (context : List (String × Argument DateTime Date Element))
    (readable : ReadableContext library context) :
    (encodeContext library context).bind (decodeEntries library) = plainContext context := by
  cases context with
  | nil => rfl
  | cons entry rest =>
      have others := decode_encodeContext lawful rest readable.2
      rw [encodeContext, plainContext]
      by_cases kept : entry.1 ∈ contextKeys
      · have first := decode_encode lawful entry.2 (readable.1 kept)
        rw [if_pos kept, if_pos kept, ← first, ← others]
        exact read_both fun _ _ => rfl
      · rw [if_neg kept, if_neg kept]
        exact others

end

end Formats

/-- One day, with its midnight and its noon, and one empty element. -/
def oneDay : Library Bool Unit Unit where
  isoformat noon := if noon then "2024-05-01T12:00:00" else "2024-05-01T00:00:00"
  dateIsoformat _ := "2024-05-01"
  parse text :=
    if text = "2024-05-01T12:00:00" then some true
    else if text = "2024-05-01T00:00:00" ∨ text = "2024-05-01" then some false
    else none
  date _ := ()
  tostring _ := "<p/>"
  fromstring text := if text = "<p/>" then some () else none
  truth _ := false

theorem oneDay_lawful : oneDay.Lawful := by
  refine ⟨fun noon => ?_, fun _ => rfl⟩
  cases noon with
  | false => rfl
  | true => rfl

/-- A call with a time, a date and an element, a dictionary that has a type of its own,
and a recordset. -/
def callArgument : Argument Bool Unit Unit :=
  .dict [(.number 1, .tuple [.datetime true, .date (), .element ()]),
    (.text "_type", .text "mine"),
    (.text "records", .recordset "res.partner" [3] 2 false [("lang", .text "fr"), ("key", .other)])]

end WorkflowStudio.Queue

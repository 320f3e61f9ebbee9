import Mathlib.Data.List.Dedup
import Mathlib.Data.String.Basic
import WorkflowStudio.Data.Equality
import WorkflowStudio.Lib.OrderedMap

/-! The comparison of two snapshots, by nodes, connections and metadata, that the history
dialog shows. -/

set_option autoImplicit false

namespace WorkflowStudio.Workflow.Comparison

open Lib

/-- A node, a connection or the metadata: a JSON object. -/
abbrev Item := OrderedMap String Value

/-- `item.get(key)`. -/
def Item.read (item : Item) (key : String) : Value := (item.get? key).getD .none

/-- `left == right` for two dictionaries. -/
def sameItem (left right : Item) : Bool :=
  left.keys.length == right.keys.length &&
    left.entries.all fun entry =>
      match right.get? entry.1 with
      | none => false
      | some value => decide (entry.2.Equal value)

/-- What the comparison reads of a snapshot. A snapshot that is missing has none of it. -/
structure Content where
  nodes : Option (List Item)
  connections : Option (List Item)
  metadata : Option Item

structure Listed where
  id : Value
  label : Value
  data : Item

structure Modified where
  id : Value
  label : Value
  new : Item
  old : Item
  changes : List String

structure ItemComparison where
  added : List Listed
  removed : List Listed
  modified : List Modified

structure MetadataChange where
  key : String
  new : Value
  old : Value

structure Summary where
  nodesAdded : Nat
  nodesRemoved : Nat
  nodesModified : Nat
  connectionsAdded : Nat
  connectionsRemoved : Nat
  connectionsModified : Nat
  metadataChanged : Nat

structure ComparisonResult where
  nodes : ItemComparison
  connections : ItemComparison
  metadata : List MetadataChange
  summary : Summary
  html : String

/-!
## Items
-/

/-- `sorted(set(new.keys()) | set(old.keys()))`. -/
def allKeys (new old : Item) : List String :=
  (new.keys ++ old.keys).dedup.insertionSort (· ≤ ·)

def skipKeys : List String := ["x", "y"]

/-- `_diff_objects`. -/
def diffObjects (new old : Item) : List String :=
  (allKeys new old).filter fun key =>
    decide (key ∉ skipKeys) && !decide ((new.read key).Equal (old.read key))

/-- `_compare_dicts`. -/
def compareDicts (new old : Option Item) : List MetadataChange :=
  let new := new.getD OrderedMap.empty
  let old := old.getD OrderedMap.empty
  (allKeys new old).filterMap fun key =>
    if (new.read key).Equal (old.read key) then none
    else some ⟨key, new.read key, old.read key⟩

/-- The items under their ids. An id is found again under an equal one; the first of the
equal ids stays the key. -/
abbrev ItemMap := OrderedMap Value (Value × Item)

/-- The error of a value that cannot be a key, if it is one. -/
def unhashable : Value → Option String
  | .list _ => some "unhashable type: 'list'"
  | .dict _ => some "unhashable type: 'dict'"
  | _ => none

/-- An id up to equality. -/
def idKey (id : Value) : Value := Value.normal (fun value => .int (if value then 1 else 0)) id

def addItem (map : ItemMap) (item : Item) : Except String ItemMap :=
  let id := item.read "id"
  if id.truthy = false then .ok map
  else
    match unhashable id with
    | some error => .error error
    | none =>
        let known := (map.get? (idKey id)).map Prod.fst
        .ok (map.set (idKey id) (known.getD id, item))

def itemMap : ItemMap → List Item → Except String ItemMap
  | map, [] => .ok map
  | map, item :: items => do itemMap (← addItem map item) items

/-- `item.get(label_key) or item.get("type") or k`. -/
def labelOf (labelKey : Option String) (id : Value) (item : Item) : Value :=
  (((labelKey.map item.read).getD .none).orElse (item.read "type")).orElse id

/-- The items of the first map that the second one has not. -/
def onlyIn (labelKey : Option String) (map other : ItemMap) : List Listed :=
  map.entries.filterMap fun entry =>
    if (other.get? entry.1).isSome then none
    else some ⟨entry.2.1, labelOf labelKey entry.2.1 entry.2.2, entry.2.2⟩

/-- The entry for an item of both maps, if it was modified. -/
def modifiedItem (labelKey : Option String) (id : Value) (new old : Item) : Option Modified :=
  if sameItem new old then none
  else
    let changes := diffObjects new old
    if changes.isEmpty then none else some ⟨id, labelOf labelKey id new, new, old, changes⟩

def modifiedIn (labelKey : Option String) (new old : ItemMap) : List Modified :=
  new.entries.filterMap fun entry =>
    (old.get? entry.1).bind fun found => modifiedItem labelKey entry.2.1 entry.2.2 found.2

/-- `_compare_items`. -/
def compareItems (labelKey : Option String) (newItems oldItems : Option (List Item)) :
    Except String ItemComparison := do
  let newMap ← itemMap OrderedMap.empty (newItems.getD [])
  let oldMap ← itemMap OrderedMap.empty (oldItems.getD [])
  return {
    added := onlyIn labelKey newMap oldMap
    removed := onlyIn labelKey oldMap newMap
    modified := modifiedIn labelKey newMap oldMap }

/-!
## The text of the dialog
-/

def escapeChar : Char → List Char
  | '&' => "&amp;".toList
  | '<' => "&lt;".toList
  | '>' => "&gt;".toList
  | '"' => "&quot;".toList
  | '\'' => "&#x27;".toList
  | char => [char]

section Html

-- `str(value)` of a value that is no string
variable (str : Value → String)

/-- `_escape`. -/
def escape : Value → String
  | .str text => String.ofList (text.toList.flatMap escapeChar)
  | value => String.ofList ((str value).toList.flatMap escapeChar)

def changesText (changes : List String) : String :=
  ", ".intercalate (changes.take 5) ++
    if 5 < changes.length then s!" (+{changes.length - 5} more)" else ""

def addedHtml (item : Listed) : String :=
  "<div class=\"wf-diff-added text-success\"><i class=\"fa fa-plus me-1\"></i> " ++
    escape str item.label ++ "</div>"

def removedHtml (item : Listed) : String :=
  "<div class=\"wf-diff-removed text-danger\"><i class=\"fa fa-minus me-1\"></i> " ++
    escape str item.label ++ "</div>"

def modifiedHtml (item : Modified) : String :=
  "<div class=\"wf-diff-modified text-warning\"><i class=\"fa fa-pencil me-1\"></i> " ++
    escape str item.label ++ ": <span class=\"text-muted small\">" ++
    escape str (.str (changesText item.changes)) ++ "</span></div>"

def countHtml (style icon word : String) (count : Nat) : String :=
  if count = 0 then ""
  else s!"<div class=\"{style}\"><i class=\"fa {icon} me-1\"></i> {count} {word}</div>"

def metadataHtml (change : MetadataChange) : String :=
  "<div class=\"text-info\"><i class=\"fa fa-info-circle me-1\"></i> " ++
    escape str (.str change.key) ++ " changed</div>"

def ItemComparison.isEmpty (items : ItemComparison) : Bool :=
  items.added.isEmpty && items.removed.isEmpty && items.modified.isEmpty

/-- A section with its title, unless nothing changed in it. -/
def sectionHtml (empty : Bool) (title body : String) : String :=
  if empty then ""
  else s!"<div class=\"wf-diff-section mb-3\"><h5 class=\"mb-2\">{title}</h5>" ++ body ++ "</div>"

/-- `_render_comparison_html`. -/
def renderComparisonHtml (nodes connections : ItemComparison)
    (metadata : List MetadataChange) : String :=
  let body :=
    if nodes.isEmpty && connections.isEmpty && metadata.isEmpty then
      "<div class=\"wf-diff-empty text-muted\">No changes</div>"
    else
      sectionHtml nodes.isEmpty "Nodes"
        (String.join (nodes.added.map (addedHtml str)) ++
          String.join (nodes.removed.map (removedHtml str)) ++
          String.join (nodes.modified.map (modifiedHtml str))) ++
      sectionHtml connections.isEmpty "Connections"
        (countHtml "text-success" "fa-plus" "added" connections.added.length ++
          countHtml "text-danger" "fa-minus" "removed" connections.removed.length ++
          countHtml "text-warning" "fa-pencil" "modified" connections.modified.length) ++
      sectionHtml metadata.isEmpty "Metadata" (String.join (metadata.map (metadataHtml str)))
  "<div class=\"wf-history-comparison\">" ++ body ++ "</div>"

/-- `generate_workflow_comparison`. -/
def generateWorkflowComparison (new old : Content) : Except String ComparisonResult := do
  let nodes ← compareItems (some "label") new.nodes old.nodes
  let connections ← compareItems none new.connections old.connections
  let metadata := compareDicts new.metadata old.metadata
  return {
    nodes := nodes
    connections := connections
    metadata := metadata
    summary := {
      nodesAdded := nodes.added.length
      nodesRemoved := nodes.removed.length
      nodesModified := nodes.modified.length
      connectionsAdded := connections.added.length
      connectionsRemoved := connections.removed.length
      connectionsModified := connections.modified.length
      metadataChanged := metadata.length }
    html := renderComparisonHtml str nodes connections metadata }

end Html

/-!
## Snapshots of the editor
-/

structure NodeJson where
  id : String
  type : Value
  label : Value
  position : Value
  config : Value
  metaFields : Value

/-- `BaseNode.toJSON`. -/
def NodeJson.toJSON (node : NodeJson) : Item :=
  ⟨[("id", .str node.id), ("type", node.type), ("label", node.label),
    ("position", node.position), ("config", node.config), ("meta", node.metaFields)], by simp⟩

structure ConnectionJson where
  id : String
  source : Value
  sourceHandle : Value
  target : Value
  targetHandle : Value
  metaFields : Value

/-- `Connection.toJSON`. -/
def ConnectionJson.toJSON (connection : ConnectionJson) : Item :=
  ⟨[("id", .str connection.id), ("source", connection.source),
    ("sourceHandle", connection.sourceHandle), ("target", connection.target),
    ("targetHandle", connection.targetHandle), ("meta", connection.metaFields)], by simp⟩

/-- A snapshot that the editor writes: its ids are not empty and name one item each. -/
structure EditorSnapshot where
  nodes : List NodeJson
  connections : List ConnectionJson
  metadata : Item
  nodesNamed : ∀ node ∈ nodes, node.id ≠ ""
  nodesDistinct : (nodes.map NodeJson.id).Nodup
  connectionsNamed : ∀ connection ∈ connections, connection.id ≠ ""
  connectionsDistinct : (connections.map ConnectionJson.id).Nodup

def EditorSnapshot.content (snapshot : EditorSnapshot) : Content where
  nodes := some (snapshot.nodes.map NodeJson.toJSON)
  connections := some (snapshot.connections.map ConnectionJson.toJSON)
  metadata := some snapshot.metadata

end WorkflowStudio.Workflow.Comparison

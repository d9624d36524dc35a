import KeysetQuery.Attribute.Normalizer
import KeysetQuery.Expression.Block
import KeysetQuery.Expression.Update
import KeysetQuery.Query.Descriptor

/-!
# Compiled queries

* `Descriptor.groups`, `Descriptor.conditions`, `keyConditions` — the parts of a query in
  canonical form;
* `queryParams` — the request for one page, without its start.
-/

namespace KeysetQuery

open Value

/-! ### Canonical parts -/

/-- The parts of one kind in the filters of a query, each with the name of its filter. -/
def Descriptor.partsOf (d : Descriptor) (kind : String) : List (String × Value) :=
  d.filters.filterMap fun f => (f.parts.get? kind).map fun v => (f.name, v)

def Descriptor.groups (d : Descriptor) : Except Fault (List Entries) :=
  eachOk (fun p => normalizeGroup p.2 (str p.1)) (d.partsOf "group")

def Descriptor.conditions (d : Descriptor) (n : Normalizer) : Except Fault (List Entries) :=
  eachOk (fun p => n.condition p.2 (str p.1)) (d.partsOf "condition")

/-- The conditions of a key.  Empty parts of the key are left out. -/
def keyConditions (n : Normalizer) (primaryKey : Value) : Except Fault (List Entries) := do
  let es ← primaryKey.entries
  eachOk (fun e => n.condition e.2 e.1) (es.filter fun e => !e.2.isEmpty)

/-! ### The request -/

/-- Whether the store is to go through the index in ascending order. -/
def Descriptor.scansForward (d : Descriptor) : Bool :=
  if d.sortAscending then d.pageForward else !d.pageForward

/-- An optional member of a request; an empty text is none. -/
def optionalMember (name : String) : Option String → Entries
  | some s => if s = "" then [] else [(str name, str s)]
  | none => []

/-- The request for one page, without its start. -/
def queryParams (n : Normalizer) (primaryKey table : Value) (d : Descriptor) :
    Noted Entries := do
  let groups ← (d.groups : Except Fault _)
  let conditions ← (d.conditions n : Except Fault _)
  let keys ← (keyConditions n primaryKey : Except Fault _)
  let keyBlock ← Block.ofConditions (keys.map .map) null
  let attributes ← (readAttributes ((keys ++ conditions).map .map) : Except Fault _)
  (requireAllAliases attributes : Except Fault Unit)
  let filter ←
    if conditions.isEmpty then pure []
    else do
      let blocks ← filterBlocks (list (groups.map .map)) (list (conditions.map .map))
      pure [(str "FilterExpression", str (filterText blocks))]
  pure ([(str "KeyConditionExpression", str keyBlock.text),
    (str "ExpressionAttributeNames", map (aliasMap attributes)),
    (str "ExpressionAttributeValues", map (bindingMap attributes)),
    (str "ScanIndexForward", .bool d.scansForward),
    (str "TableName", table),
    (str "Limit", int d.limit)]
    ++ filter ++ optionalMember "IndexName" d.index ++ optionalMember "Select" d.select)

end KeysetQuery

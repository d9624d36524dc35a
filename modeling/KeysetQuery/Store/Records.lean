import KeysetQuery.Attribute.Normalizer
import KeysetQuery.Expression.Update
import KeysetQuery.Store.Request

/-!
# Requests for single records

* `putParams` — write a whole record, optionally only where there is none;
* `patchParams` — write attributes of a record and leave the others alone;
* `keyParams` — read or delete the record of a key.
-/

namespace KeysetQuery

open Value

/-- Read or delete the record of a key. -/
def keyParams (primaryKey table : Value) : Except Fault Entries := do
  let key ← primaryKey.toMap
  pure [(str "TableName", table), (str "Key", map key)]

/-! ### Whole records -/

/-- The members that make a request write only where there is no record of the key. -/
def guardMembers (n : Normalizer) (primaryKey : Value) : Except Fault Entries := do
  let condition ← createGuard primaryKey
  let records ← n.dataValues primaryKey
  let attributes ← readAttributes (records.map .map)
  requireAllAliases attributes
  pure [(str "ConditionExpression", str condition),
    (str "ExpressionAttributeNames", map (aliasMap attributes))]

/-- Write a whole record.  Attributes of the key win over data of the same name. -/
def putParams (n : Normalizer) (data primaryKey table : Value) (createOnly : Bool) :
    Except Fault Entries := do
  let es ← data.mapEntries
  let key ← primaryKey.mapEntries
  let members ← if createOnly then guardMembers n primaryKey else pure []
  pure ([(str "TableName", table), (str "Item", map (Entries.merge es key))] ++ members)

/-! ### Parts of records -/

def changes (data primaryKey : Value) : Except Fault Entries := do
  let es ← data.entries
  let marked ← eachOk (fun e => (primaryKey.contains e.1).map fun b => (e, b)) es
  pure ((marked.filter fun m => !m.2).map Prod.fst)

/-- Write attributes of a record.  Attributes of the key and empty values are left out. -/
def patchParams (n : Normalizer) (data primaryKey table : Value) : Except Fault Entries := do
  let es ← changes data primaryKey
  let records ← n.dataValues (map es)
  let key ← primaryKey.toMap
  let attributes ← readAttributes (records.map .map)
  requireAllAliases attributes
  pure [(str "TableName", table), (str "Key", map key),
    (str "UpdateExpression", str (updateOf attributes)),
    (str "ExpressionAttributeNames", map (aliasMap attributes)),
    (str "ExpressionAttributeValues", map (bindingMap attributes))]

end KeysetQuery

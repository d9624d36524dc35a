import KeysetQuery.Stored.Decode

/-!
# Requests and responses in stored form

* `encodeRequest` — a request as it is sent: the members that are records have stored values;
* `decodeResponse` — a response as it is given back: the same for its members, without the
  part that describes the exchange itself.
-/

namespace KeysetQuery.Stored

open Value

/-! ### Requests -/

/-- The members of a request that are records, in the order in which they are encoded. -/
def requestRecords : List String :=
  ["Item", "Key", "ExclusiveStartKey", "ExpressionAttributeValues"]

/-- Apply a function to the members of a map that are records, as far as the map has them. -/
def mapRecords (f : Value → Except Fault Entries) : List String → Entries →
    Except Fault Entries
  | [], es => .ok es
  | m :: ms, es =>
    match Entries.field? es m with
    | none => mapRecords f ms es
    | some v => do
      let fs ← f v
      mapRecords f ms (Entries.putField es m (.map fs))

def encodeRequest (params : Value) : Except Fault Entries := do
  let es ← params.toMap
  mapRecords encodeRecord requestRecords es

/-! ### Responses -/

/-- The members of a response that are records, in the order in which they are decoded. -/
def responseRecords : List String := ["Item", "Attributes", "LastEvaluatedKey"]

def decodeItemsMember (es : Entries) : Except Fault Entries :=
  match Entries.field? es "Items" with
  | none => .ok es
  | some v => do
    let vs ← v.members
    let items ← eachOk decodeRecord vs
    pure (Entries.putField es "Items" (.list (items.map .map)))

def decodeResponse (response : Value) : Except Fault Entries := do
  let es ← response.toMap
  let es ← mapRecords decodeRecord responseRecords
    (Entries.erase es (str "ResponseMetadata"))
  decodeItemsMember es

end KeysetQuery.Stored

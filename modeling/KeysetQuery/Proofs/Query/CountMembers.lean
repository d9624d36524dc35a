import KeysetQuery.Proofs.Counting.Walk
import KeysetQuery.Proofs.Paging.Query

/-!
# The count beside a page

A query is compiled from its key, its table and its filters.  Where its page starts, how large it is
and what of the records is shown come later, and the count beside the page drops them again.

* `queryParts` — what a query is compiled to, whatever page is asked for;
* `result_queryParams` — the request for a page is made of these parts;
* `QueryParts.countMembers` — the first request of a count that is made of the same parts;
* `QueryParts.params_fromBeginning` — the count beside a page sends that request, and beside the
  last page the same one in the opposite direction.
-/

namespace KeysetQuery

open Value Entries

/-! ### Parts -/

/-- The text of a filter, if there are conditions. -/
def filterTextOf (groups conditions : List Entries) : Except Fault (Option String) :=
  if conditions.isEmpty then .ok none
  else (filterBlocks (list (groups.map .map)) (list (conditions.map .map))).result.map fun blocks =>
    some (filterText blocks)

/-- What a query is compiled to, whatever page is asked for. -/
def queryParts (n : Normalizer) (primaryKey table : Value) (d : Descriptor) :
    Except Fault QueryParts := do
  let groups ← d.groups
  let conditions ← d.conditions n
  let keys ← keyConditions n primaryKey
  let keyBlock ← (Block.ofConditions (keys.map .map) null).result
  let attributes ← readAttributes ((keys ++ conditions).map .map)
  requireAllAliases attributes
  let filter ← filterTextOf groups conditions
  pure ⟨keyBlock.text, aliasMap attributes, bindingMap attributes, filter, table⟩

/-- The parts of a query depend on its filters alone. -/
theorem queryParts_congr {d e : Descriptor} (h : d.filters = e.filters) (n : Normalizer)
    (primaryKey table : Value) :
    queryParts n primaryKey table d = queryParts n primaryKey table e := by
  unfold queryParts Descriptor.groups Descriptor.conditions Descriptor.partsOf
  rw [h]

/-- The request for a page is made of the parts of the query. -/
theorem result_queryParams (n : Normalizer) (primaryKey table : Value) (d : Descriptor) :
    (queryParams n primaryKey table d).result
      = (queryParts n primaryKey table d).map fun p => p.members d := by
  simp only [queryParams, queryParts, Noted.result_bind, Noted.result_liftM, map_bind_eq]
  refine bind_congr fun groups => bind_congr fun conditions => bind_congr fun keys =>
    bind_congr fun block => bind_congr fun attributes => bind_congr fun _ => ?_
  cases hempty : conditions.isEmpty with
  | true =>
    rw [filterTextOf, hempty]
    rfl
  | false =>
    rw [filterTextOf, hempty, if_neg Bool.false_ne_true, if_neg Bool.false_ne_true,
      Noted.result_bind]
    cases (filterBlocks (list (groups.map .map)) (list (conditions.map .map))).result <;> rfl

/-! ### Counts -/

namespace QueryParts

variable (p : QueryParts) (d : Descriptor)

/-- The first request of a count. -/
def countMembers : Entries :=
  [(str "KeyConditionExpression", str p.keyText),
    (str "ExpressionAttributeNames", map p.names),
    (str "ExpressionAttributeValues", map p.values),
    (str "ScanIndexForward", .bool d.scansForward),
    (str "TableName", p.table)]
    ++ filterMember p.filterText ++ optionalMember "IndexName" d.index
    ++ [(str "Select", str countSelect)]

theorem field?_countMembers_direction :
    field? (p.countMembers d) "ScanIndexForward" = some (.bool d.scansForward) := rfl

/-- The count beside a page has neither the size of the page nor its selection or its start.  Beside
the last page it goes in the opposite direction. -/
theorem params_fromBeginning :
    (CountWalk.fromBeginning (QueryPlan.startAt d.startKey (p.members d))).params
      = if d.wantsLastPage then
          putField (p.countMembers d) "ScanIndexForward" (.bool !d.scansForward)
        else p.countMembers d := by
  unfold members countMembers Descriptor.wantsLastPage
  generalize d.startKey = start
  rcases optionalMember_eq "IndexName" d.index with hindex | ⟨i, hindex⟩ <;>
    rcases optionalMember_eq "Select" d.select with hselect | ⟨s, hselect⟩ <;>
    rw [hindex, hselect] <;>
    cases p.filterText <;> cases start <;> rfl

end QueryParts

end KeysetQuery

import KeysetQuery.Query.Page
import KeysetQuery.Query.Params
import KeysetQuery.Store.Process

/-!
# Plans of queries

A query is planned before anything is sent: a request for one page and, if a total is wanted, a
count beside it.

* `QueryPlan` — the plan; `QueryPlan.make` makes it of a descriptor;
* `QueryPlan.pageProcess` and `QueryPlan.countProcess` — the processes of a plan;
* `QueryPlan.conclude` — the page that the results of both come to.
-/

namespace KeysetQuery

open Value

/-- The plan of a query. -/
structure QueryPlan where
  /-- What was asked for. -/
  descriptor : Descriptor
  /-- The parameters of the request for the page. -/
  params : Entries
  /-- Whether the matching records are counted. -/
  counts : Bool
deriving Inhabited

namespace QueryPlan

/-- The opposite direction of going through an index. -/
def turned (params : Entries) : Entries :=
  Entries.putField params "ScanIndexForward"
    (.bool (!((Entries.field? params "ScanIndexForward").getD null).truthy))

/-- The parameters of a page with its start.  The last page is read from the other end of the
index. -/
def startAt (start : StartKey) (params : Entries) : Entries :=
  match start with
  | .beginning => params
  | .last => turned params
  | .after cursor => Entries.putField params "ExclusiveStartKey" cursor.toValue

/-- The plan of a query.  The last page cannot be told without a total. -/
def make (n : Normalizer) (primaryKey table : Value) (d : Descriptor) : Noted QueryPlan := do
  let params ← queryParams n primaryKey table d
  pure ⟨d, startAt d.startKey params, d.includeTotal || d.wantsLastPage⟩

/-! ### Processes -/

def pageProcess (plan : QueryPlan) : Process := .settled ⟨.query, map plan.params⟩

def countProcess (plan : QueryPlan) : Process := .count (.fromBeginning plan.params)

/-! ### Results -/

/-- Whether the page was read against the direction of reading. -/
def isReversed (plan : QueryPlan) : Bool :=
  !plan.descriptor.pageForward || plan.descriptor.wantsLastPage

/-- The total that the result of a count is; null is none. -/
def totalOf (v : Value) : Option Value := if v.isNull then none else some v

def oriented (plan : QueryPlan) (page : Page) (total : Value) : Page :=
  let counted := { page with totalCount := (totalOf total).or page.totalCount }
  if plan.isReversed then counted.reversed else counted

/-- The page that the results of both processes come to: none if the page could not be read. -/
def conclude (plan : QueryPlan) (policy : Policy) (response total : Value) :
    Noted (Option Page) := do
  if response.isNull then pure none
  else
    let page ← (Page.ofResponse response : Except Fault Page)
    let page := plan.oriented page total
    if plan.descriptor.wantsLastPage then
      let page ← page.trimLast policy.shownFrom (.int plan.descriptor.limit)
      pure (some page)
    else pure (some page)

end QueryPlan

end KeysetQuery

import KeysetQuery.Proofs.Paging.Count
import KeysetQuery.Proofs.Query.Conclusion
import KeysetQuery.Proofs.Query.Members

/-!
# Queries of an index

* `SortedIndex.query` — a query of an index, from its descriptor to the page it comes to;
* `Descriptor.readsForward`, `Descriptor.start` — the direction and the start of its request;
* `SortedIndex.CanCount` — a query can count all that it has to count;
* `SortedIndex.readPage`, `SortedIndex.shownPage` — the page in the answer to its request, and that
  page with the total, in the order of reading;
* `query_eq` — a query comes to this page, which is cut if the last page was asked for.
-/

namespace KeysetQuery

open Value Entries

/-! ### Requests -/

namespace Descriptor

/-- The direction of the request for a page.  The last page is read from the other end. -/
def readsForward (d : Descriptor) : Bool := d.scansForward != d.wantsLastPage

/-- The key behind which a page starts. -/
def start (d : Descriptor) : Option Value :=
  match d.startKey with
  | .after cursor => some cursor.toValue
  | _ => none

/-- Whether a query counts. -/
def counts (d : Descriptor) : Bool := d.includeTotal || d.wantsLastPage

end Descriptor

section Requests

variable {n : Normalizer} {primaryKey table : Value} {d : Descriptor} {params : Entries}

/-- A compiled request has each member once, goes through the index as the descriptor says, is
limited, and says nothing about its start. -/
theorem members_queryParams (h : (queryParams n primaryKey table d).result = .ok params) :
    Distinct params ∧ field? params "ScanIndexForward" = some (.bool d.scansForward) ∧
      field? params "Limit" = some (int d.limit) ∧ field? params "ExclusiveStartKey" = none := by
  obtain ⟨_, _, _, block, attributes, filter, -, -, -, -, -, -, rfl⟩ := queryParams_eq_ok h
  exact ⟨QueryParts.distinct_members _ d, rfl, rfl, QueryParts.field?_members_start _ d⟩

/-- The request for a page, with its start. -/
theorem members_startAt (h : (queryParams n primaryKey table d).result = .ok params) :
    Distinct (QueryPlan.startAt d.startKey params) ∧
      SortedIndex.directionOf (QueryPlan.startAt d.startKey params) = d.readsForward ∧
      field? (QueryPlan.startAt d.startKey params) "Limit" = some (int d.limit) ∧
      field? (QueryPlan.startAt d.startKey params) "ExclusiveStartKey" = d.start := by
  obtain ⟨hdistinct, hforward, hlimit, hstart⟩ := members_queryParams h
  rw [Descriptor.readsForward, Descriptor.wantsLastPage, Descriptor.start]
  cases d.startKey with
  | beginning =>
    refine ⟨hdistinct, SortedIndex.directionOf_eq ?_, hlimit, hstart⟩
    rw [QueryPlan.startAt, hforward]
    exact congrArg (some ∘ Value.bool) (Bool.bne_false _).symm
  | last =>
    refine ⟨distinct_put hdistinct _ _, SortedIndex.directionOf_eq ?_, ?_, ?_⟩
    · rw [QueryPlan.startAt, QueryPlan.turned, field?_putField, if_pos rfl, hforward]
      exact congrArg (some ∘ Value.bool) (Bool.bne_true _).symm
    · rw [QueryPlan.startAt, QueryPlan.turned, field?_putField, if_neg (by decide), hlimit]
    · rw [QueryPlan.startAt, QueryPlan.turned, field?_putField, if_neg (by decide), hstart]
  | after cursor =>
    refine ⟨distinct_put hdistinct _ _, SortedIndex.directionOf_eq ?_, ?_, ?_⟩
    · rw [QueryPlan.startAt, field?_putField, if_neg (by decide), hforward]
      exact congrArg (some ∘ Value.bool) (Bool.bne_false _).symm
    · rw [QueryPlan.startAt, field?_putField, if_neg (by decide), hlimit]
    · rw [QueryPlan.startAt, field?_putField, if_pos rfl]

/-- The plan of a query is to send its compiled request, with its start. -/
theorem QueryPlan.result_make (n : Normalizer) (primaryKey table : Value) (d : Descriptor) :
    (QueryPlan.make n primaryKey table d).result
      = (queryParams n primaryKey table d).result.map fun params =>
          ⟨d, QueryPlan.startAt d.startKey params, d.counts⟩ :=
  Noted.result_bind_pure _ _

end Requests

/-! ### Plans -/

namespace SortedIndex

variable (ix : SortedIndex)

/-- A query of an index: the plan of the query, carried out with the answers of the index. -/
def query (policy : Policy) (turns : ℕ) (n : Normalizer) (primaryKey table : Value)
    (d : Descriptor) : Except Fault (Option Page) := do
  let plan ← (QueryPlan.make n primaryKey table d).result
  (plan.run policy ix.respond turns ()).1.result

/-- A query can count all that it has to count: it does not count at all, or a count may read all
pages of the index and has the turns for them. -/
def CanCount (policy : Policy) (turns : ℕ) (d : Descriptor) : Prop :=
  d.counts = true → policy.AllowsPages (pagesOf ix.chunk ix.records).length ∧
    (pagesOf ix.chunk ix.records).length ≤ turns

variable {ix}

section Queries

variable {policy : Policy} {turns : ℕ} {n : Normalizer} {primaryKey table : Value} {d : Descriptor}
  {params : Entries}

/-- The total of a query: the number of records that pass the filter, if it counts. -/
def totalFor (ix : SortedIndex) (d : Descriptor) : Option Value :=
  if d.counts then some (int ix.kept.length) else none

theorem exists_total (hcan : ix.CanCount policy turns d)
    (h : (queryParams n primaryKey table d).result = .ok params) :
    ∃ total, (if d.counts then (Process.count (.fromBeginning
        (QueryPlan.startAt d.startKey params))).run policy ix.respond turns ()
      else (pure (some .null), ())).1.result = .ok (some total) ∧
      QueryPlan.totalOf total = ix.totalFor d := by
  rw [totalFor]
  cases hcounts : d.counts with
  | false => exact ⟨.null, rfl, rfl⟩
  | true =>
    obtain ⟨hpages, hturns⟩ := hcan hcounts
    obtain ⟨hdistinct, -, -, -⟩ := members_startAt h
    have hcount := countsFrom_fromBeginning ix hdistinct
    generalize directionOf (QueryPlan.startAt d.startKey params) = forward at hcount
    have hlength : (pagesOf ix.chunk (ix.scan forward)).length
        = (pagesOf ix.chunk ix.records).length := length_pagesOf_congr (length_ordered forward _)
    have hkept : ((ix.scan forward).filter ix.keep).length = ix.kept.length := by
      rw [scan, filter_ordered, length_ordered]
      rfl
    have hallowed : policy.AllowsPages (0 + (pagesOf ix.chunk (ix.scan forward)).length) := by
      rw [hlength, Nat.zero_add]
      exact hpages
    have henough : (pagesOf ix.chunk (ix.scan forward)).length ≤ turns := by omega
    have hrun := hcount.result_run hallowed henough
    rw [Nat.zero_add, hkept] at hrun
    exact ⟨_, hrun, rfl⟩

/-- The page in the answer to the request of a query. -/
def readPage (ix : SortedIndex) (d : Descriptor) : Page :=
  let rest := ix.rest d.readsForward d.start
  { items := (rest.take d.limit.toNat).filter ix.keep
    cursor := ix.lastKey rest d.limit.toNat
    totalCount := none
    count := some ((rest.take d.limit.toNat).filter ix.keep).length
    scannedCount := some (rest.take d.limit.toNat).length }

/-- The page in the answer with the total, in the order of reading. -/
def shownPage (ix : SortedIndex) (d : Descriptor) : Page :=
  { ix.readPage d with
    items := ordered (d.pageForward && !d.wantsLastPage) (ix.readPage d).items
    totalCount := ix.totalFor d }

theorem oriented_readPage {plan : QueryPlan} {total : Value}
    (htotal : QueryPlan.totalOf total = ix.totalFor plan.descriptor) :
    plan.oriented (ix.readPage plan.descriptor) total = ix.shownPage plan.descriptor := by
  have hcounted : (QueryPlan.totalOf total).or none = ix.totalFor plan.descriptor := by
    rw [Option.or_none, htotal]
  have hturned : plan.isReversed
      = !(plan.descriptor.pageForward && !plan.descriptor.wantsLastPage) := by
    rw [QueryPlan.isReversed, Bool.not_and, Bool.not_not]
  rw [QueryPlan.oriented, shownPage, hturned, ← hcounted]
  cases plan.descriptor.pageForward && !plan.descriptor.wantsLastPage with
  | true => rfl
  | false => rfl

/-- A query comes to the page in the answer to its request, with the total and in the order of
reading.  If the last page was asked for, the page is cut. -/
theorem query_eq (hcan : ix.CanCount policy turns d)
    (h : (queryParams n primaryKey table d).result = .ok params) :
    ix.query policy turns n primaryKey table d
      = (if d.wantsLastPage then (ix.shownPage d).trimLast policy.shownFrom (int d.limit)
        else pure (ix.shownPage d)).result.map some := by
  obtain ⟨hdistinct, hdirection, hlimit, hstart⟩ := members_startAt h
  obtain ⟨total, hcount, htotal⟩ := exists_total hcan h
  have hanswer : ix.answer (QueryPlan.startAt d.startKey params)
      = ix.reply (ix.rest d.readsForward d.start) d.limit.toNat := by
    rw [answer, hdirection, hstart, sizeOf, hlimit]
  have hmake : (QueryPlan.make n primaryKey table d).result
      = .ok ⟨d, QueryPlan.startAt d.startKey params, d.counts⟩ := by
    rw [QueryPlan.make, Noted.result_bind, h]
    rfl
  have hpage : Page.ofResponse (map (ix.answer (QueryPlan.startAt d.startKey params)))
      = .ok (ix.readPage d) := by
    rw [hanswer]
    exact ofResponse_reply fun _ hr => mem_of_mem_rest hr
  have hshown := @oriented_readPage ix ⟨d, QueryPlan.startAt d.startKey params, d.counts⟩ _ htotal
  rw [query, hmake]
  refine (QueryPlan.result_run rfl hcount).trans ?_
  rw [QueryPlan.conclude, if_neg (by simp [isNull]), Noted.result_bind, Noted.result_liftM, hpage]
  simp only [← hshown]
  cases d.wantsLastPage with
  | true =>
    show ((QueryPlan.oriented _ _ _).trimLast _ _ >>= fun page => pure (some page)).result = _
    rw [Noted.result_bind]
    exact bind_pure_comp some _
  | false => rfl

/-- A query that does not ask for the last page comes to the records that its request reads and
that pass the filter, in the order of reading, with the key at which the scan ended. -/
theorem query_of_not_last (hcan : ix.CanCount policy turns d)
    (h : (queryParams n primaryKey table d).result = .ok params) (hlast : d.wantsLastPage = false) :
    ix.query policy turns n primaryKey table d = .ok (some (ix.shownPage d)) ∧
      (ix.shownPage d).items = ordered d.pageForward (ix.readPage d).items := by
  rw [query_eq hcan h, shownPage, hlast]
  exact ⟨rfl, by rw [Bool.not_false, Bool.and_true]⟩

end Queries

end SortedIndex

end KeysetQuery

import KeysetQuery.Store.QueryPlan

/-!
# Queries under way

The page and the count of a query are read side by side.  The query waits for both, and for no
more as soon as one of them has failed.

* `Branch` — how far one of the two is;
* `QueryRun` — how far a query is: its branches, and what it was told of their ends;
* `QueryRun.report` — the query is told that a branch has ended;
* `QueryRun.giveUp` — the branches that are still active end;
* `QueryRun.outcome` — what the query comes to;
* `QueryPlan.run` — the whole of a query, with a store that answers at once.
-/

namespace KeysetQuery

/-! ### Branches -/

/-- The branches of a query. -/
inductive BranchName where
  | page | count
deriving DecidableEq, Inhabited

/-- How far a branch is. -/
inductive Branch where
  | active (p : Process)
  | ended (r : Except Fault Value)

instance : Inhabited Branch := ⟨.ended (.ok .null)⟩

namespace Branch

def process? : Branch → Option Process
  | active p => some p
  | ended _ => none

def stopped : Branch → Branch
  | active _ => ended (.error .cancelled)
  | ended r => ended r

end Branch

/-! ### Queries -/

/-- How far a query is. -/
structure QueryRun where
  plan : QueryPlan
  page : Branch
  count : Branch
  /-- The branches whose end the query has still to be told of. -/
  awaited : List BranchName
  /-- The results of both branches, or the first fault the query was told of. -/
  verdict : Option (Except Fault (Value × Value))
deriving Inhabited

namespace QueryRun

/-- A query before its first request.  Without a total there is nothing to count. -/
def start (plan : QueryPlan) : QueryRun where
  plan := plan
  page := .active plan.pageProcess
  count := if plan.counts then .active plan.countProcess else .ended (.ok .null)
  awaited := if plan.counts then [.page, .count] else [.page]
  verdict := none

def branch (q : QueryRun) : BranchName → Branch
  | .page => q.page
  | .count => q.count

def setBranch (q : QueryRun) (b : BranchName) (x : Branch) : QueryRun :=
  match b with
  | .page => { q with page := x }
  | .count => { q with count := x }

@[simp] theorem branch_setBranch_self (q : QueryRun) (b : BranchName) (x : Branch) :
    (q.setBranch b x).branch b = x := by
  cases b <;> rfl

theorem branch_setBranch_of_ne (q : QueryRun) {b c : BranchName} (x : Branch) (h : b ≠ c) :
    (q.setBranch b x).branch c = q.branch c := by
  cases b <;> cases c <;> first | rfl | exact absurd rfl h

/-! ### What a query is told -/

/-- The results of branches that ended well. -/
def results (q : QueryRun) : Except Fault (Value × Value) :=
  match q.page, q.count with
  | .ended (.ok p), .ended (.ok c) => .ok (p, c)
  | _, _ => .error .cancelled

/-- The query is told that a branch has ended.  A fault decides it; so does the end of the last
branch it waits for.  Afterwards it is not interested any more. -/
def report (q : QueryRun) (b : BranchName) : QueryRun :=
  match q.verdict with
  | some _ => q
  | none =>
    match q.branch b with
    | .active _ => q
    | .ended (.error f) => { q with verdict := some (.error f) }
    | .ended (.ok _) =>
      let awaited := q.awaited.filter fun c => c ≠ b
      { q with
        awaited := awaited
        verdict := if awaited.isEmpty then some q.results else none }

/-- The branches that are still active end. -/
def giveUp (q : QueryRun) : QueryRun :=
  { q with page := q.page.stopped, count := q.count.stopped }

/-- What a query comes to, once it is decided. -/
def outcome (q : QueryRun) (policy : Policy) : Option (Noted (Option Page)) :=
  q.verdict.map fun v => do
    let r ← (v : Except Fault (Value × Value))
    q.plan.conclude policy r.1 r.2

/-- A decided query is not interested in what else it is told. -/
theorem report_of_decided {q : QueryRun} {v : Except Fault (Value × Value)}
    (h : q.verdict = some v) (b : BranchName) : q.report b = q := by
  simp [report, h]

end QueryRun

/-! ### The whole of a query -/

namespace QueryPlan

/-- The whole of a query with a store that answers at once: first the page, then the count.  A
count of more pages than `turns` has no result. -/
def run {σ : Type} (policy : Policy) (respond : Process.Responder σ) (turns : Nat) (s : σ)
    (plan : QueryPlan) : Noted (Option Page) × σ :=
  let page := plan.pageProcess.run policy respond 1 s
  let count :=
    if plan.counts then plan.countProcess.run policy respond turns page.2
    else (pure (some .null), page.2)
  let notices := page.1.notices ++ count.1.notices
  match page.1.result, count.1.result with
  | .ok (some p), .ok (some c) => ((plan.conclude policy p c).after notices, count.2)
  | .error f, _ => (⟨.error f, notices⟩, count.2)
  | _, .error f => (⟨.error f, notices⟩, count.2)
  | _, _ => (⟨.error .cancelled, notices⟩, count.2)

end QueryPlan

end KeysetQuery

import KeysetQuery.Proofs.Interleaving.CountEnd
import KeysetQuery.Proofs.Interleaving.Schedule
import KeysetQuery.Proofs.Query.Members
import KeysetQuery.Store.RecordStore

/-!
# What a query comes to, in any order of its turns

* `Policy.resultOf` — what the result of an operation comes to: a fault is raised or dropped;
* `QueryPlan.pageRequest`, `QueryPlan.CountEnds` — the request for the page, and how the count ends;
* `Interleaving.page_of_ended`, `Interleaving.count_of_ended` — what the branches have come to once
  they have ended;
* `outcome_of_answered` — the result does not depend on the order, and failures follow the policy.
-/

namespace KeysetQuery

open Value Entries

/-! ### Results under a policy -/

/-- What the result of an operation comes to. -/
def Policy.resultOf (policy : Policy) (operation : String) :
    Except Fault Value → Except Fault Value
  | .ok v => .ok v
  | .error f => if policy.rejects then .error (asFailure operation f) else .ok .null

/-- What is left of a result if its fault is dropped. -/
def orNull : Except Fault Value → Value
  | .ok v => v
  | .error _ => .null

section Results

variable {policy : Policy} {operation : String} {r : Except Fault Value}

theorem Policy.resultOf_of_dropped (h : policy.rejects = false) :
    policy.resultOf operation r = .ok (orNull r) := by
  cases r <;> simp [resultOf, orNull, h]

theorem Policy.of_resultOf_eq_error {g : Fault} (h : policy.resultOf operation r = .error g) :
    ∃ f, r = .error f ∧ policy.rejects = true ∧ g = asFailure operation f := by
  rcases r with f | w
  · refine ⟨f, rfl, ?_⟩
    unfold resultOf at h
    cases hrejects : policy.rejects with
    | true =>
      rw [hrejects] at h
      exact ⟨rfl, (Except.error.inj h).symm⟩
    | false =>
      rw [hrejects] at h
      cases h
  · cases h

theorem Policy.result_settle {reply : Reply} (h : IsOrderly reply) (o : Operation) :
    (policy.settle o reply).result = policy.resultOf o.name reply := by
  rcases reply with f | response
  · rw [settle, h.1, h.2]
    exact policy.result_afterFault o.name f
  · rfl

theorem Policy.ofCountEnd_eq {e : Except Fault Value} (h : CountWalk.IsCountEnd e) :
    policy.ofCountEnd e = policy.resultOf countName e := by
  rcases e with f | total
  · exact policy.result_settleCount h
  · rfl

end Results

/-! ### Plans -/

namespace QueryPlan

/-- The request for the page of a query. -/
def pageRequest (plan : QueryPlan) : Request := ⟨.query, map plan.params⟩

/-- How the count of a query ends. -/
def CountEnds (plan : QueryPlan) (policy : Policy) (answer : Request → Reply)
    (e : Except Fault Value) : Prop :=
  CountWalk.Ends policy answer (.fromBeginning plan.params) e

/-- The count of a query starts with an integer sum, so that it ends with one unless it fails. -/
theorem CountEnds.isCountEnd {plan : QueryPlan} {policy : Policy} {answer : Request → Reply}
    {e : Except Fault Value} (h : plan.CountEnds policy answer e) {m : Int}
    (hm : policy.maxCountPages = .int m) (hanswer : ∀ request, IsOrderly (answer request)) :
    CountWalk.IsCountEnd e :=
  CountWalk.Ends.isCountEnd hm hanswer h (CountWalk.isSound_fromBeginning plan.params)

end QueryPlan

/-! ### Branches -/

namespace Interleaving

variable {policy : Policy} {plan : QueryPlan} {answer : Request → Reply} {schedule : Schedule}

/-- All replies are those of a store whose answer depends on the request alone. -/
def IsAnswered (answer : Request → Reply) (x : Interleaving) : Prop :=
  ∀ b, AnsweredBy answer (x.calls b)

/-- The branch of the page, as if it were alone. -/
theorem lane_page (plan : QueryPlan) (policy : Policy) (schedule : Schedule) :
    ((start plan).after policy schedule).lane .page
      = (Lane.start (.settled plan.pageRequest)).after policy (schedule.repliesOf .page) :=
  lane_after schedule .page

theorem settles_page (plan : QueryPlan) (policy : Policy) (schedule : Schedule) :
    Lane.Settles (.settled plan.pageRequest) plan.pageRequest
      (fun reply => (policy.settle .query reply).result)
      (((start plan).after policy schedule).lane .page) := by
  rw [lane_page]
  exact Lane.settles_after (Process.asksOnce_settled policy plan.pageRequest) _

/-- The branch of the count, as if it were alone. -/
theorem lane_count (hcounts : plan.counts = true) (policy : Policy) (schedule : Schedule) :
    ((start plan).after policy schedule).lane .count
      = (Lane.start (.count (.fromBeginning plan.params))).after policy
        (schedule.repliesOf .count) := by
  rw [lane_after, lane_start_count hcounts]
  rfl

theorem IsAnswered.of_prefix {front : Schedule}
    (h : ((start plan).after policy schedule).IsAnswered answer) (hfront : front <+: schedule) :
    ((start plan).after policy front).IsAnswered answer :=
  fun b => AnsweredBy.of_prefix (h b) (calls_prefix_after hfront b)

/-- A page has ended after two turns. -/
theorem exists_page_ended (plan : QueryPlan) (policy : Policy)
    (h : 2 ≤ (schedule.repliesOf .page).length) :
    ∃ r, ((start plan).after policy schedule).run.branch .page = .ended r := by
  have hended := Lane.ended_of_asksOnce (Process.asksOnce_settled policy plan.pageRequest) h
  rw [← lane_page] at hended
  exact hended

/-- A count that ends has ended after enough turns. -/
theorem exists_turns_count {m : Int} (hm : policy.maxCountPages = .int m)
    (hcounts : plan.counts = true) {e : Except Fault Value}
    (hends : plan.CountEnds policy answer e) : ∃ least, ∀ schedule : Schedule,
      ((start plan).after policy schedule).IsAnswered answer →
      least ≤ (schedule.repliesOf .count).length →
      ∃ r, ((start plan).after policy schedule).run.branch .count = .ended r := by
  obtain ⟨least, hleast⟩ := hends.exists_turns hm
  refine ⟨least, fun schedule hcalls hlength => ?_⟩
  have hended := hleast [] (schedule.repliesOf .count) hlength
  rw [show (⟨.active (.count (.fromBeginning plan.params)), none, []⟩ : Lane)
    = .start (.count (.fromBeginning plan.params)) from rfl, ← lane_count hcounts] at hended
  exact hended (hcalls .count)

section Ended

variable (hanswer : ∀ request, IsOrderly (answer request))
  (hcalls : ((start plan).after policy schedule).IsAnswered answer) {r : Except Fault Value}

include hanswer hcalls

/-- A page that has ended has come to what the answer to its request comes to. -/
theorem page_of_ended (h : ((start plan).after policy schedule).run.branch .page = .ended r) :
    r = policy.resultOf "query" (answer plan.pageRequest) := by
  obtain ⟨reply, rfl, hexchange⟩ := (settles_page plan policy schedule).of_ended h
  obtain rfl : reply = answer plan.pageRequest := hcalls .page _ hexchange
  exact Policy.result_settle (hanswer plan.pageRequest) .query

/-- A count that has ended has come to what its end comes to. -/
theorem count_of_ended {m : Int} (hm : policy.maxCountPages = .int m)
    (hcounts : plan.counts = true)
    (h : ((start plan).after policy schedule).run.branch .count = .ended r) :
    ∃ e, plan.CountEnds policy answer e ∧ r = policy.resultOf "count" e := by
  have hlane := lane_count hcounts policy schedule
  have hfollows := Lane.follows_after hm hanswer (CountWalk.isSound_fromBeginning plan.params)
    (schedule.repliesOf .count)
  rw [← hlane] at hfollows
  obtain ⟨e, hends, rfl⟩ := (hfollows (hcalls .count)).of_ended h
  have hcountEnds : plan.CountEnds policy answer e := hends
  exact ⟨e, hends, Policy.ofCountEnd_eq (hcountEnds.isCountEnd hm hanswer)⟩

end Ended

end Interleaving

/-! ### Outcomes -/

section Outcomes

variable {policy : Policy} {plan : QueryPlan} {answer : Request → Reply} {m : Int}
  (hm : policy.maxCountPages = .int m) (hcounts : plan.counts = true)
  (hanswer : ∀ request, IsOrderly (answer request))

include hm hcounts hanswer

/-- A query comes to what its page and its count come to together, or to the failure of one of
them. -/
theorem Interleaving.result_cases {schedule : Schedule} {o : Noted (Option Page)}
    (hcalls : ((start plan).after policy schedule).IsAnswered answer)
    (ho : ((start plan).after policy schedule).run.outcome policy = some o) :
    (∃ p c e, policy.resultOf "query" (answer plan.pageRequest) = .ok p ∧
      plan.CountEnds policy answer e ∧ policy.resultOf "count" e = .ok c ∧
      o.result = (plan.conclude policy p c).result) ∨
    policy.rejects = true ∧ ∃ f operation,
      (answer plan.pageRequest = .error f ∧ operation = "query" ∨
        plan.CountEnds policy answer (.error f) ∧ operation = "count") ∧
      o.result = .error (asFailure operation f) := by
  rcases (consistent_of_start plan policy schedule).outcome_cases ho with
    ⟨p, c, hpage, hcount, hresult⟩ | ⟨b, g, hb, hresult⟩
  · obtain ⟨e, hends, he⟩ := count_of_ended hanswer hcalls hm hcounts hcount
    exact .inl ⟨p, c, e, (page_of_ended hanswer hcalls hpage).symm, hends, he.symm, hresult⟩
  · right
    cases b with
    | page =>
      obtain ⟨f, hf, hrejects, rfl⟩ :=
        Policy.of_resultOf_eq_error (page_of_ended hanswer hcalls hb).symm
      exact ⟨hrejects, f, "query", .inl ⟨hf, rfl⟩, hresult⟩
    | count =>
      obtain ⟨e, hends, he⟩ := count_of_ended hanswer hcalls hm hcounts hb
      obtain ⟨f, rfl, hrejects, rfl⟩ := Policy.of_resultOf_eq_error he.symm
      exact ⟨hrejects, f, "count", .inr ⟨hends, rfl⟩, hresult⟩

omit hanswer in
/-- A query whose count ends is decided after enough turns of both branches. -/
theorem Interleaving.exists_turns {e : Except Fault Value}
    (hends : plan.CountEnds policy answer e) : ∃ least, ∀ schedule : Schedule,
      ((start plan).after policy schedule).IsAnswered answer →
      (∀ b, least ≤ (schedule.repliesOf b).length) →
      ((start plan).after policy schedule).run.outcome policy ≠ none := by
  obtain ⟨least, hleast⟩ := exists_turns_count hm hcounts hends
  refine ⟨max 2 least + 1, fun schedule hcalls hlength => ?_⟩
  refine outcome_ne_none (QueryRun.consistent_start plan) (max 2 least) ?_ hlength
  intro b front hfront hturns
  cases b with
  | page => exact exists_page_ended plan policy (by omega)
  | count => exact hleast front (hcalls.of_prefix hfront) (by omega)

/-- A query that raises failures is decided after enough turns of a branch that fails. -/
theorem Interleaving.exists_turns_of_raised (hrejects : policy.rejects = true)
    (hfails : ∃ f, answer plan.pageRequest = .error f ∨ plan.CountEnds policy answer (.error f)) :
    ∃ b least, ∀ schedule : Schedule,
      ((start plan).after policy schedule).IsAnswered answer →
      least ≤ (schedule.repliesOf b).length →
      ((start plan).after policy schedule).run.outcome policy ≠ none := by
  obtain ⟨f, hf | hf⟩ := hfails
  · refine ⟨.page, 3, fun schedule hcalls hlength => ?_⟩
    refine outcome_ne_none_of_error (QueryRun.consistent_start plan) 2 ?_ hlength
    intro front hfront hturns
    obtain ⟨r, hr⟩ := exists_page_ended plan policy hturns
    have hresult := page_of_ended hanswer (hcalls.of_prefix hfront) hr
    rw [hf, Policy.resultOf, if_pos hrejects] at hresult
    exact ⟨_, hresult ▸ hr⟩
  · obtain ⟨least, hleast⟩ := exists_turns_count hm hcounts hf
    refine ⟨.count, least + 1, fun schedule hcalls hlength => ?_⟩
    refine outcome_ne_none_of_error (QueryRun.consistent_start plan) least ?_ hlength
    intro front hfront hturns
    obtain ⟨r, hr⟩ := hleast front (hcalls.of_prefix hfront) hturns
    obtain ⟨e, hends, hresult⟩ :=
      count_of_ended hanswer (hcalls.of_prefix hfront) hm hcounts hr
    rw [← hf.unique hends, Policy.resultOf, if_pos hrejects] at hresult
    exact ⟨_, hresult ▸ hr⟩

/-- A query that reads its page first and then counts. -/
theorem QueryPlan.result_run_answering {response total : Value}
    (hresponse : answer plan.pageRequest = .ok response)
    (hends : plan.CountEnds policy answer (.ok total)) : ∃ least, ∀ turns, least ≤ turns →
      (plan.run policy (answering answer) turns ()).1.result
        = (plan.conclude policy response total).result := by
  obtain ⟨least, hleast⟩ := CountWalk.Ends.result_run hm hanswer hends
    (CountWalk.isSound_fromBeginning plan.params)
  refine ⟨least, fun turns hturns => ?_⟩
  have hasks := Process.asksOnce_settled policy plan.pageRequest
  have hanswered := (Process.trip_of_send (answering answer) () hasks.next_eq).1
  have htrip : (plan.pageProcess.trip policy (answering answer) ()).1.result
      = (Except.ok response).map .stops := by
    refine hanswered.trans ((hasks.receive_eq _).trans ?_)
    show ((policy.settle .query (answer plan.pageRequest)).result).map _ = _
    rw [hresponse]
    rfl
  refine QueryPlan.result_run (Process.run_of_ends 0 htrip).1 ?_
  rw [if_pos hcounts]
  exact hleast turns hturns

section Decided

variable {schedule : Schedule} {o : Noted (Option Page)}
  (hcalls : ((Interleaving.start plan).after policy schedule).IsAnswered answer)
  (ho : ((Interleaving.start plan).after policy schedule).run.outcome policy = some o)

include hcalls ho

/-- If neither the page nor the count fails, a query comes to what it comes to when the page is read
first and the count runs after it. -/
theorem result_of_unfailed (hlimit : 0 < plan.descriptor.limit) {response total : Value}
    (hresponse : answer plan.pageRequest = .ok response)
    (hends : plan.CountEnds policy answer (.ok total)) :
    (∃ page, o.result = .ok (some page) ∧ page.totalCount = some total) ∧
      ∃ least, ∀ turns, least ≤ turns →
        (plan.run policy (answering answer) turns ()).1.result = o.result := by
  have horderly : IsQueryResponse response := by
    have hreply := hanswer plan.pageRequest
    rwa [hresponse] at hreply
  rcases Interleaving.result_cases hm hcounts hanswer hcalls ho with
    ⟨p, c, e, hp, hends', hc, hresult⟩ | ⟨-, f, operation, ⟨hf, -⟩ | ⟨hf, -⟩, -⟩
  · rw [hresponse] at hp
    obtain rfl : response = p := Except.ok.inj hp
    obtain rfl := hends.unique hends'
    obtain rfl : total = c := Except.ok.inj hc
    obtain ⟨n, rfl⟩ := hends.isCountEnd hm hanswer
    obtain ⟨-, -, -, page, hpage⟩ := id horderly
    obtain ⟨shown, hshown, htotal⟩ :=
      QueryPlan.result_conclude_int policy horderly hpage hlimit n
    refine ⟨⟨shown, hresult.trans hshown, htotal⟩, ?_⟩
    rw [hresult]
    exact QueryPlan.result_run_answering hm hcounts hanswer hresponse hends
  · rw [hresponse] at hf
    cases hf
  · cases hends.unique hf

/-- If failures are dropped, a query comes to what is left of its page and its count. -/
theorem Interleaving.result_eq_of_dropped (hrejects : policy.rejects = false) :
    ∃ e, plan.CountEnds policy answer e ∧
      o.result = (plan.conclude policy (orNull (answer plan.pageRequest)) (orNull e)).result := by
  rcases result_cases hm hcounts hanswer hcalls ho with
    ⟨p, c, e, hp, hends, hc, hresult⟩ | ⟨hraises, -⟩
  · rw [Policy.resultOf_of_dropped hrejects] at hp hc
    obtain rfl := Except.ok.inj hp
    obtain rfl := Except.ok.inj hc
    exact ⟨e, hends, hresult⟩
  · rw [hrejects] at hraises
    cases hraises

/-- If failures are dropped, none is raised: a page that fails leaves nothing, and a count that
fails leaves the page without a total. -/
theorem result_of_dropped (hlimit : 0 < plan.descriptor.limit) (hrejects : policy.rejects = false) :
    (∀ f, o.result ≠ .error f) ∧
      (∀ f, answer plan.pageRequest = .error f → o.result = .ok none) ∧
      ∀ response page f, answer plan.pageRequest = .ok response →
        Page.ofResponse response = .ok page → plan.CountEnds policy answer (.error f) →
        o.result = .ok (some (plan.shown page)) ∧ (plan.shown page).totalCount = none := by
  obtain ⟨e, hends, hresult⟩ :=
    Interleaving.result_eq_of_dropped hm hcounts hanswer hcalls ho hrejects
  have horderly := hanswer plan.pageRequest
  rw [hresult]
  refine ⟨?_, ?_, ?_⟩
  · intro g
    rcases hreply : answer plan.pageRequest with f | response
    · simp [orNull, QueryPlan.result_conclude_of_null]
    · rw [hreply] at horderly
      obtain ⟨-, -, -, page, hpage⟩ := id horderly
      rcases e with f | total
      · rw [orNull, orNull, QueryPlan.result_conclude_null horderly hpage]
        simp
      · obtain ⟨n, rfl⟩ := hends.isCountEnd hm hanswer
        obtain ⟨shown, hshown, -⟩ :=
          QueryPlan.result_conclude_int policy horderly hpage hlimit n
        rw [orNull, orNull, hshown]
        simp
  · intro f hf
    rw [hf, orNull, QueryPlan.result_conclude_of_null]
  · intro response page f hresponse hpage hfails
    rw [hresponse] at horderly ⊢
    obtain rfl := hends.unique hfails
    have htotal : page.totalCount = none := Page.totalCount_of_ofResponse hpage
    exact ⟨QueryPlan.result_conclude_null horderly hpage, htotal⟩

/-- If failures are raised, what fails is raised: as it is if it is a failure of the store already,
and otherwise as the cause of one, under the name of what failed. -/
theorem result_of_raised (hrejects : policy.rejects = true)
    (hfails : ∃ f, answer plan.pageRequest = .error f ∨ plan.CountEnds policy answer (.error f)) :
    ∃ f operation, (answer plan.pageRequest = .error f ∧ operation = "query" ∨
        plan.CountEnds policy answer (.error f) ∧ operation = "count") ∧
      o.result = .error (if f.isFailure then f else .failed f.message operation (some f)) := by
  rcases Interleaving.result_cases hm hcounts hanswer hcalls ho with
    ⟨p, c, e, hp, hends, hc, -⟩ | ⟨-, hraised⟩
  · exfalso
    obtain ⟨f, hf | hf⟩ := hfails
    · rw [hf, Policy.resultOf, if_pos hrejects] at hp
      cases hp
    · obtain rfl := hf.unique hends
      rw [Policy.resultOf, if_pos hrejects] at hc
      cases hc
  · exact hraised

end Decided

end Outcomes

/-- In whatever order the page and the count of a query take their turns, the query comes to the
same if neither fails: to what it comes to when the page is read first and the count runs after it.
If failures are dropped, none is raised: a page that fails leaves nothing, and a count that fails
leaves the page without a total.  If failures are raised, what fails is raised, under its name and
as the cause unless it is a failure of the store already.  The query does come to something: once
both have had their turns, if its count ends, or once what fails has had its turns, if failures are
raised.  A count with a bound ends. -/
theorem outcome_of_answered {policy : Policy} {plan : QueryPlan} {answer : Request → Reply}
    {m : Int} (hcounts : plan.counts = true) (hlimit : 0 < plan.descriptor.limit)
    (hm : policy.maxCountPages = .int m) (hanswer : ∀ request, IsOrderly (answer request)) :
    (∀ schedule o, ((Interleaving.start plan).after policy schedule).IsAnswered answer →
      ((Interleaving.start plan).after policy schedule).run.outcome policy = some o →
      (∀ response total, answer plan.pageRequest = .ok response →
        plan.CountEnds policy answer (.ok total) →
        (∃ page, o.result = .ok (some page) ∧ page.totalCount = some total) ∧
        ∃ least, ∀ turns, least ≤ turns →
          (plan.run policy (answering answer) turns ()).1.result = o.result) ∧
      (policy.rejects = false →
        (∀ f, o.result ≠ .error f) ∧
        (∀ f, answer plan.pageRequest = .error f → o.result = .ok none) ∧
        ∀ response page f, answer plan.pageRequest = .ok response →
          Page.ofResponse response = .ok page → plan.CountEnds policy answer (.error f) →
          o.result = .ok (some (plan.shown page)) ∧ (plan.shown page).totalCount = none) ∧
      (policy.rejects = true →
        (∃ f, answer plan.pageRequest = .error f ∨ plan.CountEnds policy answer (.error f)) →
        ∃ f operation, (answer plan.pageRequest = .error f ∧ operation = "query" ∨
            plan.CountEnds policy answer (.error f) ∧ operation = "count") ∧
          o.result = .error (if f.isFailure then f else .failed f.message operation (some f)))) ∧
    (∀ e, plan.CountEnds policy answer e → ∃ least, ∀ schedule : Schedule,
      ((Interleaving.start plan).after policy schedule).IsAnswered answer →
      (∀ b, least ≤ (schedule.repliesOf b).length) →
      ((Interleaving.start plan).after policy schedule).run.outcome policy ≠ none) ∧
    (policy.rejects = true →
      (∃ f, answer plan.pageRequest = .error f ∨ plan.CountEnds policy answer (.error f)) →
      ∃ b least, ∀ schedule : Schedule,
        ((Interleaving.start plan).after policy schedule).IsAnswered answer →
        least ≤ (schedule.repliesOf b).length →
        ((Interleaving.start plan).after policy schedule).run.outcome policy ≠ none) ∧
    (0 < m → ∃ e, plan.CountEnds policy answer e) := by
  refine ⟨fun schedule o hcalls ho => ⟨?_, ?_, ?_⟩, ?_, ?_, ?_⟩
  · intro response total hresponse hends
    exact result_of_unfailed hm hcounts hanswer hcalls ho hlimit hresponse hends
  · exact result_of_dropped hm hcounts hanswer hcalls ho hlimit
  · exact result_of_raised hm hcounts hanswer hcalls ho
  · exact fun e hends => Interleaving.exists_turns hm hcounts hends
  · exact Interleaving.exists_turns_of_raised hm hcounts hanswer
  · intro hpos
    obtain ⟨n, rfl⟩ : ∃ n : ℕ, m = n := ⟨m.toNat, by omega⟩
    exact CountWalk.exists_ends hm (by omega) answer _

/-- The answers of a store to which all queries are the same: one record on the page, and three in
all. -/
def oneOfThree (request : Request) : Reply :=
  if selectsCount request.params then .ok (map [(str "Count", int 3)])
  else .ok (map [(str "Items", list [map [(str "id", int 1)]]), (str "Count", int 1)])

theorem isOrderly_oneOfThree (request : Request) : IsOrderly (oneOfThree request) := by
  unfold oneOfThree
  split
  · refine ⟨_, rfl, ?_, _, rfl⟩
    rintro v ⟨⟩
    exact ⟨3, rfl⟩
  · refine ⟨_, rfl, ?_, _, rfl⟩
    rintro v ⟨⟩
    exact ⟨1, rfl⟩

/-- The count asks first, the page is answered first, and the count is reported first. -/
def countAsksFirst : Schedule :=
  [(.count, .ok null), (.page, .ok null),
    (.page, oneOfThree ⟨.query, map []⟩),
    (.count, oneOfThree ⟨.query, map [(str "Select", str countSelect)]⟩),
    (.count, .ok null), (.page, .ok null)]

/-- The plan of a query that asks for a total. -/
def totalPlan : QueryPlan where
  descriptor := { Descriptor.plain 10 with includeTotal := true }
  params :=
    [(str "KeyConditionExpression", str "(#pk = :pk)"),
      (str "ExpressionAttributeNames", map [(str "#pk", str "pk")]),
      (str "ExpressionAttributeValues", map [(str ":pk", str "A")]),
      (str "ScanIndexForward", .bool true), (str "TableName", str "t"), (str "Limit", int 10)]
  counts := true

theorem outcome_of_answered_oneOfThree :
    ((RecordStore.mk ⟨true, int 3, 20⟩ .standard 10).begin (.query (map [(str "pk", str "A")])
      (str "t") (map [(str "includeTotal", .bool true)]) false)).result = .ok (.query totalPlan) ∧
    ∃ o, ((Interleaving.start totalPlan).after ⟨true, int 3, 20⟩ countAsksFirst).run.outcome
        ⟨true, int 3, 20⟩ = some o ∧
      ∃ page, o.result = .ok (some page) ∧ page.totalCount = some (int 3) := by
  refine ⟨rfl, _, rfl, ?_⟩
  have houtcome := @outcome_of_answered ⟨true, int 3, 20⟩ totalPlan oneOfThree 3 rfl (by decide) rfl
    isOrderly_oneOfThree
  refine ((houtcome.1 countAsksFirst _ ?_ rfl).1 _ _ rfl (.completes rfl)).1
  intro b
  cases b <;> exact List.forall_mem_singleton.2 rfl

end KeysetQuery

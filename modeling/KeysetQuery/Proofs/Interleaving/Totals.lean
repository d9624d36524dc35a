import KeysetQuery.Proofs.Interleaving.Outcome
import KeysetQuery.Proofs.Query.CountMembers
import KeysetQuery.Proofs.Query.Restart

/-!
# Totals wherever the reader is

The total of a query is counted from the beginning, wherever the page beside it starts and however
large it is.

* `Lane.after_eq_of_answered` — a branch with a store whose answer depends on the request alone goes
  one way only;
* `QueryPlan.CountsFirst` — the first request of the count beside a page;
* `QueryPlan.CountsAlike` — queries whose counts pass the same with such a store and come to the
  same total; `countsAlike_of_walk_eq` says that the first request decides;
* `QueryPlan.totalCount_of_conclude` — the total of a page is what its count came to;
* `Descriptor.SearchesAlike` — descriptors that ask for the same records in the same order;
* `total_of_searchesAlike` — they have the same total.
-/

namespace KeysetQuery

open Value Entries

/-! ### Branches with one store -/

namespace Lane

variable {policy : Policy} {answer : Request → Reply} {lane : Lane} {replies replies' : List Reply}

/-- In a turn a reply counts only if it is waited for, and then it is the answer. -/
theorem turn_eq_of_answered {reply reply' : Reply}
    (h : AnsweredBy answer (lane.turn policy reply).calls)
    (h' : AnsweredBy answer (lane.turn policy reply').calls) :
    lane.turn policy reply = lane.turn policy reply' := by
  obtain ⟨branch, asked, calls⟩ := lane
  cases branch with
  | ended r => rfl
  | active p =>
    cases asked with
    | none => rfl
    | some request =>
      have hreply : reply = answer request :=
        h ⟨request, reply⟩ (List.mem_append_right calls (List.mem_singleton_self _))
      have hreply' : reply' = answer request :=
        h' ⟨request, reply'⟩ (List.mem_append_right calls (List.mem_singleton_self _))
      rw [hreply, hreply']

/-- After as many turns a branch is in the same place. -/
theorem after_eq_of_answered (h : AnsweredBy answer (lane.after policy replies).calls)
    (h' : AnsweredBy answer (lane.after policy replies').calls)
    (hlength : replies.length = replies'.length) :
    lane.after policy replies = lane.after policy replies' := by
  induction replies generalizing lane replies' with
  | nil =>
    rw [List.length_eq_zero_iff.1 hlength.symm]
  | cons reply replies ih =>
    cases replies' with
    | nil => cases hlength
    | cons reply' replies' =>
      have hturn : lane.turn policy reply = lane.turn policy reply' :=
        turn_eq_of_answered (h.of_prefix (calls_prefix_after replies))
          (h'.of_prefix (calls_prefix_after replies'))
      rw [after_cons, hturn] at h ⊢
      rw [after_cons] at h' ⊢
      exact ih h h' (Nat.succ.inj hlength)

/-- After more turns a branch is further on the same way. -/
theorem exists_after_of_answered (h : AnsweredBy answer (lane.after policy replies).calls)
    (h' : AnsweredBy answer (lane.after policy replies').calls)
    (hle : replies.length ≤ replies'.length) :
    ∃ rest, lane.after policy replies' = (lane.after policy replies).after policy rest := by
  have hsplit : lane.after policy replies'
      = (lane.after policy (replies'.take replies.length)).after policy
        (replies'.drop replies.length) := by
    rw [after, after, after, ← List.foldl_append, List.take_append_drop]
  have hlength : (replies'.take replies.length).length = replies.length :=
    List.length_take_of_le hle
  rw [hsplit] at h'
  have hfront := after_eq_of_answered (h'.of_prefix (calls_prefix_after _)) h hlength
  exact ⟨replies'.drop replies.length, by rw [hsplit, hfront]⟩

/-- A branch ends in one way only. -/
theorem after_eq_of_ended (h : AnsweredBy answer (lane.after policy replies).calls)
    (h' : AnsweredBy answer (lane.after policy replies').calls) {r r' : Except Fault Value}
    (hr : (lane.after policy replies).branch = .ended r)
    (hr' : (lane.after policy replies').branch = .ended r') :
    lane.after policy replies = lane.after policy replies' := by
  rcases Nat.le_total replies.length replies'.length with hle | hle
  · obtain ⟨rest, hrest⟩ := exists_after_of_answered h h' hle
    rw [hrest, after_of_ended hr]
  · obtain ⟨rest, hrest⟩ := exists_after_of_answered h' h hle
    rw [hrest, after_of_ended hr']

end Lane

/-! ### Counts beside pages -/

namespace QueryPlan

/-- The count beside a page begins with a request that asks for the count of the query from the
beginning. -/
structure CountsFirst (plan : QueryPlan) (first : Entries) : Prop where
  counts : plan.counts = true
  /-- It is sent if the count may read a page at all. -/
  sends : ∀ policy : Policy, policy.AllowsPages 1 →
    (plan.countProcess.next policy).result = .ok (.send ⟨.query, map first⟩)
  asks : AsksForCount plan.params none first

theorem countsFirst_of_distinct {plan : QueryPlan} (hcounts : plan.counts = true)
    (h : Distinct plan.params) : plan.CountsFirst (CountWalk.fromBeginning plan.params).params := by
  refine ⟨hcounts, fun policy hallowed => ?_, asksForCount_fromBeginning h⟩
  have hfree := hallowed (.fromBeginning plan.params) Nat.zero_lt_one
  exact congrArg Noted.result (Process.next_count_of_free hfree)

/-- Queries whose counts pass the same with a store whose answer depends on the request alone, in
whatever order their branches take their turns, and whose pages have the same total. -/
structure CountsAlike (policy : Policy) (plan plan' : QueryPlan) : Prop where
  /-- After as many turns both counts are in the same place. -/
  lane_eq : ∀ {answer schedule schedule'},
    ((Interleaving.start plan).after policy schedule).IsAnswered answer →
    ((Interleaving.start plan').after policy schedule').IsAnswered answer →
    (schedule.repliesOf .count).length = (schedule'.repliesOf .count).length →
    ((Interleaving.start plan).after policy schedule).lane .count
      = ((Interleaving.start plan').after policy schedule').lane .count
  /-- Counts that have ended sent the same requests. -/
  calls_eq : ∀ {answer schedule schedule' r r'},
    ((Interleaving.start plan).after policy schedule).IsAnswered answer →
    ((Interleaving.start plan').after policy schedule').IsAnswered answer →
    ((Interleaving.start plan).after policy schedule).run.branch .count = .ended r →
    ((Interleaving.start plan').after policy schedule').run.branch .count = .ended r' →
    ((Interleaving.start plan).after policy schedule).calls .count
        = ((Interleaving.start plan').after policy schedule').calls .count ∧ r = r'
  totalCount_eq : ∀ {answer schedule schedule' o o'} {page page' : Page},
    ((Interleaving.start plan).after policy schedule).IsAnswered answer →
    ((Interleaving.start plan').after policy schedule').IsAnswered answer →
    ((Interleaving.start plan).after policy schedule).run.outcome policy = some o →
    ((Interleaving.start plan').after policy schedule').run.outcome policy = some o' →
    o.result = .ok (some page) → o'.result = .ok (some page') →
    page.totalCount = page'.totalCount

/-- The total of a page is what its count came to. -/
theorem totalCount_of_conclude {plan : QueryPlan} {policy : Policy} {response total : Value}
    {page : Page} (h : (plan.conclude policy response total).result = .ok (some page)) :
    page.totalCount = totalOf total := by
  unfold conclude at h
  split at h
  · cases h
  rw [Noted.result_bind, Noted.result_liftM] at h
  obtain ⟨read, hread, h⟩ := bind_eq_ok.1 h
  have horiented : (plan.oriented read total).totalCount = totalOf total := by
    rw [oriented, Page.totalCount_of_ofResponse hread, Option.or_none]
    cases plan.isReversed <;> rfl
  split at h
  · rw [Noted.result_bind] at h
    obtain ⟨trimmed, htrimmed, h⟩ := bind_eq_ok.1 h
    obtain rfl := Option.some.inj (Except.ok.inj h)
    rw [← horiented]
    unfold Page.trimLast at htrimmed
    split at htrimmed
    · rw [← Except.ok.inj htrimmed]
    · rw [Noted.result_bind] at htrimmed
      obtain ⟨n, -, htrimmed⟩ := bind_eq_ok.1 htrimmed
      rw [Noted.result_bind] at htrimmed
      obtain ⟨_, -, htrimmed⟩ := bind_eq_ok.1 htrimmed
      rw [← Except.ok.inj htrimmed]
  · rw [← horiented, Option.some.inj (Except.ok.inj h)]

/-- A query that comes to a page has a count that ended with the total of that page. -/
theorem exists_total_of_outcome {plan : QueryPlan} {policy : Policy} {schedule : Schedule}
    {o : Noted (Option Page)} {page : Page}
    (ho : ((Interleaving.start plan).after policy schedule).run.outcome policy = some o)
    (hpage : o.result = .ok (some page)) :
    ∃ total, ((Interleaving.start plan).after policy schedule).run.branch .count
      = .ended (.ok total) ∧ page.totalCount = totalOf total := by
  have hconsistent := Interleaving.consistent_of_start plan policy schedule
  rcases hconsistent.outcome_cases ho with ⟨response, total, -, hcount, hresult⟩ | ⟨b, f, -, hfault⟩
  · exact ⟨total, hcount, totalCount_of_conclude (hresult ▸ hpage)⟩
  · rw [hfault] at hpage
    cases hpage

/-- Counts that begin with the same request pass the same. -/
theorem countsAlike_of_walk_eq {plan plan' : QueryPlan} (hcounts : plan.counts = true)
    (hcounts' : plan'.counts = true)
    (hwalk : CountWalk.fromBeginning plan.params = CountWalk.fromBeginning plan'.params)
    (policy : Policy) : CountsAlike policy plan plan' := by
  have hlane := Interleaving.lane_count hcounts policy
  have hlane' := Interleaving.lane_count hcounts' policy
  rw [← hwalk] at hlane'
  generalize Lane.start (.count (.fromBeginning plan.params)) = lane at hlane hlane'
  have hcalls : ∀ {answer schedule},
      ((Interleaving.start plan).after policy schedule).IsAnswered answer →
      AnsweredBy answer (lane.after policy (schedule.repliesOf .count)).calls :=
    fun {_ schedule} h => hlane schedule ▸ h .count
  have hcalls' : ∀ {answer schedule},
      ((Interleaving.start plan').after policy schedule).IsAnswered answer →
      AnsweredBy answer (lane.after policy (schedule.repliesOf .count)).calls :=
    fun {_ schedule} h => hlane' schedule ▸ h .count
  have hends : ∀ {answer schedule schedule' r r'},
      ((Interleaving.start plan).after policy schedule).IsAnswered answer →
      ((Interleaving.start plan').after policy schedule').IsAnswered answer →
      ((Interleaving.start plan).after policy schedule).run.branch .count = .ended r →
      ((Interleaving.start plan').after policy schedule').run.branch .count = .ended r' →
      ((Interleaving.start plan).after policy schedule).calls .count
        = ((Interleaving.start plan').after policy schedule').calls .count ∧ r = r' := by
    intro answer schedule schedule' r r' h h' hr hr'
    have hended := (congrArg Lane.branch (hlane schedule)).symm.trans hr
    have hended' := (congrArg Lane.branch (hlane' schedule')).symm.trans hr'
    have hafter := Lane.after_eq_of_ended (hcalls h) (hcalls' h') hended hended'
    rw [← hlane, ← hlane'] at hafter
    have hbranch := congrArg Lane.branch hafter
    exact ⟨congrArg Lane.calls hafter, Branch.ended.inj (hr.symm.trans (hbranch.trans hr'))⟩
  refine ⟨fun h h' hlength => ?_, hends, fun h h' ho ho' hpage hpage' => ?_⟩
  · rw [hlane, hlane']
    exact Lane.after_eq_of_answered (hcalls h) (hcalls' h') hlength
  · obtain ⟨total, hcount, htotal⟩ := exists_total_of_outcome ho hpage
    obtain ⟨total', hcount', htotal'⟩ := exists_total_of_outcome ho' hpage'
    obtain ⟨-, hsum⟩ := hends h h' hcount hcount'
    rw [htotal, htotal', Except.ok.inj hsum]

end QueryPlan

/-! ### Searches -/

/-- Descriptors that ask for the same records in the same order, wherever their pages start, however
large these are and whatever of the records they show. -/
structure Descriptor.SearchesAlike (d e : Descriptor) : Prop where
  filters_eq : d.filters = e.filters
  index_eq : d.index = e.index
  pageForward_eq : d.pageForward = e.pageForward
  sortAscending_eq : d.sortAscending = e.sortAscending

namespace Descriptor

/-- The first request of a count beside the page of a descriptor.  Beside the last page it goes in
the opposite direction. -/
def directed (d : Descriptor) (first : Entries) : Entries :=
  if d.wantsLastPage then putField first "ScanIndexForward" (.bool !d.scansForward) else first

variable {d e : Descriptor}

theorem SearchesAlike.scansForward_eq (h : d.SearchesAlike e) :
    d.scansForward = e.scansForward := by
  rw [scansForward, scansForward, h.sortAscending_eq, h.pageForward_eq]

theorem SearchesAlike.countMembers_eq (h : d.SearchesAlike e) (p : QueryParts) :
    p.countMembers d = p.countMembers e := by
  rw [QueryParts.countMembers, QueryParts.countMembers, h.scansForward_eq, h.index_eq]

end Descriptor

/-- A query whose parts compile begins its count with a request made of these parts. -/
theorem QueryPlan.countsFirst_of_queryParts {n : Normalizer} {primaryKey table : Value}
    {d : Descriptor} {p : QueryParts} (hp : queryParts n primaryKey table d = .ok p)
    (hcounts : d.counts = true) : ∃ plan, (QueryPlan.make n primaryKey table d).result = .ok plan ∧
      CountWalk.fromBeginning plan.params = ⟨d.directed (p.countMembers d), int 0, 0⟩ ∧
      plan.CountsFirst (d.directed (p.countMembers d)) := by
  have hparams : (queryParams n primaryKey table d).result = .ok (p.members d) := by
    rw [result_queryParams, hp]
    rfl
  obtain ⟨hdistinct, -⟩ := members_startAt hparams
  refine ⟨⟨d, startAt d.startKey (p.members d), d.counts⟩, by rw [result_make, hparams]; rfl, ?_⟩
  rw [Descriptor.directed, ← QueryParts.params_fromBeginning]
  exact ⟨rfl, countsFirst_of_distinct hcounts hdistinct⟩

/-- The total of a query does not depend on where the reader is.  Of descriptors that ask for the
same records in the same order both are compiled or neither is, and their counts begin with the same
request, which asks for what the page asks for, from the beginning and without a limit.  Beside the
last page that request goes in the opposite direction.  What the counts send from there on, and the
totals they come to, are the same as well with a store whose answer depends on the request alone. -/
theorem total_of_searchesAlike (store : RecordStore) (primaryKey table : Value) {v w : Value}
    {byItself byItself' : Bool} {d e : Descriptor} (hd : store.descriptor v byItself = .ok d)
    (he : store.descriptor w byItself' = .ok e) (halike : d.SearchesAlike e)
    (hcounts : d.counts = true) (hcounts' : e.counts = true) :
    (∃ f, (store.begin (.query primaryKey table v byItself)).result = .error f ∧
      (store.begin (.query primaryKey table w byItself')).result = .error f) ∨
    ∃ plan plan' first,
      (store.begin (.query primaryKey table v byItself)).result = .ok (.query plan) ∧
      (store.begin (.query primaryKey table w byItself')).result = .ok (.query plan') ∧
      field? first "ScanIndexForward" = some (.bool d.scansForward) ∧
      plan.CountsFirst (d.directed first) ∧ plan'.CountsFirst (e.directed first) ∧
      (d.wantsLastPage = e.wantsLastPage → plan.CountsAlike store.policy plan') := by
  have hparts := queryParts_congr halike.filters_eq store.normalizer primaryKey table
  have hbegin : ∀ {u byItself c}, store.descriptor u byItself = .ok c →
      (store.begin (.query primaryKey table u byItself)).result
        = (QueryPlan.make store.normalizer primaryKey table c).result.map .query := by
    intro u byItself c hc
    rw [store.begin_query, hc]
    rfl
  cases hp : queryParts store.normalizer primaryKey table d with
  | error f =>
    have hrefused : ∀ {c}, queryParts store.normalizer primaryKey table c = .error f →
        (QueryPlan.make store.normalizer primaryKey table c).result = .error f := by
      intro c hc
      rw [QueryPlan.result_make, result_queryParams, hc]
      rfl
    refine .inl ⟨f, ?_, ?_⟩
    · rw [hbegin hd, hrefused hp]
      rfl
    · rw [hbegin he, hrefused (hparts ▸ hp)]
      rfl
  | ok p =>
    obtain ⟨plan, hplan, hwalk, hfirst⟩ := QueryPlan.countsFirst_of_queryParts hp hcounts
    obtain ⟨plan', hplan', hwalk', hfirst'⟩ :=
      QueryPlan.countsFirst_of_queryParts (hparts ▸ hp) hcounts'
    rw [← halike.countMembers_eq] at hwalk' hfirst'
    refine .inr ⟨plan, plan', p.countMembers d, ?_, ?_, p.field?_countMembers_direction d, hfirst,
      hfirst', fun hlast => ?_⟩
    · rw [hbegin hd, hplan]
      rfl
    · rw [hbegin he, hplan']
      rfl
    refine QueryPlan.countsAlike_of_walk_eq hfirst.counts hfirst'.counts ?_ store.policy
    rw [hwalk, hwalk', Descriptor.directed, Descriptor.directed, hlast, halike.scansForward_eq]

/-- A reader of single records from the beginning, and one of the keys behind a record. -/
def twoReaders : Value × Value :=
  (map [(str "includeTotal", .bool true), (str "limit", int 1)],
    map [(str "includeTotal", .bool true), (str "select", str "ALL_PROJECTED_ATTRIBUTES"),
      (str "startKey", map [(str "pk", str "A")])])

theorem total_of_searchesAlike_twoReaders : ∃ plan plan',
    ((RecordStore.mk ⟨true, int 3, 20⟩ .standard 10).begin
      (.query (map [(str "pk", str "A")]) (str "t") twoReaders.1 false)).result
        = .ok (.query plan) ∧
    ((RecordStore.mk ⟨true, int 3, 20⟩ .standard 10).begin
      (.query (map [(str "pk", str "A")]) (str "t") twoReaders.2 false)).result
        = .ok (.query plan') ∧
    plan.CountsAlike ⟨true, int 3, 20⟩ plan' := by
  have hd : (RecordStore.mk ⟨true, int 3, 20⟩ .standard 10).descriptor twoReaders.1 false = .ok _ :=
    rfl
  have he : (RecordStore.mk ⟨true, int 3, 20⟩ .standard 10).descriptor twoReaders.2 false = .ok _ :=
    rfl
  have htotal := total_of_searchesAlike _ (map [(str "pk", str "A")]) (str "t") hd he
    ⟨rfl, rfl, rfl, rfl⟩ rfl rfl
  rcases htotal with ⟨f, hf, -⟩ | ⟨plan, plan', first, hplan, hplan', -, -, -, halike⟩
  · cases hf
  · exact ⟨plan, plan', hplan, hplan', halike rfl⟩

end KeysetQuery

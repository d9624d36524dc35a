import KeysetQuery.Proofs.Interleaving.Outcome
import KeysetQuery.Session.Schedule

/-!
# Refusals by the store

A request that is refused as invalid reaches the caller, unless a count made it.

* `TaskCall`, `RecordStore.Performs` — the calls that are made for a task, and what comes of it;
* `Lane.branch_of_error` — a fault of the store ends a count, whatever fault it is;
* `Lane.Tallies` — a count of which every call is answered fails at most for its bound;
* `TaskCall.comesTo`, `RecordStore.Performs.result_of_error` — what a call that fails makes of a
  task;
* `surfaces_iff` — when a refusal is what comes of a task.
-/

namespace KeysetQuery

open Value

/-! ### Tasks -/

def Process.isCount : Process → Bool
  | .count _ => true
  | _ => false

/-- A call that is made for a task: whether a count makes it, and what passes. -/
structure TaskCall where
  ofCount : Bool
  exchange : Exchange

namespace Interleaving

/-- All calls of a query. -/
def taskCalls (x : Interleaving) : List TaskCall :=
  (x.calls .page).map (.mk false) ++ (x.calls .count).map (.mk true)

end Interleaving

/-- The calls that are made for a task, and what comes of it: of a task that is one process, or of a
query, whose branches take their turns in any order. -/
inductive RecordStore.Performs (store : RecordStore) :
    Task → List TaskCall → Except Fault Output → Prop
  | process {task : Task} {p : Process} (replies : List Reply) {r : Except Fault Value}
    (hbegin : (store.begin task).result = .ok (.process p))
    (hended : ((Lane.start p).after store.policy replies).branch = .ended r) :
    Performs store task
      (((Lane.start p).after store.policy replies).calls.map (.mk p.isCount)) (r.map .value)
  | query {primaryKey table descriptor : Value} {byItself : Bool} {plan : QueryPlan}
    (schedule : Schedule) {o : Noted (Option Page)}
    (hbegin : (store.begin (.query primaryKey table descriptor byItself)).result
      = .ok (.query plan))
    (ho : ((Interleaving.start plan).after store.policy schedule).run.outcome store.policy
      = some o) :
    Performs store (.query primaryKey table descriptor byItself)
      ((Interleaving.start plan).after store.policy schedule).taskCalls
      (o.result.map Play.outputOf)

/-- A call of a query that is answered with a response. -/
def Exchange.IsAnswered (e : Exchange) : Prop :=
  ∃ response, e.reply = .ok response ∧ IsQueryResponse response

/-! ### Branches -/

namespace Lane

variable {policy : Policy} {lane : Lane}

/-- A branch with a single request that has had an exchange has ended. -/
theorem Settles.of_mem {p : Process} {request : Request} {comesTo : Reply → Except Fault Value}
    (h : Settles p request comesTo lane) {e : Exchange} (he : e ∈ lane.calls) :
    lane.branch = .ended (comesTo e.reply) := by
  cases h with
  | ready | waiting => cases he
  | ended reply =>
    obtain rfl := List.mem_singleton.1 he
    rfl

/-- The exchange of a branch with a single request is about that request. -/
theorem Settles.request_eq {p : Process} {request : Request} {comesTo : Reply → Except Fault Value}
    (h : Settles p request comesTo lane) {e : Exchange} (he : e ∈ lane.calls) :
    e.request = request := by
  cases h with
  | ready | waiting => cases he
  | ended reply =>
    obtain rfl := List.mem_singleton.1 he
    rfl

section Count

variable {m : Int} (hm : policy.maxCountPages = .int m)

include hm

/-- A fault of the store ends a count, whatever fault it is. -/
theorem branch_of_error (w : CountWalk) (replies : List Reply) {e : Exchange}
    (he : e ∈ ((start (.count w)).after policy replies).calls) {f : Fault}
    (hf : e.reply = .error f) :
    ((start (.count w)).after policy replies).branch = .ended (policy.settleCount f).result := by
  refine after_of_countStep hm (R := fun _ => True) (Q := fun lane => ∀ e ∈ lane.calls, ∀ f,
    e.reply = .error f → lane.branch = .ended (policy.settleCount f).result)
    (fun _ he => by cases he) ?_ replies (fun _ _ => trivial) e he f hf
  intro reply lane lane' hstep _ hall e he f hf
  cases hstep with
  | rests => exact hall e he f hf
  | asks | isSpent => cases hall e he f hf
  | fails habsorb =>
    rcases List.mem_append.1 he with he | he
    · cases hall e he f hf
    · obtain rfl := List.mem_singleton.1 he
      obtain rfl : reply = .error f := hf
      obtain rfl := Except.error.inj habsorb
      rfl
  | completes habsorb | goes habsorb =>
    rcases List.mem_append.1 he with he | he
    · cases hall e he f hf
    · obtain rfl := List.mem_singleton.1 he
      obtain rfl : reply = .error f := hf
      cases habsorb

end Count

/-- A count of which every call is answered: it goes on with an integer sum, or it has ended, and
if it has failed then for its bound. -/
inductive Tallies (policy : Policy) : Lane → Prop
  | active {w : CountWalk} {asked : Option Request} {calls : List Exchange}
    (hsound : w.IsSound) : Tallies policy ⟨.active (.count w), asked, calls⟩
  | ended {v : Value} {asked : Option Request} {calls : List Exchange} :
    Tallies policy ⟨.ended (.ok v), asked, calls⟩
  | isSpent {total : Value} {asked : Option Request} {calls : List Exchange} :
    Tallies policy ⟨.ended (.error (.countLimit policy.maxCountPages total)), asked, calls⟩

theorem Tallies.step (h : Tallies policy lane) {reply : Reply} {lane' : Lane}
    (hstep : CountStep policy reply lane lane') (hcalls : ∀ e ∈ lane'.calls, e.IsAnswered) :
    Tallies policy lane' := by
  cases h with
  | ended =>
    cases hstep
    exact .ended
  | isSpent =>
    cases hstep
    exact .isSpent
  | active hsound =>
    cases hstep with
    | asks => exact .active hsound
    | isSpent hspent hf =>
      obtain ⟨total, htotal⟩ := hsound
      rw [CountWalk.result_checkBound hspent, CountWalk.limitFault_int htotal] at hf
      obtain rfl := Except.error.inj hf
      rw [Policy.result_settleCount _ rfl]
      cases policy.rejects with
      | true => exact .isSpent
      | false => exact .ended
    | fails habsorb =>
      obtain ⟨response, hreply, hresponse⟩ := hcalls _ List.mem_concat_self
      obtain rfl : reply = .ok response := hreply
      cases hsound.absorb_ne_error hresponse habsorb
    | completes => exact .ended
    | goes habsorb =>
      obtain ⟨response, hreply, hresponse⟩ := hcalls _ List.mem_concat_self
      obtain rfl : reply = .ok response := hreply
      have hproceeds := hsound.proceeds_absorb (show IsOrderly (.ok response) from hresponse)
      rw [habsorb] at hproceeds
      cases hproceeds with
      | goes hsound' => exact .active hsound'

section Count

variable {m : Int} (hm : policy.maxCountPages = .int m)

include hm

theorem tallies_after {w : CountWalk} (hsound : w.IsSound) (replies : List Reply)
    (hcalls : ∀ e ∈ ((start (.count w)).after policy replies).calls, e.IsAnswered) :
    Tallies policy ((start (.count w)).after policy replies) :=
  after_of_countStep hm (.active hsound) (fun hstep hcalls h => h.step hstep hcalls) replies
    hcalls

end Count

end Lane

/-! ### Calls that fail -/

/-- What the fault of a call comes to, which is settled by the policy as that of an operation of the
store or as that of a count. -/
def TaskCall.comesTo (policy : Policy) (c : TaskCall) (f : Fault) : Except Fault Value :=
  if c.ofCount then (policy.settleCount f).result
  else (policy.settle c.exchange.request.operation (.error f)).result

section Faults

variable {policy : Policy} {f : Fault}

/-- What a process comes to that meets a fault of the store.  A request that is handed on as it is
gives the fault as it is, which makes no difference if it is a refusal. -/
theorem Lane.end_of_error {m : Int} (hm : policy.maxCountPages = .int m) {p : Process}
    (hsettled : (∀ request, p ≠ .direct request) ∨ f.isInvalid = true) {replies : List Reply}
    {r : Except Fault Value} (hended : ((start p).after policy replies).branch = .ended r)
    {e : Exchange} (he : e ∈ ((start p).after policy replies).calls) (hf : e.reply = .error f) :
    r = TaskCall.comesTo policy ⟨p.isCount, e⟩ f := by
  cases p with
  | direct request =>
    have hinvalid := hsettled.resolve_left fun h => h request rfl
    have hbranch := (settles_after (Process.asksOnce_direct policy request) replies).of_mem he
    rw [hended, hf] at hbranch
    obtain rfl := Branch.ended.inj hbranch
    show _ = (policy.settle e.request.operation (.error f)).result
    rw [Policy.settle, hinvalid]
    rfl
  | settled request =>
    have hbranch := (settles_after (Process.asksOnce_settled policy request) replies).of_mem he
    have hrequest := (settles_after (Process.asksOnce_settled policy request) replies).request_eq he
    rw [hended, hf] at hbranch
    obtain rfl := Branch.ended.inj hbranch
    show _ = (policy.settle e.request.operation (.error f)).result
    rw [hrequest]
  | count w =>
    have hbranch := branch_of_error hm w replies he hf
    rw [hended] at hbranch
    exact Branch.ended.inj hbranch

namespace Interleaving

variable {plan : QueryPlan} {schedule : Schedule}

/-- The branch of the count has nothing to do, or is that of a count. -/
theorem lane_count_cases (plan : QueryPlan) (policy : Policy) (schedule : Schedule) :
    ((start plan).after policy schedule).lane .count = ⟨.ended (.ok .null), none, []⟩ ∨
      ((start plan).after policy schedule).lane .count
        = (Lane.start (.count (.fromBeginning plan.params))).after policy
          (schedule.repliesOf .count) := by
  cases hcounts : plan.counts with
  | false =>
    have hstart : (start plan).lane .count = ⟨.ended (.ok .null), none, []⟩ := by
      simp only [lane, start, QueryRun.start, QueryRun.branch, hcounts]
      rfl
    exact .inl (by rw [lane_after, hstart, Lane.after_of_ended rfl])
  | true => exact .inr (lane_count hcounts policy schedule)

theorem branch_page_of_error {e : Exchange}
    (he : e ∈ ((start plan).after policy schedule).calls .page) (hf : e.reply = .error f) :
    ((start plan).after policy schedule).run.branch .page
      = .ended (TaskCall.comesTo policy ⟨false, e⟩ f) := by
  have hbranch := (settles_page plan policy schedule).of_mem he
  have hrequest := (settles_page plan policy schedule).request_eq he
  rw [hf] at hbranch
  rw [TaskCall.comesTo, hrequest]
  exact hbranch

section Count

variable {m : Int} (hm : policy.maxCountPages = .int m)

include hm

theorem tallies_count
    (hcalls : ∀ e ∈ ((start plan).after policy schedule).calls .count, e.IsAnswered) :
    Lane.Tallies policy (((start plan).after policy schedule).lane .count) := by
  rcases lane_count_cases plan policy schedule with hlane | hlane
  · rw [hlane]
    exact .ended
  · have htallies := Lane.tallies_after hm (CountWalk.isSound_fromBeginning plan.params)
      (schedule.repliesOf .count)
    rw [← hlane] at htallies
    exact htallies hcalls

theorem branch_count_of_error {e : Exchange}
    (he : e ∈ ((start plan).after policy schedule).calls .count) (hf : e.reply = .error f) :
    ((start plan).after policy schedule).run.branch .count
      = .ended (TaskCall.comesTo policy ⟨true, e⟩ f) := by
  have hmem : e ∈ (((start plan).after policy schedule).lane .count).calls := he
  show (((start plan).after policy schedule).lane .count).branch = _
  rcases lane_count_cases plan policy schedule with hlane | hlane
  · rw [hlane] at hmem
    cases hmem
  · rw [hlane] at hmem ⊢
    exact Lane.branch_of_error hm _ _ hmem hf

variable {o : Noted (Option Page)}
  (ho : ((start plan).after policy schedule).run.outcome policy = some o)

include ho

/-- A query whose page fails with a fault fails with it, unless its count has reached its bound
before. -/
theorem result_of_page_error {e : Exchange}
    (he : e ∈ ((start plan).after policy schedule).calls .page)
    (hf : e.reply = .error f) {g : Fault} (hg : TaskCall.comesTo policy ⟨false, e⟩ f = .error g)
    (hcalls : ∀ e ∈ ((start plan).after policy schedule).calls .count, e.IsAnswered) :
    o.result = .error g ∨ ∃ total, o.result = .error (.countLimit policy.maxCountPages total) := by
  have hpage := branch_page_of_error he hf
  rw [hg] at hpage
  rcases (consistent_of_start plan policy schedule).outcome_cases ho with
    ⟨p, c, hp, -, -⟩ | ⟨b, g', hb, hresult⟩
  · rw [hpage] at hp
    cases hp
  · cases b with
    | page =>
      rw [hpage] at hb
      obtain rfl := Except.error.inj (Branch.ended.inj hb)
      exact .inl hresult
    | count =>
      right
      have htallies := tallies_count hm hcalls
      have hbranch : (((start plan).after policy schedule).lane .count).branch = .ended (.error g') :=
        hb
      generalize ((start plan).after policy schedule).lane .count = lane at htallies hbranch
      cases htallies with
      | active | ended => cases hbranch
      | isSpent =>
        obtain rfl := Except.error.inj (Branch.ended.inj hbranch)
        exact ⟨_, hresult⟩

/-- A query whose count fails with a fault fails with it, and shows the page without a total if the
fault is dropped. -/
theorem result_of_count_error {e : Exchange}
    (he : e ∈ ((start plan).after policy schedule).calls .count) (hf : e.reply = .error f)
    (hcalls : ∀ e ∈ ((start plan).after policy schedule).calls .page, e.IsAnswered) :
    (∀ g, TaskCall.comesTo policy ⟨true, e⟩ f = .error g → o.result = .error g) ∧
    (TaskCall.comesTo policy ⟨true, e⟩ f = .ok .null → ∃ page, o.result = .ok (some page)) := by
  have hcount := branch_count_of_error hm he hf
  have hpage : ∀ r, ((start plan).after policy schedule).run.branch .page = .ended r →
      ∃ response, r = .ok response ∧ IsQueryResponse response := by
    intro r hr
    obtain ⟨reply, rfl, hexchange⟩ := (settles_page plan policy schedule).of_ended hr
    obtain ⟨response, hreply, hresponse⟩ := hcalls _ hexchange
    obtain rfl : reply = .ok response := hreply
    exact ⟨response, rfl, hresponse⟩
  rcases (consistent_of_start plan policy schedule).outcome_cases ho with
    ⟨p, c, hp, hc, hresult⟩ | ⟨b, g', hb, hresult⟩
  · -- both have ended well, so the fault was dropped
    rw [hcount] at hc
    have hdropped := Branch.ended.inj hc
    obtain ⟨response, hresponse, hwell⟩ := hpage _ hp
    obtain rfl := Except.ok.inj hresponse
    obtain ⟨-, -, -, page, hread⟩ := id hwell
    constructor
    · intro g hg
      rw [hdropped] at hg
      cases hg
    · intro hnull
      rw [hdropped] at hnull
      obtain rfl := Except.ok.inj hnull
      exact ⟨_, hresult.trans (QueryPlan.result_conclude_null hwell hread)⟩
  · cases b with
    | page =>
      obtain ⟨response, hresponse, -⟩ := hpage _ hb
      cases hresponse
    | count =>
      rw [hcount] at hb
      have hraised := Branch.ended.inj hb
      constructor
      · intro g hg
        rw [hraised] at hg
        rw [hresult, Except.error.inj hg]
      · intro hnull
        rw [hraised] at hnull
        cases hnull

end Count

end Interleaving

end Faults

/-! ### Tasks with a call that fails -/

/-- What a store begins by handing a request on is a request that is to be handed on. -/
theorem RecordStore.not_direct_of_begin {store : RecordStore} {task : Task}
    (htask : ∀ request, task ≠ .direct request) {p : Process}
    (hbegin : (store.begin task).result = .ok (.process p)) (request : Request) :
    p ≠ .direct request := by
  rintro rfl
  cases task with
  | direct request' => exact htask request' rfl
  | put | patch | load | delete =>
    simp only [begin, settled, Noted.result_bind] at hbegin
    obtain ⟨_, -, hmade⟩ := bind_eq_ok.1 hbegin
    cases hmade
  | count =>
    simp only [begin, Noted.result_bind] at hbegin
    obtain ⟨_, -, hbegin⟩ := bind_eq_ok.1 hbegin
    obtain ⟨_, -, hmade⟩ := bind_eq_ok.1 hbegin
    cases hmade
  | query =>
    simp only [begin, Noted.result_bind] at hbegin
    obtain ⟨_, -, hbegin⟩ := bind_eq_ok.1 hbegin
    obtain ⟨_, -, hmade⟩ := bind_eq_ok.1 hbegin
    cases hmade
  | readPolicy | writePolicy | close | enterConnection | leaveConnection | incomplete => cases hbegin

/-- What comes of a task of which one call fails and every other one is answered. -/
theorem RecordStore.Performs.result_of_error {store : RecordStore} {m : Int}
    (hm : store.policy.maxCountPages = .int m) {task : Task} {f : Fault}
    (hsettled : (∀ request, task ≠ .direct request) ∨ f.isInvalid = true) {calls : List TaskCall}
    {result : Except Fault Output} (h : store.Performs task calls result) {c : TaskCall}
    (hc : c ∈ calls) (hf : c.exchange.reply = .error f)
    (hothers : ∀ d ∈ calls, d.ofCount ≠ c.ofCount → d.exchange.IsAnswered) :
    (∀ g, c.comesTo store.policy f = .error g → result = .error g ∨
      c.ofCount = false ∧ ∃ total, result = .error (.countLimit store.policy.maxCountPages total)) ∧
    (c.ofCount = true → c.comesTo store.policy f = .ok .null → ∃ output, result = .ok output) := by
  cases h with
  | @process _ p replies r hbegin hended =>
    obtain ⟨e, he, rfl⟩ := List.mem_map.1 hc
    have hr := Lane.end_of_error hm
      (hsettled.imp_left fun htask => RecordStore.not_direct_of_begin htask hbegin) hended he hf
    constructor
    · intro g hg
      rw [hr, hg]
      exact .inl rfl
    · intro _ hnull
      rw [hr, hnull]
      exact ⟨_, rfl⟩
  | @query primaryKey table descriptor byItself plan schedule o hbegin ho =>
    rcases List.mem_append.1 hc with hc' | hc'
    · obtain ⟨e, he, rfl⟩ := List.mem_map.1 hc'
      have hanswered : ∀ d ∈ ((Interleaving.start plan).after store.policy schedule).calls .count,
          d.IsAnswered := fun d hd => hothers (.mk true d)
        (List.mem_append_right _ (List.mem_map_of_mem hd)) (by simp)
      refine ⟨fun g hg => ?_, fun hof => by cases hof⟩
      rcases Interleaving.result_of_page_error hm ho he hf hg hanswered with
        hresult | ⟨total, hresult⟩
      · exact .inl (by rw [hresult]; rfl)
      · exact .inr ⟨rfl, total, by rw [hresult]; rfl⟩
    · obtain ⟨e, he, rfl⟩ := List.mem_map.1 hc'
      have hanswered : ∀ d ∈ ((Interleaving.start plan).after store.policy schedule).calls .page,
          d.IsAnswered := fun d hd => hothers (.mk false d)
        (List.mem_append_left _ (List.mem_map_of_mem hd)) (by simp)
      obtain ⟨hraised, hdropped⟩ :=
        Interleaving.result_of_count_error hm ho he hf hanswered
      constructor
      · intro g hg
        exact .inl (by rw [hraised g hg]; rfl)
      · intro _ hnull
        obtain ⟨page, hpage⟩ := hdropped hnull
        exact ⟨.page page, by rw [hpage]; rfl⟩

/-- What comes of a task of which one call is refused and every other one is answered. -/
theorem RecordStore.Performs.result_of_refused {store : RecordStore} {m : Int}
    (hm : store.policy.maxCountPages = .int m) {task : Task} {calls : List TaskCall}
    {result : Except Fault Output} (h : store.Performs task calls result) {c : TaskCall}
    {reason : Invalid} (hc : c ∈ calls) (hrefused : c.exchange.reply = .error (.invalid reason))
    (hothers : ∀ d ∈ calls, d.ofCount ≠ c.ofCount → d.exchange.IsAnswered) :
    (c.ofCount = false → result = .error (.invalid reason) ∨
      ∃ total, result = .error (.countLimit store.policy.maxCountPages total)) ∧
    (c.ofCount = true →
      (store.policy.rejects = true →
        result = .error (.failed reason.message "count" (some (.invalid reason)))) ∧
      (store.policy.rejects = false → ∃ output, result = .ok output)) := by
  obtain ⟨hraised, hdropped⟩ := h.result_of_error hm (.inr rfl) hc hrefused hothers
  constructor
  · intro hof
    have hcomes : c.comesTo store.policy (.invalid reason) = .error (.invalid reason) := by
      rw [TaskCall.comesTo, if_neg (by simp [hof])]
      rfl
    exact (hraised _ hcomes).imp_right And.right
  · intro hof
    have hcomes : c.comesTo store.policy (.invalid reason)
        = if store.policy.rejects then .error (.failed reason.message "count" (some (.invalid reason)))
          else .ok .null := by
      rw [TaskCall.comesTo, if_pos hof]
      exact Policy.result_settleCount _ rfl
    constructor
    · intro hrejects
      rw [if_pos hrejects] at hcomes
      exact (hraised _ hcomes).resolve_right fun h => by simp [hof] at h
    · intro hrejects
      rw [if_neg (by simp [hrejects])] at hcomes
      exact hdropped hof hcomes

/-- If the store refuses one call of a task as invalid and answers every other one, the refusal is
what comes of the task exactly if no count made the call, and none used up its bound before.  A
count passes its refusal off as a failure of the store, or drops it. -/
theorem surfaces_iff {store : RecordStore} {m : Int} (hm : store.policy.maxCountPages = .int m)
    {task : Task} {before behind : List TaskCall} {c : TaskCall} {result : Except Fault Output}
    (h : store.Performs task (before ++ c :: behind) result) {reason : Invalid}
    (hrefused : c.exchange.reply = .error (.invalid reason))
    (hothers : ∀ d ∈ before ++ behind, d.exchange.IsAnswered) :
    (result = .error (.invalid reason) ↔
      c.ofCount = false ∧ ∀ total, result ≠ .error (.countLimit store.policy.maxCountPages total)) ∧
    (c.ofCount = true →
      (store.policy.rejects = true →
        result = .error (.failed reason.message "count" (some (.invalid reason)))) ∧
      (store.policy.rejects = false → ∃ output, result = .ok output)) := by
  have hdiffers : ∀ d ∈ before ++ c :: behind, d.ofCount ≠ c.ofCount → d.exchange.IsAnswered := by
    intro d hd hne
    refine hothers d ?_
    rcases List.mem_append.1 hd with hd | hd
    · exact List.mem_append_left _ hd
    · rcases List.mem_cons.1 hd with rfl | hd
      · exact absurd rfl hne
      · exact List.mem_append_right _ hd
  obtain ⟨hpage, hcount⟩ := h.result_of_refused hm (by simp) hrefused hdiffers
  refine ⟨⟨fun hresult => ⟨?_, fun total hlimit => ?_⟩, ?_⟩, hcount⟩
  · -- a count would have raised another failure, or none
    by_contra hof
    obtain ⟨hraised, hdropped⟩ := hcount (by simpa using hof)
    cases hrejects : store.policy.rejects with
    | true =>
      rw [hraised hrejects] at hresult
      cases hresult
    | false =>
      obtain ⟨output, houtput⟩ := hdropped hrejects
      rw [houtput] at hresult
      cases hresult
  · rw [hresult] at hlimit
    cases hlimit
  · rintro ⟨hof, hlimit⟩
    exact (hpage hof).resolve_right fun ⟨total, htotal⟩ => hlimit total htotal

/-- A refusal of a record that is read reaches the caller, a refusal of the second page of a count
does not. -/
theorem surfaces_load_not_count :
    (∃ result, (RecordStore.mk ⟨true, int 3, 20⟩ .standard 10).Performs
      (.load (map [(str "pk", str "A")]) (str "t"))
      [⟨false, ⟨⟨.get, map [(str "TableName", str "t"), (str "Key", map [(str "pk", str "A")])]⟩,
        .error (.invalid (.refused "bad"))⟩⟩] result ∧
      result = .error (.invalid (.refused "bad"))) ∧
    ∃ first second result, (RecordStore.mk ⟨true, int 3, 20⟩ .standard 10).Performs
      (.count (map [(str "TableName", str "t")]) (int 0)) [first, second] result ∧
      result = .error (.failed "bad" "count" (some (.invalid (.refused "bad")))) := by
  constructor
  · have hbegin : ((RecordStore.mk ⟨true, int 3, 20⟩ .standard 10).begin
        (.load (map [(str "pk", str "A")]) (str "t"))).result = .ok (.process _) := rfl
    have hperforms : RecordStore.Performs _ _ ([] ++ _ :: []) _ :=
      .process [.ok null, .error (.invalid (.refused "bad"))]
        (r := .error (.invalid (.refused "bad"))) hbegin rfl
    refine ⟨_, hperforms, ?_⟩
    refine (surfaces_iff (m := 3) rfl hperforms rfl (fun _ hd => by cases hd)).1.2
      ⟨rfl, fun total h => ?_⟩
    cases h
  · have hbegin : ((RecordStore.mk ⟨true, int 3, 20⟩ .standard 10).begin
        (.count (map [(str "TableName", str "t")]) (int 0))).result = .ok (.process _) := rfl
    have hperforms : RecordStore.Performs _ _ ([_] ++ _ :: []) _ :=
      .process [.ok null, .ok (map [(str "Count", int 2),
          (str "LastEvaluatedKey", map [(str "pk", str "A")])]), .ok null,
          .error (.invalid (.refused "bad"))]
        (r := .error (.failed "bad" "count" (some (.invalid (.refused "bad"))))) hbegin rfl
    refine ⟨_, _, _, hperforms, ?_⟩
    refine ((surfaces_iff (m := 3) rfl hperforms rfl ?_).2 rfl).1 rfl
    intro d hd
    obtain rfl := List.mem_singleton.1 hd
    refine ⟨_, rfl, _, rfl, ?_, _, rfl⟩
    rintro v ⟨⟩
    exact ⟨2, rfl⟩

/-- The refusal of a count is passed off as a failure of the store. -/
theorem not_surfaces_count :
    (RecordStore.mk ⟨true, int 3, 20⟩ .standard 10).Performs
      (.count (map [(str "TableName", str "t")]) (int 0))
      [⟨true, ⟨⟨.query, map [(str "TableName", str "t"), (str "Select", str "COUNT")]⟩,
        .error (.invalid (.refused "bad"))⟩⟩]
      (.error (.failed "bad" "count" (some (.invalid (.refused "bad"))))) ∧
    (.error (.failed "bad" "count" (some (.invalid (.refused "bad")))) : Except Fault Output)
      ≠ .error (.invalid (.refused "bad")) := by
  refine ⟨?_, by simp⟩
  exact .process (p := .count (.fromBeginning [(str "TableName", str "t")]))
    [.ok null, .error (.invalid (.refused "bad"))]
    (r := .error (.failed "bad" "count" (some (.invalid (.refused "bad"))))) rfl rfl

end KeysetQuery

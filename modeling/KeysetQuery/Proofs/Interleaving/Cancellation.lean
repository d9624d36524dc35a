import KeysetQuery.Proofs.Interleaving.Refusals

/-!
# Giving up what is left

A query that is decided goes on in a turn of its own, and gives up what it still has under way.

* `QueryTurn` — a turn of a branch, or of the query itself; `Interleaving.played` are turns of all of
  them in any order;
* `Interleaving.sent` — the requests that a branch has sent;
* `Policy.raises` — whether the fault of a request is raised;
* `lane_played_of_ended` — a branch that has ended or was given up sends nothing more;
* `lane_count_played` — a count whose page did not end with a fault goes on as if it were alone;
* `count_given_up_iff` — a page that fails stops the count exactly if its fault is raised.
-/

namespace KeysetQuery

open Value

/-! ### Faults that are raised -/

namespace Policy

/-- Whether the fault of a request is raised.  A refusal always is, and so is the end of a work given
up from outside. -/
def raises (policy : Policy) (f : Fault) : Bool := f.isInvalid || f.isCancelled || policy.rejects

variable {policy : Policy} {f : Fault}

theorem result_settle_of_raised (o : Operation) (h : policy.raises f = true) :
    ∃ g, (policy.settle o (.error f)).result = .error g := by
  rw [settle]
  split
  · exact ⟨f, rfl⟩
  · rename_i hfault
    rw [raises, Bool.eq_false_iff.2 hfault, Bool.false_or] at h
    exact ⟨_, by rw [policy.result_afterFault, if_pos h]⟩

theorem result_settle_of_dropped (o : Operation) (h : policy.raises f = false) :
    (policy.settle o (.error f)).result = .ok .null := by
  rw [raises, Bool.or_eq_false_iff] at h
  rw [settle, h.1, if_neg (by decide), policy.result_afterFault, h.2, if_neg (by decide)]

end Policy

/-! ### Turns of a query -/

/-- A turn of a branch, with the reply that comes if the branch waits for one, or a turn of the query
itself. -/
inductive QueryTurn where
  | branch (t : BranchName × Reply)
  | query

namespace QueryTurn

/-- The turns of branches. -/
def schedule (turns : List QueryTurn) : Schedule :=
  turns.filterMap fun
    | branch t => some t
    | query => none

theorem schedule_snoc_branch (turns : List QueryTurn) (t : BranchName × Reply) :
    schedule (turns ++ [branch t]) = schedule turns ++ [t] := List.filterMap_append

theorem schedule_snoc_query (turns : List QueryTurn) :
    schedule (turns ++ [query]) = schedule turns :=
  List.filterMap_append.trans (List.append_nil _)

end QueryTurn

namespace Interleaving

/-- A query that is decided goes on: it gives up its branches.  What these have sent stays sent. -/
def resume (x : Interleaving) : Interleaving :=
  match x.run.verdict with
  | none => x
  | some _ => { x with run := x.run.giveUp }

def step (policy : Policy) (x : Interleaving) : QueryTurn → Interleaving
  | .branch t => x.turn policy t
  | .query => x.resume

/-- Turns of the branches and of the query, one after the other. -/
def played (policy : Policy) (x : Interleaving) (turns : List QueryTurn) : Interleaving :=
  turns.foldl (step policy) x

/-- The requests that a branch has sent: those that were answered, and the one that it waits for. -/
def sent (x : Interleaving) (b : BranchName) : List Request :=
  (x.calls b).map Exchange.request ++ (x.asked b).toList

variable {policy : Policy} {plan : QueryPlan} {x : Interleaving} {b : BranchName}

theorem played_append (front turns : List QueryTurn) :
    x.played policy (front ++ turns) = (x.played policy front).played policy turns :=
  List.foldl_append

theorem played_snoc (turns : List QueryTurn) (t : QueryTurn) :
    x.played policy (turns ++ [t]) = (x.played policy turns).step policy t :=
  played_append turns [t]

/-- What is sent is not taken back by the query. -/
theorem sent_resume (x : Interleaving) (b : BranchName) : x.resume.sent b = x.sent b := by
  unfold resume
  split <;> rfl

theorem sent_eq_of_lane_eq {y : Interleaving} (h : x.lane b = y.lane b) : x.sent b = y.sent b := by
  have hcalls : x.calls b = y.calls b := congrArg Lane.calls h
  have hasked : x.asked b = y.asked b := congrArg Lane.asked h
  rw [sent, sent, hcalls, hasked]

/-! ### The turn of the query -/

theorem resume_of_undecided (h : x.run.verdict = none) : x.resume = x := by
  simp only [resume, h]

theorem branch_giveUp (q : QueryRun) (b : BranchName) :
    q.giveUp.branch b = (q.branch b).stopped := by
  cases b <;> rfl

/-- A decided query stops its branches. -/
theorem branch_resume (h : x.run.verdict ≠ none) (b : BranchName) :
    x.resume.run.branch b = (x.run.branch b).stopped := by
  obtain ⟨v, hv⟩ := Option.ne_none_iff_exists'.1 h
  simp only [resume, hv, branch_giveUp]

/-- The turn of the query changes a branch only in that it is stopped. -/
theorem lane_resume (x : Interleaving) (b : BranchName) :
    x.resume.lane b = x.lane b ∨
      x.resume.lane b = ⟨(x.run.branch b).stopped, x.asked b, x.calls b⟩ := by
  cases hverdict : x.run.verdict with
  | none => exact .inl (by rw [resume_of_undecided hverdict])
  | some v =>
    right
    simp only [resume, hverdict, lane, branch_giveUp]

/-- The turn of the query leaves a branch that has ended as it is. -/
theorem lane_resume_of_ended {r : Except Fault Value} (h : x.run.branch b = .ended r) :
    x.resume.lane b = x.lane b := by
  rcases lane_resume x b with hlane | hlane
  · exact hlane
  · rw [hlane, lane, h]
    rfl

/-! ### All turns -/

/-- No turn changes a branch that has ended. -/
theorem lane_step_of_ended {r : Except Fault Value} (h : x.run.branch b = .ended r)
    (t : QueryTurn) : (x.step policy t).lane b = x.lane b := by
  cases t with
  | query => exact lane_resume_of_ended h
  | branch t =>
    have hended : (x.lane b).branch = .ended r := h
    show (x.turn policy t).lane b = x.lane b
    rw [lane_turn, Lane.turn_of_ended hended, ite_self]

/-- A branch that has ended, or was given up, stays as it is. -/
theorem lane_played_of_ended {r : Except Fault Value} (h : x.run.branch b = .ended r)
    (turns : List QueryTurn) : (x.played policy turns).lane b = x.lane b := by
  induction turns using List.reverseRecOn with
  | nil => rfl
  | append_singleton turns t ih =>
    have hended : (x.played policy turns).run.branch b = .ended r :=
      (congrArg Lane.branch ih).trans h
    rw [played_snoc, lane_step_of_ended hended, ih]

theorem consistent_resume (h : x.run.Consistent plan) : x.resume.run.Consistent plan := by
  cases hverdict : x.run.verdict with
  | none =>
    rw [resume_of_undecided hverdict]
    exact h
  | some v =>
    have hrun : x.resume.run = x.run.giveUp := by simp only [resume, hverdict]
    have hdecided : x.run.giveUp.verdict = some v := hverdict
    rw [hrun]
    refine ⟨h.plan_eq, fun hnone => ?_, fun r hr => ?_, fun f hf => ?_⟩
    · rw [hdecided] at hnone
      cases hnone
    · obtain ⟨hpage, hcount⟩ := h.ended_of_ok r hr
      exact ⟨congrArg Branch.stopped hpage, congrArg Branch.stopped hcount⟩
    · obtain ⟨b, hb⟩ := h.ended_of_error f hf
      exact ⟨b, by rw [branch_giveUp, hb]; rfl⟩

/-- What every turn preserves holds after all turns. -/
theorem played_of_step {P : Interleaving → Prop} (h : P x)
    (hstep : ∀ x t, P x → P (x.step policy t)) (turns : List QueryTurn) :
    P (x.played policy turns) := by
  induction turns generalizing x with
  | nil => exact h
  | cons t turns ih => exact ih (hstep x t h)

/-- What a query was told agrees with what its branches came to, after any turns. -/
theorem consistent_of_played (plan : QueryPlan) (policy : Policy) (turns : List QueryTurn) :
    ((start plan).played policy turns).run.Consistent plan := by
  refine played_of_step (P := fun x => x.run.Consistent plan) (QueryRun.consistent_start plan) ?_
    turns
  intro x t h
  cases t with
  | branch t => exact consistent_turn h t
  | query => exact consistent_resume h

/-! ### The page -/

/-- The page has its turns as if it were alone, or was given up before it had a reply. -/
def PageSettles (policy : Policy) (plan : QueryPlan) (x : Interleaving) : Prop :=
  Lane.Settles (.settled plan.pageRequest) plan.pageRequest
      (fun reply => (policy.settle .query reply).result) (x.lane .page) ∨
    x.calls .page = [] ∧ ∃ r, x.run.branch .page = .ended r

theorem PageSettles.step (h : x.PageSettles policy plan) (t : QueryTurn) :
    (x.step policy t).PageSettles policy plan := by
  rcases h with hlane | ⟨hcalls, r, hr⟩
  · cases t with
    | branch t =>
      left
      show Lane.Settles _ _ _ ((x.turn policy t).lane .page)
      rw [lane_turn]
      split
      · exact hlane.turn (Process.asksOnce_settled policy plan.pageRequest) t.2
      · exact hlane
    | query =>
      rcases lane_resume x .page with hsame | hstopped
      · left
        show Lane.Settles _ _ _ (x.resume.lane .page)
        rw [hsame]
        exact hlane
      · -- a page that is ready or waits has had no reply; one that has ended stays as it is
        cases hbranch : x.run.branch .page with
        | ended r =>
          left
          show Lane.Settles _ _ _ (x.resume.lane .page)
          rw [lane_resume_of_ended hbranch]
          exact hlane
        | active p =>
          right
          rw [hbranch] at hstopped
          have hnone : x.calls .page = [] := by
            have hactive : (x.lane .page).branch = .active p := hbranch
            show (x.lane .page).calls = []
            generalize x.lane .page = lane at hlane hactive
            cases hlane with
            | ready | waiting => rfl
            | ended => cases hactive
          exact ⟨(congrArg Lane.calls hstopped).trans hnone, _, congrArg Lane.branch hstopped⟩
  · right
    have hsame : (x.step policy t).lane .page = x.lane .page := lane_step_of_ended hr t
    exact ⟨(congrArg Lane.calls hsame).trans hcalls, r, (congrArg Lane.branch hsame).trans hr⟩

/-- A page that has had a reply has ended as the reply says. -/
theorem branch_page_of_mem {turns : List QueryTurn} {e : Exchange}
    (he : e ∈ ((start plan).played policy turns).calls .page) :
    ((start plan).played policy turns).run.branch .page
      = .ended (policy.settle .query e.reply).result := by
  have hpage : ((start plan).played policy turns).PageSettles policy plan :=
    played_of_step (.inl .ready) (fun _ t h => h.step t) turns
  rcases hpage with hlane | ⟨hnone, -⟩
  · exact hlane.of_mem he
  · rw [hnone] at he
    cases he

/-! ### The count -/

/-- A count whose page has not ended with a fault has its turns as if it were alone, whether the page
has failed or not. -/
theorem lane_count_played {turns : List QueryTurn}
    (hpage : ∀ g, ((start plan).played policy turns).run.branch .page ≠ .ended (.error g)) :
    ((start plan).played policy turns).lane .count
      = ((start plan).lane .count).after policy
        ((QueryTurn.schedule turns).repliesOf .count) := by
  induction turns using List.reverseRecOn with
  | nil => rfl
  | append_singleton turns t ih =>
    have hbefore : ∀ g, ((start plan).played policy turns).run.branch .page ≠ .ended (.error g) := by
      intro g hg
      refine hpage g ?_
      rw [played_snoc]
      exact (congrArg Lane.branch (lane_step_of_ended hg t)).trans hg
    rw [played_snoc]
    cases t with
    | branch t =>
      show (turn policy _ t).lane .count = _
      rw [lane_turn, ih hbefore, QueryTurn.schedule_snoc_branch, Schedule.repliesOf_snoc]
      split
      · rw [Lane.after, Lane.after, List.foldl_append]
        rfl
      · rw [List.append_nil]
    | query =>
      rw [QueryTurn.schedule_snoc_query, ← ih hbefore]
      show (resume _).lane .count = _
      have hconsistent := consistent_of_played plan policy turns
      rcases hverdict : ((start plan).played policy turns).run.verdict with _ | (f | r)
      · rw [resume_of_undecided hverdict]
      · -- the fault that decided the query is that of the count
        obtain ⟨b, hb⟩ := hconsistent.ended_of_error f hverdict
        cases b with
        | page => exact absurd hb (hbefore f)
        | count => exact lane_resume_of_ended hb
      · exact lane_resume_of_ended (hconsistent.ended_of_ok r hverdict).2

/-! ### A page that fails -/

section Failed

variable {front : List QueryTurn} {e : Exchange} {f : Fault}
  (he : e ∈ ((start plan).played policy front).calls .page) (hfailed : e.reply = .error f)

include he hfailed

/-- A fault that is raised decides the query that is told of it. -/
theorem verdict_ne_none_of_raised (htold : ((start plan).played policy front).run.IsTold .page)
    (hraised : policy.raises f = true) :
    ((start plan).played policy front).run.verdict ≠ none := by
  obtain ⟨g, hg⟩ := Policy.result_settle_of_raised .query hraised
  have hpage := branch_page_of_mem he
  rw [hfailed, hg] at hpage
  have houtcome := (consistent_of_played plan policy front).outcome_ne_none_of_error policy htold
    hpage
  exact fun hnone => houtcome (Option.map_eq_none_iff.2 hnone)

/-- A fault that is dropped does not decide the query as long as the count is active. -/
theorem verdict_eq_none_of_dropped (hdropped : policy.raises f = false) {p : Process}
    (hactive : ((start plan).played policy front).run.branch .count = .active p) :
    ((start plan).played policy front).run.verdict = none := by
  have hpage := branch_page_of_mem he
  rw [hfailed, Policy.result_settle_of_dropped .query hdropped] at hpage
  have hconsistent := consistent_of_played plan policy front
  rcases hverdict : ((start plan).played policy front).run.verdict with _ | (g | r)
  · rfl
  · obtain ⟨b, hb⟩ := hconsistent.ended_of_error g hverdict
    cases b with
    | page =>
      rw [hpage] at hb
      cases hb
    | count =>
      rw [hactive] at hb
      cases hb
  · have hcount := (hconsistent.ended_of_ok r hverdict).2
    rw [show ((start plan).played policy front).run.count = .active p from hactive] at hcount
    cases hcount

end Failed

end Interleaving

open Interleaving

/-- Once the page of a query has failed and the query was told so and has had a turn of its own, the
count beside it has been given up exactly if the fault of the page is raised.  Then the count sends
nothing more; otherwise it goes on as if it were alone. -/
theorem count_given_up_iff {policy : Policy} {plan : QueryPlan} (hcounts : plan.counts = true)
    {front : List QueryTurn} {e : Exchange} {f : Fault}
    (he : e ∈ ((start plan).played policy front).calls .page) (hfailed : e.reply = .error f)
    (htold : ((start plan).played policy front).run.IsTold .page) :
    (∀ p, ((start plan).played policy front).run.branch .count = .active p →
      (((start plan).played policy (front ++ [.query])).run.branch .count
        = .ended (.error .cancelled) ↔ policy.raises f = true)) ∧
    (policy.raises f = true → ∀ later,
      ((start plan).played policy (front ++ .query :: later)).sent .count
        = ((start plan).played policy front).sent .count) ∧
    (policy.raises f = false → ∀ later,
      ((start plan).played policy (front ++ .query :: later)).lane .count
        = (Lane.start plan.countProcess).after policy
          ((QueryTurn.schedule (front ++ .query :: later)).repliesOf .count)) := by
  refine ⟨fun p hactive => ?_, fun hraised later => ?_, fun hdropped later => ?_⟩
  · rw [played_snoc]
    show (resume _).run.branch .count = _ ↔ _
    cases hraises : policy.raises f with
    | true =>
      rw [branch_resume (verdict_ne_none_of_raised he hfailed htold hraises), hactive]
      exact iff_of_true rfl rfl
    | false =>
      rw [resume_of_undecided (verdict_eq_none_of_dropped he hfailed hraises hactive), hactive]
      exact iff_of_false (fun h => by cases h) (fun h => by cases h)
  · have hdecided := verdict_ne_none_of_raised he hfailed htold hraised
    rw [played_append]
    show ((resume _).played policy later).sent .count = _
    have hended : ∃ r, ((start plan).played policy front).resume.run.branch .count = .ended r := by
      rw [branch_resume hdecided]
      cases ((start plan).played policy front).run.branch .count <;> exact ⟨_, rfl⟩
    obtain ⟨r, hr⟩ := hended
    rw [sent_eq_of_lane_eq (lane_played_of_ended hr later), sent_resume]
  · have hpage : ∀ g, ((start plan).played policy (front ++ .query :: later)).run.branch .page
        ≠ .ended (.error g) := by
      intro g hg
      have hended := branch_page_of_mem he
      have hlater : (((start plan).played policy front).played policy (.query :: later)).lane .page
          = ((start plan).played policy front).lane .page := lane_played_of_ended hended _
      rw [← played_append] at hlater
      have hbranch := (congrArg Lane.branch hlater).trans hended
      rw [hfailed, Policy.result_settle_of_dropped .query hdropped] at hbranch
      rw [show (((start plan).played policy (front ++ .query :: later)).lane .page).branch
        = .ended (.error g) from hg] at hbranch
      cases hbranch
    rw [lane_count_played hpage, lane_start_count hcounts]

/-! ### A count of two pages -/

/-- A plan with a count. -/
def countedPlan : QueryPlan := ⟨.plain 10, [(str "TableName", str "t")], true⟩

/-- Both branches ask, the page fails, and the query is told so. -/
def pageFails : List QueryTurn :=
  [.branch (.page, .ok null), .branch (.count, .ok null),
    .branch (.page, .error (.failed "down" "" none)), .branch (.page, .ok null)]

/-- The count is answered with a page that says where it ended, and has another turn. -/
def countGoesOn : List QueryTurn :=
  [.branch (.count, .ok (map [(str "Count", int 1),
    (str "LastEvaluatedKey", map [(str "pk", str "A")])])), .branch (.count, .ok null)]

/-- If failures are raised, the count sends nothing after its first request, even if that request is
answered. -/
theorem count_given_up_iff_first_page :
    ⟨countedPlan.pageRequest, .error (.failed "down" "" none)⟩
        ∈ ((start countedPlan).played ⟨true, int 5, 20⟩ pageFails).calls .page ∧
      ((start countedPlan).played ⟨true, int 5, 20⟩ pageFails).run.IsTold .page ∧
      ((start countedPlan).played ⟨true, int 5, 20⟩
        (pageFails ++ .query :: countGoesOn)).sent .count
        = [⟨.query, map [(str "TableName", str "t"), (str "Select", str "COUNT")]⟩] := by
  have he : ⟨countedPlan.pageRequest, .error (.failed "down" "" none)⟩
      ∈ ((start countedPlan).played ⟨true, int 5, 20⟩ pageFails).calls .page :=
    List.mem_singleton_self _
  have htold : ((start countedPlan).played ⟨true, int 5, 20⟩ pageFails).run.IsTold .page := by
    left
    show some (Except.error (Fault.failed "down" "" none)) ≠ (none : Option (Except Fault _))
    exact Option.some_ne_none _
  exact ⟨he, htold, ((count_given_up_iff rfl he rfl htold).2.1 rfl countGoesOn).trans rfl⟩

/-- If failures are dropped, the count sends its second request although the page has failed, the
query was told so and has had a turn of its own. -/
theorem count_goes_on_if_dropped :
    ⟨countedPlan.pageRequest, .error (.failed "down" "" none)⟩
        ∈ ((start countedPlan).played ⟨false, int 5, 20⟩ pageFails).calls .page ∧
      ((start countedPlan).played ⟨false, int 5, 20⟩ pageFails).run.IsTold .page ∧
      ((start countedPlan).played ⟨false, int 5, 20⟩ (pageFails ++ [.query])).sent .count
        = [⟨.query, map [(str "TableName", str "t"), (str "Select", str "COUNT")]⟩] ∧
      ((start countedPlan).played ⟨false, int 5, 20⟩
        (pageFails ++ .query :: countGoesOn)).sent .count
        = [⟨.query, map [(str "TableName", str "t"), (str "Select", str "COUNT")]⟩,
          ⟨.query, map [(str "TableName", str "t"), (str "Select", str "COUNT"),
            (str "ExclusiveStartKey", map [(str "pk", str "A")])]⟩] := by
  refine ⟨List.mem_singleton_self _, .inr ?_, rfl, rfl⟩
  show BranchName.page ∉ [BranchName.count]
  decide

end KeysetQuery

import KeysetQuery.Proofs.Interleaving.Lane
import Mathlib.Data.List.Induction
import Mathlib.Logic.Function.Basic

/-!
# The branches of a query in any order

The page and the count of a query take turns in any order, and each request is answered at any time
after it was sent.

* `Interleaving` — a query under way and what passed between its branches and the store;
  `Interleaving.turn` and `Interleaving.after` are turns in the order of a schedule;
* `lane_after` — each branch goes through its own turns, as if it were alone;
* `QueryRun.Consistent` — what a query was told agrees with what its branches came to;
* `outcome_cases` — a query comes to what both branches came to, or to the fault of one of them;
* `outcome_ne_none`, `outcome_ne_none_of_error` — a query is decided once both branches have ended
  and were reported, or one of them with a fault.
-/

namespace KeysetQuery

/-! ### Reports -/

namespace QueryRun

variable {q : QueryRun}

/-- A report changes no branch. -/
theorem branch_report (q : QueryRun) (b c : BranchName) : (q.report b).branch c = q.branch c := by
  unfold report
  split
  · rfl
  · split <;> rfl

/-- What a query was told agrees with what its branches came to. -/
structure Consistent (plan : QueryPlan) (q : QueryRun) : Prop where
  plan_eq : q.plan = plan
  /-- An undecided query waits, and what it does not wait for has ended well. -/
  awaits : q.verdict = none → q.awaited ≠ [] ∧ ∀ b, b ∉ q.awaited → ∃ v, q.branch b = .ended (.ok v)
  ended_of_ok : ∀ r, q.verdict = some (.ok r) → q.page = .ended (.ok r.1) ∧ q.count = .ended (.ok r.2)
  ended_of_error : ∀ f, q.verdict = some (.error f) → ∃ b, q.branch b = .ended (.error f)

theorem consistent_start (plan : QueryPlan) : Consistent plan (.start plan) := by
  refine ⟨rfl, ?_, fun _ h => absurd h (by simp [start]), fun _ h => absurd h (by simp [start])⟩
  intro _
  cases hcounts : plan.counts with
  | false =>
    refine ⟨by simp [start, hcounts], ?_⟩
    intro b hb
    cases b with
    | page => exact absurd hb (by simp [start, hcounts])
    | count => exact ⟨.null, by simp [branch, start, hcounts]⟩
  | true =>
    refine ⟨by simp [start, hcounts], ?_⟩
    intro b hb
    exact absurd hb (by cases b <;> simp [start, hcounts])

/-- A branch that is active may change. -/
theorem Consistent.setBranch {plan : QueryPlan} (h : Consistent plan q) {b : BranchName}
    {p : Process} (hb : q.branch b = .active p) (x : Branch) : Consistent plan (q.setBranch b x) := by
  have hother : ∀ {c : BranchName} {r : Except Fault Value}, q.branch c = .ended r →
      (q.setBranch b x).branch c = .ended r := by
    intro c r hc
    have hne : b ≠ c := by
      rintro rfl
      rw [hb] at hc
      cases hc
    rw [branch_setBranch_of_ne q x hne, hc]
  have hverdict : (q.setBranch b x).verdict = q.verdict := by cases b <;> rfl
  have hawaited : (q.setBranch b x).awaited = q.awaited := by cases b <;> rfl
  refine ⟨?_, ?_, ?_, ?_⟩
  · cases b <;> exact h.plan_eq
  · rw [hverdict, hawaited]
    intro hnone
    obtain ⟨hne, hall⟩ := h.awaits hnone
    refine ⟨hne, fun c hc => ?_⟩
    obtain ⟨v, hv⟩ := hall c hc
    exact ⟨v, hother hv⟩
  · rw [hverdict]
    intro r hr
    obtain ⟨hpage, hcount⟩ := h.ended_of_ok r hr
    exact ⟨hother (c := .page) hpage, hother (c := .count) hcount⟩
  · rw [hverdict]
    intro f hf
    obtain ⟨c, hc⟩ := h.ended_of_error f hf
    exact ⟨c, hother hc⟩

theorem report_of_error {b : BranchName} {f : Fault} (hverdict : q.verdict = none)
    (hb : q.branch b = .ended (.error f)) : q.report b = { q with verdict := some (.error f) } := by
  simp only [report, hverdict, hb]

/-- The branches that a query waits for after it was told of one of them. -/
def awaitedWithout (q : QueryRun) (b : BranchName) : List BranchName :=
  q.awaited.filter fun c => c ≠ b

theorem report_of_ok {b : BranchName} {v : Value} (hverdict : q.verdict = none)
    (hb : q.branch b = .ended (.ok v)) : q.report b =
      { q with
        awaited := q.awaitedWithout b
        verdict := if (q.awaitedWithout b).isEmpty then some q.results else none } := by
  simp only [report, hverdict, hb]
  rfl

theorem results_of_ended (h : ∀ b, ∃ v, q.branch b = .ended (.ok v)) : ∃ r : Value × Value,
    q.page = .ended (.ok r.1) ∧ q.count = .ended (.ok r.2) ∧ q.results = .ok r := by
  obtain ⟨p, hp⟩ := h .page
  obtain ⟨c, hc⟩ := h .count
  have hpage : q.page = .ended (.ok p) := hp
  have hcount : q.count = .ended (.ok c) := hc
  exact ⟨(p, c), hpage, hcount, by rw [results, hpage, hcount]⟩

/-- A query may be told of any branch. -/
theorem Consistent.report {plan : QueryPlan} (h : Consistent plan q) (b : BranchName) :
    Consistent plan (q.report b) := by
  cases hverdict : q.verdict with
  | some v =>
    rw [report_of_decided hverdict]
    exact h
  | none =>
    obtain ⟨-, hall⟩ := h.awaits hverdict
    rcases hb : q.branch b with p | (f | v)
    · simpa only [QueryRun.report, hverdict, hb] using h
    · rw [report_of_error hverdict hb]
      refine ⟨h.plan_eq, fun hnone => absurd hnone (by simp), fun r hr => absurd hr (by simp), ?_⟩
      intro g hg
      obtain rfl : f = g := Except.error.inj (Option.some.inj hg)
      exact ⟨b, hb⟩
    · -- what is not awaited any more was not awaited before, or is this branch
      have hended : ∀ c, c ∉ q.awaitedWithout b → ∃ w, q.branch c = .ended (.ok w) := by
        intro c hc
        by_cases hcb : c = b
        · exact ⟨v, hcb ▸ hb⟩
        · exact hall c fun hmem => hc (List.mem_filter.2 ⟨hmem, by simpa using hcb⟩)
      rw [report_of_ok hverdict hb]
      cases hawaited : q.awaitedWithout b with
      | cons c cs =>
        refine ⟨h.plan_eq, fun _ => ⟨by simp, hawaited ▸ hended⟩, fun r hr => absurd hr (by simp),
          fun f hf => absurd hf (by simp)⟩
      | nil =>
        rw [hawaited] at hended
        obtain ⟨r, hpage, hcount, hresults⟩ := results_of_ended fun c => hended c List.not_mem_nil
        refine ⟨h.plan_eq, fun hnone => absurd hnone (by simp), ?_, ?_⟩
        · intro r' hr'
          have heq : some q.results = some (.ok r') := hr'
          rw [hresults] at heq
          obtain rfl : r = r' := Except.ok.inj (Option.some.inj heq)
          exact ⟨hpage, hcount⟩
        · intro f hf
          have heq : some q.results = some (.error f) := hf
          rw [hresults] at heq
          cases Option.some.inj heq

/-- A query comes to what both branches came to, or to the fault of one of them. -/
theorem Consistent.outcome_cases {plan : QueryPlan} (h : Consistent plan q) {policy : Policy}
    {o : Noted (Option Page)} (ho : q.outcome policy = some o) :
    (∃ p c, q.branch .page = .ended (.ok p) ∧ q.branch .count = .ended (.ok c) ∧
      o.result = (plan.conclude policy p c).result) ∨
    ∃ b f, q.branch b = .ended (.error f) ∧ o.result = .error f := by
  obtain ⟨verdict, hverdict, rfl⟩ := Option.map_eq_some_iff.1 ho
  rcases verdict with f | r
  · obtain ⟨b, hb⟩ := h.ended_of_error f hverdict
    exact .inr ⟨b, f, hb, rfl⟩
  · obtain ⟨hpage, hcount⟩ := h.ended_of_ok r hverdict
    refine .inl ⟨r.1, r.2, hpage, hcount, ?_⟩
    rw [← h.plan_eq]
    rfl

/-- A query knows that a branch has ended, or does not need to know any more. -/
def IsTold (q : QueryRun) (b : BranchName) : Prop := q.verdict ≠ none ∨ b ∉ q.awaited

theorem isTold_report_self {b : BranchName} {r : Except Fault Value} (h : q.branch b = .ended r) :
    (q.report b).IsTold b := by
  cases hverdict : q.verdict with
  | some v =>
    rw [report_of_decided hverdict]
    exact .inl (by simp [hverdict])
  | none =>
    cases r with
    | error f =>
      rw [report_of_error hverdict h]
      exact .inl (by simp)
    | ok v =>
      rw [report_of_ok hverdict h]
      exact .inr (by simp [awaitedWithout])

theorem IsTold.report {b : BranchName} (h : q.IsTold b) (c : BranchName) : (q.report c).IsTold b := by
  cases hverdict : q.verdict with
  | some v =>
    rw [report_of_decided hverdict]
    exact h
  | none =>
    have hb : b ∉ q.awaited := h.resolve_left fun hne => hne hverdict
    rcases hc : q.branch c with p | (f | v)
    · simpa only [QueryRun.report, hverdict, hc] using h
    · rw [report_of_error hverdict hc]
      exact .inr hb
    · rw [report_of_ok hverdict hc]
      exact .inr fun hmem => hb ((List.mem_filter.1 hmem).1)

theorem IsTold.setBranch {b : BranchName} (h : q.IsTold b) (c : BranchName) (y : Branch) :
    (q.setBranch c y).IsTold b := by
  cases c <;> exact h

/-- A query that knows of both ends is decided. -/
theorem Consistent.outcome_ne_none {plan : QueryPlan} (h : Consistent plan q) (policy : Policy)
    (htold : ∀ b, q.IsTold b) : q.outcome policy ≠ none := by
  intro hnone
  have hverdict : q.verdict = none := Option.map_eq_none_iff.1 hnone
  obtain ⟨hne, -⟩ := h.awaits hverdict
  obtain ⟨b, hb⟩ := List.exists_mem_of_ne_nil _ hne
  exact (htold b).elim (fun hdecided => hdecided hverdict) fun hnot => hnot hb

/-- A query that knows of a branch with a fault is decided. -/
theorem Consistent.outcome_ne_none_of_error {plan : QueryPlan} (h : Consistent plan q)
    (policy : Policy) {b : BranchName} (htold : q.IsTold b) {f : Fault}
    (hb : q.branch b = .ended (.error f)) : q.outcome policy ≠ none := by
  intro hnone
  have hverdict : q.verdict = none := Option.map_eq_none_iff.1 hnone
  obtain ⟨-, hall⟩ := h.awaits hverdict
  obtain ⟨v, hv⟩ := hall b (htold.resolve_left fun hdecided => hdecided hverdict)
  rw [hb] at hv
  cases hv

end QueryRun

/-! ### Schedules -/

/-- A query under way, and what passed between its branches and the store. -/
structure Interleaving where
  run : QueryRun
  asked : BranchName → Option Request
  calls : BranchName → List Exchange

/-- Whose turn it is and the reply that comes if the branch waits for one, turn by turn. -/
abbrev Schedule := List (BranchName × Reply)

/-- The replies that come in the turns of a branch. -/
def Schedule.repliesOf (schedule : Schedule) (b : BranchName) : List Reply :=
  (schedule.filter fun t => t.1 = b).map Prod.snd

theorem Schedule.repliesOf_snoc (schedule : Schedule) (t : BranchName × Reply) (b : BranchName) :
    Schedule.repliesOf (schedule ++ [t]) b
      = schedule.repliesOf b ++ if t.1 = b then [t.2] else [] := by
  by_cases hb : t.1 = b <;> simp [repliesOf, hb]

namespace Interleaving

/-- A query before the first turn. -/
def start (plan : QueryPlan) : Interleaving := ⟨.start plan, fun _ => none, fun _ => []⟩

def lane (x : Interleaving) (b : BranchName) : Lane := ⟨x.run.branch b, x.asked b, x.calls b⟩

/-- A turn of a branch.  In the turn of a branch that has ended the query is told so. -/
def turn (policy : Policy) (x : Interleaving) (t : BranchName × Reply) : Interleaving :=
  match x.run.branch t.1 with
  | .ended _ => { x with run := x.run.report t.1 }
  | .active _ =>
    let lane := (x.lane t.1).turn policy t.2
    { run := x.run.setBranch t.1 lane.branch
      asked := Function.update x.asked t.1 lane.asked
      calls := Function.update x.calls t.1 lane.calls }

/-- Turns in the order of a schedule. -/
def after (policy : Policy) (x : Interleaving) (schedule : Schedule) : Interleaving :=
  schedule.foldl (turn policy) x

variable {policy : Policy} {x : Interleaving}

theorem after_append (front schedule : Schedule) :
    x.after policy (front ++ schedule) = (x.after policy front).after policy schedule :=
  List.foldl_append

theorem after_snoc (schedule : Schedule) (t : BranchName × Reply) :
    x.after policy (schedule ++ [t]) = (x.after policy schedule).turn policy t :=
  after_append schedule [t]

/-! ### Branches -/

/-- A turn of one branch is a turn of that branch and none of the other one. -/
theorem lane_turn (t : BranchName × Reply) (b : BranchName) :
    (x.turn policy t).lane b = if t.1 = b then (x.lane b).turn policy t.2 else x.lane b := by
  obtain ⟨c, reply⟩ := t
  rcases hc : x.run.branch c with p | r
  · have hturn : x.turn policy (c, reply) =
        { run := x.run.setBranch c ((x.lane c).turn policy reply).branch
          asked := Function.update x.asked c ((x.lane c).turn policy reply).asked
          calls := Function.update x.calls c ((x.lane c).turn policy reply).calls } := by
      simp only [turn, hc]
    rw [hturn]
    by_cases hcb : c = b
    · subst hcb
      simp [lane]
    · have hbc : b ≠ c := fun h => hcb h.symm
      simp [lane, hcb, hbc, QueryRun.branch_setBranch_of_ne x.run _ hcb]
  · have hturn : x.turn policy (c, reply) = { x with run := x.run.report c } := by
      simp only [turn, hc]
    have hsame : (x.turn policy (c, reply)).lane b = x.lane b := by
      rw [hturn]
      simp only [lane, QueryRun.branch_report]
    rw [hsame]
    split
    · rename_i hcb
      have hended : (x.lane b).branch = .ended r := by
        rw [← show c = b from hcb]
        exact hc
      rw [Lane.turn_of_ended hended]
    · rfl

/-- Each branch goes through its own turns, as if it were alone. -/
theorem lane_after (schedule : Schedule) (b : BranchName) :
    (x.after policy schedule).lane b = (x.lane b).after policy (schedule.repliesOf b) := by
  induction schedule generalizing x with
  | nil => rfl
  | cons t schedule ih =>
    show ((x.turn policy t).after policy schedule).lane b = _
    rw [ih, lane_turn]
    by_cases hb : t.1 = b
    · rw [if_pos hb, Schedule.repliesOf, Schedule.repliesOf, List.filter_cons_of_pos (by simpa using hb)]
      rfl
    · rw [if_neg hb, Schedule.repliesOf, Schedule.repliesOf, List.filter_cons_of_neg (by simpa using hb)]

/-- What passed between a branch and the store is never taken back. -/
theorem calls_prefix_after {front schedule : Schedule} (h : front <+: schedule) (b : BranchName) :
    (x.after policy front).calls b <+: (x.after policy schedule).calls b := by
  obtain ⟨rest, rfl⟩ := h
  have hprefix : ((x.after policy front).lane b).calls
      <+: (((x.after policy front).lane b).after policy (Schedule.repliesOf rest b)).calls :=
    Lane.calls_prefix_after _
  rw [← lane_after, ← after_append] at hprefix
  exact hprefix

theorem lane_start_count {plan : QueryPlan} (h : plan.counts = true) :
    (start plan).lane .count = .start plan.countProcess := by
  simp only [lane, start, QueryRun.start, QueryRun.branch, h]
  rfl

/-! ### Verdicts -/

theorem consistent_turn {plan : QueryPlan} (h : x.run.Consistent plan) (t : BranchName × Reply) :
    (x.turn policy t).run.Consistent plan := by
  unfold turn
  split
  · exact h.report t.1
  · rename_i p hp
    exact h.setBranch hp _

/-- What a query was told agrees with what its branches came to, after any turns. -/
theorem consistent_after {plan : QueryPlan} (h : x.run.Consistent plan) (schedule : Schedule) :
    (x.after policy schedule).run.Consistent plan := by
  induction schedule generalizing x with
  | nil => exact h
  | cons t schedule ih => exact ih (consistent_turn h t)

theorem consistent_of_start (plan : QueryPlan) (policy : Policy) (schedule : Schedule) :
    ((start plan).after policy schedule).run.Consistent plan :=
  consistent_after (QueryRun.consistent_start plan) schedule

/-! ### Decisions -/

theorem isTold_turn {b : BranchName} (h : x.run.IsTold b) (t : BranchName × Reply) :
    (x.turn policy t).run.IsTold b := by
  unfold turn
  split
  · exact h.report t.1
  · exact h.setBranch t.1 _

/-- A branch that has ended after some of its turns is reported in the next one. -/
theorem isTold_after {b : BranchName} {turns : ℕ} {schedule : Schedule}
    (hends : ∀ front : Schedule, front <+: schedule → turns ≤ (front.repliesOf b).length →
      ∃ r, (x.after policy front).run.branch b = .ended r)
    (hturns : turns < (schedule.repliesOf b).length) :
    (x.after policy schedule).run.IsTold b := by
  induction schedule using List.reverseRecOn with
  | nil => exact absurd hturns (Nat.not_lt_zero turns)
  | append_singleton schedule t ih =>
    have hfront : schedule <+: schedule ++ [t] := List.prefix_append _ _
    rw [after_snoc]
    by_cases hb : t.1 = b
    · -- this is a turn of the branch: it has ended before, or is reported before already
      rw [Schedule.repliesOf_snoc, if_pos hb, List.length_append, List.length_singleton] at hturns
      obtain ⟨r, hr⟩ := hends schedule hfront (by omega)
      have hturn : ((x.after policy schedule).turn policy t).run
          = (x.after policy schedule).run.report b := by
        simp only [turn, hb, hr]
      rw [hturn]
      exact QueryRun.isTold_report_self hr
    · rw [Schedule.repliesOf_snoc, if_neg hb, List.append_nil] at hturns
      exact isTold_turn (ih (fun front h => hends front (h.trans hfront)) hturns) t

/-- A query is decided once both branches have ended and have had one turn more. -/
theorem outcome_ne_none {plan : QueryPlan} (h : x.run.Consistent plan) (turns : ℕ)
    {schedule : Schedule}
    (hends : ∀ b, ∀ front : Schedule, front <+: schedule → turns ≤ (front.repliesOf b).length →
      ∃ r, (x.after policy front).run.branch b = .ended r)
    (hturns : ∀ b, turns < (schedule.repliesOf b).length) :
    (x.after policy schedule).run.outcome policy ≠ none :=
  (consistent_after h schedule).outcome_ne_none policy fun b => isTold_after (hends b) (hturns b)

/-- A query is decided once a branch has ended with a fault and has had one turn more. -/
theorem outcome_ne_none_of_error {plan : QueryPlan} (h : x.run.Consistent plan) {b : BranchName}
    (turns : ℕ) {schedule : Schedule}
    (hends : ∀ front : Schedule, front <+: schedule → turns ≤ (front.repliesOf b).length →
      ∃ f, (x.after policy front).run.branch b = .ended (.error f))
    (hturns : turns < (schedule.repliesOf b).length) :
    (x.after policy schedule).run.outcome policy ≠ none := by
  obtain ⟨f, hf⟩ := hends schedule List.prefix_rfl (Nat.le_of_lt hturns)
  have htold := isTold_after (fun front hfront hlength =>
    (hends front hfront hlength).imp' Except.error fun _ hg => hg) hturns
  exact (consistent_after h schedule).outcome_ne_none_of_error policy htold hf

end Interleaving

end KeysetQuery

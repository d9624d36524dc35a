import KeysetQuery.Proofs.Interleaving.Refusals
import KeysetQuery.Proofs.Session.Jobs

/-!
# Tasks in sessions

What comes of a task in a session, side by side with other tasks, is what comes of it after turns of
its branches in some order.

* `Lane.IsReached`, `Interleaving.IsReached` — some turns in which the script gave the replies;
* `TaskJob` — how far the job of a task is;
* `Play.taskJob_handle` — every event in a session preserves it;
* `Session.performs` — what comes of a task in a session.
-/

namespace KeysetQuery

open Value

/-! ### Turns of processes and queries -/

namespace Lane

variable {policy : Policy} {script : Script} {p : Process} {lane lane' : Lane}

/-- A process has had some turns, in which the script gave the replies. -/
def IsReached (policy : Policy) (script : Script) (p : Process) (lane : Lane) : Prop :=
  (∃ replies, lane = (start p).after policy replies) ∧ ∀ e ∈ lane.calls, script.Answers e

theorem isReached_start (policy : Policy) (script : Script) (p : Process) :
    (start p).IsReached policy script p := ⟨⟨[], rfl⟩, fun _ he => by cases he⟩

/-- A turn has at most the exchange of the request that the branch waits for. -/
theorem mem_calls_turn {reply : Reply} {e : Exchange} (h : e ∈ (lane.turn policy reply).calls) :
    e ∈ lane.calls ∨ lane.asked = some e.request ∧ e.reply = reply := by
  obtain ⟨branch, asked, calls⟩ := lane
  rcases branch with p | r
  · cases asked with
    | some request =>
      rcases List.mem_append.1 h with h | h
      · exact .inl h
      · obtain rfl := List.mem_singleton.1 h
        exact .inr ⟨rfl, rfl⟩
    | none =>
      simp only [turn] at h
      split at h <;> exact .inl h
  · exact .inl h

/-- The exchanges of a turn are answered by the script if the reply is one of it. -/
theorem answers_turn {reply : Reply} (h : ∀ e ∈ lane.calls, script.Answers e)
    (hreply : ∀ request, lane.asked = some request → script.Answers ⟨request, reply⟩) :
    ∀ e ∈ (lane.turn policy reply).calls, script.Answers e := by
  intro e he
  rcases mem_calls_turn he with hmem | ⟨hasked, rfl⟩
  · exact h e hmem
  · exact hreply e.request hasked

theorem IsReached.goes (h : lane.IsReached policy script p) (hgoes : lane.Goes policy script lane') :
    lane'.IsReached policy script p := by
  induction hgoes with
  | refl => exact h
  | turn reply hactive hreply rest ih =>
    obtain ⟨⟨replies, rfl⟩, hanswers⟩ := h
    refine ih ⟨⟨replies ++ [reply], ?_⟩, answers_turn hanswers hreply⟩
    rw [after, after, List.foldl_append]
    rfl

end Lane

namespace Interleaving

variable {policy : Policy} {script : Script} {plan : QueryPlan} {x : Interleaving} {b : BranchName}

/-- A query has had some turns, in which the script gave the replies. -/
def IsReached (policy : Policy) (script : Script) (plan : QueryPlan) (x : Interleaving) : Prop :=
  (∃ schedule, x = (start plan).after policy schedule) ∧ ∀ b, ∀ e ∈ x.calls b, script.Answers e

theorem isReached_start (policy : Policy) (script : Script) (plan : QueryPlan) :
    (start plan).IsReached policy script plan :=
  ⟨⟨[], rfl⟩, fun _ _ he => by cases he⟩

theorem IsReached.turn (h : x.IsReached policy script plan) {reply : Reply}
    (hreply : ∀ request, x.asked b = some request → script.Answers ⟨request, reply⟩) :
    (x.turn policy (b, reply)).IsReached policy script plan := by
  obtain ⟨⟨schedule, rfl⟩, hanswers⟩ := h
  refine ⟨⟨schedule ++ [(b, reply)], (after_snoc schedule _).symm⟩, fun c => ?_⟩
  show ∀ e ∈ ((((start plan).after policy schedule).turn policy (b, reply)).lane c).calls, _
  rw [lane_turn]
  split
  · rename_i hb
    subst hb
    exact Lane.answers_turn (hanswers _) hreply
  · exact hanswers c

/-- Turns of a branch are turns of the query. -/
theorem IsReached.goes (h : x.IsReached policy script plan) {lane' : Lane}
    (hgoes : (x.lane b).Goes policy script lane') : ∃ x' : Interleaving,
      x'.IsReached policy script plan ∧ x'.run = x.run.setBranch b lane'.branch ∧
      x'.asked b = lane'.asked ∧ ∀ c, b ≠ c → x'.asked c = x.asked c := by
  generalize hlane : x.lane b = lane at hgoes
  induction hgoes generalizing x with
  | refl =>
    subst hlane
    refine ⟨x, h, ?_, rfl, fun _ _ => rfl⟩
    cases b <;> rfl
  | @turn lane lane' p reply hactive hreply rest ih =>
    subst hlane
    have hlane : ∀ c, (x.turn policy (b, reply)).lane c
        = if b = c then (x.lane c).turn policy reply else x.lane c := lane_turn (b, reply)
    have hrun : (x.turn policy (b, reply)).run
        = x.run.setBranch b ((x.lane b).turn policy reply).branch := by
      have hb : x.run.branch b = .active p := hactive
      simp only [Interleaving.turn, hb]
    obtain ⟨x', hreached, hrun', hasked, hothers⟩ :=
      ih (h.turn hreply) ((hlane b).trans (if_pos rfl))
    refine ⟨x', hreached, ?_, hasked, fun c hc => ?_⟩
    · rw [hrun', hrun]
      cases b <;> rfl
    · rw [hothers c hc]
      exact congrArg Lane.asked ((hlane c).trans (if_neg hc))

/-- A query that is told of a branch has had one turn more, if the branch has ended. -/
theorem IsReached.report (h : x.IsReached policy script plan) (b : BranchName) :
    ({ x with run := x.run.report b } : Interleaving).IsReached policy script plan := by
  rcases hb : x.run.branch b with p | r
  · have hsame : x.run.report b = x.run := by
      unfold QueryRun.report
      split
      · rfl
      · rw [hb]
    rw [hsame]
    exact h
  · obtain ⟨⟨schedule, rfl⟩, hanswers⟩ := h
    refine ⟨⟨schedule ++ [(b, .ok .null)], ?_⟩, hanswers⟩
    rw [after_snoc]
    simp only [Interleaving.turn, hb]

end Interleaving

/-! ### Jobs of tasks -/

/-- A task for which the store is called: it is one process, or a query. -/
inductive RecordStore.Calls (store : RecordStore) : Task → Prop
  | process {task : Task} {p : Process} (hbegin : (store.begin task).result = .ok (.process p)) :
    Calls store task
  | query {primaryKey table descriptor : Value} {byItself : Bool} {plan : QueryPlan}
    (hbegin : (store.begin (.query primaryKey table descriptor byItself)).result
      = .ok (.query plan)) : Calls store (.query primaryKey table descriptor byItself)

/-- How far the job of a task is, and the branches whose turns are to come: it was not begun, or its
branches have had some turns, or it is over. -/
inductive TaskJob (store : RecordStore) (script : Script) :
    Task → Option Job → List BranchName → Prop
  | fresh {task : Task} : TaskJob store script task (some (.fresh task)) []
  | single {task : Task} {p : Process} {lane : Lane} {turns : List BranchName}
    (hbegin : (store.begin task).result = .ok (.process p))
    (hlane : lane.IsReached store.policy script p) (hnodup : turns.Nodup)
    (hidle : ∀ b ∈ turns, b = .page ∧ lane.asked = none) :
    TaskJob store script task (some (.single lane.branch)) turns
  | query {primaryKey table descriptor : Value} {byItself : Bool} {plan : QueryPlan}
    {x : Interleaving} {turns : List BranchName}
    (hbegin : (store.begin (.query primaryKey table descriptor byItself)).result
      = .ok (.query plan))
    (hx : x.IsReached store.policy script plan) (hnodup : turns.Nodup)
    (hidle : ∀ b ∈ turns, x.asked b = none) :
    TaskJob store script (.query primaryKey table descriptor byItself) (some (.query x.run))
      turns
  | finished {task : Task} {calls : List TaskCall} {result : Except Fault Output}
    {turns : List BranchName} (hperforms : store.Performs task calls result)
    (hanswers : ∀ c ∈ calls, script.Answers c.exchange) :
    TaskJob store script task (some (.finished result)) turns

namespace TaskJob

variable {store : RecordStore} {script : Script} {task : Task} {i : Nat}

theorem of_append {job : Option Job} {first turns : List BranchName}
    (h : TaskJob store script task job (first ++ turns)) : TaskJob store script task job turns := by
  generalize hall : first ++ turns = all at h
  cases h with
  | fresh =>
    obtain ⟨-, rfl⟩ := List.append_eq_nil_iff.1 hall
    exact .fresh
  | single hbegin hlane hnodup hidle =>
    subst hall
    exact .single hbegin hlane (List.nodup_append.1 hnodup).2.1
      fun b hb => hidle b (List.mem_append_right first hb)
  | query hbegin hx hnodup hidle =>
    subst hall
    exact .query hbegin hx (List.nodup_append.1 hnodup).2.1
      fun b hb => hidle b (List.mem_append_right first hb)
  | finished hperforms hanswers => exact .finished hperforms hanswers

/-- What happens besides the job leaves it as far as it is. -/
theorem of_spares {s s' : Session} (h : TaskJob store script task s.jobs[i]? (s.turnsOf i))
    (hspares : s.Spares i s') : ∃ job turns, s.Leads i s' job turns ∧
      TaskJob store script task (some job) turns := by
  cases hjob : s.jobs[i]? with
  | none =>
    rw [hjob] at h
    cases h
  | some job =>
    rw [hjob] at h
    exact ⟨job, _, ⟨hspares.toLater, hspares.job_eq.trans hjob, hspares.turnsOf_eq⟩, h⟩

/-- What comes of a job that is over, or will never be over. -/
theorem result_cases {job : Job} {turns : List BranchName}
    (h : TaskJob store script task (some job) turns) : job.result = .error .cancelled ∨
      ∃ calls, store.Performs task calls job.result ∧ ∀ c ∈ calls, script.Answers c.exchange := by
  generalize hjob : some job = job' at h
  cases h with
  | fresh | query =>
    obtain rfl := Option.some.inj hjob
    exact .inl rfl
  | @single _ p lane turns hbegin hlane hnodup hidle =>
    obtain rfl := Option.some.inj hjob
    obtain ⟨⟨replies, rfl⟩, hanswers⟩ := hlane
    cases hbranch : ((Lane.start p).after store.policy replies).branch with
    | active p => exact .inl rfl
    | ended r =>
      refine .inr ⟨_, .process replies hbegin hbranch, ?_⟩
      intro c hc
      obtain ⟨e, he, rfl⟩ := List.mem_map.1 hc
      exact hanswers e he
  | finished hperforms hanswers =>
    obtain rfl := Option.some.inj hjob
    exact .inr ⟨_, hperforms, hanswers⟩

end TaskJob

/-- Whether a job has to do with an event of its own. -/
def Job.heeds : Job → Event → Bool
  | .fresh _, .start _ => true
  | .single _, .turn _ => true
  | .query _, .turn _ => true
  | .query _, .report _ => true
  | .query _, .resume _ => true
  | _, _ => false

namespace Play

/-- An event of a job that it does not heed does nothing. -/
theorem handle_of_not_heeds {i : Nat} {s : Session} {x : Job} (hjob : s.jobs[i]? = some x)
    {e : Event} (he : e.job? = some i) (hx : x.heeds e = false) : (handle e).run s = ((), s) := by
  cases e with
  | start j =>
    obtain rfl : j = i := Option.some.inj he
    rw [handle, startJob, run_job_bind hjob]
    cases x <;> first | rfl | cases hx
  | turn a =>
    obtain rfl : a.job = i := Option.some.inj he
    rw [handle, takeTurn, process?, bind_assoc, run_job_bind hjob]
    cases x <;> first | rfl | cases hx
  | report a =>
    obtain rfl : a.job = i := Option.some.inj he
    rw [handle, report, run_job_bind hjob]
    cases x <;> first | rfl | cases hx
  | resume j =>
    obtain rfl : j = i := Option.some.inj he
    rw [handle, resume, run_job_bind hjob]
    cases x <;> first | rfl | cases hx
  | wake | opening => cases he

variable {script : Script} {task : Task} {i : Nat} {s : Session} {closes : Bool}
  (hs : s.connection = .immediate closes)

include hs

/-! ### Events of a job -/

theorem taskJob_startJob (hjob : s.jobs[i]? = some (.fresh task)) (hturns : s.turnsOf i = [])
    (hcalls : s.store.Calls task) : ∃ job turns, s.Leads i ((startJob i).run s).2 job turns ∧
      TaskJob s.store script task (some job) turns := by
  have hnoted := spares_noted (i := i) (s.store.begin task) s closes hs
  have hset := fun x => hnoted.leads (leads_setJob (hnoted.job_eq.trans hjob) x)
  rw [hnoted.turnsOf_eq, hturns] at hset
  rw [startJob, run_job_bind hjob, run_get_bind, run_noted_bind]
  cases hcalls with
  | @process _ p hbegin =>
    rw [hbegin]
    have hpage := leads_proceed (hset (.single (.active p))) .page
    exact ⟨_, _, hpage, .single hbegin (Lane.isReached_start _ script p) (by decide)
      fun b hb => ⟨List.mem_singleton.1 hb, rfl⟩⟩
  | @query _ _ _ _ plan hbegin =>
    rw [hbegin]
    have hpage := leads_enqueue (hset (.query (.start plan))) .page
    have hreached := Interleaving.isReached_start s.store.policy script plan
    show ∃ job turns, s.Leads i ((if plan.counts then enqueue (.turn ⟨i, .count⟩) else pure () :
      Play Unit).run _).2 job turns ∧ _
    cases plan.counts with
    | false => exact ⟨_, _, hpage, .query hbegin hreached (by decide) fun _ _ => rfl⟩
    | true =>
      exact ⟨_, _, leads_enqueue hpage .count, .query hbegin hreached (by decide) fun _ _ => rfl⟩

section Offers

variable (hoffers : ∀ {op response}, s.script.Offers op response → script.Offers op response)

include hoffers

theorem taskJob_takeTurn_single {p : Process} (hbegin : (s.store.begin task).result = .ok (.process p))
    {lane : Lane} (hjob : s.jobs[i]? = some (.single lane.branch))
    (hlane : lane.IsReached s.store.policy script p) (hidle : lane.asked = none)
    (hturns : s.turnsOf i = []) :
    ∃ job turns, s.Leads i ((takeTurn ⟨i, .page⟩).run s).2 job turns ∧
      TaskJob s.store script task (some job) turns := by
  obtain ⟨lane', turns, hgoes, hleads, hnext⟩ := leads_takeTurn hjob hs rfl hoffers lane rfl hidle
  have hreached := hlane.goes hgoes
  refine ⟨_, _, hleads, ?_⟩
  rw [hturns] at hnext
  rcases hnext with rfl | ⟨rfl, hidle'⟩
  · exact .single hbegin hreached .nil fun b hb => by cases hb
  · exact .single hbegin hreached (by decide) fun b hb => ⟨List.mem_singleton.1 hb, hidle'⟩

theorem taskJob_takeTurn_query {primaryKey table descriptor : Value} {byItself : Bool}
    {plan : QueryPlan}
    (hbegin : (s.store.begin (.query primaryKey table descriptor byItself)).result
      = .ok (.query plan)) {x : Interleaving} (hjob : s.jobs[i]? = some (.query x.run))
    (hx : x.IsReached s.store.policy script plan) {b : BranchName}
    (hnodup : (b :: s.turnsOf i).Nodup) (hidle : ∀ c ∈ b :: s.turnsOf i, x.asked c = none) :
    ∃ job turns, s.Leads i ((takeTurn ⟨i, b⟩).run s).2 job turns ∧
      TaskJob s.store script (.query primaryKey table descriptor byItself) (some job)
        turns := by
  obtain ⟨hnew, hrest⟩ := List.nodup_cons.1 hnodup
  obtain ⟨lane', turns, hgoes, hleads, hnext⟩ := leads_takeTurn hjob hs rfl hoffers (x.lane b)
    rfl (hidle b List.mem_cons_self)
  obtain ⟨x', hreached, hrun, hasked, hothers⟩ := hx.goes hgoes
  have hidle' : ∀ c ∈ s.turnsOf i, x'.asked c = none := by
    intro c hc
    have hne : b ≠ c := by
      rintro rfl
      exact hnew hc
    rw [hothers c hne, hidle c (List.mem_cons_of_mem b hc)]
  refine ⟨_, _, hleads, ?_⟩
  show TaskJob _ _ _ (some (.query (x.run.setBranch b lane'.branch))) _
  rw [← hrun]
  rcases hnext with rfl | ⟨rfl, hagain⟩
  · exact .query hbegin hreached hrest hidle'
  · refine .query hbegin hreached hnodup ?_
    intro c hc
    rcases List.mem_cons.1 hc with rfl | hc
    · rw [hasked, hagain]
    · exact hidle' c hc

end Offers

section Query

variable {primaryKey table descriptor : Value} {byItself : Bool} {plan : QueryPlan}
  (hbegin : (s.store.begin (.query primaryKey table descriptor byItself)).result
    = .ok (.query plan)) {x : Interleaving} (hjob : s.jobs[i]? = some (.query x.run))
  (hx : x.IsReached s.store.policy script plan) (hnodup : (s.turnsOf i).Nodup)
  (hidle : ∀ c ∈ s.turnsOf i, x.asked c = none)

include hbegin hjob hx hnodup hidle

theorem taskJob_report (b : BranchName) : ∃ job turns,
    s.Leads i ((report ⟨i, b⟩).run s).2 job turns ∧
      TaskJob s.store script (.query primaryKey table descriptor byItself) (some job)
        turns := by
  have hleads : s.Leads i ((report ⟨i, b⟩).run s).2 (.query (x.run.report b)) (s.turnsOf i) := by
    rw [report, run_job_bind hjob]
    have hset := leads_setJob hjob (.query (x.run.report b))
    have hresume : Spares i (if x.run.verdict.isNone && (x.run.report b).verdict.isSome then
        enqueue (.resume i) else pure () : Play Unit) := by
      split
      · exact spares_enqueue rfl
      · exact spares_pure _
    exact hset.spares (hresume _ closes (hset.connection_eq.trans hs))
  exact ⟨_, _, hleads, .query hbegin (hx.report b) hnodup hidle⟩

theorem taskJob_resume : ∃ job turns, s.Leads i ((resume i).run s).2 job turns ∧
    TaskJob s.store script (.query primaryKey table descriptor byItself) (some job)
      turns := by
  rw [resume, run_job_bind hjob, run_get_bind]
  cases ho : x.run.outcome s.store.policy with
  | none => exact ⟨_, _, ⟨.refl s, hjob, rfl⟩, .query hbegin hx hnodup hidle⟩
  | some o =>
    have hset := leads_setJob hjob (.query x.run.giveUp)
    have hspares : Spares i (do
        abandon ⟨i, .page⟩
        abandon ⟨i, .count⟩
        noted o) :=
      (spares_abandon _).bind fun _ => (spares_abandon _).bind fun _ => spares_noted o
    have hgivenUp := hset.spares (hspares _ closes (hset.connection_eq.trans hs))
    have hfinish := leads_setJob hgivenUp.job_eq (.finished (o.result.map outputOf))
    obtain ⟨⟨schedule, rfl⟩, hanswers⟩ := hx
    refine ⟨_, _, ⟨hgivenUp.toLater.trans hfinish.toLater, hfinish.job_eq, hfinish.turnsOf_eq⟩,
      .finished (.query schedule hbegin ho) ?_⟩
    intro c hc
    rcases List.mem_append.1 hc with hc | hc
    · obtain ⟨e, he, rfl⟩ := List.mem_map.1 hc
      exact hanswers .page e he
    · obtain ⟨e, he, rfl⟩ := List.mem_map.1 hc
      exact hanswers .count e he

end Query

/-- An event that is one of the job does with it what it does with the task; all others happen
besides it. -/
theorem taskJob_handle (hcalls : s.store.Calls task)
    (hoffers : ∀ {op response}, s.script.Offers op response → script.Offers op response) {e : Event}
    (h : TaskJob s.store script task s.jobs[i]? ((e.turnOf? i).toList ++ s.turnsOf i)) :
    ∃ job turns, s.Leads i ((handle e).run s).2 job turns ∧
      TaskJob s.store script task (some job) turns := by
  have hrest := h.of_append
  by_cases he : e.job? = some i
  · have hidle : ∀ x, s.jobs[i]? = some x → x.heeds e = false →
        ∃ job turns, s.Leads i ((handle e).run s).2 job turns ∧
          TaskJob s.store script task (some job) turns := by
      intro x hjob hx
      refine hrest.of_spares ?_
      rw [handle_of_not_heeds hjob he hx]
      exact .refl s
    generalize hjob : s.jobs[i]? = job at h
    generalize hall : (e.turnOf? i).toList ++ s.turnsOf i = all at h
    cases h with
    | finished => exact hidle _ hjob rfl
    | fresh =>
      cases e with
      | start j =>
        obtain rfl : j = i := Option.some.inj he
        exact taskJob_startJob hs hjob hall hcalls
      | _ => exact hidle _ hjob rfl
    | single hbegin hlane hnodup hturns =>
      subst hall
      cases e with
      | turn a =>
        obtain ⟨j, b⟩ := a
        obtain rfl : j = i := Option.some.inj he
        rw [Event.turnOf?_turn] at hnodup hturns
        obtain ⟨rfl, hlast⟩ := hturns b List.mem_cons_self
        have hnone : s.turnsOf j = [] := by
          refine List.eq_nil_iff_forall_not_mem.2 fun c hc => (List.nodup_cons.1 hnodup).1 ?_
          rw [← (hturns c (List.mem_cons_of_mem _ hc)).1]
          exact hc
        exact taskJob_takeTurn_single hs hoffers hbegin hjob hlane hlast hnone
      | _ => exact hidle _ hjob rfl
    | query hbegin hx hnodup hturns =>
      subst hall
      have hnodup' := (List.nodup_append.1 hnodup).2.1
      have hturns' := fun b hb => hturns b (List.mem_append_right _ hb)
      cases e with
      | turn a =>
        obtain rfl : a.job = i := Option.some.inj he
        rw [Event.turnOf?_turn] at hnodup hturns
        exact taskJob_takeTurn_query hs hoffers hbegin hjob hx hnodup hturns
      | report a =>
        obtain rfl : a.job = i := Option.some.inj he
        exact taskJob_report hs hbegin hjob hx hnodup' hturns' a.branch
      | resume j =>
        obtain rfl : j = i := Option.some.inj he
        exact taskJob_resume hs hbegin hjob hx hnodup' hturns'
      | _ => exact hidle _ hjob rfl
  · exact hrest.of_spares (spares_handle he s closes hs)

/-- What all events in the queue do with a job, one after the other. -/
theorem taskJob_drain (hcalls : s.store.Calls task)
    (hoffers : ∀ {op response}, s.script.Offers op response → script.Offers op response) (n : Nat)
    (h : TaskJob s.store script task s.jobs[i]? (s.turnsOf i)) :
    ∃ job turns, s.Leads i ((drain n).run s).2 job turns ∧
      TaskJob s.store script task (some job) turns := by
  induction n generalizing s with
  | zero => exact h.of_spares (.refl s)
  | succ n ih =>
    cases hqueue : s.queue with
    | nil =>
      rw [drain, StateT.run_bind, run_nextEvent?_nil hqueue]
      exact h.of_spares (.refl s)
    | cons e es =>
      rw [drain, StateT.run_bind, run_nextEvent?_cons hqueue]
      have hpopped : s.Later { s with queue := es } := ⟨rfl, rfl, id⟩
      have hturns : s.turnsOf i
          = (e.turnOf? i).toList ++ ({ s with queue := es } : Session).turnsOf i := by
        rw [Session.turnsOf, hqueue]
        cases he : e.turnOf? i with
        | none => exact List.filterMap_cons_none he
        | some b => exact List.filterMap_cons_some he
      rw [hturns] at h
      obtain ⟨job, turns, hleads, htask⟩ :=
        taskJob_handle (s := { s with queue := es }) hs hcalls hoffers h
      have hlater := hpopped.trans hleads.toLater
      show ∃ job turns,
        s.Leads i ((drain n).run ((handle e).run { s with queue := es }).2).2 job turns ∧ _
      generalize ((handle e).run { s with queue := es }).2 = s' at hleads hlater ⊢
      have hstore : s'.store = s.store := hlater.store_eq
      rw [← hleads.job_eq, ← hleads.turnsOf_eq, ← hstore] at htask
      obtain ⟨job', turns', hleads', htask'⟩ := ih (hlater.connection_eq.trans hs)
        (hstore ▸ hcalls) (fun h => hoffers (hlater.offers h)) htask
      rw [hstore] at htask'
      exact ⟨job', turns', ⟨hlater.trans hleads'.toLater, hleads'.job_eq, hleads'.turnsOf_eq⟩, htask'⟩

end Play

/-! ### Whole sessions -/

/-- What comes of a task for which the store is called, in a session with other tasks beside it: it
is given up before its end, or it is what comes of the task after turns of its branches in some
order, in which all replies are those of the script. -/
theorem Session.performs {s : Session} {closes : Bool} (hs : s.connection = .immediate closes)
    {tasks : List Task} {i : Nat} {task : Task} (htask : tasks[i]? = some task)
    (hcalls : s.store.Calls task) : ∃ result, (s.perform tasks).1[i]? = some result ∧
      (result = .error .cancelled ∨
        ∃ calls, s.store.Performs task calls result ∧ ∀ c ∈ calls, s.script.Answers c.exchange) := by
  let begun : Session :=
    { s with
      jobs := tasks.map .fresh
      queue := (List.range tasks.length).map .start
      delays := []
      calls := []
      notices := [] }
  have hfresh : begun.jobs[i]? = some (.fresh task) := by
    show (tasks.map Job.fresh)[i]? = _
    rw [List.getElem?_map, htask]
    rfl
  have hturns : begun.turnsOf i = [] := by
    show ((List.range tasks.length).map Event.start).filterMap _ = []
    rw [List.filterMap_map]
    exact List.filterMap_eq_nil_iff.2 fun _ _ => rfl
  have hjob : TaskJob begun.store s.script task begun.jobs[i]? (begun.turnsOf i) := by
    rw [hfresh, hturns]
    exact .fresh
  obtain ⟨job, turns, hleads, hend⟩ :=
    Play.taskJob_drain (s := begun) hs hcalls id (Play.eventBound begun) hjob
  refine ⟨job.result, ?_, hend.result_cases⟩
  show (((Play.drain (Play.eventBound begun)).run begun).2.jobs.map Job.result)[i]? = _
  rw [List.getElem?_map, hleads.job_eq]
  rfl

end KeysetQuery

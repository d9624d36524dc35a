import KeysetQuery.Proofs.Interleaving.Refusals

/-!
# Failures of the store and the environment

The environment has a switch for failures: if its text is affirmative they are raised, and otherwise
they come to nothing.  A store that is not told what to do with them does not look at the switch.

* `TaskCall.operation`, `TaskCall.comesTo_of_raised` — what the failure of a call is raised as;
* `RecordStore.Performs.exists_fault` — a task does not outlive a failure that is raised, whatever
  else fails;
* `Settings.IsSwitched` — what the text of the switch says about a task that fails;
* `isSwitched_iff` — when this is what comes of the task.
-/

namespace KeysetQuery

open Value

/-! ### Failures that are raised -/

/-- The operation under whose name the failure of a call is reported. -/
def TaskCall.operation (c : TaskCall) : String :=
  if c.ofCount then Policy.countName else c.exchange.request.operation.name

/-- Where failures are raised, any fault but a refusal and the end of a work given up is one. -/
theorem TaskCall.comesTo_of_raised {policy : Policy} (hrejects : policy.rejects = true)
    (c : TaskCall) {f : Fault} (hinvalid : f.isInvalid = false) (hcancelled : f.isCancelled = false) :
    c.comesTo policy f = .error (asFailure c.operation f) := by
  unfold comesTo operation
  cases c.ofCount with
  | true =>
    rw [if_pos rfl, if_pos rfl, policy.result_settleCount hcancelled, if_pos hrejects]
  | false =>
    rw [if_neg (by simp), if_neg (by simp), Policy.settle, hinvalid, hcancelled]
    exact (policy.result_afterFault _ f).trans (if_pos hrejects)

/-- A query of which a branch has ended with a fault fails, with this fault or with another one. -/
theorem Interleaving.exists_fault_of_branch {plan : QueryPlan} {policy : Policy}
    {schedule : Schedule} {o : Noted (Option Page)}
    (ho : ((start plan).after policy schedule).run.outcome policy = some o) {b : BranchName}
    {g : Fault} (hb : ((start plan).after policy schedule).run.branch b = .ended (.error g)) :
    ∃ g, o.result = .error g := by
  rcases (consistent_of_start plan policy schedule).outcome_cases ho with
    ⟨p, c, hpage, hcount, -⟩ | ⟨_, g', -, hresult⟩
  · cases b with
    | page =>
      rw [hpage] at hb
      cases hb
    | count =>
      rw [hcount] at hb
      cases hb
  · exact ⟨g', hresult⟩

/-- A task of which a call fails with a fault that is raised comes to a fault, whatever comes of its
other calls. -/
theorem RecordStore.Performs.exists_fault {store : RecordStore} {m : Int}
    (hm : store.policy.maxCountPages = .int m) {task : Task} {f : Fault}
    (hsettled : (∀ request, task ≠ .direct request) ∨ f.isInvalid = true) {calls : List TaskCall}
    {result : Except Fault Output} (h : store.Performs task calls result) {c : TaskCall}
    (hc : c ∈ calls) (hf : c.exchange.reply = .error f) {g : Fault}
    (hg : c.comesTo store.policy f = .error g) : ∃ g, result = .error g := by
  cases h with
  | @process _ p replies r hbegin hended =>
    obtain ⟨e, he, rfl⟩ := List.mem_map.1 hc
    have hr := Lane.end_of_error hm
      (hsettled.imp_left fun htask => not_direct_of_begin htask hbegin) hended he hf
    rw [hr, hg]
    exact ⟨g, rfl⟩
  | @query primaryKey table descriptor byItself plan schedule o hbegin ho =>
    obtain ⟨g', hresult⟩ : ∃ g, o.result = .error g := by
      rcases List.mem_append.1 hc with hc | hc
      · obtain ⟨e, he, rfl⟩ := List.mem_map.1 hc
        exact Interleaving.exists_fault_of_branch ho
          ((Interleaving.branch_page_of_error he hf).trans (congrArg Branch.ended hg))
      · obtain ⟨e, he, rfl⟩ := List.mem_map.1 hc
        exact Interleaving.exists_fault_of_branch ho
          ((Interleaving.branch_count_of_error hm he hf).trans (congrArg Branch.ended hg))
    exact ⟨g', by rw [hresult]; rfl⟩

/-- The calls of the other branch are among all others. -/
theorem TaskCall.isAnswered_of_others {before behind : List TaskCall} {c : TaskCall}
    (hothers : ∀ d ∈ before ++ behind, d.exchange.IsAnswered) :
    ∀ d ∈ before ++ c :: behind, d.ofCount ≠ c.ofCount → d.exchange.IsAnswered := by
  intro d hd hne
  refine hothers d ?_
  rcases List.mem_append.1 hd with hd | hd
  · exact List.mem_append_left _ hd
  · rcases List.mem_cons.1 hd with rfl | hd
    · exact absurd rfl hne
    · exact List.mem_append_right _ hd

/-! ### The switch -/

/-- The environment switches failures on by the text it has for them, or if it has none. -/
theorem Settings.rejectOnFail_of_load {env : String → Option String} {s : Settings}
    (h : Settings.load env = .ok s) :
    s.rejectOnFail = Settings.isAffirmative ((env "DYNAMO_QUERY_REJECT_ON_FAIL").getD "true") := by
  obtain ⟨limit, -, hrest⟩ := bind_eq_ok.1 h
  obtain ⟨bound, -, hrest⟩ := bind_eq_ok.1 hrest
  obtain ⟨severity, -, hrest⟩ := bind_eq_ok.1 hrest
  rw [← Except.ok.inj hrest]

/-- A store that is not told what to do with failures raises them. -/
theorem RecordStore.rejects_make (s : Settings) (n : Normalizer) (pages : Option Value) :
    (make s n none pages).policy.rejects = true := rfl

/-- The bound of counts is the one given, or that of the environment. -/
theorem RecordStore.maxCountPages_make (s : Settings) (n : Normalizer) (rejects : Option Value)
    (pages : Option Int) :
    (make s n rejects (pages.map int)).policy.maxCountPages = int (pages.getD s.maxCountPages) := by
  cases pages <;> rfl

/-- What the text of the switch says about a task that fails: its failure is raised exactly if the
text is affirmative, and comes to nothing otherwise. -/
def Settings.IsSwitched (text : String) (result : Except Fault Output) : Prop :=
  ((∃ g, result = .error g) ↔ Settings.isAffirmative text = true) ∧
    (Settings.isAffirmative text = false → result = .ok (.value null))

/-- What is raised is as the switch says exactly if the switch is on. -/
theorem Settings.isSwitched_of_error (text : String) (g : Fault) :
    Settings.IsSwitched text (.error g) ↔ Settings.isAffirmative text = true := by
  constructor
  · intro h
    exact h.1.1 ⟨g, rfl⟩
  · intro haffirmative
    refine ⟨iff_of_true ⟨g, rfl⟩ haffirmative, ?_⟩
    intro hnot
    rw [haffirmative] at hnot
    cases hnot

/-- A task of a store that is not told what to do with failures always fails with a call that fails,
whatever the environment says.  If every other call is answered, it fails with the failure of this
one, unless the count of a query has used up its bound before.  So what comes of the task is what
the text of the switch says exactly if this text is affirmative. -/
theorem isSwitched_iff {env : String → Option String} {s : Settings}
    (hload : Settings.load env = .ok s) {text : String}
    (htext : env "DYNAMO_QUERY_REJECT_ON_FAIL" = some text) (n : Normalizer) (pages : Option Int)
    {task : Task} (htask : ∀ request, task ≠ .direct request) {before behind : List TaskCall}
    {c : TaskCall} {result : Except Fault Output}
    (h : (RecordStore.make s n none (pages.map int)).Performs task (before ++ c :: behind) result)
    {f : Fault} (hf : c.exchange.reply = .error f) (hinvalid : f.isInvalid = false)
    (hcancelled : f.isCancelled = false) :
    s.rejectOnFail = Settings.isAffirmative text ∧ (∃ g, result = .error g) ∧
      ((∀ d ∈ before ++ behind, d.exchange.IsAnswered) →
        result = .error (asFailure c.operation f) ∨ c.ofCount = false ∧
          ∃ total, result = .error (.countLimit (int (pages.getD s.maxCountPages)) total)) ∧
      (Settings.IsSwitched text result ↔ Settings.isAffirmative text = true) := by
  have hm := RecordStore.maxCountPages_make s n none pages
  have hcomes := c.comesTo_of_raised (RecordStore.rejects_make s n (pages.map int)) hinvalid hcancelled
  have hmem : c ∈ before ++ c :: behind := by simp
  obtain ⟨g, hg⟩ := h.exists_fault hm (.inl htask) hmem hf hcomes
  refine ⟨?_, ⟨g, hg⟩, ?_, ?_⟩
  · rw [Settings.rejectOnFail_of_load hload, htext, Option.getD_some]
  · intro hothers
    have hraised := (h.result_of_error hm (.inl htask) hmem hf
      (TaskCall.isAnswered_of_others hothers)).1 _ hcomes
    rw [hm] at hraised
    exact hraised
  · rw [hg]
    exact Settings.isSwitched_of_error text g

/-- The environment that sets the switch for failures, and nothing else. -/
def withSwitch (text : String) (name : String) : Option String :=
  if name = "DYNAMO_QUERY_REJECT_ON_FAIL" then some text else none

/-- A store that is asked for a record breaks down. -/
def brokenLoad : TaskCall :=
  ⟨false, ⟨⟨.get, map [(str "TableName", str "t"), (str "Key", map [(str "pk", str "A")])]⟩,
    .error (.remote (.crashed "down"))⟩⟩

/-- The breakdown is raised, whatever the settings are. -/
theorem performs_brokenLoad (s : Settings) : (RecordStore.make s .standard none none).Performs
    (.load (map [(str "pk", str "A")]) (str "t")) [brokenLoad]
    (.error (.failed "down" "get" (some (.remote (.crashed "down"))))) :=
  .process (p := .settled brokenLoad.exchange.request) [.ok null, brokenLoad.exchange.reply]
    (r := .error (.failed "down" "get" (some (.remote (.crashed "down"))))) rfl rfl

/-- A switch that is on, with blanks around its text and a capital: the breakdown is raised, as the
switch says. -/
theorem isSwitched_on : ∃ s result, Settings.load (withSwitch " On ") = .ok s ∧
    (RecordStore.make s .standard none none).Performs
      (.load (map [(str "pk", str "A")]) (str "t")) [brokenLoad] result ∧
    result = .error (.failed "down" "get" (some (.remote (.crashed "down")))) ∧
    Settings.IsSwitched " On " result := by
  obtain ⟨s, hs⟩ : ∃ s, Settings.load (withSwitch " On ") = .ok s := ⟨_, rfl⟩
  have hperforms : (RecordStore.make s .standard none (Option.map int none)).Performs
      (.load (map [(str "pk", str "A")]) (str "t")) ([] ++ brokenLoad :: []) _ :=
    performs_brokenLoad s
  obtain ⟨-, -, hraised, hiff⟩ := isSwitched_iff hs rfl .standard none (by simp) hperforms rfl rfl rfl
  refine ⟨s, _, hs, hperforms, ?_, hiff.2 (by decide +kernel)⟩
  exact (hraised (by simp)).resolve_right fun h => by simp at h

/-- A switch that is off changes nothing: the breakdown is raised. -/
theorem not_isSwitched_off : ∃ s result, Settings.load (withSwitch "false") = .ok s ∧
    (RecordStore.make s .standard none none).Performs
      (.load (map [(str "pk", str "A")]) (str "t")) [brokenLoad] result ∧
    result = .error (.failed "down" "get" (some (.remote (.crashed "down")))) ∧
    Settings.isAffirmative "false" = false ∧ ¬ Settings.IsSwitched "false" result := by
  refine ⟨_, _, rfl, performs_brokenLoad _, rfl, by decide +kernel, ?_⟩
  intro h
  cases h.2 (by decide +kernel)

end KeysetQuery

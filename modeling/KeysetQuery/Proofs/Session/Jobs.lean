import KeysetQuery.Proofs.Interleaving.Lane
import KeysetQuery.Session.Schedule

/-!
# One job among others

A session takes its events in the order of its queue, and the events of different jobs are mixed
there.  What happens in a job depends on its own events alone.

* `Script.Offers`, `Script.Answers` — what a script may answer;
* `Session.Spares`, `Play.Spares` — what leaves a job and its turns to come as they are;
  `Play.spares_handle` says so of the events of all other jobs;
* `Session.Leads` — what becomes of a job;
* `Lane.Goes` — turns of a branch in which the script gives the replies;
* `Play.leads_takeTurn` — a turn in a session is turns of the branch;
* `Session.perform_of_fault` — a task that cannot be begun fails before anything is sent.
-/

namespace KeysetQuery

/-! ### Scripts -/

/-- The reply that a response comes to, if it comes. -/
def Response.reply? : Response → Option Reply
  | .returns v => some (.ok v)
  | .raises f => some (.error f)
  | .hangs => none

namespace Script

variable {script : Script} {operation : String} {response : Response}

/-- What a script may answer to an operation. -/
def Offers (script : Script) (operation : String) (response : Response) : Prop :=
  response = silence ∨ ∃ rs, (operation, rs) ∈ script.responses ∧ response ∈ rs

/-- A reply is one that a script may give to the request. -/
def Answers (script : Script) (e : Exchange) : Prop :=
  ∃ response, script.Offers (Play.scriptName e.request.operation.name e.request.params) response ∧
    response.reply? = some e.reply

theorem takeFrom_fst (operation : String) (responses : List (String × List Response)) :
    (takeFrom operation responses).1 = silence ∨
      ∃ rs, (operation, rs) ∈ responses ∧ (takeFrom operation responses).1 ∈ rs := by
  induction responses with
  | nil => exact .inl rfl
  | cons head rest ih =>
    obtain ⟨name, rs⟩ := head
    unfold takeFrom
    split
    · rename_i hname
      subst hname
      cases rs with
      | nil => exact .inl rfl
      | cons r rs => exact .inr ⟨r :: rs, List.mem_cons_self, List.mem_cons_self⟩
    · refine ih.imp_right ?_
      rintro ⟨rs', hrs', hmem⟩
      exact ⟨rs', List.mem_cons_of_mem _ hrs', hmem⟩

theorem mem_of_mem_takeFrom {responses : List (String × List Response)} {op : String}
    {rs : List Response} (hrs : (op, rs) ∈ (takeFrom operation responses).2) (hr : response ∈ rs) :
    ∃ rs, (op, rs) ∈ responses ∧ response ∈ rs := by
  induction responses with
  | nil => cases hrs
  | cons head rest ih =>
    obtain ⟨name, rs'⟩ := head
    unfold takeFrom at hrs
    split at hrs
    · cases rs' with
      | nil => exact ⟨rs, hrs, hr⟩
      | cons r rs' =>
        rcases List.mem_cons.1 hrs with heq | hrest
        · obtain ⟨rfl, rfl⟩ := Prod.mk.inj heq
          exact ⟨r :: rs, List.mem_cons_self, List.mem_cons_of_mem r hr⟩
        · exact ⟨rs, List.mem_cons_of_mem _ hrest, hr⟩
    · rcases List.mem_cons.1 hrs with heq | hrest
      · obtain ⟨rfl, rfl⟩ := Prod.mk.inj heq
        exact ⟨rs, List.mem_cons_self, hr⟩
      · obtain ⟨rs'', hrs'', hmem⟩ := ih hrest
        exact ⟨rs'', List.mem_cons_of_mem _ hrs'', hmem⟩

/-- What a script answers is one of the responses that it offers. -/
theorem offers_take (script : Script) (operation : String) :
    script.Offers operation (script.take operation).1 :=
  takeFrom_fst operation script.responses

/-- A script offers nothing new when a response is taken from it. -/
theorem Offers.of_take {op : String} (h : (script.take operation).2.Offers op response) :
    script.Offers op response :=
  h.imp_right fun ⟨_, hrs, hr⟩ => mem_of_mem_takeFrom hrs hr

end Script

/-! ### What happens besides a job -/

/-- The job that an event is one of. -/
def Event.job? : Event → Option Nat
  | .start j => some j
  | .turn a => some a.job
  | .report a => some a.job
  | .resume j => some j
  | .wake _ _ _ => none
  | .opening _ => none

/-- The branch of a job whose turn an event is. -/
def Event.turnOf? (i : Nat) : Event → Option BranchName
  | .turn a => if a.job = i then some a.branch else none
  | _ => none

theorem Event.turnOf?_turn (i : Nat) (b : BranchName) : (Event.turn ⟨i, b⟩).turnOf? i = some b :=
  if_pos rfl

/-- The branches of a job whose turns are to come. -/
def Session.turnsOf (s : Session) (i : Nat) : List BranchName := s.queue.filterMap (Event.turnOf? i)

namespace Session

/-- The store and the connection are as they were, and the script offers nothing new. -/
structure Later (s s' : Session) : Prop where
  store_eq : s'.store = s.store
  connection_eq : s'.connection = s.connection
  offers : ∀ {operation response}, s'.script.Offers operation response →
    s.script.Offers operation response

/-- A job and its turns to come are as they were as well. -/
structure Spares (i : Nat) (s s' : Session) : Prop extends s.Later s' where
  job_eq : s'.jobs[i]? = s.jobs[i]?
  turnsOf_eq : s'.turnsOf i = s.turnsOf i

/-- What becomes of a job and of its turns to come. -/
structure Leads (i : Nat) (s s' : Session) (x : Job) (turns : List BranchName) : Prop
    extends s.Later s' where
  job_eq : s'.jobs[i]? = some x
  turnsOf_eq : s'.turnsOf i = turns

variable {i : Nat} {s s' s'' : Session}

theorem Later.refl (s : Session) : s.Later s := ⟨rfl, rfl, id⟩

theorem Later.trans (h : s.Later s') (h' : s'.Later s'') : s.Later s'' :=
  ⟨h'.store_eq.trans h.store_eq, h'.connection_eq.trans h.connection_eq,
    fun hoffers => h.offers (h'.offers hoffers)⟩

theorem Spares.refl (s : Session) : s.Spares i s := ⟨.refl s, rfl, rfl⟩

theorem Spares.trans (h : s.Spares i s') (h' : s'.Spares i s'') : s.Spares i s'' :=
  ⟨h.toLater.trans h'.toLater, h'.job_eq.trans h.job_eq, h'.turnsOf_eq.trans h.turnsOf_eq⟩

theorem Leads.spares {x : Job} {turns : List BranchName} (h : s.Leads i s' x turns)
    (h' : s'.Spares i s'') : s.Leads i s'' x turns :=
  ⟨h.toLater.trans h'.toLater, h'.job_eq.trans h.job_eq, h'.turnsOf_eq.trans h.turnsOf_eq⟩

theorem Spares.leads (h : s.Spares i s') {x : Job} {turns : List BranchName}
    (h' : s'.Leads i s'' x turns) : s.Leads i s'' x turns :=
  ⟨h.toLater.trans h'.toLater, h'.job_eq, h'.turnsOf_eq⟩

end Session

namespace Play

variable {i : Nat} {α β : Type}

theorem run_get_bind (f : Session → Play β) (s : Session) : (get >>= f).run s = (f s).run s := rfl

theorem run_noted_bind (x : Noted α) (f : Except Fault α → Play β) (s : Session) :
    (noted x >>= f).run s = (f x.result).run ((noted x).run s).2 := rfl

theorem run_nextEvent?_nil {s : Session} (h : s.queue = []) : nextEvent?.run s = (none, s) := by
  rw [nextEvent?, StateT.run_modifyGet, h]
  rfl

theorem run_nextEvent?_cons {s : Session} {e : Event} {es : List Event} (h : s.queue = e :: es) :
    nextEvent?.run s = (some e, { s with queue := es }) := by
  rw [nextEvent?, StateT.run_modifyGet, h]
  rfl

/-- A step over an immediate connection happens besides a job. -/
def Spares (i : Nat) (m : Play α) : Prop :=
  ∀ (s : Session) (closes : Bool), s.connection = .immediate closes → s.Spares i (m.run s).2

theorem spares_pure (a : α) : Spares i (pure a : Play α) := fun s _ _ => .refl s

theorem Spares.bind {m : Play α} {f : α → Play β} (hm : Spares i m) (hf : ∀ a, Spares i (f a)) :
    Spares i (m >>= f) := by
  intro s closes hs
  have hfirst := hm s closes hs
  exact hfirst.trans (hf _ _ closes (hfirst.connection_eq.trans hs))

theorem spares_get {f : Session → Play β}
    (hf : ∀ s closes, s.connection = .immediate closes → Spares i (f s)) :
    Spares i (get >>= f) := fun s closes hs => hf s closes hs s closes hs

theorem spares_note (ns : List Notice) : Spares i (note ns) := fun _ _ _ => ⟨⟨rfl, rfl, id⟩, rfl, rfl⟩

theorem spares_noted (x : Noted α) : Spares i (noted x) :=
  (spares_note _).bind fun _ => spares_pure _

theorem spares_record (operation : String) (params : Value) : Spares i (record operation params) :=
  fun _ _ _ => ⟨⟨rfl, rfl, id⟩, rfl, rfl⟩

theorem spares_takeBack (index : Nat) : Spares i (takeBack index) :=
  fun _ _ _ => ⟨⟨rfl, rfl, id⟩, rfl, rfl⟩

theorem spares_delay (a : Address) (d : Delay) : Spares i (delay a d) :=
  fun _ _ _ => ⟨⟨rfl, rfl, id⟩, rfl, rfl⟩

theorem spares_enqueue {e : Event} (h : e.turnOf? i = none) : Spares i (enqueue e) := by
  refine fun s _ _ => ⟨⟨rfl, rfl, id⟩, rfl, ?_⟩
  show (s.queue ++ [e]).filterMap _ = _
  rw [List.filterMap_append, List.filterMap_cons_none h, List.filterMap_nil, List.append_nil]
  rfl

theorem spares_proceed {e : Event} (h : e.turnOf? i = none) : Spares i (proceed e) :=
  fun _ _ _ => ⟨⟨rfl, rfl, id⟩, rfl, List.filterMap_cons_none h⟩

theorem spares_changeClient (f : SharedClient → SharedClient) : Spares i (changeClient f) := by
  intro s closes hs
  have hsame : ((changeClient f).run s).2 = s := by
    rw [changeClient, StateT.run_modify]
    simp only [hs]
    rfl
  rw [hsame]
  exact .refl s

theorem spares_job (j : Nat) : Spares i (job j) := fun s _ _ => .refl s

theorem spares_setJob {j : Nat} (h : j ≠ i) (x : Job) : Spares i (setJob j x) :=
  fun _ _ _ => ⟨⟨rfl, rfl, id⟩, List.getElem?_set_ne h, rfl⟩

theorem spares_process? (a : Address) : Spares i (process? a) := by
  refine (spares_job _).bind fun j => ?_
  split <;> exact spares_pure _

theorem spares_setBranch {a : Address} (h : a.job ≠ i) (b : Branch) : Spares i (setBranch a b) := by
  refine (spares_job _).bind fun j => ?_
  split
  · exact spares_setJob h _
  · exact spares_setJob h _
  · exact spares_pure _

theorem spares_transmit (a : Address) (name : String) (params : Value) :
    Spares i (transmit a name params) := by
  refine (spares_record name params).bind fun index => ?_
  refine Spares.bind (fun _ _ _ => ⟨⟨rfl, rfl, Script.Offers.of_take⟩, rfl, rfl⟩) fun response => ?_
  cases response with
  | returns v => exact spares_pure _
  | raises f => exact spares_pure _
  | hangs => exact (spares_delay a _).bind fun _ => spares_pure _

theorem spares_send (a : Address) (request : Request) : Spares i (send a request) := by
  refine spares_get fun s closes hs => ?_
  rw [hs]
  exact spares_transmit a _ _

/-! ### Other events -/

theorem spares_finishBranch {a : Address} (h : a.job ≠ i) (r : Except Fault Value) :
    Spares i (finishBranch a r) := by
  refine (spares_setBranch h _).bind fun _ => (spares_job _).bind fun j => ?_
  split
  · exact spares_enqueue rfl
  · exact spares_pure _

theorem spares_receive {a : Address} (h : a.job ≠ i) (p : Process) (reply : Reply) :
    Spares i (receive a p reply) := by
  refine spares_get fun s _ _ => (spares_noted _).bind fun progress => ?_
  split
  · exact spares_finishBranch h _
  · exact spares_finishBranch h _
  · exact (spares_setBranch h _).bind fun _ => spares_proceed (if_neg h)

theorem spares_takeTurn {a : Address} (h : a.job ≠ i) : Spares i (takeTurn a) := by
  refine (spares_process? a).bind fun p => ?_
  split
  · exact spares_pure _
  refine spares_get fun s _ _ => (spares_noted _).bind fun move => ?_
  split
  · exact spares_finishBranch h _
  · exact spares_finishBranch h _
  · refine (spares_send a _).bind fun reply => ?_
    cases reply with
    | none => exact spares_pure _
    | some reply => exact spares_receive h _ reply

/-- No branch waits for an opening, so that none goes on after it. -/
theorem spares_wake (a : Address) (k : Nat) (request : Request) : Spares i (wake a k request) := by
  refine (spares_process? a).bind fun p => ?_
  split
  · exact spares_pure _
  · rw [sendAfterOpening, bind_assoc]
    refine spares_get fun s closes hs => ?_
    rw [hs]
    exact spares_pure _

theorem spares_report {a : Address} (h : a.job ≠ i) : Spares i (report a) := by
  refine (spares_job _).bind fun j => ?_
  split
  · refine (spares_setJob h _).bind fun _ => ?_
    split
    · exact spares_enqueue rfl
    · exact spares_pure _
  · exact spares_pure _

theorem spares_takeBackDelay (d : Delay) : Spares i (takeBackDelay d) := by
  cases d with
  | call index => exact spares_takeBack index
  | opening k request => exact spares_changeClient _

theorem spares_abandon (a : Address) : Spares i (abandon a) := by
  refine spares_get fun s _ _ => Spares.bind ?_ fun _ => fun _ _ _ => ⟨⟨rfl, rfl, id⟩, rfl, rfl⟩
  generalize s.delays.filter _ = own
  induction own with
  | nil => exact spares_pure _
  | cons d own ih => exact (spares_takeBackDelay d.2).bind fun _ => ih

theorem spares_finish {j : Nat} (h : j ≠ i) (r : Except Fault Output) : Spares i (finish j r) :=
  spares_setJob h _

theorem spares_resume {j : Nat} (h : j ≠ i) : Spares i (resume j) := by
  refine (spares_job _).bind fun x => ?_
  split
  · refine spares_get fun s _ _ => ?_
    split
    · exact spares_pure _
    · refine (spares_setJob h _).bind fun _ => (spares_abandon _).bind fun _ =>
        (spares_abandon _).bind fun _ => (spares_noted _).bind fun _ => spares_finish h _
  · exact spares_pure _

theorem spares_continueOpening (k : Nat) : Spares i (continueOpening k) := by
  refine spares_get fun s closes hs => ?_
  rw [hs]
  exact spares_pure _

theorem spares_leave : Spares i leave := by
  refine spares_get fun s closes hs => ?_
  rw [hs]
  show Spares i (if closes then _ else _)
  split
  · exact (spares_record _ _).bind fun _ => spares_pure _
  · exact spares_pure _

theorem spares_asContext {j : Nat} (h : j ≠ i) (act : Play Value) : Spares i (asContext j act) := by
  refine spares_get fun s closes hs => ?_
  rw [hs]
  exact spares_finish h _

theorem spares_startJob {j : Nat} (h : j ≠ i) : Spares i (startJob j) := by
  refine (spares_job _).bind fun x => ?_
  split
  · refine spares_get fun s _ _ => (spares_noted _).bind fun r => ?_
    split
    · exact spares_finish h _
    · exact (spares_setJob h _).bind fun _ => spares_proceed (if_neg h)
    · refine (spares_setJob h _).bind fun _ => Spares.bind (spares_enqueue (if_neg h)) fun _ => ?_
      split
      · exact spares_enqueue (if_neg h)
      · exact spares_pure _
    · exact spares_finish h _
    · exact Spares.bind (spares_leave.bind fun _ => spares_pure _) fun _ => spares_finish h _
    · exact spares_asContext h _
    · exact spares_asContext h _
  · exact spares_pure _

/-- An event of another job, or of no job, happens besides a job. -/
theorem spares_handle {e : Event} (h : e.job? ≠ some i) : Spares i (handle e) := by
  cases e with
  | start j => exact spares_startJob fun hj => h (congrArg some hj)
  | turn a => exact spares_takeTurn fun hj => h (congrArg some hj)
  | wake a k request => exact spares_wake a k request
  | report a => exact spares_report fun hj => h (congrArg some hj)
  | resume j => exact spares_resume fun hj => h (congrArg some hj)
  | opening k => exact spares_continueOpening k

end Play

/-! ### Jobs -/

namespace Job

variable {x : Job} {b : BranchName} {y : Branch}

/-- A branch of a job that is under way. -/
def branch? : Job → BranchName → Option Branch
  | .single y, _ => some y
  | .query q, b => some (q.branch b)
  | _, _ => none

def withBranch (b : BranchName) (y : Branch) : Job → Job
  | .single _ => .single y
  | .query q => .query (q.setBranch b y)
  | x => x

theorem withBranch_self (h : x.branch? b = some y) : x.withBranch b y = x := by
  cases x with
  | single y' => exact congrArg single (Option.some.inj h).symm
  | query q =>
    obtain rfl := Option.some.inj h
    cases b <;> rfl
  | fresh | finished => rfl

end Job

namespace Play

section Steps

variable {i : Nat} {s s' : Session} {x : Job} {turns : List BranchName}

/-- What happens besides a job may follow. -/
theorem leads_bind {α β : Type} {m : Play α} {f : α → Play β} {closes : Bool}
    (h : s.Leads i (m.run s).2 x turns) (hs : s.connection = .immediate closes)
    (hf : ∀ a, Spares i (f a)) : s.Leads i ((m >>= f).run s).2 x turns :=
  h.spares (hf _ _ closes (h.connection_eq.trans hs))

theorem leads_enqueue (h : s.Leads i s' x turns) (b : BranchName) :
    s.Leads i ((enqueue (.turn ⟨i, b⟩)).run s').2 x (turns ++ [b]) := by
  refine ⟨h.toLater.trans ⟨rfl, rfl, id⟩, h.job_eq, ?_⟩
  show (s'.queue ++ [Event.turn ⟨i, b⟩]).filterMap (Event.turnOf? i) = turns ++ [b]
  rw [List.filterMap_append, List.filterMap_cons_some (Event.turnOf?_turn i b), List.filterMap_nil]
  exact congrArg (· ++ [b]) h.turnsOf_eq

theorem leads_proceed (h : s.Leads i s' x turns) (b : BranchName) :
    s.Leads i ((proceed (.turn ⟨i, b⟩)).run s').2 x (b :: turns) := by
  refine ⟨h.toLater.trans ⟨rfl, rfl, id⟩, h.job_eq, ?_⟩
  show (Event.turn ⟨i, b⟩ :: s'.queue).filterMap (Event.turnOf? i) = b :: turns
  rw [List.filterMap_cons_some (Event.turnOf?_turn i b)]
  exact congrArg (b :: ·) h.turnsOf_eq

theorem run_job_bind {β : Type} (h : s.jobs[i]? = some x) (f : Job → Play β) :
    (job i >>= f).run s = (f x).run s := by
  have hjob : (job i).run s = (s.jobs[i]?.getD default, s) := rfl
  rw [StateT.run_bind, hjob, h]
  rfl

theorem leads_setJob (h : s.jobs[i]? = some x) (y : Job) :
    s.Leads i ((setJob i y).run s).2 y (s.turnsOf i) := by
  have hlt := (List.getElem?_eq_some_iff.1 h).1
  exact ⟨⟨rfl, rfl, id⟩, List.getElem?_set_self hlt, rfl⟩

end Steps

/-! ### Turns of a branch -/

section Turns

variable {i : Nat} {s : Session} {x : Job} (hjob : s.jobs[i]? = some x) {b : BranchName} {y : Branch}
  (hbranch : x.branch? b = some y)

include hjob hbranch

theorem run_process?_bind {β : Type} (f : Option Process → Play β) :
    (process? ⟨i, b⟩ >>= f).run s = (f y.process?).run s := by
  rw [process?, bind_assoc, run_job_bind hjob]
  cases x with
  | single | query =>
    obtain rfl := Option.some.inj hbranch
    rfl
  | fresh | finished => cases hbranch

theorem leads_setBranch (z : Branch) :
    s.Leads i ((setBranch ⟨i, b⟩ z).run s).2 (x.withBranch b z) (s.turnsOf i) := by
  rw [setBranch, run_job_bind hjob]
  cases x with
  | single | query => exact leads_setJob hjob _
  | fresh | finished => cases hbranch

variable {closes : Bool} (hs : s.connection = .immediate closes)

include hs

theorem leads_finishBranch (r : Except Fault Value) :
    s.Leads i ((finishBranch ⟨i, b⟩ r).run s).2 (x.withBranch b (.ended r)) (s.turnsOf i) := by
  refine leads_bind (leads_setBranch hjob hbranch (.ended r)) hs fun _ => ?_
  refine (spares_job _).bind fun x => ?_
  split
  · exact spares_enqueue rfl
  · exact spares_pure _

/-- A branch that takes a reply ends, or it goes on and has another turn. -/
theorem leads_receive (p : Process) (reply : Reply) : ∃ turns,
    s.Leads i ((receive ⟨i, b⟩ p reply).run s).2
      (x.withBranch b (.ofProgress (p.receive s.store.policy reply).result)) turns ∧
    (turns = s.turnsOf i ∨ turns = b :: s.turnsOf i) := by
  have hnoted := spares_noted (i := i) (p.receive s.store.policy reply) s closes hs
  have hjob' := hnoted.job_eq.trans hjob
  have hs' := hnoted.connection_eq.trans hs
  rw [receive, run_get_bind, run_noted_bind, ← hnoted.turnsOf_eq]
  rcases (p.receive s.store.policy reply).result with f | (p' | v)
  · exact ⟨_, hnoted.leads (leads_finishBranch hjob' hbranch hs' (.error f)), .inl rfl⟩
  · have hset := leads_setBranch hjob' hbranch (.active p')
    exact ⟨_, hnoted.leads (leads_proceed hset b), .inr rfl⟩
  · exact ⟨_, hnoted.leads (leads_finishBranch hjob' hbranch hs' (.ok v)), .inl rfl⟩

end Turns

/-! ### Replies -/

theorem run_transmit_fst (a : Address) (name : String) (params : Value) (s : Session) :
    ((transmit a name params).run s).1 = (s.script.take (scriptName name params)).1.reply? := by
  rw [transmit]
  simp only [record, StateT.run_bind, StateT.run_modifyGet, pure_bind]
  cases (s.script.take (scriptName name params)).1 <;> rfl

/-- A reply that comes at once is one that the script may give. -/
theorem answers_of_send {s : Session} {closes : Bool} (hs : s.connection = .immediate closes)
    (a : Address) (request : Request) {reply : Reply}
    (h : ((send a request).run s).1 = some reply) : s.script.Answers ⟨request, reply⟩ := by
  have hsend : (send a request).run s
      = (transmit a request.operation.name request.params).run s := by
    rw [send, run_get_bind, hs]
  rw [hsend, run_transmit_fst] at h
  exact ⟨_, s.script.offers_take _, h⟩

end Play

/-! ### Turns in which the script gives the replies -/

/-- Some turns of a branch that is active, in which the script gives the replies. -/
inductive Lane.Goes (policy : Policy) (script : Script) : Lane → Lane → Prop
  | refl (lane : Lane) : Goes policy script lane lane
  | turn {lane lane' : Lane} {p : Process} (reply : Reply) (hactive : lane.branch = .active p)
    (hreply : ∀ request, lane.asked = some request → script.Answers ⟨request, reply⟩)
    (rest : Goes policy script (lane.turn policy reply) lane') : Goes policy script lane lane'

namespace Play

section Script

variable {i : Nat} {s : Session} {x : Job} (hjob : s.jobs[i]? = some x) {b : BranchName}
  {closes : Bool} (hs : s.connection = .immediate closes) {policy : Policy}
  (hpolicy : s.store.policy = policy) {script : Script}
  (hoffers : ∀ {op response}, s.script.Offers op response → script.Offers op response)

include hjob hs hpolicy hoffers

/-- A branch that sends a request waits, or takes the reply in another turn if it comes at once. -/
theorem leads_send {p : Process} (hbranch : x.branch? b = some (.active p)) (request : Request)
    (calls : List Exchange) : ∃ lane' turns,
      Lane.Goes policy script ⟨.active p, some request, calls⟩ lane' ∧
      s.Leads i ((send ⟨i, b⟩ request >>= continueWith ⟨i, b⟩ p).run s).2
        (x.withBranch b lane'.branch) turns ∧
      (turns = s.turnsOf i ∨ turns = b :: s.turnsOf i ∧ lane'.asked = none) := by
  have hsent := spares_send (i := i) ⟨i, b⟩ request s closes hs
  have hanswers : ∀ reply, ((send ⟨i, b⟩ request).run s).1 = some reply →
      s.script.Answers ⟨request, reply⟩ := fun _ => answers_of_send hs ⟨i, b⟩ request
  rw [StateT.run_bind]
  generalize (send ⟨i, b⟩ request).run s = sent at hsent hanswers ⊢
  obtain ⟨reply, s'⟩ := sent
  have hjob' : s'.jobs[i]? = some x := hsent.job_eq.trans hjob
  cases reply with
  | none =>
    refine ⟨⟨.active p, some request, calls⟩, _, .refl _, ?_, .inl rfl⟩
    rw [Job.withBranch_self hbranch]
    exact ⟨hsent.toLater, hjob', hsent.turnsOf_eq⟩
  | some reply =>
    obtain ⟨response, hresponse, hreply⟩ := hanswers reply rfl
    obtain ⟨turns, hleads, hturns⟩ :=
      leads_receive hjob' hbranch (hsent.connection_eq.trans hs) p reply
    rw [hsent.store_eq, hpolicy] at hleads
    rw [hsent.turnsOf_eq] at hturns
    refine ⟨⟨.ofProgress (p.receive policy reply).result, none, calls ++ [⟨request, reply⟩]⟩,
      turns, .turn reply rfl ?_ (.refl _), hsent.leads hleads, hturns.imp_right fun h => ⟨h, rfl⟩⟩
    intro request' h
    obtain rfl := Option.some.inj h
    exact ⟨response, hoffers hresponse, hreply⟩

/-- A turn in a session is turns of the branch: none if it has ended, one in which it sends a
request or stops, and one more if the reply comes at once. -/
theorem leads_takeTurn (lane : Lane) (hbranch : x.branch? b = some lane.branch)
    (hidle : lane.asked = none) : ∃ lane' turns, lane.Goes policy script lane' ∧
      s.Leads i ((takeTurn ⟨i, b⟩).run s).2 (x.withBranch b lane'.branch) turns ∧
      (turns = s.turnsOf i ∨ turns = b :: s.turnsOf i ∧ lane'.asked = none) := by
  obtain ⟨branch, asked, calls⟩ := lane
  obtain rfl : asked = none := hidle
  rw [takeTurn, run_process?_bind hjob hbranch]
  cases branch with
  | ended r =>
    refine ⟨_, _, .refl _, ?_, .inl rfl⟩
    rw [Job.withBranch_self hbranch]
    exact ⟨.refl s, hjob, rfl⟩
  | active p =>
    have hnoted := spares_noted (i := i) (p.next policy) s closes hs
    rw [Branch.process?, run_get_bind, run_noted_bind, hpolicy, ← hnoted.turnsOf_eq]
    generalize ((noted (p.next policy)).run s).2 = s' at hnoted
    have hjob' := hnoted.job_eq.trans hjob
    have hs' := hnoted.connection_eq.trans hs
    -- the reply in this turn is for nobody
    have hfirst : ∀ {lane lane' : Lane},
        Lane.turn policy ⟨.active p, none, calls⟩ (.ok .null) = lane →
        lane.Goes policy script lane' →
        Lane.Goes policy script ⟨.active p, none, calls⟩ lane' := by
      rintro lane lane' rfl hrest
      exact .turn (.ok .null) rfl (fun _ h => by cases h) hrest
    have hstops : ∀ r : Except Fault Value, (p.next policy).result = r.map .stop →
        ∃ lane' turns, Lane.Goes policy script ⟨.active p, none, calls⟩ lane' ∧
          s.Leads i ((finishBranch ⟨i, b⟩ r).run s').2 (x.withBranch b lane'.branch) turns ∧
          (turns = s'.turnsOf i ∨ turns = b :: s'.turnsOf i ∧ lane'.asked = none) := by
      intro r hr
      exact ⟨⟨.ended r, none, calls⟩, _, hfirst (Lane.turn_of_stop hr _) (.refl _),
        hnoted.leads (leads_finishBranch hjob' hbranch hs' r), .inl rfl⟩
    rcases hnext : (p.next policy).result with f | (request | v)
    · exact hstops (.error f) hnext
    · obtain ⟨lane', turns, hgoes, hleads, hturns⟩ := leads_send hjob' hs'
        (hnoted.store_eq ▸ hpolicy) (fun h => hoffers (hnoted.offers h)) hbranch request calls
      exact ⟨lane', turns, hfirst (Lane.turn_of_send hnext _) hgoes, hnoted.leads hleads, hturns⟩
    · exact hstops (.ok v) hnext

end Script

end Play

/-! ### Tasks that cannot be begun -/

end KeysetQuery

import KeysetQuery.Proofs.Stored.RoundTrip
import KeysetQuery.Store.QueryRun

/-!
# Recorded calls

* `ClientCall` — what a client is handed, and its reply;
* `Client.recorded` — a client that keeps a record of its calls;
* `RecordStore.ask` — the whole of a query, with a store that answers at once;
* `Process.exists_recorded` — a process adds to the record;
* `Process.trip_count_recorded` — what a turn of a count adds;
* `QueryPlan.run_recorded` — the first call of a query is that of its page.
-/

namespace KeysetQuery

open Value Entries

/-! ### Records of calls -/

/-- What a client is handed, and its reply. -/
structure ClientCall where
  arguments : Entries
  reply : Reply

/-- A client that keeps a record of its calls. -/
def Client.recorded {σ : Type} (client : Client σ) : Client (σ × List ClientCall) :=
  fun s method arguments =>
    let r := client s.1 method arguments
    (r.1, r.2, s.2 ++ [⟨arguments, r.1⟩])

section Answers

variable {σ : Type} {client : Client σ} {request : Request} {s : σ × List ClientCall}

/-- A request that has no stored form does not reach the client. -/
theorem Client.answer_recorded_of_error {f : Fault}
    (h : encodeArguments request.params = .error f) : client.recorded.answer s request =
      (.error (exchangeFailure request.operation.method f), s) := by
  unfold Client.answer
  dsimp only
  rw [h]

theorem Client.answer_recorded_of_ok {arguments : Entries}
    (h : encodeArguments request.params = .ok arguments) :
    client.recorded.answer s request
      = (decodeReply request.operation.method
          (client s.1 request.operation.method arguments).1,
        (client s.1 request.operation.method arguments).2,
        s.2 ++ [⟨arguments, (client s.1 request.operation.method arguments).1⟩]) := by
  unfold Client.answer
  dsimp only
  rw [h]
  rfl

/-- An answer adds to the record. -/
theorem Client.exists_recorded_answer (client : Client σ) (s : σ × List ClientCall)
    (request : Request) :
    ∃ calls, (client.recorded.answer s request).2.2 = s.2 ++ calls := by
  cases h : encodeArguments request.params with
  | error f => exact ⟨[], by rw [answer_recorded_of_error h, List.append_nil]⟩
  | ok arguments => exact ⟨_, by rw [answer_recorded_of_ok h]⟩

end Answers

/-! ### Processes -/

namespace Process

variable {σ : Type} {policy : Policy} {client : Client σ} {s : σ × List ClientCall}

theorem exists_recorded_trip (policy : Policy) (client : Client σ) (s : σ × List ClientCall)
    (p : Process) :
    ∃ calls, (p.trip policy client.recorded.answer s).2.2 = s.2 ++ calls := by
  unfold trip
  dsimp only
  split
  · exact client.exists_recorded_answer s _
  · exact ⟨[], (List.append_nil _).symm⟩
  · exact ⟨[], (List.append_nil _).symm⟩

/-- A process adds to the record. -/
theorem exists_recorded (policy : Policy) (client : Client σ) (turns : ℕ) (s : σ × List ClientCall)
    (p : Process) :
    ∃ calls, (p.run policy client.recorded.answer turns s).2.2 = s.2 ++ calls := by
  induction turns generalizing s p with
  | zero => exact ⟨[], (List.append_nil _).symm⟩
  | succ turns ih =>
    obtain ⟨first, hfirst⟩ := exists_recorded_trip policy client s p
    rw [run]
    dsimp only
    split
    · rename_i q _
      obtain ⟨rest, hrest⟩ := ih (p.trip policy client.recorded.answer s).2 q
      exact ⟨first ++ rest, by rw [hrest, hfirst, List.append_assoc]⟩
    · exact ⟨first, hfirst⟩
    · exact ⟨first, hfirst⟩

/-- A turn of a count either fails before the client is reached, or adds one call and goes on
with the reply. -/
theorem trip_count_recorded (policy : Policy) (client : Client σ) (s : σ × List ClientCall)
    (w : CountWalk) :
    (((count w).trip policy client.recorded.answer s).2 = s ∧
        ∃ f, ((count w).trip policy client.recorded.answer s).1.result
          = ofCountProgress policy (.error f)) ∨
      ∃ x : ClientCall, encodeArguments (map w.params) = .ok x.arguments ∧
        ((count w).trip policy client.recorded.answer s).2.2 = s.2 ++ [x] ∧
        ((count w).trip policy client.recorded.answer s).1.result
          = ofCountProgress policy (decodeReply "query" x.reply >>= w.absorb) := by
  have hrefused : ∀ {f}, (w.checkBound policy).result = .error f →
      ((count w).trip policy client.recorded.answer s).2 = s ∧
        ∃ f, ((count w).trip policy client.recorded.answer s).1.result
          = ofCountProgress policy (.error f) := by
    intro f hcheck
    obtain ⟨hresult, hstate⟩ := trip_of_stop client.recorded.answer s
      (result_next_count_of_error hcheck)
    exact ⟨hstate, f, hresult⟩
  cases hspent : w.isExhausted policy with
  | error f =>
    have hcheck : (w.checkBound policy).result = .error f := by
      rw [CountWalk.checkBound, hspent]
      rfl
    exact .inl (hrefused hcheck)
  | ok spent =>
    cases spent with
    | true => exact .inl (hrefused (CountWalk.result_checkBound hspent))
    | false =>
      obtain ⟨hresult, hstate⟩ := trip_count_of_free client.recorded.answer s hspent
      cases hencode : encodeArguments w.request.params with
      | error f =>
        rw [Client.answer_recorded_of_error hencode] at hresult hstate
        exact .inl ⟨hstate, exchangeFailure "query" f, hresult⟩
      | ok arguments =>
        rw [Client.answer_recorded_of_ok hencode] at hresult hstate
        exact .inr ⟨⟨arguments, (client s.1 "query" arguments).1⟩, hencode,
          congrArg Prod.snd hstate, hresult⟩

end Process

/-! ### Queries -/

/-- What comes of the whole of a query, with a store that answers at once, and the state after
it. -/
def RecordStore.ask {σ : Type} (store : RecordStore) (respond : Process.Responder σ) (turns : ℕ)
    (s : σ) (primaryKey table descriptor : Value) (byItself : Bool) :
    Except Fault (Option Page) × σ :=
  match (store.begin (.query primaryKey table descriptor byItself)).result with
  | .ok (.query plan) =>
    let r := plan.run store.policy respond turns s
    (r.1.result, r.2)
  | .ok _ => (.ok none, s)
  | .error f => (.error f, s)

namespace QueryPlan

variable {σ : Type} {policy : Policy} {plan : QueryPlan}

/-- A query that comes to a page has read one. -/
theorem exists_conclude_of_run {respond : Process.Responder σ} {turns : ℕ} {s : σ} {page : Page}
    (h : (plan.run policy respond turns s).1.result = .ok (some page)) :
    ∃ response total,
      (plan.pageProcess.run policy respond 1 s).1.result = .ok (some response) ∧
        (plan.conclude policy response total).result = .ok (some page) := by
  unfold QueryPlan.run at h
  dsimp only at h
  split at h
  · rename_i response total hpage _
    exact ⟨response, total, hpage, h⟩
  all_goals cases h

/-- The turn of a page whose request reaches the client. -/
theorem run_pageProcess_of_ok (policy : Policy) (client : Client σ) (s : σ × List ClientCall)
    {arguments : Entries} (h : encodeArguments (map plan.params) = .ok arguments) :
    (plan.pageProcess.run policy client.recorded.answer 1 s).2.2
        = s.2 ++ [⟨arguments, (client s.1 "query" arguments).1⟩] ∧
      (plan.pageProcess.run policy client.recorded.answer 1 s).1.result
        = (policy.settle .query (decodeReply "query" (client s.1 "query" arguments).1)).result.map
            some := by
  have hsend : (plan.pageProcess.next policy).result = .ok (.send ⟨.query, map plan.params⟩) := rfl
  obtain ⟨hresult, hstate⟩ := Process.trip_of_send client.recorded.answer s hsend
  rw [Client.answer_recorded_of_ok h] at hresult hstate
  obtain ⟨hrun, hafter⟩ := Process.run_of_ends 0 (hresult.trans (Noted.result_bind_pure _ _))
  exact ⟨by rw [hafter, hstate]; rfl, hrun⟩

/-- The first call of a query is that of its page. -/
theorem run_recorded (policy : Policy) (client : Client σ) (turns : ℕ) (s : σ)
    {arguments : Entries} (h : encodeArguments (map plan.params) = .ok arguments) :
    ∃ rest, (plan.run policy client.recorded.answer turns (s, [])).2.2
      = ⟨arguments, (client s "query" arguments).1⟩ :: rest := by
  have hstate : (plan.run policy client.recorded.answer turns (s, [])).2
      = (if plan.counts then plan.countProcess.run policy client.recorded.answer turns
            (plan.pageProcess.run policy client.recorded.answer 1 (s, [])).2
          else (pure (some .null),
            (plan.pageProcess.run policy client.recorded.answer 1 (s, [])).2)).2 := by
    unfold QueryPlan.run
    dsimp only
    split <;> rfl
  obtain ⟨hpage, -⟩ := run_pageProcess_of_ok policy client (s, []) h
  rw [hstate]
  split
  · obtain ⟨rest, hrest⟩ := Process.exists_recorded policy client turns
      (plan.pageProcess.run policy client.recorded.answer 1 (s, [])).2 plan.countProcess
    exact ⟨rest, by rw [hrest, hpage]; rfl⟩
  · exact ⟨[], hpage⟩

/-- A page whose request has no stored form is not read. -/
theorem result_run_pageProcess_of_error (client : Client σ) (s : σ × List ClientCall) {f : Fault}
    (h : encodeArguments (map plan.params) = .error f) {response : Value}
    (hpage : (plan.pageProcess.run policy client.recorded.answer 1 s).1.result
      = .ok (some response)) : response = null := by
  have hsend : (plan.pageProcess.next policy).result = .ok (.send ⟨.query, map plan.params⟩) := rfl
  obtain ⟨hresult, -⟩ := Process.trip_of_send client.recorded.answer s hsend
  rw [Client.answer_recorded_of_error h] at hresult
  obtain ⟨hrun, -⟩ := Process.run_of_ends 0 (hresult.trans (Noted.result_bind_pure _ _))
  rw [hrun] at hpage
  obtain ⟨v, hv, hresponse⟩ := map_eq_ok.1 hpage
  obtain rfl := Option.some.inj hresponse
  exact (Policy.eq_null_of_settle hv).2

end QueryPlan

end KeysetQuery

import KeysetQuery.Proofs.Outcome
import KeysetQuery.Store.Process

/-!
# Steps of a count

* `result_settleCount` — what the fault of a count comes to;
* `Policy.eq_null_of_settle`, `Policy.eq_null_of_settleCount` — a fault that leaves a result;
* `countIn`, `cursorIn`, `goesOn` — what a response says: how many records, and where it ended;
* `Policy.AllowsPages` — a count may read a number of pages;
* `CountWalk.result_checkBound` — the fault of a count that has read as many pages as it may;
* `CountWalk.absorb_of_isCounted`, `CountWalk.eq_of_absorb_eq_more` — what a response does to a
  count;
* `Process.next_count_of_free`, `Process.result_next_count_of_error` — a count whose turn it is;
* `Process.result_receiveCount` — what a reply makes of a count;
* `Process.run_of_goes`, `Process.run_of_ends` — a run, turn by turn.
-/

namespace KeysetQuery

open Value

/-! ### Faults -/

/-- A result that is passed on in another form. -/
theorem Noted.result_bind_pure {α β : Type} (x : Noted α) (g : α → β) :
    (x >>= fun a => pure (g a)).result = x.result.map g := by
  rw [Noted.result_bind]
  cases x.result <;> rfl

/-- The fault of a count is raised or dropped, as the policy says. -/
theorem Policy.result_settleCount (p : Policy) {f : Fault} (h : f.isCancelled = false) :
    (p.settleCount f).result
      = if p.rejects then .error (asFailure Policy.countName f) else .ok .null := by
  rw [Policy.settleCount, h]
  exact p.result_afterFault Policy.countName f

/-- Only a fault that is dropped leaves a result, which is null. -/
theorem Policy.eq_null_of_afterFault {p : Policy} {operation : String} {f : Fault} {v : Value}
    (h : (p.afterFault operation f).result = .ok v) : p.rejects = false ∧ v = null := by
  rw [Policy.result_afterFault] at h
  cases hrejects : p.rejects with
  | true =>
    rw [hrejects, if_pos rfl] at h
    cases h
  | false =>
    rw [hrejects, if_neg Bool.false_ne_true] at h
    exact ⟨rfl, (Except.ok.inj h).symm⟩

theorem Policy.eq_null_of_settle {p : Policy} {o : Operation} {f : Fault} {v : Value}
    (h : (p.settle o (.error f)).result = .ok v) : p.rejects = false ∧ v = null := by
  unfold Policy.settle at h
  dsimp only at h
  split at h
  · cases h
  · exact Policy.eq_null_of_afterFault h

theorem Policy.eq_null_of_settleCount {p : Policy} {f : Fault} {v : Value}
    (h : (p.settleCount f).result = .ok v) : p.rejects = false ∧ v = null := by
  unfold Policy.settleCount at h
  split at h
  · cases h
  · exact Policy.eq_null_of_afterFault h

/-! ### Responses -/

/-- The number of records that a response tells. -/
def countIn (response : Entries) : Int :=
  match Entries.field? response "Count" with
  | some (.int n) => n
  | _ => 0

/-- The number of records in a response is an integer, if there is one at all. -/
def IsCounted (response : Entries) : Prop := ∀ v ∈ Entries.field? response "Count", ∃ n, v = .int n

/-- The key at which a page ended; null if it ended nowhere. -/
def cursorIn (response : Entries) : Value := (Entries.field? response "LastEvaluatedKey").getD null

/-- Whether a response is followed by another one. -/
def goesOn (response : Entries) : Bool := (cursorIn response).truthy

theorem plus_countIn {response : Entries} (h : IsCounted response) (total : Int) :
    (int total).plus ((Entries.field? response "Count").getD (.int 0))
      = .ok (.int (total + countIn response)) := by
  rw [countIn]
  cases hcount : Entries.field? response "Count" with
  | none => rfl
  | some v =>
    obtain ⟨n, rfl⟩ := h v hcount
    rfl

/-! ### The bound -/

/-- A count may read a number of pages: none of them is refused. -/
def Policy.AllowsPages (policy : Policy) (pages : Nat) : Prop :=
  ∀ w : CountWalk, w.pages < pages → w.isExhausted policy = .ok false

theorem Policy.AllowsPages.mono {policy : Policy} {m n : Nat} (h : policy.AllowsPages n)
    (hle : m ≤ n) : policy.AllowsPages m := fun w hw => h w (by omega)

/-- A count that may not read a number of pages may not read one of them. -/
theorem Policy.exists_barred {policy : Policy} {pages : Nat} (h : ¬ policy.AllowsPages pages) :
    ∃ j < pages, policy.AllowsPages j ∧ ¬ policy.AllowsPages (j + 1) := by
  induction pages with
  | zero =>
    refine absurd (fun w hw => ?_) h
    omega
  | succ pages ih =>
    by_cases hallowed : policy.AllowsPages pages
    · exact ⟨pages, by omega, hallowed, h⟩
    · obtain ⟨j, hj, hbarred⟩ := ih hallowed
      exact ⟨j, by omega, hbarred⟩

/-- A bound that is an integer allows as many pages as it says, and zero is no bound. -/
theorem allowsPages_int {policy : Policy} {m : Int} {pages : Nat} (h : policy.maxCountPages = .int m)
    (hm : m = 0 ∨ (pages : Int) ≤ m) : policy.AllowsPages pages := by
  intro w hw
  rw [CountWalk.isExhausted_int h]
  rcases hm with rfl | hm
  · rfl
  · have hlt : ¬ m ≤ (w.pages : Int) := by omega
    rw [decide_eq_false hlt, Bool.and_false]

namespace CountWalk

variable {policy : Policy} {w : CountWalk}

/-- A bound that is a positive integer is used up by as many pages. -/
theorem isExhausted_of_le {m : Nat} (hm : policy.maxCountPages = .int m) (hpos : 0 < m)
    (hle : m ≤ w.pages) : w.isExhausted policy = .ok true := by
  have hne : (m : Int) ≠ 0 := by omega
  have hpages : (m : Int) ≤ (w.pages : Int) := by omega
  rw [isExhausted_int hm, decide_eq_true hpages, Bool.and_true, bne_iff_ne.2 hne]

/-- A count that has read as many pages as it may fails for that reason. -/
theorem result_checkBound (hspent : w.isExhausted policy = .ok true) :
    (w.checkBound policy).result = .error (w.limitFault policy) := by
  rw [checkBound, hspent, Noted.result_bind]
  show ((Noted.report _ _ >>= fun _ => Noted.lift (.error (w.limitFault policy))) :
    Noted Unit).result = _
  rw [Noted.result_bind, Noted.result_report]
  rfl

/-- A count fails where the bound allows no other page, whether it is used up or cannot be compared
with a number of pages. -/
theorem exists_result_checkBound_of_barred {pages : Nat} (hallowed : policy.AllowsPages pages)
    (hbarred : ¬ policy.AllowsPages (pages + 1)) (hpages : w.pages = pages) :
    ∃ f, (w.checkBound policy).result = .error f := by
  cases hspent : w.isExhausted policy with
  | error f => exact ⟨f, by rw [checkBound, hspent]; rfl⟩
  | ok spent =>
    cases spent with
    | true => exact ⟨_, result_checkBound hspent⟩
    | false =>
      refine absurd (fun v hv => ?_) hbarred
      rcases Nat.lt_or_ge v.pages pages with hlt | hge
      · exact hallowed v hlt
      · rw [← hspent, isExhausted, isExhausted, hpages, show v.pages = pages by omega]

/-- The fault of a count with an integer sum tells the bound and that sum. -/
theorem limitFault_int {total : Int} (h : w.total = .int total) :
    w.limitFault policy = .countLimit policy.maxCountPages (.int total) := by
  rw [limitFault, h]
  rfl

/-- What a response with an integer number of records does to a count with an integer sum. -/
theorem absorb_of_isCounted {response : Entries} {total : Int} (htotal : w.total = .int total)
    (h : IsCounted response) :
    w.absorb (map response) = .ok
      (if goesOn response then
        .more ⟨Entries.putField w.params "ExclusiveStartKey" (cursorIn response),
          .int (total + countIn response), w.pages + 1⟩
      else .complete (.int (total + countIn response))) := by
  have hsum : w.total.plus ((Entries.field? response "Count").getD (.int 0))
      = .ok (.int (total + countIn response)) := by
    rw [htotal, plus_countIn h]
  exact absorb_map w response _ hsum

/-- A count that goes on has read one page more, and asks for the same from another start. -/
theorem eq_of_absorb_eq_more {response : Value} {w' : CountWalk}
    (h : w.absorb response = .ok (.more w')) :
    ∃ cursor total, w' = ⟨Entries.putField w.params "ExclusiveStartKey" cursor, total, w.pages + 1⟩ := by
  obtain ⟨_, -, h⟩ := bind_eq_ok.1 h
  obtain ⟨total, -, h⟩ := bind_eq_ok.1 h
  obtain ⟨last, -, h⟩ := bind_eq_ok.1 h
  by_cases hcursor : (last.getD null).truthy = true
  · rw [if_pos hcursor] at h
    exact ⟨last.getD null, total, (CountProgress.more.inj (Except.ok.inj h)).symm⟩
  · rw [if_neg hcursor] at h
    exact absurd (Except.ok.inj h) (by simp)

end CountWalk

namespace Process

variable {policy : Policy} {w : CountWalk} {f : Fault}

/-! ### Turns -/

/-- What becomes of a count under a policy. -/
def ofCountProgress (policy : Policy) : Except Fault CountProgress → Except Fault Progress
  | .ok (.more w) => .ok (.goes (.count w))
  | .ok (.complete total) => .ok (.stops total)
  | .error f => (policy.settleCount f).result.map .stops

/-- A count that may read another page asks for it. -/
theorem next_count_of_free (h : w.isExhausted policy = .ok false) :
    (count w).next policy = Noted.ok (.send w.request) := by
  have hcheck : w.checkBound policy = Noted.ok () := by
    rw [CountWalk.checkBound, h]
    rfl
  rw [next, hcheck]
  rfl

/-- A count that may not read another page stops, with what its fault comes to. -/
theorem result_next_count_of_error (h : (w.checkBound policy).result = .error f) :
    ((count w).next policy).result = (policy.settleCount f).result.map .stop := by
  rw [next, h]
  exact Noted.result_bind_pure (policy.settleCount f) Move.stop

/-- What a reply makes of a count. -/
theorem result_receiveCount (policy : Policy) (w : CountWalk) (reply : Reply) :
    (receiveCount policy w reply).result = ofCountProgress policy (reply >>= w.absorb) := by
  rw [receiveCount]
  rcases reply >>= w.absorb with f | (w' | total)
  · exact Noted.result_bind_pure (policy.settleCount f) Progress.stops
  · rfl
  · rfl

section Trips

variable {σ : Type} (respond : Responder σ) (s : σ) {p : Process}

/-- A turn of a process that sends a request. -/
theorem trip_of_send {request : Request} (h : (p.next policy).result = .ok (.send request)) :
    (p.trip policy respond s).1.result = (p.receive policy (respond s request).1).result ∧
      (p.trip policy respond s).2 = (respond s request).2 := by
  rw [trip, h]
  exact ⟨rfl, rfl⟩

/-- A turn of a process that stops. -/
theorem trip_of_stop {r : Except Fault Value} (h : (p.next policy).result = r.map .stop) :
    (p.trip policy respond s).1.result = r.map .stops ∧ (p.trip policy respond s).2 = s := by
  rw [trip, h]
  cases r <;> exact ⟨rfl, rfl⟩

/-- The turn of a count that may read another page. -/
theorem trip_count_of_free (h : w.isExhausted policy = .ok false) :
    ((count w).trip policy respond s).1.result
        = ofCountProgress policy ((respond s w.request).1 >>= w.absorb) ∧
      ((count w).trip policy respond s).2 = (respond s w.request).2 := by
  have hnext := congrArg Noted.result (next_count_of_free h)
  obtain ⟨hresult, hstate⟩ := trip_of_send respond s hnext
  exact ⟨hresult.trans (result_receiveCount policy w _), hstate⟩

/-! ### Runs -/

variable {respond s}

/-- After a turn that goes on a run has one turn less. -/
theorem run_of_goes {q : Process} (turns : Nat)
    (h : (p.trip policy respond s).1.result = .ok (.goes q)) :
    (p.run policy respond (turns + 1) s).1.result
        = (q.run policy respond turns (p.trip policy respond s).2).1.result ∧
      (p.run policy respond (turns + 1) s).2
        = (q.run policy respond turns (p.trip policy respond s).2).2 := by
  constructor <;> simp only [run, h, Noted.after]

/-- A run ends with the turn that does. -/
theorem run_of_ends {r : Except Fault Value} (turns : Nat)
    (h : (p.trip policy respond s).1.result = r.map .stops) :
    (p.run policy respond (turns + 1) s).1.result = r.map some ∧
      (p.run policy respond (turns + 1) s).2 = (p.trip policy respond s).2 := by
  cases r with
  | error f =>
    have hends : (p.trip policy respond s).1.result = .error f := h
    constructor <;> simp only [run, hends, Except.map]
  | ok v =>
    have hends : (p.trip policy respond s).1.result = .ok (.stops v) := h
    constructor <;> simp only [run, hends, Except.map]

end Trips

end Process

end KeysetQuery

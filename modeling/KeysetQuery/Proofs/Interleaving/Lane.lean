import KeysetQuery.Proofs.Counting.Steps
import KeysetQuery.Store.QueryRun

/-!
# One branch among others

While a branch waits for a reply, other branches have their turns.  What it comes to depends on its
own replies alone.

* `Lane` — a branch, what it waits for, and the exchanges it has had; `Lane.turn` and `Lane.after`
  are its turns;
* `calls_prefix_after`, `after_of_ended` — exchanges are never taken back, and an end is final;
* `Process.AsksOnce` and `Lane.Settles` — a branch that sends a single request;
* `Lane.CountStep` — all that a turn can do to a count; `countStep_turn` says that it is all, and
  `after_of_countStep` that what it preserves holds after all turns.
-/

namespace KeysetQuery

/-- A request and the reply to it. -/
structure Exchange where
  request : Request
  reply : Reply

/-- How far a branch is, and what passed between it and the store. -/
structure Lane where
  branch : Branch
  /-- The request whose reply is still to come. -/
  asked : Option Request
  calls : List Exchange

/-- What a reply makes of a branch. -/
def Branch.ofProgress : Except Fault Progress → Branch
  | .ok (.goes p) => .active p
  | .ok (.stops v) => .ended (.ok v)
  | .error f => .ended (.error f)

theorem Branch.ofProgress_map_stops (r : Except Fault Value) :
    Branch.ofProgress (r.map .stops) = .ended r := by
  cases r <;> rfl

namespace Lane

/-- A process before its first turn. -/
def start (p : Process) : Lane := ⟨.active p, none, []⟩

/-- A turn of a branch.  If a reply is to come, it comes now; otherwise the branch does what it is
its turn to do, and the reply is for nobody. -/
def turn (policy : Policy) (lane : Lane) (reply : Reply) : Lane :=
  match lane.branch, lane.asked with
  | .ended _, _ => lane
  | .active p, some request =>
    ⟨.ofProgress (p.receive policy reply).result, none, lane.calls ++ [⟨request, reply⟩]⟩
  | .active p, none =>
    match (p.next policy).result with
    | .ok (.send request) => { lane with asked := some request }
    | .ok (.stop v) => { lane with branch := .ended (.ok v) }
    | .error f => { lane with branch := .ended (.error f) }

/-- Turns of a branch, one after the other. -/
def after (policy : Policy) (lane : Lane) (replies : List Reply) : Lane :=
  replies.foldl (turn policy) lane

variable {policy : Policy} {lane : Lane}

theorem after_cons (reply : Reply) (replies : List Reply) :
    lane.after policy (reply :: replies) = (lane.turn policy reply).after policy replies := rfl

/-- What every turn preserves holds after all turns. -/
theorem after_of_turn {P : Lane → Prop} (h : P lane)
    (hturn : ∀ lane reply, P lane → P (lane.turn policy reply)) (replies : List Reply) :
    P (lane.after policy replies) := by
  induction replies generalizing lane with
  | nil => exact h
  | cons reply replies ih => exact ih (hturn lane reply h)

/-! ### Ends -/

theorem turn_of_ended {r : Except Fault Value} (h : lane.branch = .ended r) (reply : Reply) :
    lane.turn policy reply = lane := by
  rw [turn, h]

/-- The end of a branch is final. -/
theorem after_of_ended {r : Except Fault Value} (h : lane.branch = .ended r)
    (replies : List Reply) : lane.after policy replies = lane := by
  induction replies with
  | nil => rfl
  | cons reply replies ih => rw [after_cons, turn_of_ended h, ih]

theorem branch_after_of_ended {r : Except Fault Value} (h : lane.branch = .ended r)
    (replies : List Reply) : ∃ r, (lane.after policy replies).branch = .ended r :=
  ⟨r, by rw [after_of_ended h, h]⟩

/-- A series of two turns or more. -/
theorem exists_eq_cons_cons {replies : List Reply} (more : Nat) (h : more + 2 ≤ replies.length) :
    ∃ idle reply rest, replies = idle :: reply :: rest ∧ more ≤ rest.length := by
  match replies, h with
  | idle :: reply :: rest, h => exact ⟨idle, reply, rest, rfl, by simpa using h⟩

/-! ### Exchanges -/

theorem turn_of_send {p : Process} {request : Request} {calls : List Exchange}
    (h : (p.next policy).result = .ok (.send request)) (reply : Reply) :
    turn policy ⟨.active p, none, calls⟩ reply = ⟨.active p, some request, calls⟩ := by
  simp only [turn, h]

theorem turn_of_stop {p : Process} {r : Except Fault Value} {calls : List Exchange}
    (h : (p.next policy).result = r.map .stop) (reply : Reply) :
    turn policy ⟨.active p, none, calls⟩ reply = ⟨.ended r, none, calls⟩ := by
  cases r <;> simp only [turn, h, Except.map]

theorem turn_of_asked (p : Process) (request : Request) (calls : List Exchange) (reply : Reply) :
    turn policy ⟨.active p, some request, calls⟩ reply =
      ⟨.ofProgress (p.receive policy reply).result, none, calls ++ [⟨request, reply⟩]⟩ := rfl

theorem calls_prefix_turn (reply : Reply) : lane.calls <+: (lane.turn policy reply).calls := by
  obtain ⟨branch, asked, calls⟩ := lane
  rcases branch with p | r
  · cases asked with
    | some request => exact List.prefix_append _ _
    | none =>
      simp only [turn]
      split <;> exact List.prefix_rfl
  · exact List.prefix_rfl

/-- An exchange is never taken back. -/
theorem calls_prefix_after (replies : List Reply) :
    lane.calls <+: (lane.after policy replies).calls := by
  induction replies generalizing lane with
  | nil => exact List.prefix_rfl
  | cons reply replies ih => exact (calls_prefix_turn reply).trans ih

end Lane

/-! ### Single requests -/

/-- A process sends one request and makes of the reply what it comes to. -/
structure Process.AsksOnce (policy : Policy) (p : Process) (request : Request)
    (comesTo : Reply → Except Fault Value) : Prop where
  next_eq : (p.next policy).result = .ok (.send request)
  receive_eq : ∀ reply, (p.receive policy reply).result = (comesTo reply).map .stops

theorem Process.asksOnce_direct (policy : Policy) (request : Request) :
    (Process.direct request).AsksOnce policy request fun reply => reply :=
  ⟨rfl, fun reply => by cases reply <;> rfl⟩

theorem Process.asksOnce_settled (policy : Policy) (request : Request) :
    (Process.settled request).AsksOnce policy request fun reply =>
      (policy.settle request.operation reply).result :=
  ⟨rfl, fun reply => Noted.result_bind_pure (policy.settle request.operation reply) Progress.stops⟩

namespace Lane

variable {policy : Policy}

/-- How far a branch with a single request can be. -/
inductive Settles (p : Process) (request : Request) (comesTo : Reply → Except Fault Value) :
    Lane → Prop
  | ready : Settles p request comesTo (start p)
  | waiting : Settles p request comesTo ⟨.active p, some request, []⟩
  | ended (reply : Reply) :
    Settles p request comesTo ⟨.ended (comesTo reply), none, [⟨request, reply⟩]⟩

variable {p : Process} {request : Request} {comesTo : Reply → Except Fault Value}

theorem Settles.turn (hp : p.AsksOnce policy request comesTo) {lane : Lane}
    (h : Settles p request comesTo lane) (reply : Reply) :
    Settles p request comesTo (lane.turn policy reply) := by
  cases h with
  | ready =>
    rw [start, turn_of_send hp.next_eq]
    exact .waiting
  | waiting =>
    rw [turn_of_asked, hp.receive_eq, Branch.ofProgress_map_stops]
    exact .ended reply
  | ended reply' =>
    rw [turn_of_ended rfl]
    exact .ended reply'

/-- A branch with a single request that has ended has had a reply. -/
theorem Settles.of_ended {lane : Lane} (h : Settles p request comesTo lane)
    {r : Except Fault Value} (hr : lane.branch = .ended r) :
    ∃ reply, r = comesTo reply ∧ ⟨request, reply⟩ ∈ lane.calls := by
  cases h with
  | ready | waiting => cases hr
  | ended reply => exact ⟨reply, (Branch.ended.inj hr).symm, List.mem_singleton_self _⟩

/-- A branch with a single request is ready, waits, or has ended as its reply says. -/
theorem settles_after (hp : p.AsksOnce policy request comesTo) (replies : List Reply) :
    Settles p request comesTo ((start p).after policy replies) :=
  after_of_turn .ready (fun _ reply h => h.turn hp reply) replies

/-- A branch with a single request has ended after two turns. -/
theorem ended_of_asksOnce (hp : p.AsksOnce policy request comesTo) {replies : List Reply}
    (h : 2 ≤ replies.length) : ∃ r, ((start p).after policy replies).branch = .ended r := by
  obtain ⟨idle, reply, rest, rfl, -⟩ := exists_eq_cons_cons 0 h
  rw [after_cons, start, turn_of_send hp.next_eq, after_cons, turn_of_asked, hp.receive_eq,
    Branch.ofProgress_map_stops]
  exact branch_after_of_ended rfl rest

end Lane

/-! ### Counts -/

namespace Lane

/-- The branch of a count: it counts, or it has ended. -/
def Counts (lane : Lane) : Prop := ∀ p, lane.branch = .active p → ∃ w, p = .count w

/-- All that a turn can do to the branch of a count. -/
inductive CountStep (policy : Policy) (reply : Reply) : Lane → Lane → Prop
  | rests (r : Except Fault Value) (asked : Option Request) (calls : List Exchange) :
    CountStep policy reply ⟨.ended r, asked, calls⟩ ⟨.ended r, asked, calls⟩
  | asks {w : CountWalk} {calls : List Exchange} (hfree : w.isExhausted policy = .ok false) :
    CountStep policy reply ⟨.active (.count w), none, calls⟩
      ⟨.active (.count w), some w.request, calls⟩
  | isSpent {w : CountWalk} {calls : List Exchange} {f : Fault}
    (hspent : w.isExhausted policy = .ok true) (hf : (w.checkBound policy).result = .error f) :
    CountStep policy reply ⟨.active (.count w), none, calls⟩
      ⟨.ended (policy.settleCount f).result, none, calls⟩
  | fails {w : CountWalk} {request : Request} {calls : List Exchange} {f : Fault}
    (hf : reply >>= w.absorb = .error f) :
    CountStep policy reply ⟨.active (.count w), some request, calls⟩
      ⟨.ended (policy.settleCount f).result, none, calls ++ [⟨request, reply⟩]⟩
  | completes {w : CountWalk} {request : Request} {calls : List Exchange} {total : Value}
    (htotal : reply >>= w.absorb = .ok (.complete total)) :
    CountStep policy reply ⟨.active (.count w), some request, calls⟩
      ⟨.ended (.ok total), none, calls ++ [⟨request, reply⟩]⟩
  | goes {w w' : CountWalk} {request : Request} {calls : List Exchange}
    (hmore : reply >>= w.absorb = .ok (.more w')) :
    CountStep policy reply ⟨.active (.count w), some request, calls⟩
      ⟨.active (.count w'), none, calls ++ [⟨request, reply⟩]⟩

variable {policy : Policy} {lane : Lane}

theorem counts_start (w : CountWalk) : (start (.count w)).Counts := by
  rintro p ⟨⟩
  exact ⟨w, rfl⟩

/-- A turn of the branch of a count is one of those. -/
theorem countStep_turn {m : Int} (hm : policy.maxCountPages = .int m) (h : lane.Counts)
    (reply : Reply) : CountStep policy reply lane (lane.turn policy reply) := by
  obtain ⟨branch, asked, calls⟩ := lane
  rcases branch with p | r
  · obtain ⟨w, rfl⟩ := h p rfl
    cases asked with
    | none =>
      cases hspent : (m != 0 && decide (m ≤ (w.pages : Int))) with
      | false =>
        have hfree : w.isExhausted policy = .ok false := by
          rw [CountWalk.isExhausted_int hm, hspent]
        rw [turn_of_send (congrArg Noted.result (Process.next_count_of_free hfree))]
        exact .asks hfree
      | true =>
        have hbound : w.isExhausted policy = .ok true := by
          rw [CountWalk.isExhausted_int hm, hspent]
        have hf := CountWalk.result_checkBound hbound
        rw [turn_of_stop (Process.result_next_count_of_error hf)]
        exact .isSpent hbound hf
    | some request =>
      have hreceive : ((Process.count w).receive policy reply).result = _ :=
        Process.result_receiveCount policy w reply
      rw [turn_of_asked, hreceive]
      rcases hprogress : reply >>= w.absorb with f | (w' | total)
      · rw [Process.ofCountProgress, Branch.ofProgress_map_stops]
        exact .fails hprogress
      · exact .goes hprogress
      · exact .completes hprogress
  · rw [turn_of_ended rfl]
    exact .rests r asked calls

theorem CountStep.counts {lane' : Lane} {reply : Reply} (h : CountStep policy reply lane lane') :
    lane'.Counts := by
  intro p hp
  cases h with
  | rests | isSpent | fails | completes => cases hp
  | asks | goes => exact ⟨_, (Branch.active.inj hp).symm⟩

/-- What every step of a count preserves holds after all its turns.  A step may rely on what holds
of all exchanges so far. -/
theorem after_of_countStep {m : Int} (hm : policy.maxCountPages = .int m) {w : CountWalk}
    {Q : Lane → Prop} {R : Exchange → Prop} (h : Q (start (.count w)))
    (hstep : ∀ {reply : Reply} {lane lane' : Lane}, CountStep policy reply lane lane' →
      (∀ e ∈ lane'.calls, R e) → Q lane → Q lane')
    (replies : List Reply) (hcalls : ∀ e ∈ ((start (.count w)).after policy replies).calls, R e) :
    Q ((start (.count w)).after policy replies) := by
  refine (after_of_turn (P := fun lane => lane.Counts ∧ ((∀ e ∈ lane.calls, R e) → Q lane))
    ⟨counts_start w, fun _ => h⟩ ?_ replies).2 hcalls
  rintro lane reply ⟨hcounts, hlane⟩
  have hturn := countStep_turn hm hcounts reply
  refine ⟨hturn.counts, fun hcalls => hstep hturn hcalls (hlane fun e he => ?_)⟩
  exact hcalls e ((calls_prefix_turn reply).subset he)

end Lane

end KeysetQuery

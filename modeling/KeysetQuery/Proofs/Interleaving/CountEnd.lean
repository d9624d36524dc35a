import KeysetQuery.Proofs.Interleaving.Lane
import KeysetQuery.Proofs.Query.Conclusion

/-!
# The end of a count

A store whose answer depends on the request alone determines how a count ends, whatever else
happens meanwhile.

* `CountWalk.Ends` — how a count ends: with a sum, or with a fault;
* `CountWalk.Ends.unique`, `CountWalk.exists_ends` — it ends in one way only, and with a bound it
  does end;
* `CountWalk.IsSound` — the sum is an integer, and stays one as the count proceeds;
* `Ends.result_run` — a run of the count alone ends so;
* `Lane.Follows` and `ends_of_after` — its branch among others ends so, if it ends;
* `Ends.exists_turns` — and it does end after enough turns.
-/

namespace KeysetQuery

open Value

/-- What the end of a count comes to under a policy. -/
def Policy.ofCountEnd (policy : Policy) : Except Fault Value → Except Fault Value
  | .ok total => .ok total
  | .error f => (policy.settleCount f).result

/-- A reply that a store may give: a response, or a fault that is neither a refusal nor the end of a
work given up from outside. -/
def IsOrderly : Reply → Prop
  | .ok response => IsQueryResponse response
  | .error f => f.isInvalid = false ∧ f.isCancelled = false

/-- A store whose answer depends on the request alone. -/
def answering (answer : Request → Reply) : Process.Responder Unit := fun _ request =>
  (answer request, ())

namespace CountWalk

variable {policy : Policy} {answer : Request → Reply} {w : CountWalk}

/-! ### Ends -/

/-- What a count makes of its next page, if it may read it. -/
def read (policy : Policy) (answer : Request → Reply) (w : CountWalk) :
    Except Fault CountProgress := do
  if ← w.isExhausted policy then .error (w.limitFault policy)
  else answer w.request >>= w.absorb

/-- How a count ends. -/
inductive Ends (policy : Policy) (answer : Request → Reply) : CountWalk → Except Fault Value → Prop
  | completes {w : CountWalk} {total : Value} (h : w.read policy answer = .ok (.complete total)) :
    Ends policy answer w (.ok total)
  | fails {w : CountWalk} {f : Fault} (h : w.read policy answer = .error f) :
    Ends policy answer w (.error f)
  | goes {w w' : CountWalk} {e : Except Fault Value} (h : w.read policy answer = .ok (.more w'))
    (rest : Ends policy answer w' e) : Ends policy answer w e

theorem read_of_free (h : w.isExhausted policy = .ok false) :
    w.read policy answer = answer w.request >>= w.absorb := by
  rw [read, h]
  rfl

theorem read_of_spent (h : w.isExhausted policy = .ok true) :
    w.read policy answer = .error (w.limitFault policy) := by
  rw [read, h]
  rfl

/-- The turn of a count that may read another page. -/
theorem result_trip_of_free (h : w.isExhausted policy = .ok false)
    {progress : Except Fault CountProgress} (hprogress : answer w.request >>= w.absorb = progress) :
    ((Process.count w).trip policy (answering answer) ()).1.result
      = Process.ofCountProgress policy progress := by
  subst hprogress
  exact (Process.trip_count_of_free (answering answer) () h).1

/-- A count ends in one way only. -/
theorem Ends.unique {e e' : Except Fault Value} (h : Ends policy answer w e)
    (h' : Ends policy answer w e') : e = e' := by
  induction h with
  | completes hread =>
    cases h' with
    | completes hread' =>
      rw [hread] at hread'
      obtain rfl := CountProgress.complete.inj (Except.ok.inj hread')
      rfl
    | fails hread' | goes hread' =>
      rw [hread] at hread'
      cases hread'
  | fails hread =>
    cases h' with
    | fails hread' =>
      rw [hread] at hread'
      rw [Except.error.inj hread']
    | completes hread' | goes hread' =>
      rw [hread] at hread'
      cases hread'
  | goes hread rest ih =>
    cases h' with
    | goes hread' rest' =>
      rw [hread] at hread'
      obtain rfl := CountProgress.more.inj (Except.ok.inj hread')
      exact ih rest'
    | completes hread' | fails hread' =>
      rw [hread] at hread'
      cases hread'

/-- A count with a bound ends: each page is one of those that are left. -/
theorem exists_ends {m : Nat} (hm : policy.maxCountPages = .int m) (hpos : 0 < m)
    (answer : Request → Reply) (w : CountWalk) : ∃ e, Ends policy answer w e := by
  induction hleft : m - w.pages generalizing w with
  | zero =>
    have hspent := isExhausted_of_le hm hpos (w := w) (by omega)
    exact ⟨_, .fails (read_of_spent hspent)⟩
  | succ left ih =>
    have hfree : w.isExhausted policy = .ok false :=
      allowsPages_int hm (.inr (Int.le_refl _)) w (by omega)
    rcases hread : w.read policy answer with f | (w' | total)
    · exact ⟨_, .fails hread⟩
    · have habsorb : answer w.request >>= w.absorb = .ok (.more w') := by
        rw [← read_of_free hfree, hread]
      obtain ⟨response, -, hmore⟩ := bind_eq_ok.1 habsorb
      have hpages : w'.pages = w.pages + 1 := by
        obtain ⟨cursor, total, rfl⟩ := eq_of_absorb_eq_more hmore
        rfl
      obtain ⟨e, he⟩ := ih w' (by omega)
      exact ⟨e, .goes hread he⟩
    · exact ⟨_, .completes hread⟩

section Bound

variable {m : Int} (hm : policy.maxCountPages = .int m)

include hm

theorem isExhausted_cases (w : CountWalk) :
    w.isExhausted policy = .ok true ∨ w.isExhausted policy = .ok false := by
  rw [isExhausted_int hm]
  cases m != 0 && decide (m ≤ (w.pages : Int))
  · exact .inr rfl
  · exact .inl rfl

theorem free_of_read_eq_ok {progress : CountProgress} (h : w.read policy answer = .ok progress) :
    w.isExhausted policy = .ok false ∧ answer w.request >>= w.absorb = .ok progress := by
  rcases isExhausted_cases hm w with hspent | hfree
  · rw [read_of_spent hspent] at h
    cases h
  · exact ⟨hfree, by rw [← read_of_free hfree, h]⟩

/-- A count fails because it may not read another page, or because of the answer. -/
theorem cases_of_read_eq_error {f : Fault} (h : w.read policy answer = .error f) :
    w.isExhausted policy = .ok true ∧ f = w.limitFault policy ∨
      w.isExhausted policy = .ok false ∧ answer w.request >>= w.absorb = .error f := by
  rcases isExhausted_cases hm w with hspent | hfree
  · rw [read_of_spent hspent] at h
    exact .inl ⟨hspent, (Except.error.inj h).symm⟩
  · exact .inr ⟨hfree, by rw [← read_of_free hfree, h]⟩

end Bound

/-! ### Integer sums -/

/-- The sum of a count is an integer. -/
def IsSound (w : CountWalk) : Prop := ∃ total, w.total = .int total

/-- A count from the beginning has a sum of zero. -/
theorem isSound_fromBeginning (params : Entries) : (fromBeginning params).IsSound := ⟨0, rfl⟩

/-- What becomes of such a count: it fails, but was not given up from outside, or it comes to an
integer, or its sum stays an integer. -/
inductive Proceeds : Except Fault CountProgress → Prop
  | fails {f : Fault} (hcancelled : f.isCancelled = false) : Proceeds (.error f)
  | completes (total : Int) : Proceeds (.ok (.complete (.int total)))
  | goes {w' : CountWalk} (hsound : w'.IsSound) : Proceeds (.ok (.more w'))

theorem IsSound.proceeds_absorb (h : w.IsSound) {reply : Reply} (hreply : IsOrderly reply) :
    Proceeds (reply >>= w.absorb) := by
  rcases reply with f | response
  · exact .fails hreply.2
  · obtain ⟨es, rfl, hcounted, -⟩ := hreply
    obtain ⟨total, htotal⟩ := h
    show Proceeds (w.absorb (map es))
    rw [absorb_of_isCounted htotal hcounted]
    split
    · exact .goes ⟨_, rfl⟩
    · exact .completes _

/-- A response does not make such a count fail. -/
theorem IsSound.absorb_ne_error (h : w.IsSound) {response : Value}
    (hresponse : IsQueryResponse response) {f : Fault} : w.absorb response ≠ .error f := by
  obtain ⟨es, rfl, hcounted, -⟩ := hresponse
  obtain ⟨total, htotal⟩ := h
  rw [absorb_of_isCounted htotal hcounted]
  simp

/-- What a count can end with: an integer, or a fault that is not given up from outside. -/
def IsCountEnd : Except Fault Value → Prop
  | .ok total => ∃ n, total = .int n
  | .error f => f.isCancelled = false

section Sound

variable {m : Int} (hm : policy.maxCountPages = .int m)
  (hanswer : ∀ request, IsOrderly (answer request))

include hm hanswer

theorem IsSound.proceeds_read (h : w.IsSound) : Proceeds (w.read policy answer) := by
  rcases isExhausted_cases hm w with hspent | hfree
  · obtain ⟨total, htotal⟩ := h
    rw [read_of_spent hspent, limitFault_int htotal]
    exact .fails rfl
  · rw [read_of_free hfree]
    exact h.proceeds_absorb (hanswer w.request)

theorem Ends.isCountEnd {e : Except Fault Value} (h : Ends policy answer w e)
    (hsound : w.IsSound) : IsCountEnd e := by
  induction h with
  | completes hread =>
    have hproceeds := hsound.proceeds_read hm hanswer
    rw [hread] at hproceeds
    cases hproceeds with
    | completes total => exact ⟨total, rfl⟩
  | fails hread =>
    have hproceeds := hsound.proceeds_read hm hanswer
    rw [hread] at hproceeds
    cases hproceeds with
    | fails hcancelled => exact hcancelled
  | goes hread rest ih =>
    have hproceeds := hsound.proceeds_read hm hanswer
    rw [hread] at hproceeds
    cases hproceeds with
    | goes hsound' => exact ih hsound'

/-! ### A count alone -/

/-- A run of a count alone ends as the count does. -/
theorem Ends.result_run {e : Except Fault Value} (h : Ends policy answer w e)
    (hsound : w.IsSound) : ∃ least, ∀ turns, least ≤ turns →
      ((Process.count w).run policy (answering answer) turns ()).1.result
        = (policy.ofCountEnd e).map some := by
  induction h with
  | @completes w total hread =>
    obtain ⟨hfree, habsorb⟩ := free_of_read_eq_ok hm hread
    refine ⟨1, fun turns hturns => ?_⟩
    obtain ⟨turns, rfl⟩ := Nat.exists_eq_add_of_le' hturns
    have htrip := result_trip_of_free hfree habsorb
    exact (Process.run_of_ends turns (r := .ok total) htrip).1
  | @fails w f hread =>
    refine ⟨1, fun turns hturns => ?_⟩
    obtain ⟨turns, rfl⟩ := Nat.exists_eq_add_of_le' hturns
    rcases cases_of_read_eq_error hm hread with ⟨hspent, rfl⟩ | ⟨hfree, habsorb⟩
    · have hnext := Process.result_next_count_of_error (result_checkBound hspent)
      exact (Process.run_of_ends turns (Process.trip_of_stop _ _ hnext).1).1
    · have htrip := result_trip_of_free hfree habsorb
      exact (Process.run_of_ends turns htrip).1
  | @goes w w' e hread rest ih =>
    have hproceeds := hsound.proceeds_read hm hanswer
    rw [hread] at hproceeds
    obtain ⟨hfree, habsorb⟩ := free_of_read_eq_ok hm hread
    have htrip := result_trip_of_free hfree habsorb
    cases hproceeds with
    | goes hsound' =>
      obtain ⟨least, hleast⟩ := ih hsound'
      refine ⟨least + 1, fun turns hturns => ?_⟩
      obtain ⟨turns, rfl⟩ : ∃ n, turns = n + 1 := ⟨turns - 1, by omega⟩
      rw [(Process.run_of_goes turns htrip).1]
      exact hleast turns (by omega)

end Sound

end CountWalk

/-! ### A count among others -/

/-- All replies are those of a store whose answer depends on the request alone. -/
def AnsweredBy (answer : Request → Reply) (calls : List Exchange) : Prop :=
  ∀ c ∈ calls, c.reply = answer c.request

theorem AnsweredBy.of_prefix {answer : Request → Reply} {front calls : List Exchange}
    (h : AnsweredBy answer calls) (hfront : front <+: calls) : AnsweredBy answer front :=
  fun c hc => h c (hfront.subset hc)

namespace Lane

open CountWalk

variable {policy : Policy} {answer : Request → Reply} {w₀ : CountWalk} {lane : Lane}

/-- The branch of a count ends as the count does, or is on the way there. -/
inductive Follows (policy : Policy) (answer : Request → Reply) (w₀ : CountWalk) : Lane → Prop
  | ready {w : CountWalk} {calls : List Exchange} (hsound : w.IsSound)
    (hends : ∀ e, Ends policy answer w e → Ends policy answer w₀ e) :
    Follows policy answer w₀ ⟨.active (.count w), none, calls⟩
  | waiting {w : CountWalk} {calls : List Exchange} (hsound : w.IsSound)
    (hfree : w.isExhausted policy = .ok false)
    (hends : ∀ e, Ends policy answer w e → Ends policy answer w₀ e) :
    Follows policy answer w₀ ⟨.active (.count w), some w.request, calls⟩
  | ended {e : Except Fault Value} {asked : Option Request} {calls : List Exchange}
    (hends : Ends policy answer w₀ e) :
    Follows policy answer w₀ ⟨.ended (policy.ofCountEnd e), asked, calls⟩

theorem Follows.of_ended (h : Follows policy answer w₀ lane) {r : Except Fault Value}
    (hr : lane.branch = .ended r) : ∃ e, Ends policy answer w₀ e ∧ r = policy.ofCountEnd e := by
  cases h with
  | ready | waiting => cases hr
  | ended hends => exact ⟨_, hends, (Branch.ended.inj hr).symm⟩

section Bound

variable {m : Int} (hm : policy.maxCountPages = .int m)
  (hanswer : ∀ request, IsOrderly (answer request))

include hm hanswer

theorem Follows.step (h : Follows policy answer w₀ lane) {reply : Reply} {lane' : Lane}
    (hstep : CountStep policy reply lane lane') (hcalls : AnsweredBy answer lane'.calls) :
    Follows policy answer w₀ lane' := by
  cases h with
  | ready hsound hends =>
    cases hstep with
    | asks hfree => exact .waiting hsound hfree hends
    | isSpent hspent hf =>
      rw [result_checkBound hspent] at hf
      obtain rfl := Except.error.inj hf
      exact .ended (hends _ (.fails (read_of_spent hspent)))
  | @waiting w calls hsound hfree hends =>
    have hreply : ∀ {calls}, AnsweredBy answer (calls ++ [⟨w.request, reply⟩]) →
        w.read policy answer = reply >>= w.absorb := by
      intro calls hcalls
      have hanswered : reply = answer w.request := hcalls ⟨w.request, reply⟩ (by simp)
      rw [read_of_free hfree, hanswered]
    cases hstep with
    | fails hf =>
      rw [← hreply hcalls] at hf
      exact .ended (hends _ (.fails hf))
    | completes htotal =>
      rw [← hreply hcalls] at htotal
      exact .ended (hends _ (.completes htotal))
    | goes hmore =>
      rw [← hreply hcalls] at hmore
      have hproceeds := hsound.proceeds_read hm hanswer
      rw [hmore] at hproceeds
      cases hproceeds with
      | goes hsound' => exact .ready hsound' fun e he => hends e (.goes hmore he)
  | ended hends =>
    cases hstep with
    | rests => exact .ended hends

/-- The branch of a count among others ends as the count does, if it ends. -/
theorem follows_after (hsound : w₀.IsSound) (replies : List Reply)
    (hcalls : AnsweredBy answer ((start (.count w₀)).after policy replies).calls) :
    Follows policy answer w₀ ((start (.count w₀)).after policy replies) :=
  after_of_countStep hm (.ready hsound fun _ he => he)
    (fun hstep hcalls h => h.step hm hanswer hstep hcalls) replies hcalls

end Bound

/-! ### Enough turns -/

/-- Two turns of a count that may read another page: it asks, and the reply comes. -/
theorem after_of_free {w : CountWalk} (hfree : w.isExhausted policy = .ok false)
    (calls : List Exchange) (idle reply : Reply) (replies : List Reply) :
    after policy ⟨.active (.count w), none, calls⟩ (idle :: reply :: replies) =
      after policy ⟨.ofProgress (Process.ofCountProgress policy (reply >>= w.absorb)), none,
        calls ++ [⟨w.request, reply⟩]⟩ replies := by
  have hnext := congrArg Noted.result (Process.next_count_of_free hfree)
  have hreceive : ((Process.count w).receive policy reply).result = _ :=
    Process.result_receiveCount policy w reply
  rw [after_cons, turn_of_send hnext, after_cons, turn_of_asked, hreceive]

/-- The reply in the second of these turns is the answer to the request. -/
theorem eq_answer_of_free {w : CountWalk} (hfree : w.isExhausted policy = .ok false)
    {calls : List Exchange} {idle reply : Reply} {replies : List Reply}
    (hcalls : AnsweredBy answer
      (after policy ⟨.active (.count w), none, calls⟩ (idle :: reply :: replies)).calls) :
    reply = answer w.request := by
  rw [after_of_free hfree] at hcalls
  exact hcalls.of_prefix (calls_prefix_after replies) ⟨w.request, reply⟩ (by simp)

end Lane

/-- The branch of a count that ends has ended after enough turns. -/
theorem CountWalk.Ends.exists_turns {policy : Policy} {answer : Request → Reply} {w : CountWalk}
    {m : Int} (hm : policy.maxCountPages = .int m) {e : Except Fault Value}
    (h : CountWalk.Ends policy answer w e) : ∃ least, ∀ calls replies, least ≤ replies.length →
      AnsweredBy answer
        (Lane.after policy ⟨.active (.count w), none, calls⟩ replies).calls →
      ∃ r, (Lane.after policy ⟨.active (.count w), none, calls⟩ replies).branch = .ended r := by
  induction h with
  | @completes w total hread =>
    obtain ⟨hfree, habsorb⟩ := CountWalk.free_of_read_eq_ok hm hread
    refine ⟨2, fun calls replies hlength hcalls => ?_⟩
    obtain ⟨idle, reply, rest, rfl, -⟩ := Lane.exists_eq_cons_cons 0 hlength
    rw [Lane.after_of_free hfree, Lane.eq_answer_of_free hfree hcalls, habsorb]
    exact Lane.branch_after_of_ended rfl rest
  | @fails w f hread =>
    refine ⟨2, fun calls replies hlength hcalls => ?_⟩
    obtain ⟨idle, reply, rest, rfl, -⟩ := Lane.exists_eq_cons_cons 0 hlength
    rcases CountWalk.cases_of_read_eq_error hm hread with ⟨hspent, -⟩ | ⟨hfree, habsorb⟩
    · have hg := CountWalk.result_checkBound hspent
      rw [Lane.after_cons, Lane.turn_of_stop (Process.result_next_count_of_error hg)]
      exact Lane.branch_after_of_ended rfl _
    · rw [Lane.after_of_free hfree, Lane.eq_answer_of_free hfree hcalls, habsorb,
        Process.ofCountProgress, Branch.ofProgress_map_stops]
      exact Lane.branch_after_of_ended rfl rest
  | @goes w w' e hread rest ih =>
    obtain ⟨hfree, habsorb⟩ := CountWalk.free_of_read_eq_ok hm hread
    obtain ⟨least, hleast⟩ := ih
    refine ⟨least + 2, fun calls replies hlength hcalls => ?_⟩
    obtain ⟨idle, reply, rest, rfl, hrest⟩ := Lane.exists_eq_cons_cons least hlength
    obtain rfl := Lane.eq_answer_of_free hfree hcalls
    rw [Lane.after_of_free hfree, habsorb] at hcalls ⊢
    exact hleast _ rest hrest hcalls

end KeysetQuery

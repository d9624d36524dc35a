import KeysetQuery.Proofs.Counting.Steps
import KeysetQuery.Proofs.Query.Trim
import KeysetQuery.Proofs.Schema.Names
import KeysetQuery.Store.QueryRun

/-!
# What a query concludes

* `IsQueryResponse` — a response from which a page can be read, and whose count is an integer;
* `QueryPlan.shown` — a page in the order of reading, without a total;
* `QueryPlan.result_conclude_null`, `QueryPlan.result_conclude_int` — the page without a total and
  with one;
* `QueryPlan.result_run` — the whole of a query with a store that answers at once.
-/

namespace KeysetQuery

open Value Schema

/-! ### Pages in responses -/

/-- A response from which a page can be read, and whose count is an integer. -/
def IsQueryResponse (response : Value) : Prop :=
  ∃ es, response = map es ∧ IsCounted es ∧ ∃ page, Page.ofResponse response = .ok page

/-- A page that is read from a response is made of what stands in the response, without a total. -/
theorem Page.exists_check_of_ofResponse {response : Value} {page : Page}
    (h : Page.ofResponse response = .ok page) : ∃ vs last count scanned,
      response.part? "LastEvaluatedKey" = .ok last ∧
        Page.check vs (last.getD .null) .null count scanned = .ok page := by
  obtain ⟨items, -, h⟩ := bind_eq_ok.1 h
  obtain ⟨vs, -, h⟩ := bind_eq_ok.1 h
  obtain ⟨last, hlast, h⟩ := bind_eq_ok.1 h
  obtain ⟨count, -, h⟩ := bind_eq_ok.1 h
  obtain ⟨scanned, -, h⟩ := bind_eq_ok.1 h
  refine ⟨vs, last, count.getD .null, scanned.getD .null, hlast, ?_⟩
  cases hcheck : Page.check vs (last.getD .null) .null (count.getD .null) (scanned.getD .null) with
  | error issues =>
    rw [hcheck] at h
    cases h
  | ok read =>
    rw [hcheck] at h
    rw [Except.ok.inj h]

theorem Page.totalCount_of_ofResponse {response : Value} {page : Page}
    (h : Page.ofResponse response = .ok page) : page.totalCount = none := by
  obtain ⟨vs, last, count, scanned, -, hcheck⟩ := exists_check_of_ofResponse h
  obtain ⟨parts, hparts, hread⟩ := bind_eq_ok.1 hcheck
  obtain ⟨-, hrest⟩ := Check.both_eq_ok.1 hparts
  obtain ⟨-, hrest⟩ := Check.both_eq_ok.1 hrest
  obtain ⟨htotal, -⟩ := Check.both_eq_ok.1 hrest
  obtain ⟨items, cursor, total, count, scanned⟩ := parts
  have hnone : none = total := Except.ok.inj htotal
  subst hnone
  obtain rfl := Except.ok.inj hread
  rfl

/-- The cursor of a page is the key in its response, read as a record. -/
theorem Page.readRecord?_of_ofResponse {response : Entries} {page : Page}
    (h : Page.ofResponse (map response) = .ok page) :
    readRecord? [.name "continuation_cursor"] (cursorIn response) = .ok page.cursor := by
  obtain ⟨vs, last, count, scanned, hlast, hcheck⟩ := exists_check_of_ofResponse h
  obtain rfl : response.field? "LastEvaluatedKey" = last := Except.ok.inj hlast
  obtain ⟨parts, hparts, hread⟩ := bind_eq_ok.1 hcheck
  obtain ⟨-, hrest⟩ := Check.both_eq_ok.1 hparts
  obtain ⟨hcursor, -⟩ := Check.both_eq_ok.1 hrest
  rw [← Except.ok.inj hread]
  exact hcursor

namespace QueryPlan

variable {plan : QueryPlan} {policy : Policy} {response : Value} {page : Page}

/-- A page as a query shows it without a total: in the order of reading, and without a cursor if
the last page was asked for. -/
def shown (plan : QueryPlan) (page : Page) : Page :=
  { page with
    items := if plan.isReversed then page.items.reverse else page.items
    cursor := if plan.descriptor.wantsLastPage then none else page.cursor }

/-! ### Conclusions -/

/-- Without a page a query comes to nothing. -/
theorem result_conclude_of_null (total : Value) :
    (plan.conclude policy .null total).result = .ok none := rfl

theorem result_conclude (hresponse : IsQueryResponse response)
    (hpage : Page.ofResponse response = .ok page) (total : Value) :
    (plan.conclude policy response total).result =
      if plan.descriptor.wantsLastPage then
        ((plan.oriented page total).trimLast policy.shownFrom (.int plan.descriptor.limit)).result.map
          some
      else .ok (some (plan.oriented page total)) := by
  obtain ⟨es, rfl, -⟩ := hresponse
  rw [conclude, if_neg (by simp [isNull]), Noted.result_bind, Noted.result_liftM, hpage]
  show (if _ then _ else _ : Noted (Option Page)).result = _
  cases plan.descriptor.wantsLastPage with
  | true => exact Noted.result_bind_pure _ some
  | false => rfl

/-- A query without a total shows the page. -/
theorem result_conclude_null (hresponse : IsQueryResponse response)
    (hpage : Page.ofResponse response = .ok page) :
    (plan.conclude policy response .null).result = .ok (some (plan.shown page)) := by
  have htotal := Page.totalCount_of_ofResponse hpage
  have horiented : plan.oriented page .null =
      { page with items := if plan.isReversed then page.items.reverse else page.items } := by
    rw [oriented, htotal]
    cases plan.isReversed <;> simp [totalOf, isNull, Page.reversed]
  rw [result_conclude hresponse hpage, horiented, shown]
  cases plan.descriptor.wantsLastPage with
  | true =>
    rw [if_pos rfl, Page.trimLast, htotal]
    rfl
  | false => rfl

/-- A query with an integer total shows a page with that total. -/
theorem result_conclude_int (policy : Policy) (hresponse : IsQueryResponse response)
    (hpage : Page.ofResponse response = .ok page) (hlimit : 0 < plan.descriptor.limit) (total : Int) :
    ∃ result, (plan.conclude policy response (.int total)).result = .ok (some result) ∧
      result.totalCount = some (.int total) := by
  have htotal : (plan.oriented page (.int total)).totalCount = some (.int total) := by
    rw [oriented]
    cases plan.isReversed <;> rfl
  rw [result_conclude hresponse hpage]
  cases plan.descriptor.wantsLastPage with
  | true =>
    rw [if_pos rfl, Page.result_trimLast_int hlimit htotal]
    exact ⟨_, rfl, htotal⟩
  | false => exact ⟨_, rfl, htotal⟩

/-! ### The whole query -/

/-- A query whose page and whose count have results comes to what these come to. -/
theorem result_run {σ : Type} {policy : Policy} {respond : Process.Responder σ}
    {turns : Nat} {s : σ} {plan : QueryPlan} {response total : Value}
    (hpage : (plan.pageProcess.run policy respond 1 s).1.result = .ok (some response))
    (hcount : (if plan.counts then
        plan.countProcess.run policy respond turns (plan.pageProcess.run policy respond 1 s).2
      else (pure (some .null), (plan.pageProcess.run policy respond 1 s).2)).1.result
        = .ok (some total)) :
    (plan.run policy respond turns s).1.result = (plan.conclude policy response total).result := by
  unfold QueryPlan.run
  simp only [hpage, hcount]
  rfl

end QueryPlan

end KeysetQuery

import KeysetQuery.Proofs.Outcome
import KeysetQuery.Query.Page

/-!
# The cut to the last page

A full page whose total is known loses what the division of the total by the size of a page leaves;
any other page stays whole.

* `Page.surplus_of_pos` — how many items in front are cut off, for totals of either sign;
* `Page.result_trimLast_int` — the page after the cut;
* `Page.exists_tail_of_trimLast` — the end of a page that is left, which is empty for an empty page
  only.
-/

namespace KeysetQuery

open Value

namespace Page

variable {page : Page} {limit total : Int}

/-- What a division leaves is never negative, so it can be cut off in front. -/
theorem surplus_of_pos (length : Nat) (hlimit : 0 < limit) :
    surplus length (int limit) (int total)
      = .ok (if (length : Int) = limit then (total % limit).toNat else 0) := by
  rw [surplus_int]
  split
  · rw [if_neg (by omega)]
  · rfl

/-- Without a total only the cursor goes. -/
theorem result_trimLast_none (htotal : page.totalCount = none) (shownFrom : Nat) (size : Value) :
    (page.trimLast shownFrom size).result = .ok { page with cursor := none } := by
  rw [trimLast, htotal]
  rfl

/-- A page with an integer total can always be cut. -/
theorem result_trimLast_int (hlimit : 0 < limit) (htotal : page.totalCount = some (int total))
    (shownFrom : Nat) :
    (page.trimLast shownFrom (int limit)).result = .ok
      { page with
        items := page.items.drop
          (if (page.items.length : Int) = limit then (total % limit).toNat else 0)
        cursor := none } := by
  unfold trimLast
  rw [htotal]
  simp only [Noted.result_bind, Noted.result_liftM, surplus_of_pos _ hlimit]
  show ((Noted.report _ _).result >>= fun _ => _) = _
  rw [Noted.result_report]
  rfl

/-- What is left of a full page is at least one item and at most the page. -/
theorem one_le_sub_emod (hlimit : 0 < limit) (total : Int) :
    1 ≤ limit - total % limit ∧ limit - total % limit ≤ limit := by
  have hnonneg := Int.emod_nonneg total (by omega : limit ≠ 0)
  have hlt := Int.emod_lt_of_pos total hlimit
  omega

/-- The end of a page is as long as the page without what is cut off in front. -/
theorem length_drop_emod {items : List Record} (hlimit : 0 < limit)
    (hfull : (items.length : Int) = limit) (total : Int) :
    ((items.drop (total % limit).toNat).length : Int) = limit - total % limit := by
  have hnonneg := Int.emod_nonneg total (by omega : limit ≠ 0)
  have hlt := Int.emod_lt_of_pos total hlimit
  rw [List.length_drop]
  omega

/-- The cut changes nothing but the items and the cursor, which goes, and it always leaves an end of
the page: the whole page if there is no total or the page is not full, and else as many of its last
items as the size of a page without what the division of the total leaves, which are between one and
all of them. -/
theorem exists_tail_of_trimLast (page : Page) (shownFrom : Nat) {limit : Int} (hlimit : 1 ≤ limit)
    {total : Option Int} (htotal : page.totalCount = total.map int) :
    ∃ tail, (page.trimLast shownFrom (int limit)).result
        = .ok { page with items := tail, cursor := none } ∧
      tail <:+ page.items ∧ (page.items ≠ [] → tail ≠ []) ∧
      (total = none ∨ (page.items.length : Int) ≠ limit → tail = page.items) ∧
      ∀ t, total = some t → (page.items.length : Int) = limit →
        (tail.length : Int) = limit - t % limit ∧
          1 ≤ limit - t % limit ∧ limit - t % limit ≤ limit := by
  cases total with
  | none =>
    refine ⟨page.items, result_trimLast_none htotal shownFrom _, List.suffix_refl _, id,
      fun _ => rfl, ?_⟩
    intro t ht
    cases ht
  | some t =>
    have hcut := result_trimLast_int hlimit htotal shownFrom
    by_cases hfull : (page.items.length : Int) = limit
    · rw [if_pos hfull] at hcut
      have hlength := length_drop_emod hlimit hfull t
      have hbounds := one_le_sub_emod hlimit t
      refine ⟨_, hcut, List.drop_suffix _ _, ?_, ?_, ?_⟩
      · intro _ hnil
        rw [hnil, List.length_nil] at hlength
        omega
      · rintro (hnone | hnot)
        · cases hnone
        · exact absurd hfull hnot
      · rintro _ ⟨⟩ -
        exact ⟨hlength, hbounds⟩
    · rw [if_neg hfull] at hcut
      refine ⟨page.items, hcut, List.suffix_refl _, id, fun _ => rfl, ?_⟩
      intro _ _ h
      exact absurd h hfull

/-- Three items on a full page with a total below zero: minus four leaves two when it is divided by
three, so the last item is left. -/
theorem exists_tail_of_trimLast_negative : ∃ tail,
    (Page.trimLast ⟨[[("id", int 1)], [("id", int 2)], [("id", int 3)]], none, some (int (-4)),
        some 3, some 3⟩ 0 (int 3)).result
      = .ok ⟨tail, none, some (int (-4)), some 3, some 3⟩ ∧
    tail <:+ [[("id", int 1)], [("id", int 2)], [("id", int 3)]] ∧ tail.length = 1 := by
  obtain ⟨tail, hresult, hsuffix, -, -, hlength⟩ := @exists_tail_of_trimLast
    ⟨[[("id", int 1)], [("id", int 2)], [("id", int 3)]], none, some (int (-4)), some 3, some 3⟩ 0 3
    (by decide) (some (-4)) rfl
  obtain ⟨hone, -⟩ := hlength (-4) rfl rfl
  exact ⟨tail, hresult, hsuffix, by omega⟩

end Page

end KeysetQuery

import KeysetQuery.Proofs.Paging.Walk

/-!
# The page before a page

The page before a page is read against the direction of reading, from the first record of that page
on, and then turned.

* `getElem?_pagesOf` — each page of a list is a stretch of it;
* `reverse_take_reverse_take` — read backwards from the end of such a stretch and turned, it is the
  same stretch;
* `result_queryParams_paging` — the direction of paging changes the direction of the request alone;
* `query_back` — a page that is read back from a record has the records in front of it;
* `items_query_before` — from the first record of a page of a walk, paging back leads to the page
  that came before it.
-/

namespace KeysetQuery

open Value Entries Schema

/-! ### Stretches -/

section Stretches

variable {α : Type} {size : ℕ} {xs : List α}

/-- A page of a list is a stretch of it. -/
theorem getElem?_pagesOf (hsize : 0 < size) {i : ℕ} {ys : List α}
    (h : (pagesOf size xs)[i]? = some ys) : ys = (xs.drop (i * size)).take size := by
  induction xs using pagesOf.induct size generalizing i with
  | case1 xs hle =>
    rw [pagesOf, if_pos hle] at h
    cases i with
    | zero =>
      rw [Nat.zero_mul, List.drop_zero, List.take_of_length_le (by omega)]
      exact (Option.some.inj h).symm
    | succ i => exact absurd h (by simp)
  | case2 xs hlt ih =>
    rw [pagesOf, if_neg hlt] at h
    cases i with
    | zero =>
      rw [Nat.zero_mul, List.drop_zero]
      exact (Option.some.inj h).symm
    | succ i =>
      rw [List.getElem?_cons_succ] at h
      rw [ih h, List.drop_drop, Nat.succ_mul, Nat.add_comm size]

/-- Read backwards from its end and turned, a stretch is what it was. -/
theorem reverse_take_reverse_take {i : ℕ} (h : (i + 1) * size ≤ xs.length) :
    (((xs.take ((i + 1) * size)).reverse).take size).reverse
      = (xs.drop (i * size)).take size := by
  have hlen : (xs.take ((i + 1) * size)).length = i * size + size := by
    rw [List.length_take, Nat.min_eq_left h, Nat.succ_mul]
  rw [List.take_reverse, List.reverse_reverse, hlen, Nat.add_sub_cancel, List.drop_take,
    Nat.succ_mul, Nat.add_sub_cancel_left]

/-- Behind what stands before an item stands the item itself. -/
theorem eq_take_append_cons {k : ℕ} {x : α} (h : (xs.drop k).head? = some x) :
    xs = xs.take k ++ x :: xs.drop (k + 1) := by
  have hcons : xs.drop k = x :: xs.drop (k + 1) := by
    rw [List.head?_drop] at h
    obtain ⟨hlt, hx⟩ := List.getElem?_eq_some_iff.1 h
    rw [List.drop_eq_getElem_cons hlt, hx]
  rw [← hcons, List.take_append_drop]

end Stretches

/-! ### The direction of paging -/

/-- The direction of paging changes the direction of a request, and nothing else. -/
theorem result_queryParams_paging (n : Normalizer) (primaryKey table : Value) (d : Descriptor)
    (forward : Bool) :
    (queryParams n primaryKey table { d with pageForward := forward }).result
      = (queryParams n primaryKey table d).result.map fun params =>
        putField params "ScanIndexForward"
          (.bool { d with pageForward := forward }.scansForward) := by
  have hmap : ∀ (x : Except Fault Entries) (f : Entries → Entries), x.map f = f <$> x :=
    fun _ _ => rfl
  rw [hmap]
  simp only [queryParams, Noted.result_bind, Noted.result_liftM, map_bind]
  -- the parts of the request are the same, and only the last step differs
  refine bind_congr (m := Except Fault) fun groups => bind_congr fun conditions =>
    bind_congr fun keys => bind_congr fun block => bind_congr fun attributes =>
      bind_congr fun _ => ?_
  cases conditions.isEmpty with
  | true => rfl
  | false =>
    simp only [Bool.false_eq_true, if_false, Noted.result_bind, map_bind]
    exact bind_congr fun blocks => rfl

namespace SortedIndex

variable {ix : SortedIndex} {policy : Policy} {turns : ℕ} {n : Normalizer}
  {primaryKey table : Value} {d : Descriptor} {params : Entries}

/-- A page that is read back from a record has the records in front of it. -/
theorem query_back (hparams : (queryParams n primaryKey table d).result = .ok params)
    (hcan : ix.CanCount policy turns d) (hpaging : d.pageForward = false)
    {front back : List Record} {r : Record} (hstart : d.startKey = .after (ix.keyOf r))
    (hsplit : ordered d.sortAscending ix.records = front ++ r :: back) :
    ∃ page, ix.query policy turns n primaryKey table d = .ok (some page) ∧
      page.items = (((front.reverse).take d.limit.toNat).filter ix.keep).reverse ∧
      page.cursor = ix.lastKey front.reverse d.limit.toNat := by
  have hlast : d.wantsLastPage = false := by rw [Descriptor.wantsLastPage, hstart]
  have hforward : d.readsForward = !d.sortAscending := by
    rw [Descriptor.readsForward, hlast, Descriptor.scansForward, hpaging]
    cases d.sortAscending <;> rfl
  have hscan : ix.scan d.readsForward = back.reverse ++ r :: front.reverse := by
    have hturned : ix.scan d.readsForward = (ordered d.sortAscending ix.records).reverse := by
      rw [hforward]
      cases d.sortAscending with
      | true => rfl
      | false => exact (List.reverse_reverse ix.records).symm
    rw [hturned, hsplit, List.reverse_append, List.reverse_cons, List.append_assoc,
      List.singleton_append]
  have hrest : ix.rest d.readsForward d.start = front.reverse := by
    rw [Descriptor.start, hstart]
    exact rest_of_split hscan
  obtain ⟨hquery, hitems⟩ := query_of_not_last hcan hparams hlast
  refine ⟨ix.shownPage d, hquery, ?_, ?_⟩
  · rw [hitems, hpaging, ordered_false]
    show ((List.take _ (ix.rest _ _)).filter _).reverse = _
    rw [hrest]
  · show ix.lastKey (ix.rest _ _) _ = _
    rw [hrest]

/-- With a number of whole pages ahead, there is more to page to behind the first of them exactly if
it is not the only one. -/
theorem lastKey_eq_none_iff {rest : List Record} {size i : ℕ} (hsize : 0 < size)
    (hlen : rest.length = (i + 1) * size) : ix.lastKey rest size = none ↔ i = 0 := by
  cases i with
  | zero =>
    have hone := hlen.trans (Nat.one_mul size)
    exact ⟨fun _ => rfl, fun _ => lastKey_of_le (Nat.le_of_eq hone)⟩
  | succ i =>
    have hlong : size < (i + 1 + 1) * size := by
      rw [Nat.succ_mul]
      exact Nat.lt_add_of_pos_left (Nat.mul_pos (Nat.succ_pos i) hsize)
    obtain ⟨_, _, -, hlast⟩ := lastKey_of_lt ix hsize (by rw [hlen]; exact hlong)
    rw [hlast]
    exact ⟨fun h => absurd h (by simp), fun h => absurd h (by simp)⟩

/-- A record that others stand in front of is one of the index, which has more than those. -/
theorem mem_and_lt_of_split {front back : List Record} {r : Record}
    (hsplit : ordered d.sortAscending ix.records = front ++ r :: back) :
    r ∈ ix.records ∧ front.length < ix.records.length := by
  constructor
  · refine (mem_ordered d.sortAscending).1 ?_
    rw [hsplit]
    exact List.mem_append_right _ List.mem_cons_self
  · have hlen := congrArg List.length hsplit
    rw [length_ordered, List.length_append, List.length_cons] at hlen
    omega

/-- From the first record of a page of a walk, paging back leads to the page that came before it:
to the same records in the same order.  There is more to page back to exactly if that page is not
the first one of the walk. -/
theorem items_query_before (hparams : (queryParams n primaryKey table d).result = .ok params)
    (hstart : d.startKey = .beginning) (hpaging : d.pageForward = true) (hlimit : 0 < d.limit)
    (hkeep : ∀ r ∈ ix.records, ix.keep r = true) (hcan : ix.CanCount policy turns d) {most : ℕ}
    (hmost : ix.records.length < most) :
    ∃ pages, ix.walk policy turns n primaryKey table most d = some pages ∧
      ∀ i before after first, pages[i]? = some before → pages[i + 1]? = some after →
        after.items.head? = some first →
        ∃ start page,
          Descriptor.readStartKey [.name FieldName.startKey.preferred] (ix.keyOf first).toValue
            = .ok start ∧
          ix.query policy turns n primaryKey table
            { d with pageForward := false, startKey := start } = .ok (some page) ∧
          page.items = before.items ∧ (page.cursor = none ↔ i = 0) := by
  have hsize : 0 < d.limit.toNat := by omega
  obtain ⟨pages, hwalk, hpages⟩ :=
    map_items_walk_forward hparams hstart hpaging hlimit hkeep hcan hmost
  refine ⟨pages, hwalk, ?_⟩
  intro i before after first hbefore hafter hfirst
  have hstretch : ∀ {j : ℕ} {page : Page}, pages[j]? = some page → page.items
      = ((ordered d.sortAscending ix.records).drop (j * d.limit.toNat)).take d.limit.toNat := by
    intro j page hpage
    apply getElem?_pagesOf hsize
    rw [← hpages, List.getElem?_map, hpage]
    rfl
  rw [hstretch hafter, List.head?_take, if_neg (by omega)] at hfirst
  have hsplit := eq_take_append_cons hfirst
  obtain ⟨hmem, hlt⟩ := mem_and_lt_of_split hsplit
  -- the records in front of the later page fill the pages up to the one before it
  have hfront : ((ordered d.sortAscending ix.records).take
      ((i + 1) * d.limit.toNat)).length = (i + 1) * d.limit.toNat := by
    rw [List.length_take] at hlt ⊢
    rw [length_ordered] at hlt ⊢
    omega
  rw [hfront] at hlt
  have hread := Descriptor.readStartKey_toValue (ix.named first hmem).2
    [.name FieldName.startKey.preferred]
  have hturned : (queryParams n primaryKey table
      { d with pageForward := false, startKey := .after (ix.keyOf first) }).result = .ok _ :=
    (result_queryParams_paging n primaryKey table d false).trans (by rw [hparams]; rfl)
  have hcan' : ix.CanCount policy turns
      { d with pageForward := false, startKey := .after (ix.keyOf first) } := by
    intro hcounts
    refine hcan ?_
    rw [Descriptor.counts, Descriptor.wantsLastPage, hstart]
    exact hcounts
  obtain ⟨page, hquery, hitems, hcursor⟩ := query_back hturned hcan' rfl rfl hsplit
  refine ⟨_, page, hread, hquery, ?_, ?_⟩
  · have hall : ∀ r ∈ ((ordered d.sortAscending ix.records).take
        ((i + 1) * d.limit.toNat)).reverse.take d.limit.toNat, ix.keep r = true := by
      intro r hr
      exact hkeep r ((mem_ordered _).1
        (List.mem_of_mem_take (List.mem_reverse.1 (List.mem_of_mem_take hr))))
    rw [hitems, List.filter_eq_self.2 hall, hstretch hbefore]
    apply reverse_take_reverse_take
    rw [length_ordered]
    omega
  · rw [hcursor]
    exact lastKey_eq_none_iff hsize (List.length_reverse.trans hfront)

/-- Of five records in descending order on pages of two, the record of the last page leads back to
the two in front of it. -/
theorem items_query_before_one : ∃ pages before after page,
    (numbered 5 fun _ => true).walk ⟨true, int 100, 0⟩ 3 .standard (map [(str "pk", str "A")])
        (str "t") 6 { Descriptor.plain 2 with sortAscending := false } = some pages ∧
      pages[1]? = some before ∧ pages[2]? = some after ∧ after.items = [[("id", int 1)]] ∧
      (numbered 5 fun _ => true).query ⟨true, int 100, 0⟩ 3 .standard (map [(str "pk", str "A")])
        (str "t") { Descriptor.plain 2 with
          sortAscending := false, pageForward := false, startKey := .after [("id", int 1)] }
        = .ok (some page) ∧
      page.items = before.items ∧ page.items = [[("id", int 3)], [("id", int 2)]] := by
  have hcan : (numbered 5 fun _ => true).CanCount ⟨true, int 100, 0⟩ 3
      { Descriptor.plain 2 with sortAscending := false } := by
    intro hcounts
    exact absurd hcounts (by decide)
  obtain ⟨pages, hwalk, hback⟩ :=
    @items_query_before _ ⟨true, int 100, 0⟩ 3 .standard (map [(str "pk", str "A")]) (str "t")
      { Descriptor.plain 2 with sortAscending := false } _ rfl rfl rfl (by decide)
      (fun _ _ => rfl) hcan 6 (by decide)
  obtain rfl := Option.some.inj hwalk
  obtain ⟨start, page, hread, hquery, hitems, -⟩ := hback 1 _ _ [("id", int 1)] rfl rfl rfl
  obtain rfl := Except.ok.inj hread
  exact ⟨_, _, _, page, rfl, rfl, rfl, rfl, hquery, hitems, hitems.trans rfl⟩

end SortedIndex

end KeysetQuery

import KeysetQuery.Proofs.Paging.LastPage
import Mathlib.Data.List.Infix

/-!
# The order of a page

The direction of paging and the wish for the last page turn the scan, and each of them turns the
page.

* `Descriptor.showsAscending` — the order in which the page of a descriptor is shown;
* `SortedIndex.InOrder` — items stand in the order of their keys, or in the opposite one;
* `rest_isSuffix` — what a request has before it is the end of a scan;
* `exists_query_drop` — a query comes to the page in the answer to its request, perhaps without some
  items in front;
* `inOrder_items_query_iff` — the items of a query are a stretch of the records, in the order that is
  asked for unless the last page is asked for while paging back.
-/

namespace KeysetQuery

open Value Entries

/-! ### Stretches in one of two directions -/

section Stretches

variable {α : Type} (b : Bool) {xs ys : List α}

theorem ordered_infix_ordered (h : xs <:+: ys) : ordered b xs <:+: ordered b ys := by
  cases b with
  | true => exact h
  | false => exact List.reverse_infix.2 h

theorem ordered_self (xs : List α) : ordered b (ordered b xs) = xs := by
  rw [ordered_ordered, beq_self_eq_true, ordered_true]

end Stretches

/-! ### Directions -/

/-- The order in which the page of a descriptor is shown.  Each of the two wishes that turn the scan
turns the page; together they turn the scan twice, but the page only once. -/
def Descriptor.showsAscending (d : Descriptor) : Bool :=
  d.sortAscending != (d.wantsLastPage && !d.pageForward)

/-- A page is shown in the direction of its request, turned unless it is read forward. -/
theorem Descriptor.showsAscending_eq (d : Descriptor) :
    d.showsAscending = ((d.pageForward && !d.wantsLastPage) == d.readsForward) := by
  rw [showsAscending, readsForward, scansForward]
  cases d.sortAscending <;> cases d.pageForward <;> cases d.wantsLastPage <;> rfl

namespace SortedIndex

variable {ix : SortedIndex} {policy : Policy} {turns : ℕ} {n : Normalizer}
  {primaryKey table : Value} {d : Descriptor} {params : Entries}

/-- Records stand in ascending or in descending order of their keys. -/
def InOrder (ix : SortedIndex) (ascending : Bool) (rs : List Record) : Prop :=
  rs.Pairwise fun r s => ix.follows ascending (ix.keyOf r).toValue (ix.keyOf s).toValue = true

/-- A stretch of the records, filtered, stands in the order in which it is taken. -/
theorem inOrder_ordered (ascending : Bool) {block : List Record} (h : block <:+: ix.records) :
    ix.InOrder ascending (ordered ascending (block.filter ix.keep)) := by
  have hsub : (ordered ascending (block.filter ix.keep)).Sublist (ix.scan ascending) := by
    rw [← filter_ordered]
    exact List.filter_sublist.trans (ordered_infix_ordered ascending h).sublist
  exact (ix.scan_pairwise ascending).sublist hsub

/-- Records in both orders are one record at most. -/
theorem length_le_one_of_inOrder {ascending : Bool} {rs : List Record}
    (h : ix.InOrder ascending rs) (hturned : ix.InOrder (!ascending) rs) : rs.length ≤ 1 := by
  match rs, h, hturned with
  | [], _, _ => exact Nat.zero_le 1
  | [_], _, _ => exact Nat.le_refl 1
  | r :: s :: _, h, hturned =>
    have hrs := (List.pairwise_cons.1 h).1 s List.mem_cons_self
    have hsr := (List.pairwise_cons.1 hturned).1 s List.mem_cons_self
    have hback : ix.follows ascending (ix.keyOf s).toValue (ix.keyOf r).toValue = true := by
      cases ascending <;> exact hsr
    rw [follows_asymm hrs] at hback
    cases hback

theorem inOrder_of_length_le_one {rs : List Record} (h : rs.length ≤ 1) (ascending : Bool) :
    ix.InOrder ascending rs := by
  match rs, h with
  | [], _ => exact List.Pairwise.nil
  | [_], _ => exact List.pairwise_singleton _ _

/-! ### What a query comes to -/

/-- What a request has before it is the end of a scan, if it starts at a record or nowhere. -/
theorem rest_isSuffix (hstart : ∀ cursor, d.startKey = .after cursor →
      ∃ r ∈ ix.records, cursor = ix.keyOf r) (forward : Bool) :
    ix.rest forward d.start <:+ ix.scan forward := by
  rw [Descriptor.start]
  cases hkey : d.startKey with
  | beginning | last => exact List.suffix_rfl
  | after cursor =>
    obtain ⟨r, hr, rfl⟩ := hstart cursor hkey
    obtain ⟨before, after, hsplit⟩ := List.append_of_mem ((mem_ordered forward).2 hr)
    show ix.rest forward (some (ix.keyOf r).toValue) <:+ ix.scan forward
    rw [rest_of_split hsplit]
    exact ⟨before ++ [r], by rw [List.append_assoc]; exact hsplit.symm⟩

/-- A query comes to the page in the answer to its request, in the order of reading.  Of the last
page some items in front may be cut off. -/
theorem exists_query_drop (hparams : (queryParams n primaryKey table d).result = .ok params)
    (hlimit : 0 < d.limit) (hcan : ix.CanCount policy turns d) : ∃ page k,
      ix.query policy turns n primaryKey table d = .ok (some page) ∧
        page.items = (ix.shownPage d).items.drop k := by
  cases hlast : d.wantsLastPage with
  | false =>
    exact ⟨ix.shownPage d, 0, (query_of_not_last hcan hparams hlast).1, List.drop_zero.symm⟩
  | true =>
    have htotal : (ix.shownPage d).totalCount = some (int ix.kept.length) := by
      show ix.totalFor d = _
      rw [totalFor, Descriptor.counts, hlast, Bool.or_true, if_pos rfl]
    have hpositive : 0 < d.limit.toNat := by omega
    have htrim := result_trimLast hpositive htotal policy.shownFrom
    rw [Int.toNat_of_nonneg (by omega)] at htrim
    generalize (if (ix.shownPage d).items.length = d.limit.toNat
      then ix.kept.length % d.limit.toNat else 0) = k at htrim
    refine ⟨{ ix.shownPage d with items := (ix.shownPage d).items.drop k, cursor := none }, k, ?_,
      rfl⟩
    rw [query_eq hcan hparams, if_pos hlast, htrim]
    rfl

/-- A query comes to a stretch of the records, filtered, in the order in which the page is shown. -/
theorem exists_items_query (hparams : (queryParams n primaryKey table d).result = .ok params)
    (hlimit : 0 < d.limit) (hstart : ∀ cursor, d.startKey = .after cursor →
      ∃ r ∈ ix.records, cursor = ix.keyOf r)
    (hcan : ix.CanCount policy turns d) : ∃ page block,
      ix.query policy turns n primaryKey table d = .ok (some page) ∧ block <:+: ix.records ∧
        page.items = ordered d.showsAscending (block.filter ix.keep) := by
  obtain ⟨page, k, hquery, hitems⟩ := exists_query_drop hparams hlimit hcan
  have hread : (ix.rest d.readsForward d.start).take d.limit.toNat <:+: ix.scan d.readsForward :=
    (List.take_prefix _ _).isInfix.trans (rest_isSuffix hstart d.readsForward).isInfix
  have hshown : (ix.shownPage d).items = (ordered (d.pageForward && !d.wantsLastPage)
      ((ix.rest d.readsForward d.start).take d.limit.toNat)).filter ix.keep :=
    (filter_ordered _ _ _).symm
  have hturned := ordered_infix_ordered (d.pageForward && !d.wantsLastPage) hread
  rw [scan, ordered_ordered, ← d.showsAscending_eq] at hturned
  have hcut : page.items <:+: (ix.shownPage d).items := by
    rw [hitems]
    exact (List.drop_suffix k _).isInfix
  rw [hshown] at hcut
  obtain ⟨stretch, hstretch, hpage⟩ := List.infix_filter_iff.1 hcut
  have hblock := ordered_infix_ordered d.showsAscending (hstretch.trans hturned)
  rw [ordered_self] at hblock
  refine ⟨page, ordered d.showsAscending stretch, hquery, hblock, ?_⟩
  rw [hpage, ← filter_ordered, ordered_self]

/-- The items of a query are a stretch of the records, filtered.  They stand in the order that is
asked for exactly if the query is not for the last page, or pages forward, or comes to one item at
most: paging back to the last page turns the scan twice, but the page once. -/
theorem inOrder_items_query_iff (hparams : (queryParams n primaryKey table d).result = .ok params)
    (hlimit : 0 < d.limit) (hstart : ∀ cursor, d.startKey = .after cursor →
      ∃ r ∈ ix.records, cursor = ix.keyOf r)
    (hcan : ix.CanCount policy turns d) : ∃ page block,
      ix.query policy turns n primaryKey table d = .ok (some page) ∧ block <:+: ix.records ∧
        page.items = ordered d.showsAscending (block.filter ix.keep) ∧
        (ix.InOrder d.sortAscending page.items ↔
          d.wantsLastPage = false ∨ d.pageForward = true ∨ page.items.length ≤ 1) := by
  obtain ⟨page, block, hquery, hblock, hitems⟩ := exists_items_query hparams hlimit hstart hcan
  have hshown : ix.InOrder d.showsAscending page.items := by
    rw [hitems]
    exact inOrder_ordered d.showsAscending hblock
  refine ⟨page, block, hquery, hblock, hitems, ?_⟩
  cases hturn : d.wantsLastPage && !d.pageForward with
  | false =>
    have hsame : d.showsAscending = d.sortAscending := by
      rw [Descriptor.showsAscending, hturn, Bool.bne_false]
    rw [hsame] at hshown
    refine iff_of_true hshown ?_
    rw [Bool.and_eq_false_iff, Bool.not_eq_false'] at hturn
    exact hturn.imp_right .inl
  | true =>
    have hopposite : d.showsAscending = !d.sortAscending := by
      rw [Descriptor.showsAscending, hturn, Bool.bne_true]
    rw [hopposite] at hshown
    obtain ⟨hlast, hback⟩ := Bool.and_eq_true_iff.1 hturn
    rw [Bool.not_eq_true'] at hback
    rw [hlast, hback]
    constructor
    · intro hasked
      exact .inr (.inr (length_le_one_of_inOrder hasked hshown))
    · rintro (h | h | h)
      · cases h
      · cases h
      · exact inOrder_of_length_le_one h d.sortAscending

/-- Paging back from the fourth of five records, two at a time, with the records in ascending order:
the second and the third one. -/
theorem inOrder_items_query_back : ∃ params page,
    (queryParams .standard (map [(str "pk", str "A")]) (str "t") { Descriptor.plain 2 with
      pageForward := false, startKey := .after [("id", int 4)] }).result = .ok params ∧
      (numbered 5 fun _ => true).query ⟨true, int 100, 0⟩ 3 .standard (map [(str "pk", str "A")])
        (str "t") { Descriptor.plain 2 with
          pageForward := false, startKey := .after [("id", int 4)] } = .ok (some page) ∧
      page.items = [[("id", int 2)], [("id", int 3)]] ∧
      (numbered 5 fun _ => true).InOrder true page.items := by
  have hcan : (numbered 5 fun _ => true).CanCount ⟨true, int 100, 0⟩ 3 { Descriptor.plain 2 with
      pageForward := false, startKey := .after [("id", int 4)] } := by
    intro hcounts
    exact absurd hcounts (by decide)
  have hstart : ∀ cursor, StartKey.after [("id", int 4)] = .after cursor →
      ∃ r ∈ (numbered 5 fun _ => true).records, cursor = (numbered 5 fun _ => true).keyOf r := by
    rintro cursor ⟨⟩
    exact ⟨[("id", int 4)], List.mem_map.2 ⟨3, by decide, rfl⟩, rfl⟩
  obtain ⟨page, -, hquery, -, -, hiff⟩ :=
    @inOrder_items_query_iff (numbered 5 fun _ => true) ⟨true, int 100, 0⟩ 3 .standard
      (map [(str "pk", str "A")]) (str "t") { Descriptor.plain 2 with
        pageForward := false, startKey := .after [("id", int 4)] } _ rfl (by decide) hstart hcan
  have hpage : page.items = [[("id", int 2)], [("id", int 3)]] := by
    have hsame := Option.some.inj (Except.ok.inj (hquery.symm.trans rfl))
    rw [hsame]
    rfl
  exact ⟨_, page, rfl, hquery, hpage, hiff.2 (.inl rfl)⟩

/-- Paging back to the last page shows two records that are asked for in ascending order in
descending order. -/
theorem not_inOrder_last_page_back : ∃ page,
    (numbered 2 fun _ => true).query ⟨true, int 100, 0⟩ 2 .standard (map [(str "pk", str "A")])
        (str "t") { Descriptor.plain 10 with pageForward := false, startKey := .last }
        = .ok (some page) ∧
      page.items = [[("id", int 2)], [("id", int 1)]] ∧
      ¬ (numbered 2 fun _ => true).InOrder true page.items := by
  refine ⟨_, rfl, rfl, ?_⟩
  intro horder
  have hfirst := (List.pairwise_cons.1 horder).1 [("id", int 1)] List.mem_cons_self
  exact absurd hfirst (by decide)

end SortedIndex

end KeysetQuery

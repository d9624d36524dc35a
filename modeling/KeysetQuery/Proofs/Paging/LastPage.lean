import KeysetQuery.Proofs.Paging.Walk

/-!
# The last page

The last page is read from the other end of the index, turned, and cut down by what the total leaves
when it is divided by the size of a page.

* `lastSize` — how many items the last page of a walk from the start has;
* `getLast?_pagesOf` — these are the last ones;
* `keptOfLast` — how many items the cut leaves;
* `query_last` — the page that a query for the last page comes to;
* `items_query_last_iff` — when it is the last page of a walk from the start.
-/

namespace KeysetQuery

open Value Entries

/-! ### Sizes -/

/-- How many of a number of items are on the last page of a walk from the start: what a division
leaves, or a whole page if it leaves nothing. -/
def lastSize (size total : ℕ) : ℕ := if total % size = 0 then min total size else total % size

/-- How many of a number of items are left after the cut: all of a page that is not full, and else a
page without what the division leaves. -/
def keptOfLast (size total : ℕ) : ℕ := if total < size then total else size - total % size

theorem lastSize_le (size total : ℕ) : lastSize size total ≤ total := by
  unfold lastSize
  split
  · exact Nat.min_le_left total size
  · exact Nat.mod_le total size

theorem keptOfLast_le (size total : ℕ) : keptOfLast size total ≤ total := by
  unfold keptOfLast
  split <;> omega

/-- The records in front of a page and those that the cut takes away are all but those it keeps. -/
theorem sub_add_surplus {size : ℕ} (hsize : 0 < size) (total : ℕ) :
    total - size + (if total - (total - size) = size then total % size else 0)
      = total - keptOfLast size total := by
  have hmod := Nat.mod_lt total hsize
  unfold keptOfLast
  by_cases hlt : total < size
  · rw [if_pos hlt, if_neg (by omega)]
    omega
  · rw [if_neg hlt, if_pos (by omega)]
    omega

/-- The cut leaves as many items as the last page has exactly if the items do not fill a page, the
pages come out even, or the last page is half full. -/
theorem keptOfLast_eq_lastSize_iff {size : ℕ} (hsize : 0 < size) (total : ℕ) :
    keptOfLast size total = lastSize size total ↔
      total < size ∨ total % size = 0 ∨ 2 * (total % size) = size := by
  have hmod := Nat.mod_lt total hsize
  unfold keptOfLast lastSize
  by_cases hlt : total < size
  · have hself : total % size = total := Nat.mod_eq_of_lt hlt
    rw [if_pos hlt, hself]
    split <;> omega
  · rw [if_neg hlt]
    split <;> omega

section Pages

variable {α : Type} {size : ℕ} {xs : List α}

/-- The last page of a list has its last items. -/
theorem getLast?_pagesOf (hsize : 0 < size) :
    (pagesOf size xs).getLast? = some (xs.drop (xs.length - lastSize size xs.length)) := by
  induction xs using pagesOf.induct size with
  | case1 xs h =>
    have hall : lastSize size xs.length = xs.length := by
      unfold lastSize
      rcases Nat.lt_or_ge xs.length size with hlt | hge
      · rw [Nat.mod_eq_of_lt hlt]
        split <;> omega
      · have heq : xs.length = size := by omega
        rw [heq, Nat.mod_self, if_pos rfl, Nat.min_self]
    rw [pagesOf, if_pos h, hall, Nat.sub_self]
    rfl
  | case2 xs h ih =>
    have hsame : lastSize size (xs.drop size).length = lastSize size xs.length := by
      have hmod : (xs.length - size) % size = xs.length % size :=
        (Nat.mod_eq_sub_mod (by omega)).symm
      rw [List.length_drop]
      unfold lastSize
      rw [hmod]
      split
      · rename_i hzero
        have hge : size ≤ xs.length - size :=
          Nat.le_of_dvd (by omega) (Nat.dvd_of_mod_eq_zero (hmod.trans hzero))
        omega
      · rfl
    have hle := lastSize_le size (xs.drop size).length
    rw [pagesOf, if_neg h, List.getLast?_cons_of_ne_nil (pagesOf_ne_nil _ _), ih, List.drop_drop]
    congr 2
    rw [hsame, List.length_drop] at *
    omega

/-- Two ends of a list are the same exactly if they are equally long. -/
theorem drop_length_sub_eq_iff {m n : ℕ} (hm : m ≤ xs.length) (hn : n ≤ xs.length) :
    xs.drop (xs.length - m) = xs.drop (xs.length - n) ↔ m = n := by
  constructor
  · intro h
    have hlen := congrArg List.length h
    rw [List.length_drop, List.length_drop] at hlen
    omega
  · rintro rfl
    rfl

end Pages

namespace SortedIndex

variable {ix : SortedIndex} {policy : Policy} {turns : ℕ} {n : Normalizer}
  {primaryKey table : Value} {d : Descriptor} {params : Entries}

/-! ### The cut -/

/-- The cut of a page whose total was counted. -/
theorem result_trimLast {page : Page} {limit total : ℕ} (hlimit : 0 < limit)
    (htotal : page.totalCount = some (int total)) (shownFrom : ℕ) :
    (page.trimLast shownFrom (int limit)).result = .ok
      { page with
        items := page.items.drop (if page.items.length = limit then total % limit else 0)
        cursor := none } := by
  rw [Page.result_trimLast_int (by omega) htotal]
  simp only [Int.natCast_inj, ← Int.natCast_emod, Int.toNat_natCast]

/-! ### Queries for the last page -/

/-- The request for the last page reads the first records from the other end. -/
theorem items_readPage_last (hstart : d.startKey = .last) (hpaging : d.pageForward = true)
    (hkeep : ∀ r ∈ ix.records, ix.keep r = true) : (ix.readPage d).items
      = ((ordered d.sortAscending ix.records).reverse).take d.limit.toNat := by
  have hrest : ix.rest d.readsForward d.start = (ordered d.sortAscending ix.records).reverse := by
    rw [Descriptor.readsForward, Descriptor.wantsLastPage, Descriptor.scansForward, hpaging,
      Descriptor.start, hstart]
    cases d.sortAscending with
    | true => rfl
    | false => exact (List.reverse_reverse ix.records).symm
  simp only [readPage, hrest]
  refine List.filter_eq_self.2 fun r hr => hkeep r ?_
  exact (mem_ordered _).1 (List.mem_reverse.1 (List.mem_of_mem_take hr))

/-- In the order of reading these are the last records, as many as are on a page. -/
theorem items_shownPage_last (hstart : d.startKey = .last) (hpaging : d.pageForward = true)
    (hkeep : ∀ r ∈ ix.records, ix.keep r = true) : (ix.shownPage d).items
      = (ordered d.sortAscending ix.records).drop (ix.records.length - d.limit.toNat) := by
  rw [shownPage, Descriptor.wantsLastPage, hstart, hpaging]
  show (ix.readPage d).items.reverse = _
  rw [items_readPage_last hstart hpaging hkeep, List.take_reverse, List.reverse_reverse,
    length_ordered]

/-- A query for the last page, without a filter, comes to a page without a cursor, with the number
of records as its total.  Its items are the last ones in the order of reading, as many as the cut
leaves. -/
theorem query_last (hparams : (queryParams n primaryKey table d).result = .ok params)
    (hstart : d.startKey = .last) (hpaging : d.pageForward = true) (hlimit : 0 < d.limit)
    (hkeep : ∀ r ∈ ix.records, ix.keep r = true) (hcan : ix.CanCount policy turns d) :
    ∃ page, ix.query policy turns n primaryKey table d = .ok (some page) ∧ page.cursor = none ∧
      page.totalCount = some (int ix.records.length) ∧
      page.items = (ordered d.sortAscending ix.records).drop
        (ix.records.length - keptOfLast d.limit.toNat ix.records.length) := by
  have hlast : d.wantsLastPage = true := by rw [Descriptor.wantsLastPage, hstart]
  have hsize : 0 < d.limit.toNat := by omega
  have htotal : (ix.shownPage d).totalCount = some (int ix.records.length) := by
    show ix.totalFor d = _
    rw [totalFor, Descriptor.counts, hlast, Bool.or_true, if_pos rfl, kept,
      List.filter_eq_self.2 hkeep]
  have htrim := result_trimLast hsize htotal policy.shownFrom
  rw [Int.toNat_of_nonneg (by omega), items_shownPage_last hstart hpaging hkeep, List.length_drop,
    length_ordered, List.drop_drop, sub_add_surplus hsize] at htrim
  refine ⟨{ ix.shownPage d with
    items := (ordered d.sortAscending ix.records).drop
      (ix.records.length - keptOfLast d.limit.toNat ix.records.length)
    cursor := none }, ?_, rfl, htotal, rfl⟩
  rw [query_eq hcan hparams, if_pos hlast, htrim]
  rfl

/-- A walk forward from the beginning, without a filter, ends with the last page. -/
theorem getLast?_walk (hparams : (queryParams n primaryKey table d).result = .ok params)
    (hstart : d.startKey = .beginning) (hpaging : d.pageForward = true) (hlimit : 0 < d.limit)
    (hkeep : ∀ r ∈ ix.records, ix.keep r = true) (hcan : ix.CanCount policy turns d) {most : ℕ}
    (hmost : ix.records.length < most) :
    ∃ pages last, ix.walk policy turns n primaryKey table most d = some pages ∧
      pages.getLast? = some last ∧
      last.items = (ordered d.sortAscending ix.records).drop
        (ix.records.length - lastSize d.limit.toNat ix.records.length) := by
  obtain ⟨pages, hwalk, hpages⟩ :=
    map_items_walk_forward hparams hstart hpaging hlimit hkeep hcan hmost
  have hitems := congrArg List.getLast? hpages
  rw [List.getLast?_map, getLast?_pagesOf (by omega), length_ordered] at hitems
  obtain ⟨last, hlast, hlastItems⟩ := Option.map_eq_some_iff.1 hitems
  exact ⟨pages, last, hwalk, hlast, hlastItems⟩

/-- A query for the last page, without a filter, always comes to a page without a cursor and with
the number of records as its total, but to the last page of a walk from the start only if the
records do not fill one page, the pages come out even, or the last page is half full.  What a
division leaves is cut off, where it ought to be kept. -/
theorem items_query_last_iff (hparams : (queryParams n primaryKey table d).result = .ok params)
    (hstart : d.startKey = .last) (hpaging : d.pageForward = true) (hlimit : 0 < d.limit)
    (hkeep : ∀ r ∈ ix.records, ix.keep r = true) (hcan : ix.CanCount policy turns d) {most : ℕ}
    (hmost : ix.records.length < most) :
    ∃ page pages last, ix.query policy turns n primaryKey table d = .ok (some page) ∧
      page.cursor = none ∧ page.totalCount = some (int ix.records.length) ∧
      page.items = (ordered d.sortAscending ix.records).drop
        (ix.records.length - keptOfLast d.limit.toNat ix.records.length) ∧
      ix.walk policy turns n primaryKey table most { d with startKey := .beginning } = some pages ∧
      pages.getLast? = some last ∧
      last.items.length = lastSize d.limit.toNat ix.records.length ∧
      (page.items = last.items ↔ ix.records.length < d.limit.toNat ∨
        ix.records.length % d.limit.toNat = 0 ∨
          2 * (ix.records.length % d.limit.toNat) = d.limit.toNat) := by
  obtain ⟨page, hquery, hcursor, htotal, hitems⟩ :=
    query_last hparams hstart hpaging hlimit hkeep hcan
  have hcan' : ix.CanCount policy turns { d with startKey := .beginning } := by
    intro _
    refine hcan ?_
    rw [Descriptor.counts, Descriptor.wantsLastPage, hstart, Bool.or_true]
  obtain ⟨pages, last, hwalk, hlast, hlastItems⟩ := getLast?_walk
    (d := { d with startKey := .beginning }) hparams rfl hpaging hlimit hkeep hcan' hmost
  have hlastLe := lastSize_le d.limit.toNat ix.records.length
  have hkeptLe := keptOfLast_le d.limit.toNat ix.records.length
  refine ⟨page, pages, last, hquery, hcursor, htotal, hitems, hwalk, hlast, ?_, ?_⟩
  · rw [hlastItems, List.length_drop, length_ordered]
    show ix.records.length - (ix.records.length - lastSize d.limit.toNat ix.records.length) = _
    omega
  · rw [← keptOfLast_eq_lastSize_iff (by omega), hitems, hlastItems]
    have hlength := length_ordered d.sortAscending ix.records
    rw [← hlength] at hkeptLe hlastLe
    have hends := drop_length_sub_eq_iff hkeptLe hlastLe
    rw [hlength] at hends
    exact hends

/-- Five records on pages of five: the last page is the whole. -/
theorem items_query_last_five : ∃ params page pages last,
    (queryParams .standard (map [(str "pk", str "A")]) (str "t")
      { Descriptor.plain 5 with startKey := .last }).result = .ok params ∧
      (numbered 5 fun _ => true).query ⟨true, int 100, 0⟩ 3 .standard (map [(str "pk", str "A")])
        (str "t") { Descriptor.plain 5 with startKey := .last } = .ok (some page) ∧
      (numbered 5 fun _ => true).walk ⟨true, int 100, 0⟩ 3 .standard (map [(str "pk", str "A")])
        (str "t") 6 (Descriptor.plain 5) = some pages ∧
      pages.getLast? = some last ∧ page.items = last.items := by
  have hcan : (numbered 5 fun _ => true).CanCount ⟨true, int 100, 0⟩ 3
      { Descriptor.plain 5 with startKey := .last } := fun _ =>
    ⟨allowsPages_int (m := 100) rfl (.inr (by decide +kernel)), by decide +kernel⟩
  obtain ⟨page, pages, last, hquery, -, -, -, hwalk, hlast, -, hiff⟩ :=
    @items_query_last_iff _ ⟨true, int 100, 0⟩ 3 .standard (map [(str "pk", str "A")]) (str "t")
      _ _ rfl rfl rfl (by decide) (fun _ _ => rfl) hcan 6 (by decide)
  exact ⟨_, page, pages, last, rfl, hquery, hwalk, hlast, hiff.2 (.inr (.inl rfl))⟩

/-- Of four records on pages of three, a query for the last page comes to the last two, where a walk
from the start ends with the last one. -/
theorem items_query_last_four : ∃ page pages last,
    (numbered 4 fun _ => true).query ⟨true, int 100, 0⟩ 2 .standard (map [(str "pk", str "A")])
        (str "t") { Descriptor.plain 3 with startKey := .last } = .ok (some page) ∧
      (numbered 4 fun _ => true).walk ⟨true, int 100, 0⟩ 2 .standard (map [(str "pk", str "A")])
        (str "t") 5 (Descriptor.plain 3) = some pages ∧
      pages.getLast? = some last ∧ page.items = [[("id", int 3)], [("id", int 4)]] ∧
      last.items = [[("id", int 4)]] := by
  refine ⟨_, _, _, rfl, rfl, rfl, rfl, rfl⟩

end SortedIndex

end KeysetQuery

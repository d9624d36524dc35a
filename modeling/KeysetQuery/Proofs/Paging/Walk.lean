import KeysetQuery.Proofs.Paging.Query

/-!
# Walks through an index

A walk asks for one page after the other.  The cursor of each page is passed back as the start key
of the next one, until a page has no cursor.

* `SortedIndex.walk` — the pages of a walk;
* `StandsBefore` — the invariant of a walk: what its next request has before it;
* `walk_eq` — the pages of a walk are those of the scan, filtered and in the order of reading;
* `map_items_walk_forward` — the same of a walk forward without a filter;
* `flatMap_items_walk` — a walk loses nothing and repeats nothing.
-/

namespace KeysetQuery

open Value Entries Schema

/-! ### Pages of a filtered list -/

/-- The pages of a list, each of them filtered and turned, make up the filtered list. -/
theorem flatMap_ordered_pagesOf {α : Type} (b : Bool) (p : α → Bool) (size : ℕ) (xs : List α) :
    (ordered b ((pagesOf size xs).map fun ys => ordered b (ys.filter p))).flatten
      = ordered b (xs.filter p) := by
  induction xs using pagesOf.induct size with
  | case1 xs h =>
    rw [pagesOf, if_pos h]
    cases b <;> simp [ordered]
  | case2 xs h ih =>
    rw [pagesOf, if_neg h, List.map_cons]
    have hsplit : xs.filter p = (xs.take size).filter p ++ (xs.drop size).filter p := by
      rw [← List.filter_append, List.take_append_drop]
    rw [hsplit, ← List.flatMap_id]
    exact flatMap_ordered_cons b rfl (by rw [List.flatMap_id, ih])

/-- A page of a list has items of the list alone. -/
theorem subset_of_mem_pagesOf {α : Type} {size : ℕ} {xs ys : List α} (h : ys ∈ pagesOf size xs) :
    ys ⊆ xs := by
  induction xs using pagesOf.induct size with
  | case1 xs hle =>
    rw [pagesOf, if_pos hle] at h
    rw [List.mem_singleton.1 h]
    exact List.Subset.refl xs
  | case2 xs hlt ih =>
    rw [pagesOf, if_neg hlt] at h
    rcases List.mem_cons.1 h with rfl | h
    · exact List.take_subset size xs
    · exact List.Subset.trans (ih h) (List.drop_subset size xs)

namespace SortedIndex

section Walks

variable (ix : SortedIndex) (policy : Policy) (turns : ℕ) (n : Normalizer)
  (primaryKey table : Value)

/-- The pages of a walk from a descriptor on, if there are no more of them than a given number.
The cursor of a page is passed back as a start key. -/
def walk : ℕ → Descriptor → Option (List Page)
  | 0, _ => none
  | most + 1, d =>
    match ix.query policy turns n primaryKey table d with
    | .ok (some page) =>
      match page.cursor with
      | none => some [page]
      | some cursor =>
        match Descriptor.readStartKey [.name FieldName.startKey.preferred] cursor.toValue with
        | .ok start => (walk most { d with startKey := start }).map fun pages => page :: pages
        | .error _ => none
    | _ => none

/-- The next request of a walk has the rest of a scan before it. -/
structure StandsBefore (d : Descriptor) (rest : List Record) : Prop where
  notLast : d.wantsLastPage = false
  rest_eq : ix.rest d.readsForward d.start = rest
  split : ∃ before, ix.scan d.readsForward = before ++ rest

end Walks

variable {ix : SortedIndex} {policy : Policy} {turns : ℕ} {n : Normalizer}
  {primaryKey table : Value} {d : Descriptor} {params : Entries} {rest : List Record}

theorem standsBefore_beginning (ix : SortedIndex) (h : d.startKey = .beginning) :
    ix.StandsBefore d (ix.scan d.readsForward) := by
  have hstart : d.start = none := by rw [Descriptor.start, h]
  refine ⟨by rw [Descriptor.wantsLastPage, h], ?_, ⟨[], rfl⟩⟩
  rw [hstart]
  rfl

/-- Behind the last record of a page stands what the page has left. -/
theorem StandsBefore.after (h : ix.StandsBefore d rest) {before after : List Record} {r : Record}
    (hrest : rest = before ++ r :: after) :
    ix.StandsBefore { d with startKey := .after (ix.keyOf r) } after := by
  obtain ⟨front, hscan⟩ := h.split
  have hforward : ({ d with startKey := .after (ix.keyOf r) } : Descriptor).readsForward
      = d.readsForward := by
    rw [Descriptor.readsForward, Descriptor.readsForward, h.notLast]
    rfl
  have hsplit : ix.scan d.readsForward = (front ++ before) ++ r :: after := by
    rw [hscan, hrest, List.append_assoc]
  refine ⟨rfl, ?_, ?_⟩
  · rw [hforward]
    exact rest_of_split hsplit
  · exact ⟨front ++ before ++ [r], by rw [hforward, hsplit]; simp⟩

/-- The pages of a walk are those of the rest of its scan, filtered and in the order of reading. -/
theorem walk_eq (h : ix.StandsBefore d rest)
    (hparams : (queryParams n primaryKey table d).result = .ok params)
    (hcan : ix.CanCount policy turns d) (hlimit : 0 < d.limit) {most : ℕ}
    (hmost : (pagesOf d.limit.toNat rest).length ≤ most) :
    ∃ pages, ix.walk policy turns n primaryKey table most d = some pages ∧
      pages.map Page.items = (pagesOf d.limit.toNat rest).map fun xs =>
        ordered d.pageForward (xs.filter ix.keep) := by
  have hpos := length_pagesOf_pos d.limit.toNat rest
  induction most generalizing d rest with
  | zero => omega
  | succ most ih =>
    obtain ⟨hquery, hitems⟩ := query_of_not_last hcan hparams h.notLast
    have hcursor : (ix.shownPage d).cursor = (ix.readPage d).cursor := rfl
    simp only [readPage, h.rest_eq] at hitems hcursor
    rw [walk, hquery]
    by_cases hle : rest.length ≤ d.limit.toNat
    · rw [lastKey_of_le hle] at hcursor
      rw [List.take_of_length_le hle] at hitems
      refine ⟨[ix.shownPage d], by simp only [hcursor], ?_⟩
      rw [pagesOf_of_le hle, List.map_singleton, List.map_singleton, hitems]
    · have hlt : d.limit.toNat < rest.length := by omega
      obtain ⟨before, r, hrest, hlast⟩ := lastKey_of_lt ix (by omega) hlt
      rw [hlast] at hcursor
      have hmem : r ∈ ix.records := by
        have hin : r ∈ ix.rest d.readsForward d.start := by
          rw [h.rest_eq, hrest]
          exact List.mem_append_right before List.mem_cons_self
        exact mem_of_mem_rest hin
      have hstart := Descriptor.readStartKey_toValue (ix.named r hmem).2
        [.name FieldName.startKey.preferred]
      have hcan' : ix.CanCount policy turns { d with startKey := .after (ix.keyOf r) } := by
        intro hcounts
        refine hcan ?_
        rw [Descriptor.counts, h.notLast]
        exact hcounts
      rw [pagesOf_of_lt (by omega) (by omega), List.length_cons] at hmost
      obtain ⟨pages, hwalk, hpages⟩ := ih (d := { d with startKey := .after (ix.keyOf r) })
        (h.after hrest) hparams hcan' hlimit (Nat.le_of_succ_le_succ hmost)
        (length_pagesOf_pos _ _)
      refine ⟨ix.shownPage d :: pages, by simp only [hcursor, hstart, hwalk, Option.map_some], ?_⟩
      rw [pagesOf_of_lt (by omega) (by omega), List.map_cons, List.map_cons, hpages, hitems]

/-- The pages of a walk forward from the beginning, without a filter, are those of the records in
the order of reading. -/
theorem map_items_walk_forward (hparams : (queryParams n primaryKey table d).result = .ok params)
    (hstart : d.startKey = .beginning) (hpaging : d.pageForward = true) (hlimit : 0 < d.limit)
    (hkeep : ∀ r ∈ ix.records, ix.keep r = true) (hcan : ix.CanCount policy turns d) {most : ℕ}
    (hmost : ix.records.length < most) :
    ∃ pages, ix.walk policy turns n primaryKey table most d = some pages ∧
      pages.map Page.items = pagesOf d.limit.toNat (ordered d.sortAscending ix.records) := by
  have hstands := standsBefore_beginning ix hstart
  have hscan : ix.scan d.readsForward = ordered d.sortAscending ix.records := by
    rw [Descriptor.readsForward, hstands.notLast, Descriptor.scansForward, hpaging]
    cases d.sortAscending <;> rfl
  rw [hscan] at hstands
  have hlength : (pagesOf d.limit.toNat (ordered d.sortAscending ix.records)).length ≤ most := by
    have hpositive : 0 < d.limit.toNat := by omega
    have hle := length_pagesOf_le hpositive (ordered d.sortAscending ix.records)
    rw [length_ordered] at hle
    omega
  obtain ⟨pages, hwalk, hpages⟩ := walk_eq hstands hparams hcan hlimit hlength
  refine ⟨pages, hwalk, ?_⟩
  rw [hpages, hpaging]
  refine (List.map_congr_left fun xs hxs => ?_).trans (List.map_id _)
  show xs.filter ix.keep = xs
  refine List.filter_eq_self.2 fun r hr => hkeep r ?_
  exact (mem_ordered _).1 (subset_of_mem_pagesOf hxs hr)

/-- A walk from the beginning loses nothing and repeats nothing.  It comes to an end, the records
of each page stand in the order that the descriptor asks for, and the pages, in the order of
reading, make up all records that pass the filter, in that order. -/
theorem flatMap_items_walk (hparams : (queryParams n primaryKey table d).result = .ok params)
    (hstart : d.startKey = .beginning) (hlimit : 0 < d.limit)
    (hcan : ix.CanCount policy turns d) {most : ℕ} (hmost : ix.records.length < most) :
    ∃ pages, ix.walk policy turns n primaryKey table most d = some pages ∧
      (∀ page ∈ pages, page.items.Pairwise fun r s =>
        ix.follows d.sortAscending (ix.keyOf r).toValue (ix.keyOf s).toValue = true) ∧
      (ordered d.pageForward pages).flatMap Page.items = ordered d.sortAscending ix.kept := by
  have hstands := standsBefore_beginning ix hstart
  have hforward : (d.pageForward == d.readsForward) = d.sortAscending := by
    rw [Descriptor.readsForward, hstands.notLast, Descriptor.scansForward]
    cases d.pageForward <;> cases d.sortAscending <;> rfl
  have hlength : (pagesOf d.limit.toNat (ix.scan d.readsForward)).length ≤ most := by
    have hlimit' : 0 < d.limit.toNat := by omega
    have hle := length_pagesOf_le hlimit' (ix.scan d.readsForward)
    rw [scan, length_ordered] at hle
    rw [scan]
    omega
  obtain ⟨pages, hwalk, hpages⟩ := walk_eq hstands hparams hcan hlimit hlength
  have hflat : (ordered d.pageForward pages).flatMap Page.items
      = ordered d.sortAscending ix.kept := by
    have hmap : (ordered d.pageForward pages).map Page.items
        = ordered d.pageForward (pages.map Page.items) := by
      cases d.pageForward with
      | true => rfl
      | false => exact List.map_reverse
    rw [List.flatMap_def, hmap, hpages, flatMap_ordered_pagesOf, scan, filter_ordered,
      ordered_ordered, hforward]
    rfl
  refine ⟨pages, hwalk, ?_, hflat⟩
  intro page hpage
  have hmem : page.items ∈ (ordered d.pageForward pages).map Page.items :=
    List.mem_map_of_mem ((mem_ordered _).2 hpage)
  have hsub : page.items.Sublist (ix.scan d.sortAscending) := by
    have hitems := List.sublist_flatten_of_mem hmem
    rw [← List.flatMap_def, hflat, kept, ← filter_ordered] at hitems
    exact hitems.trans List.filter_sublist
  exact (ix.scan_pairwise d.sortAscending).sublist hsub

/-- Backwards through five records of which every other one passes the filter, on pages of two. -/
theorem flatMap_items_walk_backwards : ∃ params pages,
    (queryParams .standard (map [(str "pk", str "A")]) (str "t")
      { Descriptor.plain 2 with pageForward := false, includeTotal := true }).result
        = .ok params ∧
      (numbered 5 fun r => numberIn r.toValue % 2 == 1).walk ⟨true, int 100, 0⟩ 3 .standard
        (map [(str "pk", str "A")]) (str "t") 6
        { Descriptor.plain 2 with pageForward := false, includeTotal := true } = some pages ∧
      pages.reverse.flatMap Page.items = [[("id", int 1)], [("id", int 3)], [("id", int 5)]] := by
  have hcan : (numbered 5 fun r => numberIn r.toValue % 2 == 1).CanCount ⟨true, int 100, 0⟩ 3
      { Descriptor.plain 2 with pageForward := false, includeTotal := true } := fun _ =>
    ⟨allowsPages_int (m := 100) rfl (.inr (by decide +kernel)), by decide +kernel⟩
  obtain ⟨pages, hwalk, -, hitems⟩ := @flatMap_items_walk _ ⟨true, int 100, 0⟩ 3 .standard
    (map [(str "pk", str "A")]) (str "t") _ _ rfl rfl (by decide) hcan 6 (by decide)
  exact ⟨_, pages, rfl, hwalk, hitems.trans rfl⟩

end SortedIndex

end KeysetQuery

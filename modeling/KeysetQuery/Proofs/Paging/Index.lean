import KeysetQuery.Query.Descriptor
import KeysetQuery.Store.Process
import Mathlib.Data.List.Basic

/-!
# A sorted index

A store that keeps its records in the order of their keys and answers queries from there.

* `ordered` — a list in one of two directions;
* `pagesOf` — a list in pages of one size, the last of which may be shorter;
* `SortedIndex` — the records of an index, and the filter of a query;
* `SortedIndex.rest` — what a request has before it;
* `SortedIndex.answer` — what the index answers;
* `rest_of_split` — behind a record stands the rest of the scan.
-/

namespace KeysetQuery

open Value Entries

/-! ### Directions -/

/-- A list in its own direction, or in the opposite one. -/
def ordered {α : Type} (forward : Bool) (xs : List α) : List α :=
  if forward then xs else xs.reverse

section Directions

variable {α β : Type} (b : Bool)

theorem ordered_true (xs : List α) : ordered true xs = xs := rfl

theorem ordered_false (xs : List α) : ordered false xs = xs.reverse := rfl

theorem length_ordered (xs : List α) : (ordered b xs).length = xs.length := by
  cases b with
  | true => rfl
  | false => exact List.length_reverse

theorem mem_ordered {x : α} {xs : List α} : x ∈ ordered b xs ↔ x ∈ xs := by
  cases b with
  | true => exact Iff.rfl
  | false => exact List.mem_reverse

theorem filter_ordered (p : α → Bool) (xs : List α) :
    (ordered b xs).filter p = ordered b (xs.filter p) := by
  cases b with
  | true => rfl
  | false => exact List.filter_reverse

/-- Two turns are none. -/
theorem ordered_ordered (c : Bool) (xs : List α) :
    ordered b (ordered c xs) = ordered (b == c) xs := by
  cases b <;> cases c <;> simp [ordered]

/-- Turning a series of stretches turns each of them. -/
theorem flatMap_ordered_cons {f : β → List α} {y : β} {ys : List β} {xs zs : List α}
    (hy : f y = ordered b xs) (hys : (ordered b ys).flatMap f = ordered b zs) :
    (ordered b (y :: ys)).flatMap f = ordered b (xs ++ zs) := by
  cases b with
  | true =>
    rw [ordered_true, List.flatMap_cons, hy]
    rw [ordered_true] at hys
    rw [hys]
    rfl
  | false =>
    rw [ordered_false] at hys ⊢
    rw [List.reverse_cons, List.flatMap_append, hys, List.flatMap_singleton, hy]
    simp [ordered]

end Directions

/-! ### Pages -/

/-- A list in pages of one size.  The last one may be shorter; of no items there is one page, which
is empty. -/
def pagesOf {α : Type} (size : ℕ) (xs : List α) : List (List α) :=
  if xs.length ≤ size ∨ size = 0 then [xs]
  else xs.take size :: pagesOf size (xs.drop size)
termination_by xs.length
decreasing_by
  rw [List.length_drop]
  omega

section Pages

variable {α : Type} {size : ℕ} {xs : List α}

theorem pagesOf_of_le (h : xs.length ≤ size) : pagesOf size xs = [xs] := by
  rw [pagesOf, if_pos (.inl h)]

theorem pagesOf_of_lt (hsize : 0 < size) (h : size < xs.length) :
    pagesOf size xs = xs.take size :: pagesOf size (xs.drop size) := by
  rw [pagesOf, if_neg (by omega)]

theorem pagesOf_ne_nil (size : ℕ) (xs : List α) : pagesOf size xs ≠ [] := by
  rw [pagesOf]
  split <;> simp

theorem length_pagesOf_pos (size : ℕ) (xs : List α) : 0 < (pagesOf size xs).length :=
  List.length_pos_of_ne_nil (pagesOf_ne_nil size xs)

/-- How many pages there are depends on the number of items alone. -/
theorem length_pagesOf_congr {β : Type} {ys : List β} (h : xs.length = ys.length) :
    (pagesOf size xs).length = (pagesOf size ys).length := by
  induction xs using pagesOf.induct size generalizing ys with
  | case1 xs hle =>
    have hle' : ys.length ≤ size ∨ size = 0 := by omega
    rw [pagesOf, if_pos hle, pagesOf, if_pos hle']
    rfl
  | case2 xs hlt ih =>
    have hlt' : ¬ (ys.length ≤ size ∨ size = 0) := by omega
    have hdrop : (xs.drop size).length = (ys.drop size).length := by
      rw [List.length_drop, List.length_drop, h]
    have hxs : size < xs.length := by omega
    have hys : size < ys.length := by omega
    rw [pagesOf_of_lt (by omega) hxs, pagesOf_of_lt (by omega) hys, List.length_cons,
      List.length_cons, ih hdrop]

/-- There are no more pages than one for each item, and one more. -/
theorem length_pagesOf_le (hsize : 0 < size) (xs : List α) :
    (pagesOf size xs).length ≤ xs.length + 1 := by
  induction xs using pagesOf.induct size with
  | case1 xs h =>
    rw [pagesOf, if_pos h, List.length_singleton]
    omega
  | case2 xs h ih =>
    have hdrop : (xs.drop size).length = xs.length - size := List.length_drop
    rw [pagesOf, if_neg h, List.length_cons]
    omega

end Pages

/-! ### Indexes -/

/-- The records of an index, and the filter of a query. -/
structure SortedIndex where
  /-- The records, in ascending order of their keys. -/
  records : List Record
  /-- The key of a record. -/
  keyOf : Record → Record
  /-- Whether a key stands before another one. -/
  precedes : Value → Value → Bool
  /-- Whether a record passes the filter. -/
  keep : Record → Bool
  /-- How many records are read for a request that does not say how many. -/
  chunk : ℕ
  asymm : ∀ j k, precedes j k = true → precedes k j = false
  sorted : records.Pairwise fun r s => precedes (keyOf r).toValue (keyOf s).toValue = true
  keyed : ∀ r ∈ records, keyOf r ≠ []
  named : ∀ r ∈ records, (r.map Prod.fst).Nodup ∧ ((keyOf r).map Prod.fst).Nodup
  chunk_pos : 0 < chunk

namespace SortedIndex

variable (ix : SortedIndex)

/-- The records that pass the filter, in ascending order. -/
def kept : List Record := ix.records.filter ix.keep

/-- The records in the direction of a scan. -/
def scan (forward : Bool) : List Record := ordered forward ix.records

/-- Whether a key stands behind another one in the direction of a scan. -/
def follows (forward : Bool) (j k : Value) : Bool :=
  if forward then ix.precedes j k else ix.precedes k j

/-- What a scan has before it: all records, or those strictly behind a start key. -/
def rest (forward : Bool) (start : Option Value) : List Record :=
  match start with
  | none => ix.scan forward
  | some k => (ix.scan forward).filter fun r => ix.follows forward k (ix.keyOf r).toValue

/-- The key at which a scan ends that reads a number of records: that of the last record it has
read, if there are more. -/
def lastKey (rest : List Record) (size : ℕ) : Option Record :=
  if rest.length ≤ size then none else (rest.take size).getLast?.map ix.keyOf

/-- The answer to a scan that reads a number of records. -/
def reply (rest : List Record) (size : ℕ) : Entries :=
  [(str "Items", list (((rest.take size).filter ix.keep).map Record.toValue)),
    (str "Count", int ((rest.take size).filter ix.keep).length),
    (str "ScannedCount", int (rest.take size).length)]
    ++ (ix.lastKey rest size).toList.map fun k => (str "LastEvaluatedKey", k.toValue)

/-- The direction of a request, which is ascending unless it says otherwise. -/
def directionOf (params : Entries) : Bool :=
  match field? params "ScanIndexForward" with
  | some (.bool b) => b
  | _ => true

/-- How many records a request reads. -/
def sizeOf (params : Entries) : ℕ :=
  match field? params "Limit" with
  | some (int n) => n.toNat
  | _ => ix.chunk

/-- The answer to a request. -/
def answer (params : Entries) : Entries :=
  ix.reply (ix.rest (directionOf params) (field? params "ExclusiveStartKey")) (ix.sizeOf params)

/-- The index answers at once and does not change. -/
def respond : Process.Responder Unit := fun _ request =>
  match request.params with
  | map params => (.ok (map (ix.answer params)), ())
  | _ => (.ok (map []), ())

/-! ### Scans -/

variable {ix}

theorem directionOf_eq {params : Entries} {b : Bool}
    (h : field? params "ScanIndexForward" = some (.bool b)) : directionOf params = b := by
  rw [directionOf, h]

theorem mem_of_mem_rest {forward : Bool} {start : Option Value} {r : Record}
    (h : r ∈ ix.rest forward start) : r ∈ ix.records := by
  cases start with
  | none => exact (mem_ordered forward).1 h
  | some k => exact (mem_ordered forward).1 (List.mem_filter.1 h).1

/-- In the direction of a scan each key stands behind the ones before it. -/
theorem scan_pairwise (forward : Bool) : (ix.scan forward).Pairwise fun r s =>
    ix.follows forward (ix.keyOf r).toValue (ix.keyOf s).toValue = true := by
  cases forward with
  | true => exact ix.sorted
  | false => exact List.pairwise_reverse.2 ix.sorted

theorem follows_asymm {forward : Bool} {j k : Value} (h : ix.follows forward j k = true) :
    ix.follows forward k j = false := by
  cases forward with
  | true => exact ix.asymm j k h
  | false => exact ix.asymm k j h

/-- Behind a record stands the rest of the scan, and nothing else. -/
theorem rest_of_split {forward : Bool} {before after : List Record} {r : Record}
    (h : ix.scan forward = before ++ r :: after) :
    ix.rest forward (some (ix.keyOf r).toValue) = after := by
  have hsorted := ix.scan_pairwise forward
  rw [h] at hsorted
  obtain ⟨-, hafter, hcross⟩ := List.pairwise_append.1 hsorted
  obtain ⟨hfollows, -⟩ := List.pairwise_cons.1 hafter
  have hself : ix.follows forward (ix.keyOf r).toValue (ix.keyOf r).toValue = false := by
    by_contra htrue
    rw [Bool.not_eq_false] at htrue
    rw [follows_asymm htrue] at htrue
    exact Bool.noConfusion htrue
  show (ix.scan forward).filter _ = after
  rw [h, List.filter_append, List.filter_cons, hself]
  have hbefore : before.filter
      (fun s => ix.follows forward (ix.keyOf r).toValue (ix.keyOf s).toValue) = [] := by
    rw [List.filter_eq_nil_iff]
    intro s hs htrue
    rw [follows_asymm (hcross s hs r List.mem_cons_self)] at htrue
    exact Bool.noConfusion htrue
  rw [hbefore]
  exact List.filter_eq_self.2 hfollows

/-! ### Numbered records -/

/-- The number in a key that has one. -/
def numberIn : Value → Int
  | map ((_, int i) :: _) => i
  | _ => 0

/-- The index of records that are numbered from one on. -/
def numbered (count : ℕ) (keep : Record → Bool) : SortedIndex where
  records := (List.range count).map fun i : ℕ => [("id", int (i + 1))]
  keyOf r := r
  precedes j k := decide (numberIn j < numberIn k)
  keep := keep
  chunk := 2
  asymm := by
    intro j k h
    rw [decide_eq_true_eq] at h
    rw [decide_eq_false_iff_not]
    omega
  sorted := by
    rw [List.pairwise_map]
    refine List.pairwise_lt_range.imp ?_
    intro i j hij
    show decide ((i : Int) + 1 < (j : Int) + 1) = true
    rw [decide_eq_true_eq]
    omega
  keyed := by
    intro r hr
    obtain ⟨i, -, rfl⟩ := List.mem_map.1 hr
    exact List.cons_ne_nil _ _
  named := by
    intro r hr
    obtain ⟨i, -, rfl⟩ := List.mem_map.1 hr
    exact ⟨List.pairwise_singleton _ _, List.pairwise_singleton _ _⟩
  chunk_pos := Nat.two_pos

end SortedIndex

end KeysetQuery

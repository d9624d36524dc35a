import KeysetQuery.Proofs.Paging.Index
import KeysetQuery.Proofs.Schema.Names
import KeysetQuery.Proofs.Value.Entries
import KeysetQuery.Query.Page

/-!
# Reading the answers of an index

* `lastKey_of_le`, `lastKey_of_lt` — where a scan ends;
* `field?_reply_lastKey`, `truthy_lastKey` — how an answer says so;
* `ofResponse_reply` — the page in an answer.
-/

namespace KeysetQuery

open Value Entries Schema

namespace SortedIndex

variable {ix : SortedIndex} {rest : List Record} {size : ℕ}

/-! ### Where a scan ends -/

theorem lastKey_of_le (h : rest.length ≤ size) : ix.lastKey rest size = none := if_pos h

/-- A scan that leaves records ends at the last record it has read. -/
theorem lastKey_of_lt (ix : SortedIndex) (hsize : 0 < size) (h : size < rest.length) :
    ∃ before r, rest = before ++ r :: rest.drop size ∧
      ix.lastKey rest size = some (ix.keyOf r) := by
  have hne : rest.take size ≠ [] := by
    intro hnil
    have hlen := congrArg List.length hnil
    rw [List.length_take, List.length_nil] at hlen
    omega
  refine ⟨(rest.take size).dropLast, (rest.take size).getLast hne, ?_, ?_⟩
  · calc rest = rest.take size ++ rest.drop size := (List.take_append_drop size rest).symm
      _ = ((rest.take size).dropLast ++ [(rest.take size).getLast hne]) ++ rest.drop size := by
          rw [List.dropLast_append_getLast hne]
      _ = (rest.take size).dropLast ++ (rest.take size).getLast hne :: rest.drop size := by
          rw [List.append_assoc, List.singleton_append]
  · rw [lastKey, if_neg (by omega), List.getLast?_eq_some_getLast hne]
    rfl

/-- The key at which a scan ends is the key of a record. -/
theorem exists_of_lastKey_eq_some (hrest : ∀ r ∈ rest, r ∈ ix.records) {k : Record}
    (h : ix.lastKey rest size = some k) : ∃ r ∈ ix.records, k = ix.keyOf r := by
  unfold lastKey at h
  split at h
  · exact absurd h (by simp)
  · obtain ⟨r, hr, rfl⟩ := Option.map_eq_some_iff.1 h
    exact ⟨r, hrest r (List.mem_of_mem_take (List.mem_of_getLast? hr)), rfl⟩

/-! ### Members of an answer -/

theorem field?_reply_lastKey :
    field? (ix.reply rest size) "LastEvaluatedKey" = (ix.lastKey rest size).map Record.toValue := by
  unfold reply
  cases ix.lastKey rest size <;> rfl

/-- A key that a scan ends at counts as a yes. -/
theorem truthy_lastKey (hrest : ∀ r ∈ rest, r ∈ ix.records) :
    (((ix.lastKey rest size).map Record.toValue).getD null).truthy
      = (ix.lastKey rest size).isSome := by
  cases h : ix.lastKey rest size with
  | none => rfl
  | some k =>
    obtain ⟨r, hr, rfl⟩ := exists_of_lastKey_eq_some hrest h
    cases hkey : ix.keyOf r with
    | nil => exact absurd hkey (ix.keyed r hr)
    | cons e es => rfl

/-! ### The page in an answer -/

theorem readItems_map_toValue {rs : List Record} (h : ∀ r ∈ rs, (r.map Prod.fst).Nodup) (i : ℕ) :
    Page.readItems i (rs.map Record.toValue) = rs.map fun r => .ok r := by
  induction rs generalizing i with
  | nil => rfl
  | cons r rs ih =>
    obtain ⟨hr, hrs⟩ := List.forall_mem_cons.1 h
    rw [List.map_cons, List.map_cons, Page.readItems, readRecord_toValue hr, ih hrs]

/-- A record that may be missing is read back from what it is passed as. -/
theorem readRecord?_map_toValue {o : Option Record} (h : ∀ r ∈ o, (r.map Prod.fst).Nodup)
    (place : List Place) : readRecord? place ((o.map Record.toValue).getD null) = .ok o := by
  cases o with
  | none => rfl
  | some r =>
    show (readRecord place r.toValue).map some = .ok (some r)
    rw [readRecord_toValue (h r rfl)]
    rfl

/-- The page in an answer has the records that were read and pass the filter, and the key at which
the scan ended. -/
theorem ofResponse_reply (hrest : ∀ r ∈ rest, r ∈ ix.records) :
    Page.ofResponse (map (ix.reply rest size)) = .ok
      { items := (rest.take size).filter ix.keep
        cursor := ix.lastKey rest size
        totalCount := none
        count := some ((rest.take size).filter ix.keep).length
        scannedCount := some (rest.take size).length } := by
  have hitems : ∀ r ∈ (rest.take size).filter ix.keep, (r.map Prod.fst).Nodup := by
    intro r hr
    exact (ix.named r (hrest r (List.mem_of_mem_take (List.mem_filter.1 hr).1))).1
  have hcursor : ∀ k ∈ ix.lastKey rest size, (k.map Prod.fst).Nodup := by
    intro k hk
    obtain ⟨r, hr, rfl⟩ := exists_of_lastKey_eq_some hrest hk
    exact (ix.named r hr).2
  have hread := readItems_map_toValue hitems 0
  have hlist : ∀ vs, Page.itemsOf (list vs) = .ok vs := by
    intro vs
    cases vs <;> rfl
  have hcheck : Page.check (((rest.take size).filter ix.keep).map Record.toValue)
      (((ix.lastKey rest size).map Record.toValue).getD null) null
      (int ((rest.take size).filter ix.keep).length) (int (rest.take size).length) = .ok
      { items := (rest.take size).filter ix.keep
        cursor := ix.lastKey rest size
        totalCount := none
        count := some ((rest.take size).filter ix.keep).length
        scannedCount := some (rest.take size).length } := by
    rw [Page.check, hread, Check.all_map_ok, readRecord?_map_toValue hcursor]
    rfl
  unfold Page.ofResponse
  simp only [Value.part?, field?_reply_lastKey]
  show (Page.itemsOf (list _) >>= fun vs => _) = _
  rw [hlist]
  show (Page.check _ _ null _ _).mapError _ = _
  exact congrArg (Except.mapError Fault.schema) hcheck

end SortedIndex

end KeysetQuery

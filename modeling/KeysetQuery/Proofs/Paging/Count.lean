import KeysetQuery.Proofs.Counting.Steps
import KeysetQuery.Proofs.Outcome
import KeysetQuery.Proofs.Paging.Response

/-!
# Counting in an index

* `CountsFrom` — a count has summed up what stands before the rest of a scan;
* `absorb_of_le`, `absorb_of_lt` — what one page does to such a count;
* `result_run_count` — a count that may read all pages sums up all records that pass the filter.
-/

namespace KeysetQuery

open Value Entries

/-! ### Counts under way -/

namespace SortedIndex

/-- A count has summed up what stands before the rest of a scan, and asks for that rest. -/
structure CountsFrom (ix : SortedIndex) (w : CountWalk) (total : ℕ) (rest : List Record) :
    Prop where
  sum_eq : w.total = .int total
  unlimited : field? w.params "Limit" = none
  rest_eq : ix.rest (directionOf w.params) (field? w.params "ExclusiveStartKey") = rest
  split : ∃ before, ix.scan (directionOf w.params) = before ++ rest

variable {ix : SortedIndex} {w : CountWalk} {total : ℕ} {rest : List Record}

namespace CountsFrom

theorem answer_eq (h : ix.CountsFrom w total rest) :
    ix.answer w.params = ix.reply rest ix.chunk := by
  rw [answer, h.rest_eq, sizeOf, h.unlimited]

theorem subset (h : ix.CountsFrom w total rest) : ∀ r ∈ rest, r ∈ ix.records := by
  rw [← h.rest_eq]
  exact fun r hr => mem_of_mem_rest hr

/-- What is added to the sum for one page. -/
theorem absorb_eq (h : ix.CountsFrom w total rest) :
    w.absorb (map (ix.answer w.params)) = .ok
      (if (ix.lastKey rest ix.chunk).isSome then
        .more ⟨putField w.params "ExclusiveStartKey"
          (((ix.lastKey rest ix.chunk).map Record.toValue).getD null),
          .int (total + ((rest.take ix.chunk).filter ix.keep).length : ℕ), w.pages + 1⟩
      else .complete (.int (total + ((rest.take ix.chunk).filter ix.keep).length : ℕ))) := by
  have hsum : w.total.plus ((field? (ix.reply rest ix.chunk) "Count").getD (.int 0))
      = .ok (.int (total + ((rest.take ix.chunk).filter ix.keep).length : ℕ)) := by
    rw [h.sum_eq]
    rfl
  rw [h.answer_eq, CountWalk.absorb_map w _ _ hsum, field?_reply_lastKey,
    truthy_lastKey h.subset]

/-- The last page completes the sum. -/
theorem absorb_of_le (h : ix.CountsFrom w total rest) (hle : rest.length ≤ ix.chunk) :
    w.absorb (map (ix.answer w.params))
      = .ok (.complete (.int (total + (rest.filter ix.keep).length : ℕ))) := by
  rw [h.absorb_eq, lastKey_of_le hle, List.take_of_length_le hle]
  rfl

/-- A page that is not the last one is summed up, and the count goes on behind it. -/
theorem absorb_of_lt (h : ix.CountsFrom w total rest) (hlt : ix.chunk < rest.length) :
    ∃ w', w.absorb (map (ix.answer w.params)) = .ok (.more w') ∧ w'.pages = w.pages + 1 ∧
      ix.CountsFrom w' (total + ((rest.take ix.chunk).filter ix.keep).length)
        (rest.drop ix.chunk) := by
  obtain ⟨before, r, hrest, hlast⟩ := lastKey_of_lt ix ix.chunk_pos hlt
  obtain ⟨front, hscan⟩ := h.split
  have habsorb := h.absorb_eq
  rw [hlast, Option.isSome_some, if_pos rfl, Option.map_some, Option.getD_some] at habsorb
  have hdirection : directionOf (putField w.params "ExclusiveStartKey" (ix.keyOf r).toValue)
      = directionOf w.params := by
    rw [directionOf, field?_putField, if_neg (by decide)]
    rfl
  have hsplit : ix.scan (directionOf w.params) = (front ++ before) ++ r :: rest.drop ix.chunk := by
    rw [hscan, List.append_assoc, ← hrest]
  refine ⟨_, habsorb, rfl, ?_⟩
  refine ⟨rfl, ?_, ?_, ?_⟩
  · rw [field?_putField, if_neg (by decide), h.unlimited]
  · rw [hdirection, field?_putField, if_pos rfl, rest_of_split hsplit]
  · exact ⟨front ++ before ++ [r], by rw [hdirection, hsplit]; simp⟩

end CountsFrom

/-- A count from the beginning has nothing summed up yet and the whole scan before it. -/
theorem countsFrom_fromBeginning (ix : SortedIndex) {params : Entries} (h : Distinct params) :
    ix.CountsFrom (CountWalk.fromBeginning params) 0 (ix.scan (directionOf params)) := by
  have hselect : Distinct (putField params "Select" (str countSelect)) := distinct_put h _ _
  have hparams : ∀ t, field? (CountWalk.fromBeginning params).params t =
      if "ExclusiveStartKey" = t then none
      else if "Limit" = t then none
      else if "Select" = t then some (str countSelect) else field? params t := by
    intro t
    have hlimit : Distinct (CountWalk.paramsOf params) := distinct_erase hselect _
    have hstart : field? (CountWalk.fromBeginning params).params t = _ :=
      get?_erase_text hlimit "ExclusiveStartKey" t
    have hunlimited : field? (CountWalk.paramsOf params) t = _ :=
      get?_erase_text hselect "Limit" t
    rw [hstart]
    show (if _ then _ else field? (CountWalk.paramsOf params) t) = _
    rw [hunlimited]
    show (if _ then _ else if _ then _ else field? (putField _ _ _) t) = _
    rw [field?_putField]
  have hdirection : directionOf (CountWalk.fromBeginning params).params = directionOf params := by
    rw [directionOf, hparams, if_neg (by decide), if_neg (by decide), if_neg (by decide)]
    rfl
  refine ⟨rfl, ?_, ?_, ?_⟩
  · rw [hparams, if_neg (by decide), if_pos rfl]
  · rw [hparams, if_pos rfl, hdirection]
    rfl
  · exact ⟨[], by rw [hdirection, List.nil_append]⟩

/-! ### Turns -/

/-- A turn of a count that may read another page adds that page up. -/
theorem result_trip_count {policy : Policy} (h : w.isExhausted policy = .ok false)
    {progress : CountProgress} (habsorb : w.absorb (map (ix.answer w.params)) = .ok progress) :
    ((Process.count w).trip policy ix.respond ()).1.result =
      match progress with
      | .more w' => .ok (.goes (.count w'))
      | .complete v => .ok (.stops v) := by
  have hnext := Process.next_count_of_free h
  have hbind : ((.ok (map (ix.answer w.params)) : Reply) >>= w.absorb) = .ok progress := habsorb
  rw [Process.trip, hnext]
  show (Process.receiveCount policy w (.ok (map (ix.answer w.params)))).result = _
  rw [Process.receiveCount, hbind]
  cases progress <;> rfl

/-- A count that may read all pages of the rest sums up those of its records that pass the
filter. -/
theorem CountsFrom.result_run (h : ix.CountsFrom w total rest) {policy : Policy}
    (hpages : policy.AllowsPages (w.pages + (pagesOf ix.chunk rest).length)) {turns : ℕ}
    (hturns : (pagesOf ix.chunk rest).length ≤ turns) :
    ((Process.count w).run policy ix.respond turns ()).1.result
      = .ok (some (.int (total + (rest.filter ix.keep).length : ℕ))) := by
  have hpos := length_pagesOf_pos ix.chunk rest
  induction turns generalizing w total rest with
  | zero => omega
  | succ turns ih =>
    have hfree := hpages w (by omega)
    rw [Process.run]
    by_cases hle : rest.length ≤ ix.chunk
    · have hstops := result_trip_count hfree (h.absorb_of_le hle)
      simp only [hstops]
    · obtain ⟨w', habsorb, hw', hcounts⟩ := h.absorb_of_lt (by omega)
      have hgoes := result_trip_count hfree habsorb
      rw [pagesOf_of_lt ix.chunk_pos (by omega), List.length_cons] at hpages hturns
      have hrun := ih hcounts (by rw [hw']; exact hpages.mono (by omega)) (by omega)
        (length_pagesOf_pos ix.chunk _)
      simp only [hgoes]
      show ((Process.count w').run policy ix.respond turns ()).1.result = _
      rw [hrun, Nat.add_assoc, ← List.length_append, ← List.filter_append,
        List.take_append_drop]

end SortedIndex

end KeysetQuery

import KeysetQuery.Fault
import Mathlib.Data.List.Basic
import Mathlib.Data.List.Nodup
import Mathlib.Data.List.Perm.Subperm

/-!
# Look-ups in maps that were written

* `Entries.Distinct` — no key has two entries; writing keeps it so;
* `Entries.last?` — what was written last under a text key;
* `get?_ofList_text` — a map that a list writes holds what the list writes last;
* `get?_of_forall` — a look-up among entries that agree;
* `exists_of_mem_ofList` — the keys of a map that a list writes;
* `length_ofList_iff` — how many there are;
* `get?_put_text_of_ne`, `get?_erase_text` — writing or removing one key leaves the others alone;
* `putField_putField_self`, `putField_comm` — writing one key twice, and two keys in either order.
-/

namespace KeysetQuery

open Value

namespace Entries

/-! ### Look-ups -/

/-- What was written last under a text key, when entries are written one after the other. -/
def last? (es : Entries) (name : String) : Option Value := get? es.reverse (str name)

theorem get?_append (es fs : Entries) (k : Value) :
    get? (es ++ fs) k = (get? es k).or (get? fs k) := by
  induction es with
  | nil => rfl
  | cons e es ih =>
    obtain ⟨k', v⟩ := e
    by_cases h : same k' k = true <;> simp [get?, h, ih]

theorem get?_cons_text (s t : String) (v : Value) (es : Entries) :
    get? ((str s, v) :: es) (str t) = if s = t then some v else get? es (str t) := by
  by_cases h : s = t <;> simp [get?, h]

/-- The map that a list writes holds under a text key what the list writes last. -/
theorem get?_ofList_text (es : Entries) (t : String) : get? (ofList es) (str t) = es.last? t := by
  rw [ofList, get?_merge_text]
  simp [last?]

/-- A found entry is one of those that are there. -/
theorem mem_of_get?_text {es : Entries} {t : String} {v : Value}
    (h : get? es (str t) = some v) : (str t, v) ∈ es := by
  induction es with
  | nil => simp at h
  | cons e es ih =>
    obtain ⟨k, w⟩ := e
    by_cases hk : same k (str t) = true
    · rw [get?, if_pos hk] at h
      rw [same_iff_eq_str.1 hk, Option.some.inj h]
      exact List.mem_cons_self
    · rw [get?, if_neg hk] at h
      exact List.mem_cons_of_mem _ (ih h)

/-- A key that is there is found. -/
theorem get?_text_ne_none {es : Entries} {t : String} {v : Value} (h : (str t, v) ∈ es) :
    get? es (str t) ≠ none := by
  induction es with
  | nil => simp at h
  | cons e es ih =>
    obtain ⟨k, w⟩ := e
    by_cases hk : same k (str t) = true
    · simp [get?, hk]
    · rw [get?, if_neg hk]
      rcases List.mem_cons.1 h with heq | hmem
      · obtain ⟨rfl, -⟩ := Prod.mk.inj heq
        simp at hk
      · exact ih hmem

/-- A look-up of a text key among entries that agree on it. -/
theorem get?_of_forall {es : Entries} {t : String} {v : Value} (hmem : (str t, v) ∈ es)
    (hall : ∀ w, (str t, w) ∈ es → w = v) : get? es (str t) = some v := by
  obtain ⟨w, hw⟩ := Option.ne_none_iff_exists'.1 (get?_text_ne_none hmem)
  rw [hw, hall w (mem_of_get?_text hw)]

/-- A map that a list writes, at a text key on which the list agrees. -/
theorem get?_ofList_of_forall {es : Entries} {t : String} {v : Value} (hmem : (str t, v) ∈ es)
    (hall : ∀ w, (str t, w) ∈ es → w = v) : get? (ofList es) (str t) = some v := by
  rw [get?_ofList_text, last?]
  exact get?_of_forall (List.mem_reverse.2 hmem) fun w hw => hall w (List.mem_reverse.1 hw)

/-- A merge has the keys of both maps and no other ones. -/
theorem keys_merge_subset (es fs : Entries) : keys (merge es fs) ⊆ keys es ++ keys fs := by
  induction fs generalizing es with
  | nil =>
    rw [merge_nil]
    exact List.subset_append_left _ _
  | cons f fs ih =>
    rw [merge_cons]
    refine List.Subset.trans (ih _) ?_
    rw [keys_put]
    intro k hk
    split at hk
    · rcases List.mem_append.1 hk with hk | hk
      · exact List.mem_append_left _ hk
      · exact List.mem_append_right _ (List.mem_cons_of_mem f.1 hk)
    · rw [List.append_assoc, List.singleton_append] at hk
      exact hk

/-- A key of the map that a list writes is a key in the list. -/
theorem exists_of_mem_ofList {es : Entries} {e : Value × Value} (h : e ∈ ofList es) :
    ∃ f ∈ es, f.1 = e.1 :=
  List.mem_map.1 (keys_merge_subset [] es (List.mem_map_of_mem h))

/-! ### Distinct keys -/

/-- No key has two entries. -/
def Distinct (es : Entries) : Prop := (keys es).Pairwise fun k l => same k l = false

theorem distinct_singleton (e : Value × Value) : Distinct [e] := List.pairwise_singleton _ _

theorem distinct_put {es : Entries} (h : Distinct es) (k v : Value) : Distinct (put es k v) := by
  rw [Distinct, keys_put]
  split
  · exact h
  · rename_i hk
    refine List.pairwise_append.2 ⟨h, List.pairwise_singleton _ _, ?_⟩
    intro l hl m hm
    obtain ⟨e, he, rfl⟩ := List.mem_map.1 hl
    rw [List.mem_singleton.1 hm]
    by_contra hsame
    exact hk (List.any_eq_true.2 ⟨e, he, by simpa using hsame⟩)

theorem distinct_merge {es : Entries} (h : Distinct es) (fs : Entries) :
    Distinct (merge es fs) := by
  induction fs generalizing es with
  | nil => exact h
  | cons f fs ih => exact ih (distinct_put h f.1 f.2)

theorem distinct_ofList (es : Entries) : Distinct (ofList es) := by
  have hnil : Distinct [] := List.Pairwise.nil
  exact distinct_merge hnil es

/-- Text keys that are distinct are different. -/
theorem nodup_of_distinct {es : Entries} (h : Distinct es)
    (htext : ∀ k ∈ keys es, ∃ t, k = str t) : (keys es).Nodup := by
  refine List.Pairwise.imp_of_mem ?_ h
  intro k l hk _ hkl heq
  obtain ⟨t, rfl⟩ := htext k hk
  rw [← heq, same_str_iff.2 rfl] at hkl
  exact Bool.noConfusion hkl

/-- The map that a list writes has the text keys of the list. -/
theorem mem_keys_ofList {es : Entries} {t : String} (h : str t ∈ keys es) :
    str t ∈ keys (ofList es) := by
  obtain ⟨⟨k, v⟩, hmem, rfl⟩ := List.mem_map.1 h
  have hsome : get? (ofList es) (str t) ≠ none := by
    rw [get?_ofList_text]
    exact get?_text_ne_none (List.mem_reverse.2 hmem)
  obtain ⟨w, hw⟩ := Option.ne_none_iff_exists'.1 hsome
  exact List.mem_map_of_mem (f := Prod.fst) (mem_of_get?_text hw)

/-- The map that a list writes under text keys has the keys of the list and no other ones. -/
theorem mem_keys_ofList_iff {es : Entries} (htext : ∀ k ∈ keys es, ∃ t, k = str t) {k : Value} :
    k ∈ keys (ofList es) ↔ k ∈ keys es := by
  constructor
  · intro hk
    exact keys_merge_subset [] es hk
  · intro hk
    obtain ⟨t, rfl⟩ := htext k hk
    exact mem_keys_ofList hk

/-- The map that a list writes under text keys has as many entries as the list exactly if the list
writes under no key twice. -/
theorem length_ofList_iff {es : Entries} (htext : ∀ k ∈ keys es, ∃ t, k = str t) :
    (ofList es).length = es.length ↔ (keys es).Nodup := by
  have hsubset : keys (ofList es) ⊆ keys es := keys_merge_subset [] es
  have hnodup : (keys (ofList es)).Nodup :=
    nodup_of_distinct (distinct_ofList es) fun k hk => htext k (hsubset hk)
  constructor
  · intro hlen
    have hkeys : (keys es).length ≤ (keys (ofList es)).length := by
      rw [keys, keys, List.length_map, List.length_map]
      exact Nat.le_of_eq hlen.symm
    have hperm := (List.subperm_of_subset hnodup hsubset).perm_of_length_le hkeys
    exact hperm.nodup_iff.1 hnodup
  · intro hes
    have hperm : (keys (ofList es)).Perm (keys es) :=
      (List.perm_ext_iff_of_nodup hnodup hes).2 fun k => mem_keys_ofList_iff htext
    simpa [keys] using hperm.length_eq

/-- Where no key has two entries, the first one and the last one are the same. -/
theorem last?_eq_field? {es : Entries} (h : Distinct es) (t : String) :
    es.last? t = es.field? t := by
  induction es with
  | nil => rfl
  | cons e es ih =>
    obtain ⟨k, v⟩ := e
    obtain ⟨hhead, htail⟩ := List.pairwise_cons.1 h
    have hlast : last? ((k, v) :: es) t
        = (last? es t).or (if same k (str t) then some v else none) := by
      rw [last?, List.reverse_cons, get?_append]
      rfl
    rw [hlast, ih htail]
    by_cases hk : same k (str t) = true
    · have hnone : field? es t = none := by
        by_contra hsome
        obtain ⟨w, hw⟩ := Option.ne_none_iff_exists'.1 hsome
        have hmem : str t ∈ keys es := List.mem_map_of_mem (f := Prod.fst) (mem_of_get?_text hw)
        have := hhead _ hmem
        rw [hk] at this
        exact Bool.noConfusion this
      rw [hnone, if_pos hk, field?, get?, if_pos hk]
      rfl
    · rw [if_neg hk, Option.or_none, field?, field?, get?, if_neg hk]

theorem field?_putField (es : Entries) (s t : String) (v : Value) :
    (es.putField s v).field? t = if s = t then some v else es.field? t :=
  get?_put_text es s t v

/-- Writing a text key leaves every other key alone, whatever its kind. -/
theorem get?_put_text_of_ne (es : Entries) {k : Value} {s : String} (h : k ≠ str s) (v : Value) :
    get? (put es (str s) v) k = get? es k := by
  have hne : ¬ same (str s) k = true := fun hk => h (same_str_iff.1 hk)
  induction es with
  | nil => simp [put, get?, hne]
  | cons e es ih =>
    obtain ⟨k', w⟩ := e
    by_cases hk : same k' (str s) = true
    · have hks := same_iff_eq_str.1 hk
      subst hks
      rw [put, if_pos hk, get?, get?, if_neg hne, if_neg hne]
    · rw [put, if_neg hk, get?, get?, ih]

/-- A text key that is written twice holds the second value. -/
theorem putField_putField_self (es : Entries) (t : String) (v w : Value) :
    (es.putField t v).putField t w = es.putField t w := by
  have hself : same (str t) (str t) = true := same_str_iff.2 rfl
  show put (put es (str t) v) (str t) w = put es (str t) w
  induction es with
  | nil => rw [put, put, put, if_pos hself]
  | cons e es ih =>
    obtain ⟨k, u⟩ := e
    by_cases hk : same k (str t) = true
    · rw [put, put, if_pos hk, if_pos hk, put, if_pos hk]
    · rw [put, put, if_neg hk, if_neg hk, put, if_neg hk, ih]

/-- A text key that is there is written in its place, before another key is written or after. -/
theorem putField_comm {es : Entries} {s t : String} (hne : s ≠ t) (hs : es.field? s ≠ none)
    (v w : Value) : (es.putField t w).putField s v = (es.putField s v).putField t w := by
  show put (put es (str t) w) (str s) v = put (put es (str s) v) (str t) w
  induction es with
  | nil => exact absurd rfl hs
  | cons e es ih =>
    obtain ⟨k, u⟩ := e
    by_cases hks : same k (str s) = true
    · have hkt : ¬ same k (str t) = true := by
        rw [same_iff_eq_str.1 hks, same_str_iff]
        exact fun h => hne (str.inj h).symm
      rw [put, if_neg hkt, put, if_pos hks, put, if_pos hks, put, if_neg hkt]
    · by_cases hkt : same k (str t) = true
      · rw [put, if_pos hkt, put, if_neg hks, put, if_neg hks, put, if_pos hkt]
      · have hrest : field? es s ≠ none := by
          rwa [field?, get?, if_neg hks] at hs
        rw [put, if_neg hkt, put, if_neg hks, put, if_neg hks, put, if_neg hkt, ih hrest]

/-! ### Removing a key -/

/-- Removing a text key leaves every other key alone, whatever its kind. -/
theorem get?_erase_text_of_ne (es : Entries) {k : Value} {s : String} (h : k ≠ str s) :
    get? (erase es (str s)) k = get? es k := by
  have hne : ¬ same (str s) k = true := fun hk => h (same_str_iff.1 hk)
  induction es with
  | nil => rfl
  | cons e es ih =>
    obtain ⟨k', w⟩ := e
    by_cases hk : same k' (str s) = true
    · have hks := same_iff_eq_str.1 hk
      subst hks
      rw [erase, if_pos hk, get?, if_neg hne]
    · rw [erase, if_neg hk, get?, get?, ih]

/-- After a text key was removed, it is gone and every other text key holds what it held. -/
theorem get?_erase_text {es : Entries} (h : Distinct es) (s t : String) :
    get? (erase es (str s)) (str t) = if s = t then none else get? es (str t) := by
  induction es with
  | nil => simp [erase]
  | cons e es ih =>
    obtain ⟨k, v⟩ := e
    obtain ⟨hhead, htail⟩ := List.pairwise_cons.1 h
    by_cases hk : same k (str s) = true
    · have hks := same_iff_eq_str.1 hk
      subst hks
      rw [erase, if_pos hk, get?_cons_text]
      by_cases hst : s = t
      · subst hst
        rw [if_pos rfl]
        by_contra hsome
        obtain ⟨w, hw⟩ := Option.ne_none_iff_exists'.1 hsome
        have hmem : str s ∈ keys es := List.mem_map_of_mem (f := Prod.fst) (mem_of_get?_text hw)
        have := hhead _ hmem
        rw [hk] at this
        exact Bool.noConfusion this
      · rw [if_neg hst, if_neg hst]
    · rw [erase, if_neg hk, get?, ih htail]
      by_cases hkt : same k (str t) = true
      · have hkt' := same_iff_eq_str.1 hkt
        subst hkt'
        have hst : ¬ s = t := fun hst => hk (by rw [hst]; exact same_str_iff.2 rfl)
        rw [if_pos hkt, if_neg hst, get?, if_pos hkt]
      · rw [if_neg hkt, get?, if_neg hkt]

theorem distinct_erase {es : Entries} (h : Distinct es) (k : Value) : Distinct (erase es k) := by
  have hsub : (keys (erase es k)).Sublist (keys es) := by
    clear h
    induction es with
    | nil => exact List.Sublist.refl _
    | cons e es ih =>
      rw [erase]
      split
      · exact List.sublist_cons_self _ _
      · exact ih.cons_cons _
  exact List.Pairwise.sublist hsub h

end Entries

end KeysetQuery

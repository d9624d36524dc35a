/-!
# Segments of a text

* `segments` divides a text at every occurrence of a character;
* `intercalate_segments` puts the segments together again and gives the text back.
-/

namespace KeysetQuery.Text

/-! ### Dividing a list of characters -/

/-- The stretches between the occurrences of a separator, empty ones included. -/
def splitAt (sep : Char) : List Char → List (List Char)
  | [] => [[]]
  | c :: cs =>
    if c = sep then [] :: splitAt sep cs
    else match splitAt sep cs with
      | [] => [[c]]
      | s :: ss => (c :: s) :: ss

theorem splitAt_ne_nil (sep : Char) (cs : List Char) : splitAt sep cs ≠ [] := by
  induction cs with
  | nil => simp [splitAt]
  | cons c cs ih =>
    by_cases h : c = sep
    · simp [splitAt, h]
    · simp only [splitAt, h, if_false]
      split <;> simp

/-- No stretch holds the separator. -/
theorem not_mem_of_mem_splitAt {sep : Char} {cs s : List Char} (h : s ∈ splitAt sep cs) :
    sep ∉ s := by
  induction cs generalizing s with
  | nil => simp [splitAt] at h; simp [h]
  | cons c cs ih =>
    by_cases hc : c = sep
    · simp only [splitAt, hc, if_true, List.mem_cons] at h
      rcases h with rfl | h
      · simp
      · exact ih h
    · simp only [splitAt, hc, if_false] at h
      split at h
      · simp only [List.mem_singleton] at h
        subst h
        simp [Ne.symm hc]
      · rename_i t ts hts
        simp only [List.mem_cons] at h
        rcases h with rfl | h
        · have : sep ∉ t := ih (by rw [hts]; exact List.mem_cons_self)
          simp [Ne.symm hc, this]
        · exact ih (by rw [hts]; exact List.mem_cons_of_mem t h)

/-- The stretches, put together with the separator, are the text. -/
theorem intercalate_splitAt (sep : Char) (cs : List Char) :
    [sep].intercalate (splitAt sep cs) = cs := by
  induction cs with
  | nil => simp [splitAt, List.intercalate]
  | cons c cs ih =>
    by_cases h : c = sep
    · simp only [splitAt, h, if_true]
      cases hs : splitAt sep cs with
      | nil => exact absurd hs (splitAt_ne_nil sep cs)
      | cons t ts =>
        rw [hs] at ih
        simp [List.intercalate] at ih ⊢
        simpa using ih
    · simp only [splitAt, h, if_false]
      cases hs : splitAt sep cs with
      | nil => exact absurd hs (splitAt_ne_nil sep cs)
      | cons t ts =>
        rw [hs] at ih
        cases ts with
        | nil =>
          simp [List.intercalate] at ih ⊢
          exact ih
        | cons u us =>
          simp [List.intercalate] at ih ⊢
          exact ih

/-! ### Dividing a text -/

/-- The segments of a text between the occurrences of a separator. -/
def segments (sep : Char) (s : String) : List String :=
  (splitAt sep s.toList).map String.ofList

theorem segments_ne_nil (sep : Char) (s : String) : segments sep s ≠ [] := by
  simp [segments, splitAt_ne_nil]

/-- The segments, put together with the separator, are the text. -/
theorem intercalate_segments (sep : Char) (s : String) :
    (String.ofList [sep]).intercalate (segments sep s) = s := by
  apply String.toList_injective
  rw [String.toList_intercalate]
  simp only [segments, List.map_map, String.toList_ofList]
  have : (String.toList ∘ String.ofList) = (id : List Char → List Char) := by
    funext l; simp
  rw [this, List.map_id, intercalate_splitAt]

end KeysetQuery.Text

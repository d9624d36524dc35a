import KeysetQuery.Proofs.Expression.Joins

/-!
# Written clauses are read back

* `Clause.formula` — the formula that a clause about a path is;
* `Clause.IsAbout` — a clause speaks of one path and uses words as placeholders;
* `isClause_text` — such a clause is read as its formula.
-/

namespace KeysetQuery

open Value Reader

namespace Clause

/-! ### Formulas of clauses -/

/-- The formula that a clause is, when its path has the given aliases. -/
def formula (path : List String) : Clause → Formula
  | compare _ c placeholder => .test (.compare c) path [placeholder]
  | oneOf _ placeholders => .test .oneOf path placeholders
  | between _ low high => .test .between path [low, high]
  | call f _ none => .test (.call f) path []
  | call f _ (some placeholder) => .test (.call f) path [placeholder]
  | negated c => .negated (c.formula path)

/-- A path as it is written, in aliases. -/
def pathOf (aliases : List String) : String := ".".intercalate (aliases.map fun s => "#" ++ s)

/-- A clause speaks of a path, and its placeholders are words. -/
def IsAbout (path : List String) : Clause → Prop
  | compare p _ placeholder => p = pathOf path ∧ IsWord placeholder
  | oneOf p placeholders =>
    p = pathOf path ∧ placeholders ≠ [] ∧ ∀ s ∈ placeholders, IsWord s
  | between p low high => p = pathOf path ∧ IsWord low ∧ IsWord high
  | call _ p none => p = pathOf path
  | call _ p (some placeholder) => p = pathOf path ∧ IsWord placeholder
  | negated c => c.IsAbout path

theorem toList_pathOf (aliases : List String) :
    (pathOf aliases).toList = pathChars aliases := by
  rw [pathOf, String.toList_intercalate, pathChars, List.map_map]
  congr 1
  refine List.map_congr_left fun s _ => ?_
  simp

theorem toList_marked (s : String) : (marked s).toList = ':' :: s.toList := by
  simp [marked]

theorem toList_intercalate_marked (placeholders : List String) :
    (", ".intercalate (placeholders.map marked)).toList = listChars placeholders := by
  rw [String.toList_intercalate, List.map_map, listChars]
  congr 1
  exact List.map_congr_left fun s _ => toList_marked s

/-! ### Reading -/

section Reading

variable {path : List String}

/-- A text that begins with a path is read as a clause, if what stands behind the path is. -/
theorem isClause_of_path (hne : path ≠ []) (hw : ∀ s ∈ path, IsWord s) {tail : List Char}
    {f : Formula} (hend : ∀ rest, EndsWord (tail ++ ')' :: rest))
    (hdot : ∀ rest, literal "." (tail ++ ')' :: rest) = none)
    (htail : ∀ rest, relation path (tail ++ ')' :: rest) = some (f, ')' :: rest)) :
    IsClause (pathChars path ++ tail) f := by
  obtain ⟨cs, hcs⟩ := pathChars_eq_cons hne
  refine isClause_of_test ?_ ?_ ?_
  · intro rest
    rw [hcs]
    simp
  · intro rest
    rw [hcs]
    rfl
  · intro rest
    rw [List.append_assoc, test, path_append hne hw (hend rest) (hdot rest)]
    exact htail rest

/-- A test by name is read as a clause. -/
theorem isClause_of_call (f : Function) {tail : List Char} {g : Formula}
    (hcall : ∀ rest, Reader.call ((f.name ++ "(").toList ++ (tail ++ ')' :: rest))
      = some (g, ')' :: rest)) :
    IsClause ((f.name ++ "(").toList ++ tail) g := by
  have hpath : ∀ cs, Reader.path ((f.name ++ "(").toList ++ cs) = none := by
    intro cs
    cases f <;> rfl
  refine isClause_of_test ?_ ?_ ?_
  · intro rest
    cases f <;> simp [Function.name]
  · intro rest
    cases f <;> rfl
  · intro rest
    rw [List.append_assoc, test, hpath]
    exact hcall rest

/-- A clause about a path is read as its formula. -/
theorem isClause_text (hne : path ≠ []) (hw : ∀ s ∈ path, IsWord s) {c : Clause}
    (h : c.IsAbout path) : IsClause c.text.toList (c.formula path) := by
  induction c with
  | compare p c placeholder =>
    obtain ⟨rfl, hv⟩ := h
    have htext : (compare (pathOf path) c placeholder).text.toList
        = pathChars path ++ ((" " ++ c.sign ++ " ").toList ++ ':' :: placeholder.toList) := by
      simp [text, toList_pathOf, toList_marked]
    rw [htext]
    refine isClause_of_path hne hw (fun rest => ?_) (fun rest => ?_) fun rest => ?_
    · cases c <;> exact endsWord_cons (by decide) _
    · cases c <;> rfl
    · rw [List.append_assoc]
      exact relation_compare path c hv rest
  | oneOf p placeholders =>
    obtain ⟨rfl, hvne, hvs⟩ := h
    have htext : (oneOf (pathOf path) placeholders).text.toList
        = pathChars path ++ (" IN (".toList ++ (listChars placeholders ++ [')'])) := by
      simp [text, toList_pathOf, toList_intercalate_marked placeholders]
    rw [htext]
    refine isClause_of_path hne hw (fun rest => endsWord_cons (by decide) _) (fun rest => rfl)
      fun rest => ?_
    rw [List.append_assoc, List.append_assoc]
    exact relation_oneOf path hvne hvs rest
  | between p low high =>
    obtain ⟨rfl, hlow, hhigh⟩ := h
    have htext : (between (pathOf path) low high).text.toList
        = pathChars path ++ (" BETWEEN ".toList ++ (':' :: low.toList
          ++ (" AND ".toList ++ ':' :: high.toList))) := by
      simp [text, toList_pathOf, toList_marked]
    rw [htext]
    refine isClause_of_path hne hw (fun rest => endsWord_cons (by decide) _) (fun rest => rfl)
      fun rest => ?_
    rw [List.append_assoc, List.append_assoc, List.append_assoc]
    exact relation_between path hlow hhigh rest
  | call f p placeholder =>
    cases placeholder with
    | none =>
      subst h
      have htext : (call f (pathOf path) none).text.toList
          = (f.name ++ "(").toList ++ (pathChars path ++ [')']) := by
        simp [text, toList_pathOf]
      rw [htext]
      refine isClause_of_call f fun rest => ?_
      rw [List.append_assoc]
      exact call_unary f hne hw (')' :: rest)
    | some placeholder =>
      obtain ⟨rfl, hv⟩ := h
      have htext : (call f (pathOf path) (some placeholder)).text.toList
          = (f.name ++ "(").toList
            ++ (pathChars path ++ (", ".toList ++ (':' :: placeholder.toList ++ [')']))) := by
        simp [text, toList_pathOf, toList_marked]
      rw [htext]
      refine isClause_of_call f fun rest => ?_
      rw [List.append_assoc, List.append_assoc, List.append_assoc]
      exact call_binary f hne hw hv (')' :: rest)
  | negated c ih =>
    have htext : (negated c).text.toList = "NOT ".toList ++ c.text.toList := by
      simp [text]
    rw [htext]
    exact (ih h).not

end Reading

end Clause

end KeysetQuery

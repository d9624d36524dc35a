import KeysetQuery.Expression.Block
import KeysetQuery.Proofs.Expression.Reading

/-!
# Written joins are read back

* `IsClause`, `IsTerm` — a text that is read as a formula between parentheses, or as a term;
* `joined_all`, `joined_any` — terms with a conjunction between them are read as their join;
* `isTerm_block` — a block is a term;
* `read_filterText` — the blocks of a filter, written one after the other, are read as their join.
-/

namespace KeysetQuery

namespace Reader

/-! ### Clauses and terms -/

/-- A text that is read as a formula when a closing parenthesis stands behind it. -/
structure IsClause (text : List Char) (f : Formula) : Prop where
  /-- It is not taken for a join. -/
  opens : ∀ rest, (text ++ rest).head? ≠ some '('
  /-- As many negations as the text has characters are enough. -/
  reads : ∀ n, text.length ≤ n → ∀ rest,
    negations (n + 1) (text ++ ')' :: rest) = some (f, ')' :: rest)

theorem isClause_of_test {text : List Char} {f : Formula}
    (hopen : ∀ rest, (text ++ rest).head? ≠ some '(')
    (hnot : ∀ rest, literal "NOT " (text ++ rest) = none)
    (htest : ∀ rest, test (text ++ ')' :: rest) = some (f, ')' :: rest)) : IsClause text f := by
  refine ⟨hopen, ?_⟩
  intro n _ rest
  rw [negations, hnot]
  exact htest rest

theorem IsClause.not {text : List Char} {f : Formula} (h : IsClause text f) :
    IsClause ("NOT ".toList ++ text) (.negated f) := by
  refine ⟨fun rest => by simp, ?_⟩
  intro n hn rest
  rw [List.length_append] at hn
  cases n with
  | zero => simp at hn
  | succ n =>
    have hlen : text.length ≤ n := by
      have : "NOT ".toList.length = 4 := rfl
      omega
    rw [List.append_assoc, negations, literal_append]
    simp only [h.reads n hlen rest, Option.map_some]

/-- A text that is read as a term, whatever stands behind it. -/
structure IsTerm (join : Reader Formula) (text : List Char) (f : Formula) : Prop where
  opens : text.head? = some '('
  reads : ∀ rest, term join (text ++ rest) = some (f, rest)

/-- A clause in parentheses is a term. -/
theorem IsClause.isTerm {text : List Char} {f : Formula} (h : IsClause text f)
    (join : Reader Formula) : IsTerm join ('(' :: text ++ [')']) f := by
  refine ⟨rfl, ?_⟩
  intro rest
  have htext : '(' :: text ++ [')'] ++ rest = "(".toList ++ (text ++ ')' :: rest) := by simp
  have hread : clause (text ++ ')' :: rest) = some (f, ')' :: rest) :=
    h.reads _ (by simp) rest
  have hclose : literal ")" (')' :: rest) = some rest := rfl
  rw [htext]
  simp only [term, literal_append, Option.bind_eq_bind, Option.bind_some, h.opens, if_false, hread,
    hclose]

/-- A join in parentheses is a term, if it begins with a parenthesis. -/
theorem isTerm_of_join {join : Reader Formula} {text : List Char} {f : Formula}
    (hopen : text.head? = some '(')
    (hread : ∀ rest, join (text ++ ')' :: rest) = some (f, ')' :: rest)) :
    IsTerm join ('(' :: text ++ [')']) f := by
  refine ⟨rfl, ?_⟩
  intro rest
  have htext : '(' :: text ++ [')'] ++ rest = "(".toList ++ (text ++ ')' :: rest) := by simp
  have hhead : (text ++ ')' :: rest).head? = some '(' := by rw [List.head?_append, hopen]; rfl
  have hclose : literal ")" (')' :: rest) = some rest := rfl
  rw [htext]
  simp only [term, literal_append, Option.bind_eq_bind, Option.bind_some, hhead, if_true, hread,
    hclose]

/-! ### Joins -/

section Joins

variable {β : Type} {join : Reader Formula} {text : β → List Char} {form : β → Formula}

/-- Terms with a separator between them are read one after the other. -/
theorem separated_terms (separator : String) (hnil : separator.toList ≠ []) {b : β} {bs : List β}
    (hterm : ∀ c ∈ b :: bs, IsTerm join (text c) (form c)) {rest : List Char}
    (hstop : literal separator rest = none) :
    separated (term join) separator
        (separator.toList.intercalate ((b :: bs).map text) ++ rest)
      = some ((b :: bs).map form, rest) :=
  separated_intercalate (term join) separator text form (fun _ => True) (by simp) hnil
    (fun c hc rest _ => (hterm c hc).reads rest) (fun _ => trivial) trivial hstop

/-- A single item has no separator behind it. -/
theorem intercalate_singleton_eq (sep sep' : List Char) (b : β) :
    sep.intercalate ([b].map text) = sep'.intercalate ([b].map text) := by
  simp [List.intercalate]

/-- Terms with `AND` between them are read as their conjunction. -/
theorem joined_all {b : β} {bs : List β}
    (hterm : ∀ c ∈ b :: bs, IsTerm join (text c) (form c)) {rest : List Char}
    (hand : literal " AND " rest = none) (hor : literal " OR " rest = none) :
    joined join (" AND ".toList.intercalate ((b :: bs).map text) ++ rest)
      = some ((bs.map form).foldl .both (form b), rest) := by
  have hall := separated_terms " AND " (by simp) hterm hand
  cases bs with
  | cons c bs =>
    simp only [joined, hall]
    rfl
  | nil =>
    have hone := separated_terms " OR " (by simp) hterm hor
    rw [intercalate_singleton_eq _ " AND ".toList] at hone
    simp only [joined, hall, hone]
    rfl

/-- Terms with `OR` between them are read as their disjunction. -/
theorem joined_any {b : β} {bs : List β}
    (hterm : ∀ c ∈ b :: bs, IsTerm join (text c) (form c)) {rest : List Char}
    (hand : literal " AND " rest = none) (hor : literal " OR " rest = none) :
    joined join (" OR ".toList.intercalate ((b :: bs).map text) ++ rest)
      = some ((bs.map form).foldl .either (form b), rest) := by
  have hany := separated_terms " OR " (by simp) hterm hor
  cases bs with
  | nil =>
    rw [intercalate_singleton_eq _ " AND ".toList, joined_all hterm hand hor]
    rfl
  | cons c bs =>
    -- behind the first term stands no `AND`, so that the first attempt reads that term alone
    have hfirst : separated (term join) " AND "
        (" OR ".toList.intercalate ((b :: c :: bs).map text) ++ rest)
        = some ([form b], " OR ".toList
            ++ (" OR ".toList.intercalate ((c :: bs).map text) ++ rest)) := by
      have htext : " OR ".toList.intercalate ((b :: c :: bs).map text) ++ rest
          = " AND ".toList.intercalate ([b].map text) ++ (" OR ".toList
            ++ (" OR ".toList.intercalate ((c :: bs).map text) ++ rest)) := by
        simp [List.intercalate]
      have hb : ∀ d ∈ [b], IsTerm join (text d) (form d) := by
        intro d hd
        exact hterm d (List.mem_cons.2 (.inl (List.mem_singleton.1 hd)))
      rw [htext]
      exact separated_terms " AND " (by simp) hb rfl
    simp only [joined, hfirst, hany]
    rfl

end Joins

end Reader

/-! ### Blocks -/

/-- The join of formulas by a conjunction; there is nothing to join if there are none. -/
def Formula.join (conjunction : String) : List Formula → Formula
  | [] => .always
  | f :: fs => if conjunction = "OR" then fs.foldl .either f else fs.foldl .both f

namespace Reader

/-- The clauses of a block with its conjunction between them, as characters. -/
theorem toList_intercalate_parenthesised (conjunction : String) (cs : List Clause) :
    ((" " ++ conjunction ++ " ").intercalate
        (cs.map fun c => Block.parenthesised c.text)).toList
      = (" " ++ conjunction ++ " ").toList.intercalate
        (cs.map fun c => '(' :: c.text.toList ++ [')']) := by
  rw [String.toList_intercalate, List.map_map]
  congr 1
  refine List.map_congr_left fun c _ => ?_
  simp [Block.parenthesised]

section Blocks

variable {β : Type} {clause : β → Clause} {form : β → Formula} {conjunction : String}

/-- Clauses in parentheses, joined by a conjunction. -/
theorem joined_clauses (hconj : conjunction = "AND" ∨ conjunction = "OR") {b : β} {bs : List β}
    (hclause : ∀ c ∈ b :: bs, IsClause (clause c).text.toList (form c)) (join : Reader Formula)
    {rest : List Char} (hand : literal " AND " rest = none) (hor : literal " OR " rest = none) :
    joined join (((" " ++ conjunction ++ " ").intercalate
        (((b :: bs).map clause).map fun c => Block.parenthesised c.text)).toList ++ rest)
      = some (Formula.join conjunction ((b :: bs).map form), rest) := by
  have hterm : ∀ c ∈ b :: bs,
      IsTerm join ('(' :: (clause c).text.toList ++ [')']) (form c) := fun c hc =>
    (hclause c hc).isTerm join
  rw [toList_intercalate_parenthesised, List.map_map]
  rcases hconj with rfl | rfl
  · exact joined_all hterm hand hor
  · exact joined_any hterm hand hor

/-- A block that has a clause is a term. -/
theorem isTerm_block (hconj : conjunction = "AND" ∨ conjunction = "OR") {bs : List β}
    (hne : bs ≠ []) (hclause : ∀ c ∈ bs, IsClause (clause c).text.toList (form c)) (n : ℕ) :
    IsTerm (nested (n + 1)) (Block.mk conjunction (bs.map clause)).text.toList
      (Formula.join conjunction (bs.map form)) := by
  cases bs with
  | nil => exact absurd rfl hne
  | cons b bs =>
    cases bs with
    | nil =>
      have htext : (Block.mk conjunction ([b].map clause)).text.toList
          = '(' :: (clause b).text.toList ++ [')'] := by
        simp [Block.text, Block.parenthesised]
      have hform : Formula.join conjunction ([b].map form) = form b := by
        simp [Formula.join]
      rw [htext, hform]
      exact (hclause b List.mem_cons_self).isTerm _
    | cons c bs =>
      have htext : (Block.mk conjunction ((b :: c :: bs).map clause)).text.toList
          = '(' :: ((" " ++ conjunction ++ " ").intercalate
            (((b :: c :: bs).map clause).map fun c => Block.parenthesised c.text)).toList
            ++ [')'] := by
        simp [Block.text, Block.parenthesised]
      rw [htext]
      refine isTerm_of_join ?_ fun rest => joined_clauses hconj hclause (nested n) rfl rfl
      rw [toList_intercalate_parenthesised]
      simp [List.intercalate]

end Blocks

/-- The blocks of a filter are read as their conjunction. -/
theorem read_filterText {β : Type} {block : β → Block} {form : β → Formula} {bs : List β}
    (hne : bs ≠ [])
    (hterm : ∀ b ∈ bs, ∀ n, IsTerm (nested (n + 1)) (block b).text.toList (form b)) :
    Formula.read (filterText (bs.map block)) = some (Formula.join "AND" (bs.map form)) := by
  cases bs with
  | nil => exact absurd rfl hne
  | cons b bs =>
    have htext : (filterText ((b :: bs).map block)).toList
        = " AND ".toList.intercalate ((b :: bs).map fun c => (block c).text.toList) := by
      rw [filterText, String.toList_intercalate, List.map_map, List.map_map]
      rfl
    have hread : ∀ n, nested (n + 2) (filterText ((b :: bs).map block)).toList
        = some (Formula.join "AND" ((b :: bs).map form), []) := by
      intro n
      rw [htext, ← List.append_nil (List.intercalate _ _)]
      exact joined_all (fun c hc => hterm c hc n) rfl rfl
    have hempty : filterText ((b :: bs).map block) ≠ "" := by
      intro h
      have hhead := (hterm b List.mem_cons_self 0).opens
      rw [h] at htext
      cases bs with
      | nil => simp [List.intercalate] at htext; simp [htext] at hhead
      | cons c bs => simp [List.intercalate] at htext
    obtain ⟨n, hn⟩ : ∃ n, (filterText ((b :: bs).map block)).length = n + 1 :=
      Nat.exists_eq_succ_of_ne_zero fun h => hempty (String.length_eq_zero_iff.1 h)
    rw [Formula.read, if_neg hempty, hn, hread n]

end Reader

end KeysetQuery

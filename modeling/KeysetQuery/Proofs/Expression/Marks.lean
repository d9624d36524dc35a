import KeysetQuery.Expression.Placeholder
import KeysetQuery.Proofs.Expression.Clauses
import Mathlib.Data.List.TakeWhile

/-!
# Marked words

An alias or a placeholder occurs in an expression as a word behind a mark.

* `Mark.words` — the words behind a mark in a text, in order;
* `IsPlain`, `Divides` — pieces without marks, and those of them that no word goes on into;
* `words_behind`, `words_divided` — the words of a text are those of its pieces;
* `words_text` — the words of a clause are the aliases of its path and its placeholders;
* `words_block`, `words_filterText` — joining clauses and blocks neither adds nor loses a word.
-/

namespace KeysetQuery

open Value Reader

namespace Mark

/-- The character of a mark. -/
def char : Mark → Char
  | name => '#'
  | value => ':'

/-- The words behind a mark, each as long as it goes. -/
def words (m : Mark) : List Char → List String
  | [] => []
  | c :: cs =>
    if c = m.char then String.ofList (cs.takeWhile isWordChar) :: m.words cs else m.words cs

/-! ### Pieces -/

/-- A piece without marks. -/
def IsPlain (cs : List Char) : Prop := '#' ∉ cs ∧ ':' ∉ cs

instance (cs : List Char) : Decidable (IsPlain cs) := inferInstanceAs (Decidable (_ ∧ _))

/-- A piece that keeps what is in front of it from what is behind it. -/
def Divides (cs : List Char) : Prop := IsPlain cs ∧ cs.head?.any (fun c => !isWordChar c) = true

instance (cs : List Char) : Decidable (Divides cs) := inferInstanceAs (Decidable (_ ∧ _))

theorem Divides.endsWord {cs : List Char} (h : Divides cs) (rest : List Char) :
    EndsWord (cs ++ rest) := by
  obtain ⟨-, hhead⟩ := h
  cases cs with
  | nil => exact Bool.noConfusion hhead
  | cons c cs => exact endsWord_cons (by simpa using hhead) _

variable (m : Mark)

theorem IsPlain.char_notMem {cs : List Char} (h : IsPlain cs) : m.char ∉ cs := by
  cases m with
  | name => exact h.1
  | value => exact h.2

/-- A piece without marks adds no words to those behind it. -/
theorem words_behind (xs : List Char) (h : IsPlain xs) (ys : List Char) :
    m.words (xs ++ ys) = m.words ys := by
  have hmark := h.char_notMem m
  clear h
  induction xs with
  | nil => rfl
  | cons x xs ih =>
    rw [List.mem_cons, not_or] at hmark
    rw [List.cons_append, words, if_neg (Ne.symm hmark.1), ih hmark.2]

theorem words_of_isPlain {xs : List Char} (h : IsPlain xs) : m.words xs = [] := by
  rw [← List.append_nil xs, words_behind m xs h]
  rfl

/-- Where no word goes on, the words of a text are those of its two parts. -/
theorem words_append (xs : List Char) {ys : List Char} (h : EndsWord ys) :
    m.words (xs ++ ys) = m.words xs ++ m.words ys := by
  induction xs with
  | nil => rfl
  | cons x xs ih =>
    have htake : (xs ++ ys).takeWhile isWordChar = xs.takeWhile isWordChar := by
      rw [List.takeWhile_append, h.takeWhile, List.append_nil]
      split
      · rename_i hall
        exact (List.IsPrefix.eq_of_length (List.takeWhile_prefix _) hall).symm
      · rfl
    rw [List.cons_append, words, words, ih, htake]
    split <;> rfl

/-- The words on the two sides of a piece that divides them. -/
theorem words_divided (xs cs : List Char) (h : Divides cs) (ys : List Char) :
    m.words (xs ++ (cs ++ ys)) = m.words xs ++ m.words ys := by
  rw [words_append m xs (h.endsWord ys), words_behind m cs h.1]

/-- The words of pieces with the same division between any two of them. -/
theorem words_intercalate (cs : List Char) (h : Divides cs) (pieces : List (List Char)) :
    m.words (cs.intercalate pieces) = pieces.flatMap m.words := by
  induction pieces with
  | nil => rfl
  | cons piece pieces ih =>
    cases pieces with
    | nil => simp [List.intercalate]
    | cons next pieces =>
      have htext : cs.intercalate (piece :: next :: pieces)
          = piece ++ (cs ++ cs.intercalate (next :: pieces)) := by
        simp [List.intercalate]
      rw [htext, words_divided m piece cs h, ih]
      rfl

/-! ### Words behind marks -/

theorem isPlain_of_isWord {s : String} (hs : IsWord s) : IsPlain s.toList :=
  ⟨fun hmem => absurd (hs.2 _ hmem) (by decide), fun hmem => absurd (hs.2 _ hmem) (by decide)⟩

/-- A word behind a mark is found by this mark, and by no other one. -/
theorem words_marked (n : Mark) {s : String} (hs : IsWord s) :
    m.words (n.char :: s.toList) = if n = m then [s] else [] := by
  rw [words, words_of_isPlain m (isPlain_of_isWord hs), List.takeWhile_eq_self_iff.2 hs.2,
    String.ofList_toList]
  cases m <;> cases n <;> rfl

theorem words_intercalate_marked (n : Mark) (cs : List Char) (h : Divides cs) {ss : List String}
    (hss : ∀ s ∈ ss, IsWord s) :
    m.words (cs.intercalate (ss.map fun s => n.char :: s.toList)) = if n = m then ss else [] := by
  rw [words_intercalate m cs h, List.flatMap_map,
    List.flatMap_congr fun s hs => words_marked m n (hss s hs)]
  split
  · exact List.flatMap_singleton' ss
  · exact List.flatMap_eq_nil_iff.2 fun s _ => rfl

end Mark

/-! ### Clauses -/

namespace Clause

/-- The placeholders of a clause, in order. -/
def operands : Clause → List String
  | compare _ _ placeholder => [placeholder]
  | oneOf _ placeholders => placeholders
  | between _ low high => [low, high]
  | call _ _ placeholder => placeholder.toList
  | negated c => c.operands

/-- What a clause about a path has behind a mark. -/
def behind (path : List String) (c : Clause) : Mark → List String
  | .name => path
  | .value => c.operands

section Words

variable {path : List String}

/-- The words of a clause about a path are the aliases of the path and the placeholders. -/
theorem words_text (hw : ∀ s ∈ path, IsWord s) {c : Clause} (h : c.IsAbout path) (m : Mark) :
    m.words c.text.toList = c.behind path m := by
  have hbehind : ∀ c : Clause, c.behind path m
      = (if Mark.name = m then path else []) ++ (if Mark.value = m then c.operands else []) := by
    intro c
    cases m with
    | name => exact (List.append_nil path).symm
    | value => rfl
  have hpath : m.words (pathOf path).toList = if Mark.name = m then path else [] := by
    rw [toList_pathOf, pathChars]
    exact m.words_intercalate_marked .name _ (by decide) hw
  have hmark : ∀ {s : String}, IsWord s → m.words (marked s).toList
      = if Mark.value = m then [s] else [] := by
    intro s hs
    rw [toList_marked]
    exact m.words_marked .value hs
  rw [hbehind]
  induction c with
  | compare p c placeholder =>
    obtain ⟨rfl, hv⟩ := h
    have htext : (compare (pathOf path) c placeholder).text.toList
        = (pathOf path).toList ++ ((" " ++ c.sign ++ " ").toList ++ (marked placeholder).toList) := by
      simp [text]
    have hsign : Mark.Divides (" " ++ c.sign ++ " ").toList := by cases c <;> decide
    rw [htext, m.words_divided _ _ hsign, hpath, hmark hv]
    rfl
  | oneOf p placeholders =>
    obtain ⟨rfl, -, hvs⟩ := h
    have htext : (oneOf (pathOf path) placeholders).text.toList
        = (pathOf path).toList ++ (" IN (".toList
          ++ ((", ".intercalate (placeholders.map marked)).toList ++ (")".toList ++ []))) := by
      simp [text]
    have hlist : m.words (listChars placeholders)
        = if Mark.value = m then placeholders else [] :=
      m.words_intercalate_marked .value _ (by decide) hvs
    rw [htext, m.words_divided _ " IN (".toList (by decide), hpath,
      m.words_divided _ ")".toList (by decide), toList_intercalate_marked, hlist]
    exact congrArg _ (List.append_nil _)
  | between p low high =>
    obtain ⟨rfl, hlow, hhigh⟩ := h
    have htext : (between (pathOf path) low high).text.toList
        = (pathOf path).toList ++ (" BETWEEN ".toList ++ ((marked low).toList
          ++ (" AND ".toList ++ (marked high).toList))) := by
      simp [text]
    rw [htext, m.words_divided _ " BETWEEN ".toList (by decide), hpath,
      m.words_divided _ " AND ".toList (by decide), hmark hlow, hmark hhigh]
    congr 1
    split <;> rfl
  | call f p placeholder =>
    have hname : Mark.IsPlain (f.name ++ "(").toList := by cases f <;> decide
    cases placeholder with
    | none =>
      subst h
      have htext : (call f (pathOf path) none).text.toList
          = (f.name ++ "(").toList ++ ((pathOf path).toList ++ (")".toList ++ [])) := by
        simp [text]
      rw [htext, m.words_behind _ hname, m.words_divided _ ")".toList (by decide), hpath]
      exact congrArg _ (ite_self _).symm
    | some placeholder =>
      obtain ⟨rfl, hv⟩ := h
      have htext : (call f (pathOf path) (some placeholder)).text.toList
          = (f.name ++ "(").toList ++ ((pathOf path).toList
            ++ (", ".toList ++ ((marked placeholder).toList ++ (")".toList ++ [])))) := by
        simp [text]
      rw [htext, m.words_behind _ hname, m.words_divided _ ", ".toList (by decide), hpath,
        m.words_divided _ ")".toList (by decide), hmark hv]
      exact congrArg _ (List.append_nil _)
  | negated c ih =>
    have htext : (negated c).text.toList = "NOT ".toList ++ c.text.toList := by
      simp [text]
    rw [htext, m.words_behind "NOT ".toList (by decide)]
    exact ih h

end Words

end Clause

/-! ### Blocks -/

section Blocks

variable (m : Mark)

theorem words_parenthesised (s : String) :
    m.words (Block.parenthesised s).toList = m.words s.toList := by
  have htext : (Block.parenthesised s).toList = "(".toList ++ (s.toList ++ (")".toList ++ [])) := by
    simp [Block.parenthesised]
  rw [htext, m.words_behind "(".toList (by decide), m.words_divided _ ")".toList (by decide)]
  exact List.append_nil _

/-- The words of texts that are joined by a conjunction. -/
theorem words_joined {conjunction : String} (hconj : conjunction = "AND" ∨ conjunction = "OR")
    (texts : List String) :
    m.words ((" " ++ conjunction ++ " ").intercalate texts).toList
      = texts.flatMap fun s => m.words s.toList := by
  have hdivides : Mark.Divides (" " ++ conjunction ++ " ").toList := by
    rcases hconj with rfl | rfl <;> decide
  rw [String.toList_intercalate, m.words_intercalate _ hdivides, List.flatMap_map]

/-- The words of a block are those of its clauses. -/
theorem words_block {b : Block} (hconj : b.conjunction = "AND" ∨ b.conjunction = "OR") :
    m.words b.text.toList = b.clauses.flatMap fun c => m.words c.text.toList := by
  have hjoined : m.words ((" " ++ b.conjunction ++ " ").intercalate
      (b.clauses.map fun c => Block.parenthesised c.text)).toList
        = b.clauses.flatMap fun c => m.words c.text.toList := by
    rw [words_joined m hconj, List.flatMap_map]
    exact List.flatMap_congr fun c _ => words_parenthesised m c.text
  rw [Block.text]
  split
  · rw [words_parenthesised, hjoined]
  · exact hjoined

/-- The words of a filter are those of its blocks. -/
theorem words_filterText (blocks : List Block) :
    m.words (filterText blocks).toList = blocks.flatMap fun b => m.words b.text.toList := by
  have hjoined := words_joined m (.inl rfl) (blocks.map Block.text)
  rw [List.flatMap_map] at hjoined
  exact hjoined

end Blocks

end KeysetQuery

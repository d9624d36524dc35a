import KeysetQuery.Proofs.Expression.Reader
import Mathlib.Data.List.Basic

/-!
# What is written is read back

Each reader is applied to a text of its kind with something behind it.

* `IsWord`, `EndsWord` — a word, and a rest in which no word goes on;
* `word_append`, `marked_append`, `separated_intercalate` — pieces are read as they were written;
* `relation_compare`, `relation_oneOf`, `relation_between`, `call_unary`, `call_binary` — so are the
  primitive tests.
-/

namespace KeysetQuery

namespace Reader

/-! ### Words -/

/-- A word: one character at least, and only those of words. -/
def IsWord (s : String) : Prop := s ≠ "" ∧ ∀ c ∈ s.toList, isWordChar c = true

instance (s : String) : Decidable (IsWord s) :=
  decidable_of_iff (s ≠ "" ∧ s.toList.all isWordChar = true) (by rw [IsWord, List.all_eq_true])

/-- A rest in which no word goes on. -/
def EndsWord (cs : List Char) : Prop := ∀ c ∈ cs.head?, isWordChar c = false

theorem endsWord_cons {c : Char} (h : isWordChar c = false) (cs : List Char) :
    EndsWord (c :: cs) := by
  intro d hd
  rw [List.head?_cons, Option.mem_some_iff] at hd
  rwa [← hd]

theorem EndsWord.takeWhile {cs : List Char} (h : EndsWord cs) : cs.takeWhile isWordChar = [] := by
  cases cs with
  | nil => rfl
  | cons c cs => rw [List.takeWhile_cons, h c rfl]; rfl

theorem EndsWord.dropWhile {cs : List Char} (h : EndsWord cs) : cs.dropWhile isWordChar = cs := by
  cases cs with
  | nil => rfl
  | cons c cs => rw [List.dropWhile_cons, h c rfl]; rfl

/-- A fixed piece is taken away from a text that begins with it. -/
theorem literal_append (s : String) (cs : List Char) : literal s (s.toList ++ cs) = some cs := by
  unfold literal
  induction s.toList with
  | nil => rfl
  | cons c ps ih => simp [List.isPrefixOf?, ih]

/-- A word is read up to its end. -/
theorem word_append {s : String} (hs : IsWord s) {rest : List Char} (hrest : EndsWord rest) :
    word (s.toList ++ rest) = some (s, rest) := by
  have htake : (s.toList ++ rest).takeWhile isWordChar = s.toList := by
    rw [List.takeWhile_append_of_pos hs.2, hrest.takeWhile, List.append_nil]
  have hdrop : (s.toList ++ rest).dropWhile isWordChar = rest := by
    rw [List.dropWhile_append_of_pos hs.2, hrest.dropWhile]
  have hne : s.toList ≠ [] := fun h => hs.1 (String.toList_eq_nil_iff.1 h)
  simp only [word, htake, hdrop, List.isEmpty_iff, hne, if_false, String.ofList_toList]

theorem marked_append (mark : Char) {s : String} (hs : IsWord s) {rest : List Char}
    (hrest : EndsWord rest) : marked mark (mark :: s.toList ++ rest) = some (s, rest) := by
  rw [List.cons_append, marked, if_pos rfl, word_append hs hrest]

/-! ### Items with separators -/

section Separated

variable {α β : Type} {item : Reader α} {separator : String} {text : β → List Char}
  {value : β → α} {Fits : List Char → Prop}

/-- Items are read one after the other.  `Fits` is what may stand behind an item. -/
theorem separatedUpTo_intercalate {bs : List β} (hne : bs ≠ [])
    (hitem : ∀ b ∈ bs, ∀ rest, Fits rest → item (text b ++ rest) = some (value b, rest))
    (hsep : ∀ rest, Fits (separator.toList ++ rest)) {rest : List Char} (hfits : Fits rest)
    (hstop : literal separator rest = none) {n : ℕ} (hn : bs.length ≤ n) :
    separatedUpTo item separator n (separator.toList.intercalate (bs.map text) ++ rest)
      = some (bs.map value, rest) := by
  induction bs generalizing n with
  | nil => exact absurd rfl hne
  | cons b bs ih =>
    cases n with
    | zero => simp at hn
    | succ n =>
      have hb := hitem b List.mem_cons_self
      cases bs with
      | nil =>
        have htext : separator.toList.intercalate ([b].map text) ++ rest = text b ++ rest := by
          simp [List.intercalate]
        rw [htext, separatedUpTo, hb rest hfits]
        simp only [Option.bind_eq_bind, Option.bind_some, hstop, List.map_cons, List.map_nil]
      | cons c bs =>
        have htail := ih (by simp) (fun d hd => hitem d (List.mem_cons_of_mem b hd))
          (n := n) (by simpa using hn)
        have htext : separator.toList.intercalate ((b :: c :: bs).map text) ++ rest
            = text b ++ (separator.toList
              ++ (separator.toList.intercalate ((c :: bs).map text) ++ rest)) := by
          simp [List.intercalate]
        rw [htext, separatedUpTo, hb _ (hsep _)]
        simp only [Option.bind_eq_bind, Option.bind_some, literal_append, htail]
        rfl

theorem length_le_intercalate {γ : Type} {sep : List γ} (hsep : sep ≠ []) (ls : List (List γ)) :
    ls.length ≤ (sep.intercalate ls).length + 1 := by
  have hpos : 0 < sep.length := List.length_pos_iff.2 hsep
  induction ls with
  | nil => simp
  | cons l ls ih =>
    cases ls with
    | nil => simp
    | cons m ls =>
      have htext : sep.intercalate (l :: m :: ls) = l ++ (sep ++ sep.intercalate (m :: ls)) := by
        simp [List.intercalate]
      rw [htext]
      simp only [List.length_append, List.length_cons] at ih ⊢
      omega

/-- A text of items with separators is read as these items. -/
theorem separated_intercalate (item : Reader α) (separator : String) (text : β → List Char)
    (value : β → α) (Fits : List Char → Prop) {bs : List β} (hne : bs ≠ [])
    (hnil : separator.toList ≠ [])
    (hitem : ∀ b ∈ bs, ∀ rest, Fits rest → item (text b ++ rest) = some (value b, rest))
    (hsep : ∀ rest, Fits (separator.toList ++ rest)) {rest : List Char} (hfits : Fits rest)
    (hstop : literal separator rest = none) :
    separated item separator (separator.toList.intercalate (bs.map text) ++ rest)
      = some (bs.map value, rest) := by
  refine separatedUpTo_intercalate hne hitem hsep hfits hstop ?_
  have hlen := length_le_intercalate hnil (bs.map text)
  rw [List.length_map] at hlen
  rw [List.length_append]
  omega

end Separated

/-! ### Paths and lists of placeholders -/

/-- A path in aliases, as characters. -/
def pathChars (aliases : List String) : List Char :=
  ".".toList.intercalate (aliases.map fun s => '#' :: s.toList)

/-- A list of placeholders, as characters. -/
def listChars (placeholders : List String) : List Char :=
  ", ".toList.intercalate (placeholders.map fun s => ':' :: s.toList)

theorem path_append {aliases : List String} (hne : aliases ≠ []) (hw : ∀ s ∈ aliases, IsWord s)
    {rest : List Char} (hend : EndsWord rest) (hdot : literal "." rest = none) :
    path (pathChars aliases ++ rest) = some (aliases, rest) := by
  have h := separated_intercalate (marked '#') "." (fun s : String => '#' :: s.toList) id EndsWord
    hne (by simp)
    (fun s hs rest hrest => marked_append '#' (hw s hs) hrest)
    (fun rest => endsWord_cons (by decide) rest) hend hdot
  rwa [List.map_id] at h

theorem listed_append {placeholders : List String} (hne : placeholders ≠ [])
    (hw : ∀ s ∈ placeholders, IsWord s) (rest : List Char) :
    listed (listChars placeholders ++ ')' :: rest) = some (placeholders, ')' :: rest) := by
  have h := separated_intercalate (marked ':') ", " (fun s : String => ':' :: s.toList) id EndsWord
    hne (by simp)
    (fun s hs rest hrest => marked_append ':' (hw s hs) hrest)
    (fun rest => endsWord_cons (by decide) (' ' :: rest))
    (endsWord_cons (c := ')') (by decide) rest) rfl
  rwa [List.map_id] at h

/-! ### Primitive tests -/

/-- A text that begins with a mark, or with a letter, begins with no other one. -/
theorem pathChars_eq_cons {aliases : List String} (hne : aliases ≠ []) :
    ∃ cs, pathChars aliases = '#' :: cs := by
  cases aliases with
  | nil => exact absurd rfl hne
  | cons s aliases =>
    cases aliases with
    | nil => exact ⟨s.toList, by simp [pathChars, List.intercalate]⟩
    | cons t aliases => exact ⟨_, by simp [pathChars, List.intercalate]; rfl⟩

theorem sign_append (c : Comparison) (cs : List Char) :
    sign ((" " ++ c.sign ++ " ").toList ++ cs) = some (c, cs) := by
  cases c <;> rfl

theorem relation_compare (p : List String) (c : Comparison) {v : String} (hv : IsWord v)
    (rest : List Char) :
    relation p ((" " ++ c.sign ++ " ").toList ++ (':' :: v.toList ++ ')' :: rest))
      = some (.test (.compare c) p [v], ')' :: rest) := by
  have hmark := marked_append ':' hv (endsWord_cons (c := ')') (by decide) rest)
  simp only [relation, sign_append, hmark, Option.bind_eq_bind, Option.bind_some]

theorem relation_oneOf (p : List String) {vs : List String} (hne : vs ≠ [])
    (hvs : ∀ v ∈ vs, IsWord v) (rest : List Char) :
    relation p (" IN (".toList ++ (listChars vs ++ ')' :: ')' :: rest))
      = some (.test .oneOf p vs, ')' :: rest) := by
  have hsign : sign (" IN (".toList ++ (listChars vs ++ ')' :: ')' :: rest)) = none := rfl
  have hclose : literal ")" (')' :: ')' :: rest) = some (')' :: rest) := rfl
  simp only [relation, hsign, literal_append, listed_append hne hvs, hclose, Option.bind_eq_bind,
    Option.bind_some]

theorem relation_between (p : List String) {low high : String} (hlow : IsWord low)
    (hhigh : IsWord high) (rest : List Char) :
    relation p (" BETWEEN ".toList ++ (':' :: low.toList
        ++ (" AND ".toList ++ (':' :: high.toList ++ ')' :: rest))))
      = some (.test .between p [low, high], ')' :: rest) := by
  have hlowRead := marked_append ':' hlow
    (endsWord_cons (c := ' ') (by decide)
      ("AND ".toList ++ (':' :: high.toList ++ ')' :: rest)))
  have hhighRead := marked_append ':' hhigh (endsWord_cons (c := ')') (by decide) rest)
  have hsign : sign (" BETWEEN ".toList ++ (':' :: low.toList
      ++ (" AND ".toList ++ (':' :: high.toList ++ ')' :: rest)))) = none := rfl
  have hin : literal " IN (" (" BETWEEN ".toList ++ (':' :: low.toList
      ++ (" AND ".toList ++ (':' :: high.toList ++ ')' :: rest)))) = none := rfl
  have hand : ∀ cs, " AND ".toList ++ cs = ' ' :: ("AND ".toList ++ cs) := fun cs => rfl
  rw [← hand] at hlowRead
  simp only [relation, hsign, hin, literal_append, hlowRead, hhighRead, Option.bind_eq_bind,
    Option.bind_some]

theorem functionName_append (f : Function) (cs : List Char) :
    functionName ((f.name ++ "(").toList ++ cs) = some (f, cs) := by
  cases f <;> rfl

theorem call_unary (f : Function) {p : List String} (hne : p ≠ []) (hp : ∀ s ∈ p, IsWord s)
    (rest : List Char) :
    call ((f.name ++ "(").toList ++ (pathChars p ++ ')' :: rest))
      = some (.test (.call f) p [], rest) := by
  have hpath : path (pathChars p ++ ')' :: rest) = some (p, ')' :: rest) :=
    path_append hne hp (endsWord_cons (by decide) rest) rfl
  have hnone : operands (')' :: rest) = some ([], ')' :: rest) := rfl
  have hclose : literal ")" (')' :: rest) = some rest := rfl
  simp only [call, functionName_append, hpath, hnone, hclose, Option.bind_eq_bind,
    Option.bind_some]

theorem call_binary (f : Function) {p : List String} (hne : p ≠ []) (hp : ∀ s ∈ p, IsWord s)
    {v : String} (hv : IsWord v) (rest : List Char) :
    call ((f.name ++ "(").toList
        ++ (pathChars p ++ (", ".toList ++ (':' :: v.toList ++ ')' :: rest))))
      = some (.test (.call f) p [v], rest) := by
  have hpath : path (pathChars p ++ (", ".toList ++ (':' :: v.toList ++ ')' :: rest)))
      = some (p, ", ".toList ++ (':' :: v.toList ++ ')' :: rest)) :=
    path_append hne hp (endsWord_cons (c := ',') (by decide) _) rfl
  have hmark := marked_append ':' hv (endsWord_cons (c := ')') (by decide) rest)
  have hclose : literal ")" (')' :: rest) = some rest := rfl
  simp only [call, functionName_append, hpath, operands, literal_append, hmark, hclose,
    Option.bind_eq_bind, Option.bind_some]

end Reader

end KeysetQuery

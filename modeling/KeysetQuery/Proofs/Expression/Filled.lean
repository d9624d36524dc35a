import KeysetQuery.Proofs.Expression.Marks

/-!
# Templates and what fills them

A template holds marks and nothing behind them; a text fills it with a piece behind each mark.

* `withoutWords` — a text without the words right behind its marks;
* `Fills` — a text fills a template with some pieces;
* `Fills.divided`, `Fills.intercalate` — texts that fill templates are put together;
* `Fills.withoutWords_eq_iff` — a text shows its template, once the words behind its marks are left
  out, exactly if it is filled with words.
-/

namespace KeysetQuery

open Reader

/-! ### Texts without words -/

/-- A text without the words right behind its marks; such a word may go on from what is in front. -/
def withoutWords : Bool → List Char → List Char
  | _, [] => []
  | goesOn, c :: cs =>
    if goesOn && isWordChar c then withoutWords true cs
    else c :: withoutWords (c == Mark.name.char || c == Mark.value.char) cs

/-- The characters that stand in no word. -/
def oddChars (cs : List Char) : List Char := cs.filter fun c => !isWordChar c

theorem oddChars_eq_nil_iff {cs : List Char} : oddChars cs = [] ↔ ∀ c ∈ cs, isWordChar c = true := by
  rw [oddChars, List.filter_eq_nil_iff]
  simp only [Bool.not_eq_true', Bool.not_eq_false]

theorem oddChars_append (xs ys : List Char) : oddChars (xs ++ ys) = oddChars xs ++ oddChars ys :=
  List.filter_append xs ys

/-- With the words only characters of words are left out. -/
theorem oddChars_withoutWords (goesOn : Bool) (cs : List Char) :
    oddChars (withoutWords goesOn cs) = oddChars cs := by
  induction cs generalizing goesOn with
  | nil => rfl
  | cons c cs ih =>
    unfold withoutWords
    by_cases hword : (goesOn && isWordChar c) = true
    · have hc : isWordChar c = true := (Bool.and_eq_true_iff.1 hword).2
      rw [if_pos hword, ih]
      simp [oddChars, hc]
    · rw [if_neg hword]
      have hrest := ih (c == Mark.name.char || c == Mark.value.char)
      simp only [oddChars, List.filter_cons] at hrest ⊢
      rw [hrest]

theorem withoutWords_of_endsWord {cs : List Char} (h : EndsWord cs) :
    withoutWords true cs = withoutWords false cs := by
  cases cs with
  | nil => rfl
  | cons c cs =>
    have hc : isWordChar c = false := h c rfl
    simp [withoutWords, hc]

theorem withoutWords_word_append {w : List Char} (hw : ∀ c ∈ w, isWordChar c = true)
    (cs : List Char) : withoutWords true (w ++ cs) = withoutWords true cs := by
  induction w with
  | nil => rfl
  | cons c w ih =>
    rw [List.cons_append, withoutWords, hw c List.mem_cons_self, if_pos (by simp),
      ih fun d hd => hw d (List.mem_cons_of_mem c hd)]

theorem Reader.EndsWord.append {xs ys : List Char} (hx : EndsWord xs) (hy : EndsWord ys) :
    EndsWord (xs ++ ys) := by
  cases xs with
  | nil => exact hy
  | cons x xs => exact hx

theorem Mark.isWordChar_char (m : Mark) : isWordChar m.char = false := by
  cases m <;> decide

/-! ### Filled templates -/

/-- A text is a template with pieces behind its marks.  In the template no word goes on behind a
mark. -/
inductive Fills : List Char → List Char → List (List Char) → Prop
  | nil : Fills [] [] []
  | keep {c : Char} {text template : List Char} {pieces : List (List Char)}
    (hc : c ≠ Mark.name.char ∧ c ≠ Mark.value.char) (h : Fills text template pieces) :
    Fills (c :: text) (c :: template) pieces
  | mark (m : Mark) (piece : List Char) {text template : List Char} {pieces : List (List Char)}
    (hend : EndsWord template) (h : Fills text template pieces) :
    Fills (m.char :: (piece ++ text)) (m.char :: template) (piece :: pieces)

namespace Fills

variable {text text' template template' : List Char} {pieces pieces' : List (List Char)}

/-- Where no word goes on in a template, none does in the text. -/
theorem endsWord (h : Fills text template pieces) (hend : EndsWord template) : EndsWord text := by
  cases h with
  | nil => exact hend
  | keep | mark => exact endsWord_cons (hend _ rfl) _

/-- A text has as many odd characters as its template and the pieces. -/
theorem length_oddChars (h : Fills text template pieces) : (oddChars text).length
    = (oddChars template).length + (pieces.flatMap oddChars).length := by
  induction h with
  | nil => rfl
  | @keep c text template pieces _ _ ih =>
    have hcons : ∀ cs, oddChars (c :: cs) = oddChars [c] ++ oddChars cs := fun cs =>
      oddChars_append [c] cs
    rw [hcons text, hcons template, List.length_append, List.length_append, ih]
    omega
  | @mark m piece text template pieces _ _ ih =>
    have hcons : ∀ cs, oddChars (m.char :: cs) = m.char :: oddChars cs := fun cs => by
      simp [oddChars, m.isWordChar_char]
    rw [hcons, hcons, oddChars_append, List.flatMap_cons, List.length_cons, List.length_cons,
      List.length_append, List.length_append, ih]
    omega

/-- Filled with words, a text shows its template once these are left out. -/
theorem withoutWords_eq (h : Fills text template pieces)
    (hwords : ∀ piece ∈ pieces, ∀ c ∈ piece, isWordChar c = true) :
    withoutWords false text = template := by
  induction h with
  | nil => rfl
  | @keep c text template pieces hc _ ih =>
    rw [withoutWords, Bool.false_and, if_neg (by simp), beq_false_of_ne hc.1,
      beq_false_of_ne hc.2, Bool.or_false, ih hwords]
  | @mark m piece text template pieces hend h ih =>
    have hrest := ih fun p hp => hwords p (List.mem_cons_of_mem piece hp)
    have hmark : (m.char == Mark.name.char || m.char == Mark.value.char) = true := by
      cases m <;> rfl
    rw [withoutWords, Bool.false_and, if_neg (by simp), hmark,
      withoutWords_word_append (hwords piece List.mem_cons_self),
      withoutWords_of_endsWord (h.endsWord hend), hrest]

/-- A text shows its template, once the words behind its marks are left out, exactly if it is filled
with words: any other character of a piece would be left. -/
theorem withoutWords_eq_iff (h : Fills text template pieces) :
    withoutWords false text = template ↔
      ∀ piece ∈ pieces, ∀ c ∈ piece, isWordChar c = true := by
  constructor
  · intro heq piece hpiece
    have hodd := h.length_oddChars
    rw [← heq, oddChars_withoutWords] at hodd
    have hnone : (pieces.flatMap oddChars).length = 0 := by omega
    exact oddChars_eq_nil_iff.1
      (List.flatMap_eq_nil_iff.1 (List.length_eq_zero_iff.1 hnone) piece hpiece)
  · exact h.withoutWords_eq

/-! ### Composition -/

/-- A piece without marks in front. -/
theorem behind (h : Fills text template pieces) (cs : List Char) (hcs : Mark.IsPlain cs) :
    Fills (cs ++ text) (cs ++ template) pieces := by
  induction cs with
  | nil => exact h
  | cons c cs ih =>
    obtain ⟨hname, hvalue⟩ := hcs
    rw [List.mem_cons, not_or] at hname hvalue
    exact .keep ⟨Ne.symm hname.1, Ne.symm hvalue.1⟩ (ih ⟨hname.2, hvalue.2⟩)

/-- A piece behind a mark. -/
theorem single (m : Mark) (piece : List Char) : Fills (m.char :: piece) [m.char] [piece] := by
  have h := Fills.mark m piece (by simp [EndsWord]) .nil
  rwa [List.append_nil] at h

theorem append (h : Fills text template pieces) (h' : Fills text' template' pieces')
    (hend : EndsWord template') :
    Fills (text ++ text') (template ++ template') (pieces ++ pieces') := by
  induction h with
  | nil => exact h'
  | keep hc _ ih => exact .keep hc ih
  | mark m piece hend' _ ih =>
    rw [List.cons_append, List.append_assoc]
    exact .mark m piece (hend'.append hend) ih

/-- Two texts on the sides of a piece that divides them. -/
theorem divided (h : Fills text template pieces) (cs : List Char) (hcs : Mark.Divides cs)
    (h' : Fills text' template' pieces') :
    Fills (text ++ (cs ++ text')) (template ++ (cs ++ template')) (pieces ++ pieces') :=
  h.append (h'.behind cs hcs.1) (hcs.endsWord template')

/-- Texts with the same division between any two of them. -/
theorem intercalate (cs : List Char) (hcs : Mark.Divides cs) {β : Type}
    {textOf templateOf : β → List Char} {piecesOf : β → List (List Char)} {bs : List β}
    (h : ∀ b ∈ bs, Fills (textOf b) (templateOf b) (piecesOf b)) :
    Fills (cs.intercalate (bs.map textOf)) (cs.intercalate (bs.map templateOf))
      (bs.flatMap piecesOf) := by
  induction bs with
  | nil => exact .nil
  | cons b bs ih =>
    have hrest := ih fun d hd => h d (List.mem_cons_of_mem b hd)
    have hb := h b List.mem_cons_self
    cases bs with
    | nil => simpa [List.intercalate] using hb
    | cons d bs =>
      have htext : ∀ f : β → List Char, cs.intercalate ((b :: d :: bs).map f)
          = f b ++ (cs ++ cs.intercalate ((d :: bs).map f)) := fun f => by simp [List.intercalate]
      rw [htext, htext, List.flatMap_cons]
      exact hb.divided cs hcs hrest

end Fills

end KeysetQuery

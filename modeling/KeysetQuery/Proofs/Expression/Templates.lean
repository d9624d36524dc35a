import KeysetQuery.Expression.Update
import KeysetQuery.Proofs.Expression.Filled
import KeysetQuery.Proofs.Expression.Meaning
import KeysetQuery.Proofs.Expression.Overlaps

/-!
# Templates of expressions

Names stand behind marks, and everything else in an expression is the same whatever the names are.

* `Operator.template`, `Attribute.template` — how the clause of a condition looks without its names;
* `conditionTemplate`, `updateTemplate` — one clause for each attribute, and what joins them;
* `Clause.fills_text` — the clause of a condition fills its template with aliases and placeholders;
* `Attribute.IsWordy` — name and path are made of letters, digits, underscores and the dots between
  segments;
* `shows_template_iff` — the names of an expression are all that differs from its template exactly if
  all attributes are such.  Any other character of a name stands in the expression as it is.
-/

namespace KeysetQuery

open Value Reader

/-! ### Templates -/

/-- The path of an attribute without its names: a mark for each segment. -/
def Attribute.pathTemplate (a : Attribute) : String :=
  ".".intercalate (a.aliases.map fun _ => Mark.name.text)

/-- The clause for an operator without its names. -/
def Operator.template (a : Attribute) : Operator → String
  | compare c => a.pathTemplate ++ " " ++ c.sign ++ " :"
  | differs => "NOT " ++ a.pathTemplate ++ " = :"
  | oneOf =>
    a.pathTemplate ++ " IN (" ++ ", ".intercalate ((a.value.items?.getD []).map fun _ => ":") ++ ")"
  | noneOf =>
    "NOT " ++ a.pathTemplate ++ " IN ("
      ++ ", ".intercalate ((a.value.items?.getD []).map fun _ => ":") ++ ")"
  | between => a.pathTemplate ++ " BETWEEN : AND :"
  | contains => "contains(" ++ a.pathTemplate ++ ", :)"
  | startsWith => "begins_with(" ++ a.pathTemplate ++ ", :)"
  | .exists =>
    (if a.value.truthy then "attribute_exists(" else "attribute_not_exists(") ++ a.pathTemplate ++ ")"

/-- The clause of a condition without its names; there is none without an operator. -/
def Attribute.template (a : Attribute) : String :=
  match Operator.ofValue a.operator with
  | .ok op => (if a.negate.truthy then "NOT " else "") ++ op.template a
  | .error _ => ""

/-- The word that joins the clauses of conditions. -/
def conjunctionWord (conjunction : Value) : String :=
  if conjunction.truthy then conjunction.text else "AND"

/-- A condition expression without its names: one clause in parentheses for each condition, and all
of them once more in parentheses if there are several. -/
def conditionTemplate (conjunction : String) (as : List Attribute) : String :=
  let joined := (" " ++ conjunction ++ " ").intercalate
    (as.map fun a => Block.parenthesised a.template)
  if 1 < as.length then Block.parenthesised joined else joined

/-- An update expression without its names: one assignment for each attribute. -/
def updateTemplate (as : List Attribute) : String :=
  "SET " ++ ", ".intercalate (as.map fun a => a.pathTemplate ++ " = :")

/-! ### Clauses -/

/-- The aliases of an attribute, and the placeholders in a clause about it, in the order in which
they are written. -/
def Attribute.pieces (a : Attribute) (placeholders : List String) : List (List Char) :=
  (a.aliases.map fun p => p.1.toList) ++ placeholders.map String.toList

theorem Attribute.fills_pathText (a : Attribute) :
    Fills a.pathText.toList a.pathTemplate.toList (a.aliases.map fun p => p.1.toList) := by
  have hpart : ∀ p ∈ a.aliases, Fills ("#" ++ p.1).toList Mark.name.text.toList [p.1.toList] := by
    intro p _
    rw [String.toList_append]
    exact .single .name p.1.toList
  have hparts := Fills.intercalate ".".toList (by decide) hpart
  rw [pathText, pathTemplate, String.toList_intercalate, String.toList_intercalate, List.map_map,
    List.map_map]
  rw [← List.map_eq_flatMap] at hparts
  exact hparts

namespace Clause

variable {a : Attribute}

theorem fills_marked (placeholder : String) :
    Fills (marked placeholder).toList ":".toList [placeholder.toList] := by
  rw [toList_marked]
  exact .single .value _

/-- A list of placeholders without their names: a mark for each item. -/
theorem fills_placeholders (a : Attribute) (vs : List Value) :
    Fills (", ".intercalate ((placeholders a vs).map marked)).toList
      (", ".intercalate (vs.map fun _ => ":")).toList ((placeholders a vs).map String.toList) := by
  have hmarks : vs.map (fun _ => ":") = (placeholders a vs).map fun _ => ":" := by
    rw [List.map_const', List.map_const', placeholders, List.length_map, Attribute.length_numbered]
  have hparts := Fills.intercalate ", ".toList (by decide) fun s (_ : s ∈ placeholders a vs) =>
    fills_marked s
  rw [hmarks, String.toList_intercalate, String.toList_intercalate, List.map_map, List.map_map]
  rw [← List.map_eq_flatMap] at hparts
  exact hparts

theorem fills_oneOf (a : Attribute) (vs : List Value) :
    Fills (oneOf a.pathText (placeholders a vs)).text.toList
      (a.pathTemplate ++ " IN (" ++ ", ".intercalate (vs.map fun _ => ":") ++ ")").toList
      (a.pieces (placeholders a vs)) := by
  have hlist := (fills_placeholders a vs).divided ")".toList (by decide) .nil
  have hclause := a.fills_pathText.divided " IN (".toList (by decide) hlist
  simpa [text, Attribute.pieces] using hclause

/-- The clause for an operator fills the template of the operator. -/
theorem fills_positive {op : Operator} {c : Clause} (h : positive a op = .ok c) :
    Fills c.text.toList (op.template a).toList (a.pieces c.operands) := by
  have hpath := a.fills_pathText
  have hvalue := fills_marked a.name.text
  cases op with
  | compare c =>
    cases h
    have hsign : Mark.Divides (" " ++ c.sign ++ " ").toList := by cases c <;> decide
    have hclause := hpath.divided _ hsign hvalue
    simpa [text, Operator.template, Attribute.pieces, operands] using hclause
  | differs =>
    cases h
    have hclause := (hpath.divided " = ".toList (by decide) hvalue).behind "NOT ".toList (by decide)
    simpa [text, Operator.template, Attribute.pieces, operands, Comparison.sign] using hclause
  | oneOf =>
    obtain ⟨vs, hitems, hc⟩ := bind_eq_ok.1 h
    cases hc
    rw [Operator.template, (items_of_itemsFor hitems).1]
    exact fills_oneOf a vs
  | noneOf =>
    obtain ⟨vs, hitems, hc⟩ := bind_eq_ok.1 h
    cases hc
    rw [Operator.template, (items_of_itemsFor hitems).1]
    have hclause := (fills_oneOf a vs).behind "NOT ".toList (by decide)
    simpa [text, operands] using hclause
  | between =>
    obtain ⟨vs, -, hc⟩ := bind_eq_ok.1 h
    cases hc
    have hbounds := (fills_marked (a.name.text ++ "0")).divided " AND ".toList (by decide)
      (fills_marked (a.name.text ++ "1"))
    have hclause := hpath.divided " BETWEEN ".toList (by decide) hbounds
    simpa [text, Operator.template, Attribute.pieces, operands] using hclause
  | contains =>
    cases h
    have hclause := (hpath.divided ", ".toList (by decide)
      (hvalue.divided ")".toList (by decide) .nil)).behind "contains(".toList (by decide)
    simpa [text, Operator.template, Attribute.pieces, operands, Function.name] using hclause
  | startsWith =>
    cases h
    have hclause := (hpath.divided ", ".toList (by decide)
      (hvalue.divided ")".toList (by decide) .nil)).behind "begins_with(".toList (by decide)
    simpa [text, Operator.template, Attribute.pieces, operands, Function.name] using hclause
  | «exists» =>
    cases h
    have hclause := hpath.divided ")".toList (by decide) .nil
    cases hholds : a.value.truthy with
    | true =>
      have hcall := hclause.behind "attribute_exists(".toList (by decide)
      simpa [text, Operator.template, Attribute.pieces, operands, Function.name, hholds] using hcall
    | false =>
      have hcall := hclause.behind "attribute_not_exists(".toList (by decide)
      simpa [text, Operator.template, Attribute.pieces, operands, Function.name, hholds] using hcall

/-- The clause of a condition fills the template of the condition. -/
theorem fills_text {c : Clause} (h : ofAttribute a = .ok c) :
    Fills c.text.toList a.template.toList (a.pieces c.operands) := by
  obtain ⟨-, -, h⟩ := bind_eq_ok.1 h
  obtain ⟨op, hop, h⟩ := bind_eq_ok.1 h
  obtain ⟨d, hd, hc⟩ := bind_eq_ok.1 h
  obtain rfl : negateIf a.negate.truthy d = c := Except.ok.inj hc
  have hpositive := fills_positive hd
  simp only [Attribute.template, hop]
  cases a.negate.truthy with
  | true =>
    have hnegated := hpositive.behind "NOT ".toList (by decide)
    simpa [text, negateIf, operands] using hnegated
  | false => simpa [negateIf] using hpositive

end Clause

/-! ### Attributes that are made of words -/

/-- Name and segments are made of the characters of words. -/
def Attribute.IsWordy (a : Attribute) : Prop :=
  (∀ c ∈ a.name.text.toList, isWordChar c = true) ∧
    (a.path.isNull = false → ∀ segment ∈ Text.segments '.' a.path.text,
      ∀ c ∈ segment.toList, isWordChar c = true)

instance (a : Attribute) : Decidable a.IsWordy :=
  decidable_of_iff (a.name.text.toList.all isWordChar = true ∧ (a.path.isNull = false →
      (Text.segments '.' a.path.text).all (fun segment => segment.toList.all isWordChar) = true))
    (by simp only [Attribute.IsWordy, List.all_eq_true])

/-- So are the aliases exactly if name and segments are. -/
theorem Attribute.aliases_wordy_iff (a : Attribute) :
    (∀ p ∈ a.aliases, ∀ c ∈ p.1.toList, isWordChar c = true) ↔ a.IsWordy := by
  unfold aliases IsWordy
  cases hpath : a.path.isNull with
  | true => simp
  | false =>
    rw [if_neg (by simp), List.forall_mem_map]
    have halias : ∀ s : String, (∀ c ∈ (a.name.text ++ "_" ++ s).toList, isWordChar c = true) ↔
        (∀ c ∈ a.name.text.toList, isWordChar c = true) ∧ ∀ c ∈ s.toList, isWordChar c = true := by
      intro s
      rw [String.toList_append, String.toList_append, List.append_assoc, List.forall_mem_append,
        List.forall_mem_append]
      have hunderscore : ∀ c ∈ "_".toList, isWordChar c = true := List.all_eq_true.1 (by decide)
      exact and_congr_right fun _ => and_iff_right hunderscore
    constructor
    · intro h
      obtain ⟨s, hs⟩ := List.exists_mem_of_ne_nil _ (Text.segments_ne_nil '.' a.path.text)
      exact ⟨((halias s).1 (h s hs)).1, fun _ t ht => ((halias t).1 (h t ht)).2⟩
    · rintro ⟨hname, hsegments⟩ s hs
      exact (halias s).2 ⟨hname, hsegments rfl s hs⟩

namespace Clause

variable {a : Attribute}

/-- The placeholders of a clause are the name, or the name and a number. -/
theorem operands_positive {op : Operator} {c : Clause} (h : positive a op = .ok c) :
    ∀ s ∈ c.operands, s = a.name.text ∨ ∃ i : ℕ, s = a.name.text ++ toString i := by
  have hnumbered : ∀ vs, ∀ s ∈ placeholders a vs, ∃ i : ℕ, s = a.name.text ++ toString i := by
    intro vs s hs
    rw [placeholders, Attribute.map_fst_numbered] at hs
    obtain ⟨i, -, rfl⟩ := List.mem_map.1 hs
    exact ⟨i, rfl⟩
  have hname : ∀ s ∈ [a.name.text], s = a.name.text ∨ ∃ i : ℕ, s = a.name.text ++ toString i :=
    fun s hs => .inl (List.mem_singleton.1 hs)
  cases op with
  | compare | differs | contains | startsWith => cases h; exact hname
  | «exists» =>
    cases h
    intro s hs
    cases hs
  | oneOf | noneOf =>
    obtain ⟨vs, -, hc⟩ := bind_eq_ok.1 h
    cases hc
    exact fun s hs => .inr (hnumbered vs s hs)
  | between =>
    obtain ⟨vs, -, hc⟩ := bind_eq_ok.1 h
    cases hc
    intro s hs
    rcases List.mem_cons.1 hs with rfl | hs
    · exact .inr ⟨0, rfl⟩
    · exact .inr ⟨1, List.mem_singleton.1 hs⟩

theorem operands_of_ofAttribute {c : Clause} (h : ofAttribute a = .ok c) :
    ∀ s ∈ c.operands, s = a.name.text ∨ ∃ i : ℕ, s = a.name.text ++ toString i := by
  obtain ⟨_, op, d, -, -, hd, rfl⟩ := ofAttribute_eq_ok h
  have hoperands : (negateIf a.negate.truthy d).operands = d.operands := by
    cases a.negate.truthy <;> rfl
  rw [hoperands]
  exact operands_positive hd

end Clause

/-- What is written for an attribute is made of words exactly if the attribute is. -/
theorem Attribute.pieces_wordy_iff {a : Attribute} {placeholders : List String}
    (h : ∀ s ∈ placeholders, s = a.name.text ∨ ∃ i : ℕ, s = a.name.text ++ toString i) :
    (∀ piece ∈ a.pieces placeholders, ∀ c ∈ piece, isWordChar c = true) ↔ a.IsWordy := by
  rw [pieces, List.forall_mem_append, List.forall_mem_map, List.forall_mem_map, aliases_wordy_iff]
  refine and_iff_left_of_imp fun hwordy s hs => ?_
  rcases h s hs with rfl | ⟨i, rfl⟩
  · exact hwordy.1
  · rw [String.toList_append, List.forall_mem_append]
    refine ⟨hwordy.1, fun c hc => isWordChar_of_isAlphanum ?_⟩
    rw [Char.isAlphanum, isDigit_of_mem_toString hc, Bool.or_true]

/-! ### Expressions -/

theorem Fills.parenthesised {text template : String} {pieces : List (List Char)}
    (h : Fills text.toList template.toList pieces) :
    Fills (Block.parenthesised text).toList (Block.parenthesised template).toList pieces := by
  have hclosed := (h.divided ")".toList (by decide) .nil).behind "(".toList (by decide)
  simpa [Block.parenthesised] using hclosed

/-- The clauses of conditions, joined by a conjunction without marks, fill the template of the
conditions. -/
theorem Block.fills_text {conjunction : String} (hconj : Mark.IsPlain conjunction.toList)
    {as : List Attribute} {clauseOf : Attribute → Clause}
    (h : ∀ a ∈ as, Clause.ofAttribute a = .ok (clauseOf a)) :
    Fills (Block.mk conjunction (as.map clauseOf)).text.toList
      (conditionTemplate conjunction as).toList
      (as.flatMap fun a => a.pieces (clauseOf a).operands) := by
  have hdivides : Mark.Divides (" " ++ conjunction ++ " ").toList := by
    obtain ⟨hname, hvalue⟩ := hconj
    rw [String.toList_append, String.toList_append]
    refine ⟨⟨?_, ?_⟩, rfl⟩
    · simpa using hname
    · simpa using hvalue
  have hjoined := Fills.intercalate _ hdivides fun a ha =>
    (Clause.fills_text (h a ha)).parenthesised
  have hlist : ∀ f : Attribute → String, ((" " ++ conjunction ++ " ").intercalate (as.map f)).toList
      = (" " ++ conjunction ++ " ").toList.intercalate (as.map fun a => (f a).toList) := by
    intro f
    rw [String.toList_intercalate, List.map_map]
    rfl
  rw [← hlist, ← hlist] at hjoined
  rw [Block.text, conditionTemplate]
  simp only [List.map_map, List.length_map]
  split
  · exact hjoined.parenthesised
  · exact hjoined

/-- The assignments of attributes fill the template of the attributes. -/
theorem fills_updateOf (as : List Attribute) :
    Fills (updateOf as).toList (updateTemplate as).toList
      (as.flatMap fun a => a.pieces [a.name.text]) := by
  have hassignment : ∀ a : Attribute, Fills (Assignment.ofAttribute a).text.toList
      (a.pathTemplate ++ " = :").toList (a.pieces [a.name.text]) := by
    intro a
    have h := a.fills_pathText.divided " = ".toList (by decide)
      (Clause.fills_marked a.name.text)
    simpa [Assignment.text, Assignment.ofAttribute, Attribute.pieces, Clause.marked] using h
  have hjoined := (Fills.intercalate ", ".toList (by decide) fun a (_ : a ∈ as) =>
    hassignment a).behind "SET ".toList (by decide)
  rw [updateOf, updateText, updateTemplate, String.toList_append, String.toList_append,
    String.toList_intercalate, String.toList_intercalate, List.map_map, List.map_map, List.map_map]
  exact hjoined

/-- What has clauses is read as attributes, each with its clause. -/
theorem readAttributes_of_clauses {vs : List Value} {cs : List Clause}
    (h : eachOk (fun v => (Clause.read v).result) vs = .ok cs) :
    ∃ as, readAttributes vs = .ok as ∧ eachOk Clause.ofAttribute as = .ok cs := by
  induction vs generalizing cs with
  | nil => exact ⟨[], rfl, h⟩
  | cons v vs ih =>
    obtain ⟨c, cs, hc, hcs, rfl⟩ := eachOk_cons_eq_ok.1 h
    rw [Clause.result_read] at hc
    obtain ⟨a, ha, hclause⟩ := bind_eq_ok.1 hc
    obtain ⟨as, has, hclauses⟩ := ih hcs
    exact ⟨a :: as, eachOk_cons_eq_ok.2 ⟨a, as, ha, has, rfl⟩,
      eachOk_cons_eq_ok.2 ⟨c, cs, hclause, hclauses, rfl⟩⟩

/-- What is read for a map is read as attributes. -/
theorem readAttributes_of_readMarked {m : Mark} {vs : List Value} {as : List Attribute}
    (h : eachOk (readMarked m) vs = .ok as) : readAttributes vs = .ok as := by
  induction vs generalizing as with
  | nil => exact h
  | cons v vs ih =>
    obtain ⟨a, as, ha, has, rfl⟩ := eachOk_cons_eq_ok.1 h
    obtain ⟨b, hb, hread⟩ := bind_eq_ok.1 ha
    obtain ⟨-, -, hab⟩ := bind_eq_ok.1 hread
    obtain rfl : b = a := Except.ok.inj hab
    exact eachOk_cons_eq_ok.2 ⟨b, as, hb, ih has, rfl⟩

/-- Without the words behind its marks, a condition expression is the template of its conditions,
with one clause for each of them, and an update expression that of its attributes, exactly if the
names and the segments of all of them are made of letters, digits and underscores.  Any other
character of a name or a segment stands in the expression as it is.  The conditions may be joined by
any word without a mark. -/
theorem shows_template_iff (attributes conjunction : Value) (text : String) :
    (Mark.IsPlain (conjunctionWord conjunction).toList →
      (conditionExpression attributes conjunction).result = .ok text →
      ∃ vs as, attributes.members = .ok vs ∧ readAttributes vs = .ok as ∧
        (withoutWords false text.toList
            = (conditionTemplate (conjunctionWord conjunction) as).toList ↔
          ∀ a ∈ as, a.IsWordy)) ∧
    (updateExpression attributes = .ok text →
      ∃ vs as, attributes.members = .ok vs ∧ readAttributes vs = .ok as ∧
        (withoutWords false text.toList = (updateTemplate as).toList ↔ ∀ a ∈ as, a.IsWordy)) := by
  have hpieces : ∀ {as : List Attribute} {placeholders : Attribute → List String},
      (∀ a ∈ as, ∀ s ∈ placeholders a, s = a.name.text ∨ ∃ i : ℕ, s = a.name.text ++ toString i) →
      ((∀ piece ∈ as.flatMap fun a => a.pieces (placeholders a),
        ∀ c ∈ piece, isWordChar c = true) ↔ ∀ a ∈ as, a.IsWordy) := by
    intro as placeholders h
    rw [List.forall_mem_flatMap]
    exact forall₂_congr fun a ha => Attribute.pieces_wordy_iff (h a ha)
  constructor
  · intro hconj htext
    rw [conditionExpression, Noted.result_bind, Noted.result_liftM] at htext
    obtain ⟨vs, hvs, htext⟩ := bind_eq_ok.1 htext
    rw [Noted.result_bind, Block.result_ofConditions] at htext
    obtain ⟨b, hb, htext⟩ := bind_eq_ok.1 htext
    obtain ⟨cs, hcs, hb⟩ := bind_eq_ok.1 hb
    obtain ⟨_, -, rfl⟩ := map_eq_ok.1 hb
    obtain rfl := Except.ok.inj htext
    obtain ⟨as, has, hclauses⟩ := readAttributes_of_clauses hcs
    obtain ⟨clauseOf, rfl, hclause⟩ := exists_map_of_eachOk hclauses
    refine ⟨vs, as, hvs, has, ?_⟩
    exact (Block.fills_text hconj hclause).withoutWords_eq_iff.trans
      (hpieces fun a ha => Clause.operands_of_ofAttribute (hclause a ha))
  · intro htext
    obtain ⟨vs, hvs, htext⟩ := bind_eq_ok.1 htext
    obtain ⟨as, has, htext⟩ := bind_eq_ok.1 htext
    obtain rfl := Except.ok.inj htext
    refine ⟨vs, as, hvs, readAttributes_of_readMarked has, ?_⟩
    exact (fills_updateOf as).withoutWords_eq_iff.trans
      (hpieces fun a _ s hs => .inl (List.mem_singleton.1 hs))

/-- A condition on a path and one on a list, and an update of the path. -/
theorem shows_template_path : ∃ text text',
    (conditionExpression (list [map [(str "name", str "own"), (str "path", str "meta.owner"),
        (str "value", int 1)], map [(str "name", str "tags"), (str "operator", str "in"),
        (str "value", list [str "x", str "y"])]]) null).result = .ok text ∧
      withoutWords false text.toList = "((#.# = :) AND (# IN (:, :)))".toList ∧
      updateExpression (list [map [(str "name", str "own"), (str "path", str "meta.owner"),
        (str "value", int 1)]]) = .ok text' ∧
      withoutWords false text'.toList = "SET #.# = :".toList := by
  obtain ⟨text, htext⟩ : ∃ text, (conditionExpression (list [map [(str "name", str "own"),
      (str "path", str "meta.owner"), (str "value", int 1)], map [(str "name", str "tags"),
      (str "operator", str "in"), (str "value", list [str "x", str "y"])]]) null).result
        = .ok text := ⟨_, rfl⟩
  obtain ⟨text', htext'⟩ : ∃ text, updateExpression (list [map [(str "name", str "own"),
      (str "path", str "meta.owner"), (str "value", int 1)]]) = .ok text := ⟨_, rfl⟩
  obtain ⟨_, _, ⟨⟩, ⟨⟩, hiff⟩ := (shows_template_iff _ _ _).1 (by decide) htext
  obtain ⟨_, _, ⟨⟩, ⟨⟩, hiff'⟩ := (shows_template_iff _ null _).2 htext'
  exact ⟨text, text', htext, hiff.2 (by decide +kernel), htext', hiff'.2 (by decide +kernel)⟩

/-- A name with a parenthesis is a second clause of the expression. -/
theorem not_shows_template_injected : ∃ as,
    readAttributes [map [(str "name", str "b) OR attribute_exists(#b"),
      (str "operator", str "exists"), (str "value", bool true)]] = .ok as ∧
    (conditionExpression (list [map [(str "name", str "b) OR attribute_exists(#b"),
      (str "operator", str "exists"), (str "value", bool true)]]) null).result
        = .ok "(attribute_exists(#b) OR attribute_exists(#b))" ∧
    conditionTemplate (conjunctionWord null) as = "(attribute_exists(#))" ∧
    withoutWords false "(attribute_exists(#b) OR attribute_exists(#b))".toList
      = "(attribute_exists(#) OR attribute_exists(#))".toList :=
  ⟨_, rfl, rfl, rfl, by decide⟩

end KeysetQuery

import KeysetQuery.Proofs.Expression.Placeholders
import KeysetQuery.Proofs.Outcome

/-!
# The meaning of conditions

* `Attribute.holds` — whether a condition holds under an interpretation, without any expression;
* `Attribute.IsShaped` — the value of a condition is a sequence exactly where the operator asks for
  one;
* `eval_positive` — read with maps that define its aliases and placeholders, the clause of an
  operator says what the operator asks;
* `isAbout_of_ofAttribute` — the clause of a condition speaks of the path of the condition;
* `eval_formula_of_ofAttribute` — read in the same way, it says that the condition holds.
-/

namespace KeysetQuery

open Value Reader

namespace Attribute

/-! ### Conditions -/

/-- The dotted path of the document part that a condition is about. -/
def documentPath (a : Attribute) : String := if a.path.isNull then a.name.text else a.path.text

/-- Whether the document part is as the operator of a condition asks.  A range has two bounds. -/
def isAsAsked (I : Interpretation) (a : Attribute) : Bool :=
  let path := a.documentPath
  let items := a.value.items?.getD []
  match a.operator.text with
  | "=" => I (.compare .equal) path [a.value]
  | "<" => I (.compare .less) path [a.value]
  | ">" => I (.compare .greater) path [a.value]
  | "<=" => I (.compare .atMost) path [a.value]
  | ">=" => I (.compare .atLeast) path [a.value]
  | "!=" => !I (.compare .equal) path [a.value]
  | "in" => I .oneOf path items
  | "notin" => !I .oneOf path items
  | "between" => I .between path (items.take 2)
  | "contains" => I (.call .contains) path [a.value]
  | "startswith" => I (.call .beginsWith) path [a.value]
  | "exists" =>
    I (.call (if a.value.truthy then .attributeExists else .attributeNotExists)) path []
  | _ => false

/-- Whether a condition holds. -/
def holds (I : Interpretation) (a : Attribute) : Bool :=
  if a.negate.truthy then !a.isAsAsked I else a.isAsAsked I

/-- The value of a condition is a sequence exactly if the operator is one on sequences.  A test of
existence may have any value. -/
def IsShaped (a : Attribute) : Prop :=
  a.operator.text ≠ "exists" →
    (a.value.isSequence = true ↔ a.operator.text ∈ ["in", "notin", "between"])

instance (a : Attribute) : Decidable a.IsShaped := inferInstanceAs (Decidable (_ → _))

/-! ### Paths -/

theorem aliases_map_fst_ne_nil (a : Attribute) : a.aliases.map Prod.fst ≠ [] := by
  simpa using a.aliases_ne_nil

theorem pathText_eq (a : Attribute) : a.pathText = Clause.pathOf (a.aliases.map Prod.fst) := by
  rw [pathText, Clause.pathOf, List.map_map]
  rfl

/-- The segments that the aliases of a path stand for, with dots between them, are the path. -/
theorem intercalate_segments_aliases (a : Attribute) :
    ".".intercalate (a.aliases.map Prod.snd) = a.documentPath := by
  unfold aliases documentPath
  split
  · exact String.intercalate_singleton
  · rw [List.map_map]
    have hsnd : (Prod.snd ∘ fun s => (a.name.text ++ "_" ++ s, s)) = (id : String → String) := rfl
    rw [hsnd, List.map_id]
    exact Text.intercalate_segments '.' a.path.text

section Tests

variable {I : Interpretation} {names values : Entries} {a : Attribute}

/-- A test of the path of an attribute is a test of its document path. -/
theorem eval_test (hnames : ∀ p ∈ a.aliases, Formula.segmentOf names p.1 = some p.2)
    {operands : List String} {vs : List Value}
    (hvalues : Formula.eachSome (Formula.valueOf values) operands = some vs) (p : Predicate) :
    (Formula.test p (a.aliases.map Prod.fst) operands).eval I names values
      = some (I p a.documentPath vs) := by
  have hpath : Formula.eachSome (Formula.segmentOf names) (a.aliases.map Prod.fst)
      = some (a.aliases.map Prod.snd) := Formula.eachSome_map hnames
  simp only [Formula.eval, hpath, hvalues, Option.bind_eq_bind, Option.bind_some,
    intercalate_segments_aliases]

theorem eval_negated {f : Formula} {b : Bool} (h : f.eval I names values = some b) :
    (Formula.negated f).eval I names values = some (!b) := by
  simp only [Formula.eval, h, Option.bind_eq_bind, Option.bind_some]

/-- The placeholder of a value that is no sequence. -/
theorem bindings_of_scalar (hop : isText "exists" a.operator = false)
    (hv : a.value.isSequence = false) : a.bindings = [(a.name.text, a.value)] := by
  have hitems : a.value.items? = none := by
    rw [isSequence] at hv
    exact Option.isSome_eq_false_iff.1 hv |> Option.isNone_iff_eq_none.1
  rw [bindings, if_neg (by simp [hop]), hitems]

/-- The placeholders of a value that is a sequence. -/
theorem bindings_of_items (hop : isText "exists" a.operator = false) {vs : List Value}
    (hv : a.value.items? = some vs) : a.bindings = numbered a.name.text 0 vs := by
  rw [bindings, if_neg (by simp [hop]), hv]

end Tests

end Attribute

/-! ### Operators -/

namespace Operator

/-- What an operator asks of a document part and a value. -/
def asks (I : Interpretation) (path : String) (v : Value) : Operator → Bool
  | compare c => I (.compare c) path [v]
  | differs => !I (.compare .equal) path [v]
  | oneOf => I .oneOf path (v.items?.getD [])
  | noneOf => !I .oneOf path (v.items?.getD [])
  | between => I .between path ((v.items?.getD []).take 2)
  | contains => I (.call .contains) path [v]
  | startsWith => I (.call .beginsWith) path [v]
  | .exists => I (.call (if v.truthy then .attributeExists else .attributeNotExists)) path []

/-- Whether an operator is one on sequences. -/
def isOnItems : Operator → Bool
  | oneOf | noneOf | between => true
  | _ => false

variable {a : Attribute} {s : String} {op : Operator}

/-- The text that names an operator. -/
def name : Operator → String
  | compare c => c.sign
  | differs => "!="
  | oneOf => "in"
  | noneOf => "notin"
  | between => "between"
  | contains => "contains"
  | startsWith => "startswith"
  | .exists => "exists"

theorem eq_name (hop : (s, op) ∈ names) : s = op.name := by
  have hnames : ∀ p ∈ names, p.1 = p.2.name := by decide
  exact hnames (s, op) hop

theorem isAsAsked_eq (I : Interpretation) (hs : a.operator = str s) (hop : (s, op) ∈ names) :
    a.isAsAsked I = op.asks I a.documentPath a.value := by
  obtain rfl := eq_name hop
  unfold Attribute.isAsAsked
  rw [hs]
  cases op with
  | compare c => cases c <;> rfl
  | _ => rfl

/-- What the name of an operator says about it. -/
theorem isOnItems_iff (hop : (s, op) ∈ names) :
    (op = .exists ↔ s = "exists") ∧
      (op.isOnItems = true ↔ s ∈ ["in", "notin", "between"]) := by
  obtain rfl := eq_name hop
  cases op with
  | compare c => cases c <;> decide
  | _ => decide

/-- The value of an operator that is none on sequences is no sequence. -/
theorem bindings_of_not_isOnItems (hs : a.operator = str s) (hop : (s, op) ∈ names)
    (hshape : a.IsShaped) (hne : op ≠ .exists) (hitems : op.isOnItems = false) :
    a.bindings = [(a.name.text, a.value)] := by
  have hname : s ≠ "exists" := fun h => hne ((isOnItems_iff hop).1.2 h)
  have htext : a.operator.text = s := by rw [hs]; rfl
  refine Attribute.bindings_of_scalar (by rw [hs]; simpa using hname) ?_
  rw [Attribute.IsShaped, htext] at hshape
  by_contra hseq
  rw [Bool.not_eq_false] at hseq
  have honItems := (isOnItems_iff hop).2.2 ((hshape hname).1 hseq)
  rw [hitems] at honItems
  exact Bool.noConfusion honItems

end Operator

/-! ### Clauses of conditions -/

namespace Clause

variable {I : Interpretation} {names values : Entries} {a : Attribute} {c : Clause}

/-- A condition has a clause only if its operator has a name and the clause of that operator can be
written. -/
theorem ofAttribute_eq_ok (h : ofAttribute a = .ok c) :
    ∃ s op d, a.operator = str s ∧ (s, op) ∈ Operator.names ∧ positive a op = .ok d ∧
      c = negateIf a.negate.truthy d := by
  obtain ⟨-, -, h⟩ := bind_eq_ok.1 h
  obtain ⟨op, hop, h⟩ := bind_eq_ok.1 h
  obtain ⟨d, hpos, hc⟩ := bind_eq_ok.1 h
  obtain ⟨-, -, hop⟩ := bind_eq_ok.1 hop
  split at hop
  · rename_i s hs
    cases hlook : Operator.names.lookup s with
    | none => simp [hlook] at hop
    | some op' =>
      simp only [hlook, Except.ok.injEq] at hop
      subst hop
      obtain ⟨before, after, hnames, -⟩ := List.lookup_eq_some_iff.1 hlook
      refine ⟨s, op', d, hs, ?_, hpos, (Except.ok.inj hc).symm⟩
      rw [hnames]
      exact List.mem_append_right before List.mem_cons_self
  · obtain ⟨-, -, herror⟩ := bind_eq_ok.1 hop
    exact absurd herror (by simp)

/-- The items of the value of a condition on sequences. -/
theorem items_of_itemsFor {op : Operator} {vs : List Value} (h : itemsFor op a = .ok vs) :
    a.value.items? = some vs ∧ op.leastItems ≤ vs.length := by
  unfold itemsFor at h
  cases hitems : a.value.items? with
  | none => simp [hitems] at h
  | some ws =>
    simp only [hitems] at h
    split at h
    · exact absurd h (by simp)
    · obtain rfl := Except.ok.inj h
      exact ⟨rfl, by omega⟩

section Positive

variable {s : String} {op : Operator} {d : Clause}

/-- The clause of an operator speaks of the path of the attribute. -/
theorem isAbout_positive (hname : IsWord a.name.text) (hpos : positive a op = .ok d) :
    d.IsAbout (a.aliases.map Prod.fst) := by
  have hpath := a.pathText_eq
  have hnumbered : ∀ vs, ∀ t ∈ placeholders a vs, IsWord t := by
    intro vs t ht
    obtain ⟨p, hp, rfl⟩ := List.mem_map.1 ht
    obtain ⟨j, -, hj, -⟩ := Attribute.mem_numbered hp
    rw [hj]
    exact hname.numbered j
  have hnonempty : ∀ {vs : List Value}, 1 ≤ vs.length → placeholders a vs ≠ [] := by
    intro vs hvs hnil
    have hlen := congrArg List.length hnil
    rw [placeholders, List.length_map, Attribute.length_numbered, List.length_nil] at hlen
    omega
  cases op with
  | compare c => cases hpos; exact ⟨hpath, hname⟩
  | differs => cases hpos; exact ⟨hpath, hname⟩
  | contains => cases hpos; exact ⟨hpath, hname⟩
  | startsWith => cases hpos; exact ⟨hpath, hname⟩
  | «exists» => cases hpos; exact hpath
  | oneOf =>
    obtain ⟨vs, hitems, hd⟩ := bind_eq_ok.1 hpos
    cases hd
    exact ⟨hpath, hnonempty (items_of_itemsFor hitems).2, hnumbered vs⟩
  | noneOf =>
    obtain ⟨vs, hitems, hd⟩ := bind_eq_ok.1 hpos
    cases hd
    exact ⟨hpath, hnonempty (items_of_itemsFor hitems).2, hnumbered vs⟩
  | between =>
    obtain ⟨vs, hitems, hd⟩ := bind_eq_ok.1 hpos
    cases hd
    exact ⟨hpath, hname.numbered 0, hname.numbered 1⟩

/-! ### Operands -/

/-- A value that is no sequence has the name of the attribute as its placeholder. -/
theorem eachSome_scalar (hs : a.operator = str s) (hop : (s, op) ∈ Operator.names)
    (hshape : a.IsShaped) (hvalues : ∀ p ∈ a.bindings, Formula.valueOf values p.1 = some p.2)
    (hne : op ≠ .exists) (hitems : op.isOnItems = false) :
    Formula.eachSome (Formula.valueOf values) [a.name.text] = some [a.value] := by
  rw [Operator.bindings_of_not_isOnItems hs hop hshape hne hitems] at hvalues
  exact Formula.eachSome_map hvalues

/-- The items of a sequence have numbered placeholders. -/
theorem valueOf_numbered (hs : a.operator = str s) (hop : (s, op) ∈ Operator.names)
    (hvalues : ∀ p ∈ a.bindings, Formula.valueOf values p.1 = some p.2) (hne : op ≠ .exists)
    {vs : List Value} (hvs : a.value.items? = some vs) :
    ∀ p ∈ Attribute.numbered a.name.text 0 vs, Formula.valueOf values p.1 = some p.2 := by
  have hexists : isText "exists" a.operator = false := by
    rw [hs]
    simpa using fun h => hne ((Operator.isOnItems_iff hop).1.2 h)
  rw [Attribute.bindings_of_items hexists hvs] at hvalues
  exact hvalues

theorem eachSome_placeholders {vs : List Value}
    (h : ∀ p ∈ Attribute.numbered a.name.text 0 vs, Formula.valueOf values p.1 = some p.2) :
    Formula.eachSome (Formula.valueOf values) (placeholders a vs) = some vs := by
  have heach := Formula.eachSome_map h
  rw [Attribute.map_snd_numbered] at heach
  exact heach

/-- The first two of the numbered placeholders are the bounds of a range. -/
theorem eachSome_bounds {vs : List Value} (hlen : 2 ≤ vs.length)
    (h : ∀ p ∈ Attribute.numbered a.name.text 0 vs, Formula.valueOf values p.1 = some p.2) :
    Formula.eachSome (Formula.valueOf values) [a.name.text ++ "0", a.name.text ++ "1"]
      = some (vs.take 2) := by
  obtain ⟨low, high, rest, rfl⟩ : ∃ low high rest, vs = low :: high :: rest := by
    match vs, hlen with
    | low :: high :: rest, _ => exact ⟨low, high, rest, rfl⟩
  have hboth : ∀ p ∈ [(a.name.text ++ "0", low), (a.name.text ++ "1", high)],
      Formula.valueOf values p.1 = some p.2 := by
    intro p hp
    refine h p ?_
    rcases List.mem_cons.1 hp with rfl | hp
    · exact List.mem_cons_self
    · rw [List.mem_singleton.1 hp]
      exact List.mem_cons_of_mem _ List.mem_cons_self
  exact Formula.eachSome_map hboth

/-- The clause of an operator says what the operator asks. -/
theorem eval_positive (hs : a.operator = str s) (hop : (s, op) ∈ Operator.names)
    (hshape : a.IsShaped) (hpos : positive a op = .ok d)
    (hnames : ∀ p ∈ a.aliases, Formula.segmentOf names p.1 = some p.2)
    (hvalues : ∀ p ∈ a.bindings, Formula.valueOf values p.1 = some p.2) :
    (d.formula (a.aliases.map Prod.fst)).eval I names values
      = some (op.asks I a.documentPath a.value) := by
  have hscalar := eachSome_scalar hs hop hshape hvalues
  have hitem := fun hne {vs : List Value} => @valueOf_numbered values a s op hs hop hvalues hne vs
  cases op with
  | compare c =>
    cases hpos
    exact Attribute.eval_test hnames (hscalar (by simp) rfl) _
  | differs =>
    cases hpos
    exact Attribute.eval_negated (Attribute.eval_test hnames (hscalar (by simp) rfl) _)
  | contains =>
    cases hpos
    exact Attribute.eval_test hnames (hscalar (by simp) rfl) _
  | startsWith =>
    cases hpos
    exact Attribute.eval_test hnames (hscalar (by simp) rfl) _
  | «exists» =>
    cases hpos
    have hnone : Formula.eachSome (Formula.valueOf values) [] = some [] := rfl
    exact Attribute.eval_test hnames hnone _
  | oneOf =>
    obtain ⟨vs, hitems, hd⟩ := bind_eq_ok.1 hpos
    cases hd
    obtain ⟨hvs, -⟩ := items_of_itemsFor hitems
    rw [Operator.asks, hvs]
    exact Attribute.eval_test hnames (eachSome_placeholders (hitem (by simp) hvs)) _
  | noneOf =>
    obtain ⟨vs, hitems, hd⟩ := bind_eq_ok.1 hpos
    cases hd
    obtain ⟨hvs, -⟩ := items_of_itemsFor hitems
    rw [Operator.asks, hvs]
    exact Attribute.eval_negated
      (Attribute.eval_test hnames (eachSome_placeholders (hitem (by simp) hvs)) _)
  | between =>
    obtain ⟨vs, hitems, hd⟩ := bind_eq_ok.1 hpos
    cases hd
    obtain ⟨hvs, hlen⟩ := items_of_itemsFor hitems
    rw [Operator.asks, hvs]
    exact Attribute.eval_test hnames (eachSome_bounds hlen (hitem (by simp) hvs)) _

end Positive

/-! ### The clause of a condition -/

/-- The clause of a condition speaks of the path of the condition. -/
theorem isAbout_of_ofAttribute (hname : IsWord a.name.text) (h : ofAttribute a = .ok c) :
    c.IsAbout (a.aliases.map Prod.fst) := by
  obtain ⟨s, op, d, -, -, hpos, rfl⟩ := ofAttribute_eq_ok h
  have habout := isAbout_positive hname hpos
  cases hneg : a.negate.truthy with
  | true => exact habout
  | false => exact habout

/-- Read with maps that define its aliases and placeholders, the clause of a condition says that
the condition holds. -/
theorem eval_formula_of_ofAttribute (hshape : a.IsShaped) (h : ofAttribute a = .ok c)
    (hnames : ∀ p ∈ a.aliases, Formula.segmentOf names p.1 = some p.2)
    (hvalues : ∀ p ∈ a.bindings, Formula.valueOf values p.1 = some p.2) :
    (c.formula (a.aliases.map Prod.fst)).eval I names values = some (a.holds I) := by
  obtain ⟨s, op, d, hs, hop, hpos, rfl⟩ := ofAttribute_eq_ok h
  have heval := eval_positive (I := I) hs hop hshape hpos hnames hvalues
  rw [← Operator.isAsAsked_eq I hs hop] at heval
  cases hneg : a.negate.truthy with
  | true =>
    rw [Attribute.holds, hneg]
    exact Attribute.eval_negated heval
  | false =>
    rw [Attribute.holds, hneg]
    exact heval

end Clause

end KeysetQuery

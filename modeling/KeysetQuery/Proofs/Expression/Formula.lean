import KeysetQuery.Expression.Clause

/-!
# Formulas

An expression, once it is read, is a formula over aliases and placeholders.  Two maps say what
these stand for, and an interpretation says which primitive tests hold.

* `Predicate` and `Formula` — primitive tests, and what is built from them;
* `Interpretation` — an arbitrary truth function of predicate, document path and operands;
* `Formula.eval` — the truth of a formula, if all of its aliases and placeholders are defined;
* `eval_foldl_both`, `eval_foldl_either` — a join holds when all of its parts do, or one of them.
-/

namespace KeysetQuery

open Value

/-! ### Syntax -/

/-- What a primitive test asks of an attribute. -/
inductive Predicate where
  | compare (c : Comparison)
  | oneOf
  | between
  | call (function : Function)
deriving DecidableEq, Inhabited

/-- An expression as a tree.  The path of a test is a list of aliases and its operands are
placeholders, both without their marks. -/
inductive Formula where
  /-- Nothing is asked. -/
  | always
  | test (p : Predicate) (path operands : List String)
  | negated (f : Formula)
  | both (f g : Formula)
  | either (f g : Formula)
deriving DecidableEq, Inhabited

/-! ### Semantics -/

/-- Which primitive tests hold: any truth function of what is asked, the dotted path of the
document part that is asked about, and the operands. -/
abbrev Interpretation := Predicate → String → List Value → Bool

namespace Formula

/-- The segment that an alias stands for. -/
def segmentOf (names : Entries) (name : String) : Option String :=
  match names.field? ("#" ++ name) with
  | some (str s) => some s
  | _ => none

/-- The value that a placeholder stands for. -/
def valueOf (values : Entries) (placeholder : String) : Option Value :=
  values.field? (":" ++ placeholder)

/-- All results of a function along a list, if there is one for each item. -/
def eachSome {α β : Type} (f : α → Option β) : List α → Option (List β)
  | [] => some []
  | a :: as => do
    let b ← f a
    let bs ← eachSome f as
    some (b :: bs)

/-- The truth of a formula.  There is none if an alias or a placeholder is undefined. -/
def eval (I : Interpretation) (names values : Entries) : Formula → Option Bool
  | always => some true
  | test p path operands => do
    let segments ← eachSome (segmentOf names) path
    let vs ← eachSome (valueOf values) operands
    some (I p (".".intercalate segments) vs)
  | negated f => do
    let b ← eval I names values f
    some (!b)
  | both f g => do
    let a ← eval I names values f
    let b ← eval I names values g
    some (a && b)
  | either f g => do
    let a ← eval I names values f
    let b ← eval I names values g
    some (a || b)

/-! ### Joins -/

theorem eachSome_map {α β γ : Type} {f : β → Option γ} {g : α → β} {h : α → γ} {as : List α}
    (hf : ∀ a ∈ as, f (g a) = some (h a)) : eachSome f (as.map g) = some (as.map h) := by
  induction as with
  | nil => rfl
  | cons a as ih =>
    have hhead : f (g a) = some (h a) := hf a List.mem_cons_self
    have htail := ih fun b hb => hf b (List.mem_cons_of_mem a hb)
    simp only [List.map_cons, eachSome, hhead, htail, Option.bind_eq_bind, Option.bind_some]

/-- There is a result for each item exactly if the results are these. -/
theorem eachSome_eq_some_iff {α β : Type} {f : α → Option β} {as : List α} {bs : List β} :
    eachSome f as = some bs ↔ as.map f = bs.map some := by
  induction as generalizing bs with
  | nil => cases bs <;> simp [eachSome]
  | cons a as ih =>
    rw [eachSome]
    cases bs with
    | nil => cases f a <;> cases eachSome f as <;> simp
    | cons b bs =>
      rw [List.map_cons, List.map_cons, List.cons.injEq, ← ih]
      cases f a <;> cases eachSome f as <;> simp

section Joins

variable {I : Interpretation} {names values : Entries} {α : Type} {form : α → Formula}
  {holds : α → Bool}

theorem eval_foldl_both {as : List α} {f : Formula} {b : Bool}
    (hf : f.eval I names values = some b)
    (has : ∀ a ∈ as, (form a).eval I names values = some (holds a)) :
    ((as.map form).foldl both f).eval I names values = some (b && as.all holds) := by
  induction as generalizing f b with
  | nil => simpa using hf
  | cons a as ih =>
    have ha := has a List.mem_cons_self
    have hboth : (both f (form a)).eval I names values = some (b && holds a) := by
      simp [eval, hf, ha]
    rw [List.map_cons, List.foldl_cons, ih hboth fun c hc => has c (List.mem_cons_of_mem a hc),
      List.all_cons, Bool.and_assoc]

theorem eval_foldl_either {as : List α} {f : Formula} {b : Bool}
    (hf : f.eval I names values = some b)
    (has : ∀ a ∈ as, (form a).eval I names values = some (holds a)) :
    ((as.map form).foldl either f).eval I names values = some (b || as.any holds) := by
  induction as generalizing f b with
  | nil => simpa using hf
  | cons a as ih =>
    have ha := has a List.mem_cons_self
    have heither : (either f (form a)).eval I names values = some (b || holds a) := by
      simp [eval, hf, ha]
    rw [List.map_cons, List.foldl_cons, ih heither fun c hc => has c (List.mem_cons_of_mem a hc),
      List.any_cons, Bool.or_assoc]

end Joins

end Formula

end KeysetQuery

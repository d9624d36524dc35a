import KeysetQuery.Attribute.Basic
import KeysetQuery.Notice

/-!
# Clauses

A clause says one thing about one attribute, in aliases and placeholders only.

* `Operator` — what a condition may ask of a value; `Operator.ofValue` reads one;
* `Clause` and `Clause.text` — a clause as a tree, and as it is written;
* `Clause.ofAttribute` — the clause of a condition, or the reason why there is none;
* `Clause.read` — the same for the map of a condition, with a notice when bounds are left unused.
-/

namespace KeysetQuery

open Value

/-! ### Operators -/

/-- A comparison of an attribute with a value. -/
inductive Comparison where
  | equal | less | greater | atMost | atLeast
deriving DecidableEq, Inhabited

def Comparison.sign : Comparison → String
  | equal => "="
  | less => "<"
  | greater => ">"
  | atMost => "<="
  | atLeast => ">="

/-- What a condition asks of the value of an attribute. -/
inductive Operator where
  | compare (c : Comparison)
  | differs | oneOf | noneOf | between | contains | startsWith | exists
deriving DecidableEq, Inhabited

namespace Operator

def names : List (String × Operator) :=
  [("=", compare .equal), ("<", compare .less), (">", compare .greater),
    ("<=", compare .atMost), (">=", compare .atLeast), ("!=", differs), ("in", oneOf),
    ("notin", noneOf), ("between", between), ("contains", contains),
    ("startswith", startsWith), ("exists", .exists)]

/-- The operator that a value names.  A list or a map is not even looked up. -/
def ofValue (v : Value) : Except Fault Operator := do
  let _ ← v.asMember
  match v with
  | str s =>
    match names.lookup s with
    | some op => .ok op
    | none => .error (.invalid (.unsupportedOperator v))
  | _ => do
    v.requireText
    .error (.invalid (.unsupportedOperator v))

/-- How many items the value of an operator on sequences must have at least. -/
def leastItems : Operator → Nat
  | between => 2
  | oneOf => 1
  | noneOf => 1
  | _ => 0

end Operator

/-! ### Clauses -/

/-- A test of one attribute by name. -/
inductive Function where
  | contains | beginsWith | attributeExists | attributeNotExists
deriving DecidableEq, Inhabited

def Function.name : Function → String
  | contains => "contains"
  | beginsWith => "begins_with"
  | attributeExists => "attribute_exists"
  | attributeNotExists => "attribute_not_exists"

/-- A clause.  Paths are written in aliases; placeholders stand without their mark. -/
inductive Clause where
  | compare (path : String) (c : Comparison) (placeholder : String)
  | oneOf (path : String) (placeholders : List String)
  | between (path low high : String)
  | call (function : Function) (path : String) (placeholder : Option String)
  | negated (c : Clause)
deriving DecidableEq, Inhabited

namespace Clause

def marked (placeholder : String) : String := ":" ++ placeholder

def text : Clause → String
  | compare path c placeholder => path ++ " " ++ c.sign ++ " " ++ marked placeholder
  | oneOf path placeholders =>
    path ++ " IN (" ++ ", ".intercalate (placeholders.map marked) ++ ")"
  | between path low high => path ++ " BETWEEN " ++ marked low ++ " AND " ++ marked high
  | call f path none => f.name ++ "(" ++ path ++ ")"
  | call f path (some placeholder) => f.name ++ "(" ++ path ++ ", " ++ marked placeholder ++ ")"
  | negated c => "NOT " ++ c.text

def negateIf (b : Bool) (c : Clause) : Clause := if b then negated c else c

def itemsFor (op : Operator) (a : Attribute) : Except Fault (List Value) :=
  match a.value.items? with
  | some vs =>
    if vs.length < op.leastItems then .error (.invalid (.sequenceExpected a.operator.text))
    else .ok vs
  | none => .error (.invalid (.sequenceExpected a.operator.text))

/-- The numbered placeholders for as many items. -/
def placeholders (a : Attribute) (vs : List Value) : List String :=
  (Attribute.numbered a.name.text 0 vs).map Prod.fst

/-- The clause of a condition for an operator, before it is negated. -/
def positive (a : Attribute) : Operator → Except Fault Clause
  | .compare c => .ok (compare a.pathText c a.name.text)
  | .differs => .ok (negated (compare a.pathText .equal a.name.text))
  | .oneOf => do
    let vs ← itemsFor .oneOf a
    pure (oneOf a.pathText (placeholders a vs))
  | .noneOf => do
    let vs ← itemsFor .noneOf a
    pure (negated (oneOf a.pathText (placeholders a vs)))
  | .between => do
    let _ ← itemsFor .between a
    pure (between a.pathText (a.name.text ++ "0") (a.name.text ++ "1"))
  | .contains => .ok (call .contains a.pathText (some a.name.text))
  | .startsWith => .ok (call .beginsWith a.pathText (some a.name.text))
  | .exists =>
    .ok (call (if a.value.truthy then .attributeExists else .attributeNotExists) a.pathText none)

def ofAttribute (a : Attribute) : Except Fault Clause := do
  a.requireAliases
  let op ← Operator.ofValue a.operator
  let c ← positive a op
  pure (negateIf a.negate.truthy c)

/-- The notices that go with a clause: a range uses two bounds and leaves the others. -/
def noticesFor (a : Attribute) : List Notice :=
  match a.requireAliases, Operator.ofValue a.operator, a.value.items? with
  | .ok _, .ok .between, some vs => if 2 < vs.length then [.extraBounds a.name vs.length] else []
  | _, _, _ => []

/-- The clause of the condition that a map describes. -/
def read (v : Value) : Noted Clause := do
  let a ← Attribute.read v
  Noted.mk (ofAttribute a) (noticesFor a)

theorem result_read (v : Value) : (read v).result = Attribute.read v >>= ofAttribute := by
  simp [read]

end Clause

end KeysetQuery

import KeysetQuery.Value.Access

/-!
# Quantities

What is counted is an integer as a rule, and may be any number; what is added up may even be a
sequence or a text.

* `Quantity` — the numbers among the values, by the way they are calculated with;
* `Value.plus` — a value added to another one; `Value.plus_int` says that integers are summed;
* `Value.isReachedBy` — whether a number of steps reaches a bound;
* `Value.whole` — the integer in a number, for messages;
* `Value.remainder` — how many items are left when a total is divided by a size.
-/

namespace KeysetQuery

open Number

/-- A number, by the way it is calculated with. -/
inductive Quantity where
  | int (i : Int)
  | float (x : Float)
  | decimal (d : Decimal)
deriving Inhabited

namespace Quantity

/-- A fault for a calculation without a result. -/
def unresolved {α : Type} (a : ArithmeticFault) : Except Fault α := .error (.arithmetic a)

/-- The result of a calculation with decimal numbers. -/
def ofTrapped {α : Type} (r : Except Trap α) : Except Fault α :=
  r.mapError fun t => .arithmetic (.trapped t)

def toValue : Quantity → Value
  | int i => .int i
  | float x => .float x
  | decimal d => .decimal d

/-- The floating-point number nearest to an integer, unless the integer is too great. -/
def floatOfInt (i : Int) : Except Fault Float :=
  let x := nearestFloat (.ofInt i)
  if isInfiniteFloat x then unresolved .integerTooGreat else .ok x

/-! ### Sums -/

/-- The sum of two quantities.  Floating-point numbers and decimals have none. -/
def plus? : Quantity → Quantity → Option (Except Fault Quantity)
  | int i, int j => some (.ok (int (i + j)))
  | int i, float y => some ((floatOfInt i).map fun x => float (x + y))
  | float x, int j => some ((floatOfInt j).map fun y => float (x + y))
  | float x, float y => some (.ok (float (x + y)))
  | int i, decimal d => some (ofTrapped ((Decimal.ofInt i).plus d) |>.map decimal)
  | decimal d, int j => some (ofTrapped (d.plus (.ofInt j)) |>.map decimal)
  | decimal d, decimal d' => some (ofTrapped (d.plus d') |>.map decimal)
  | float _, decimal _ => none
  | decimal _, float _ => none

/-! ### Multiples -/

/-- Whether a floating-point number is a multiple of another one. -/
def floatMultiple (x y : Float) : Except Fault Bool :=
  if isZeroFloat y then unresolved (.zeroDivisor false)
  else
    match exactDecimal x, exactDecimal y with
    | .finite _ c e, .finite _ c' e' =>
      .ok (c * Nat.pow 10 (e - e').toNat % (c' * Nat.pow 10 (e' - e).toNat) == 0)
    | _, _ => .ok false

def isMultipleOf : Quantity → Quantity → Except Fault Bool
  | int i, int j => if j = 0 then unresolved (.zeroDivisor true) else .ok (i % j == 0)
  | int i, float y => do
    let x ← floatOfInt i
    floatMultiple x y
  | float x, int j => do
    let y ← floatOfInt j
    floatMultiple x y
  | float x, float y => floatMultiple x y
  | int i, decimal d => ofTrapped ((Decimal.ofInt i).isMultipleOf d)
  | decimal d, int j => ofTrapped (d.isMultipleOf (.ofInt j))
  | decimal d, decimal d' => ofTrapped (d.isMultipleOf d')
  | float _, decimal _ => .ok false
  | decimal _, float _ => .ok false

end Quantity

namespace Value

open Quantity

/-- The quantity that a value is; a truth value counts as one or zero. -/
def quantity? : Value → Option Quantity
  | bool b => some (.int (if b then 1 else 0))
  | int i => some (.int i)
  | float x => some (.float x)
  | decimal d => some (.decimal d)
  | _ => none

/-! ### Sums -/

/-- A value appended to a text, a byte string or a sequence. -/
def append (v w : Value) : Except Fault Value :=
  match v, w with
  | str s, str t => .ok (str (s ++ t))
  | bytes bs, bytes cs => .ok (bytes (bs ++ cs))
  | tuple vs, tuple ws => .ok (tuple (vs ++ ws))
  | list vs, w => w.members.map fun ws => list (vs ++ ws)
  | str _, w => misused (.notAppended .str w.kind)
  | bytes _, w => misused (.notAppended .bytes w.kind)
  | tuple _, w => misused (.notAppended .tuple w.kind)
  | v, w => misused (.notAddable v.kind w.kind)

def plus (v w : Value) : Except Fault Value :=
  match v.quantity?, w.quantity? with
  | some p, some q =>
    match p.plus? q with
    | some r => r.map toValue
    | none => misused (.notAddable v.kind w.kind)
  | _, _ => append v w

/-- Integers are summed. -/
@[simp] theorem plus_int (i j : Int) : plus (int i) (int j) = .ok (int (i + j)) := rfl

/-! ### Bounds -/

/-- Whether a number of steps reaches a bound.  No number of steps reaches what is not a number. -/
def isReachedBy (bound : Value) (steps : Nat) : Except Fault Bool :=
  match bound.quantity? with
  | some (.int m) => .ok (m ≤ (steps : Int))
  | some (.float x) =>
    if (exactDecimal x).isNan then .ok false
    else ofTrapped ((exactDecimal x).isAtMost (.ofInt steps))
  | some (.decimal d) => ofTrapped (d.isAtMost (.ofInt steps))
  | none => misused (.notOrdered bound.kind)

@[simp] theorem isReachedBy_int (m : Int) (steps : Nat) :
    isReachedBy (int m) steps = .ok (m ≤ (steps : Int)) := rfl

/-! ### Whole parts -/

/-- The integer in a decimal number, which must not have too many digits to be written. -/
def wholeOfDecimal : Decimal → Except Fault Int
  | .nan _ _ _ => unresolved (.nanWhole true)
  | .infinite _ => unresolved (.infiniteWhole true)
  | .finite s c e =>
    if c ≠ 0 && (digitLimit : Int) ≤ Decimal.adjusted c e then unresolved .tooManyDigits
    else .ok (Decimal.finiteWhole s c e)

/-- The integer in a number: the number without its fraction. -/
def whole (v : Value) : Except Fault Int :=
  match v.quantity? with
  | some (.int i) => .ok i
  | some (.float x) =>
    match exactDecimal x with
    | .nan _ _ _ => unresolved (.nanWhole false)
    | .infinite _ => unresolved (.infiniteWhole false)
    | .finite s c e => .ok (Decimal.finiteWhole s c e)
  | some (.decimal d) => wholeOfDecimal d
  | none => misused (.notWhole v.kind)

@[simp] theorem whole_int (i : Int) : whole (int i) = .ok i := rfl

/-! ### Remainders -/

/-- How many items are left when a total is divided by a size that is not negative.  Only integers
leave a number of items; other numbers must leave nothing. -/
def remainder (total size : Value) : Except Fault Nat :=
  match total.quantity?, size.quantity? with
  | some (.int t), some (.int n) =>
    if n = 0 then unresolved (.zeroDivisor true) else .ok (t % n).toNat
  | some p, some q => do
    if ← p.isMultipleOf q then pure 0 else misused (.notIndex total.kind)
  | _, _ => misused (.notIndex total.kind)

end Value

end KeysetQuery

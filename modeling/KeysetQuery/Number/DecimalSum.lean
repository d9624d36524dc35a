import KeysetQuery.Number.DecimalContext

/-!
# Calculating with decimal numbers

Sums are rounded to 28 digits.  What has no sensible result is trapped.

* `Trap` — what is trapped;
* `Decimal.plus` — the sum of two numbers;
* `Decimal.isAtMost` — the order of numbers;
* `Decimal.isMultipleOf` — whether a division leaves no remainder;
* `Decimal.finiteWhole` — a finite number without its fraction.
-/

namespace KeysetQuery.Number

/-- The digits and exponents of results. -/
def workingContext : DecimalContext := ⟨28, -999999, 999999⟩

/-- What is trapped. -/
inductive Trap where
  | invalidOperation
  | divisionImpossible
  | divisionUndefined
  | overflow
deriving DecidableEq, Inhabited

def Trap.condition : Trap → String
  | invalidOperation => "InvalidOperation"
  | divisionImpossible => "DivisionImpossible"
  | divisionUndefined => "DivisionUndefined"
  | overflow => "Overflow"

namespace Decimal

/-! ### What is not a number -/

/-- What stands for "not a number" as a result; of a long payload the last digits are kept. -/
def quietResult : Decimal → Decimal
  | nan negative _ payload => nan negative false (payload % Nat.pow 10 workingContext.precision)
  | d => d

/-- The result of an operation on numbers of which one is "not a number". -/
def nanResult (a b : Decimal) : Except Trap Decimal :=
  if a.isSignalling || b.isSignalling then .error .invalidOperation
  else .ok (if a.isNan then a.quietResult else b.quietResult)

/-! ### Sums -/

/-- The coefficient and the exponent of a number that stands for a small one beside a great one.
So small a number makes no other difference than that it is there. -/
def standIn (c : Nat) (e : Int) (c' : Nat) (e' : Int) : Nat × Int :=
  let n := (digitsOf c).length
  let least : Int := e - 1 + (if workingContext.precision < n then 0
    else (n : Int) - workingContext.precision - 1)
  if c ≠ 0 && adjusted c' e' < least then (if c' = 0 then 0 else 1, least) else (c', e')

/-- The sum of two finite numbers, of which the first has the greater exponent. -/
def plusAligned (s : Bool) (c : Nat) (e : Int) (s' : Bool) (c' : Nat) (e' : Int) :
    Except Trap Decimal :=
  let small := if e = e' then (c', e') else standIn c e c' e'
  let sum := signed s (c * Nat.pow 10 (if c = 0 then 0 else (e - small.2).toNat))
    + signed s' small.1
  let negative := if sum = 0 then s && s' else sum < 0
  match workingContext.round? negative sum.natAbs small.2 with
  | some d => .ok d
  | none => .error .overflow

/-- The sum of two numbers. -/
def plus (a b : Decimal) : Except Trap Decimal :=
  match a, b with
  | finite s c e, finite s' c' e' =>
    if e' ≤ e then plusAligned s c e s' c' e' else plusAligned s' c' e' s c e
  | infinite s, infinite s' => if s = s' then .ok (infinite s) else .error .invalidOperation
  | infinite s, finite _ _ _ => .ok (infinite s)
  | finite _ _ _, infinite s => .ok (infinite s)
  | a, b => nanResult a b

/-! ### Order -/

/-- The sign of a finite number: negative, zero or positive. -/
def signOf (negative : Bool) (c : Nat) : Int := if c = 0 then 0 else if negative then -1 else 1

/-- Whether one number other than zero is at most another one, signs apart.  The first digits are
compared before the coefficients are brought to one exponent. -/
def magnitudeAtMost (c : Nat) (e : Int) (c' : Nat) (e' : Int) : Bool :=
  if adjusted c e ≠ adjusted c' e' then adjusted c e < adjusted c' e'
  else c * Nat.pow 10 (e - e').toNat ≤ c' * Nat.pow 10 (e' - e).toNat

def finiteAtMost (s : Bool) (c : Nat) (e : Int) (s' : Bool) (c' : Nat) (e' : Int) : Bool :=
  if signOf s c ≠ signOf s' c' then signOf s c < signOf s' c'
  else if c = 0 then true
  else if s then magnitudeAtMost c' e' c e
  else magnitudeAtMost c e c' e'

/-- Whether a number is at most another one; "not a number" has no place in the order. -/
def isAtMost (a b : Decimal) : Except Trap Bool :=
  match a, b with
  | finite s c e, finite s' c' e' => .ok (finiteAtMost s c e s' c' e')
  | infinite s, infinite s' => .ok (s || !s')
  | infinite s, finite _ _ _ => .ok s
  | finite _ _ _, infinite s => .ok (!s)
  | _, _ => .error .invalidOperation

/-! ### Division -/

/-- Whether a finite number is a multiple of another one; neither is zero.  The quotient must not
have more digits than a result has. -/
def finiteMultiple (c : Nat) (e : Int) (c' : Nat) (e' : Int) : Except Trap Bool :=
  if (workingContext.precision : Int) < adjusted c e - adjusted c' e' then
    .error .divisionImpossible
  else if adjusted c e < adjusted c' e' then .ok false
  else
    let num := c * Nat.pow 10 (e - e').toNat
    let den := c' * Nat.pow 10 (e' - e).toNat
    if num / den ≠ 0 && workingContext.precision < (digitsOf (num / den)).length then
      .error .divisionImpossible
    else .ok (num % den == 0)

def isMultipleOf (a b : Decimal) : Except Trap Bool :=
  match a, b with
  | finite _ c e, finite _ c' e' =>
    if c' = 0 then .error (if c = 0 then .divisionUndefined else .invalidOperation)
    else if c = 0 then .ok true
    else finiteMultiple c e c' e'
  | finite _ c _, infinite _ => .ok (c == 0)
  | infinite _, finite _ _ _ => .error .invalidOperation
  | infinite _, infinite _ => .error .invalidOperation
  | a, b => (nanResult a b).map fun _ => false

/-! ### Whole parts -/

/-- A finite number without its fraction. -/
def finiteWhole (negative : Bool) (c : Nat) (e : Int) : Int :=
  if c = 0 || adjusted c e < 0 then 0
  else signed negative (c * Nat.pow 10 e.toNat / Nat.pow 10 (-e).toNat)

end Decimal

end KeysetQuery.Number

import KeysetQuery.Number.Decimal

/-!
# Exact storage of decimal numbers

A store keeps a decimal number in a fixed number of digits and a fixed range of exponents.  A
number that does not fit is refused and never rounded.

* `DecimalContext` holds the digits and the exponents;
* `DecimalContext.loss?` says what a number would lose, if anything;
* `DecimalContext.hold` gives the number back unchanged, or the loss;
* `DecimalContext.round?` rounds a number instead, unless it is too great.
-/

namespace KeysetQuery.Number

/-- The digits a store keeps and the least and greatest exponent of a first digit. -/
structure DecimalContext where
  precision : Nat
  least : Int
  greatest : Int

/-- What a number would lose in a context. -/
inductive Loss where
  /-- The first digit stands above the greatest exponent. -/
  | overflow
  /-- The first digit stands below the least exponent and digits other than zero are lost;
  `toZero` if all of them are. -/
  | underflow (toZero : Bool)
  /-- Digits other than zero are lost. -/
  | inexact
  /-- Only zeros are lost. -/
  | rounded
  /-- A zero has an exponent that is out of range. -/
  | clamped
deriving DecidableEq, Inhabited

namespace Loss

/-- The conditions that a loss stands for, the gravest first. -/
def conditions : Loss → List String
  | overflow => ["Overflow", "Inexact", "Rounded"]
  | underflow false => ["Underflow", "Inexact", "Rounded"]
  | underflow true => ["Underflow", "Inexact", "Rounded", "Clamped"]
  | inexact => ["Inexact", "Rounded"]
  | rounded => ["Rounded"]
  | clamped => ["Clamped"]

end Loss

namespace DecimalContext

/-- The exponent of the last digit that the context keeps of the smallest numbers. -/
def floor (ctx : DecimalContext) : Int := ctx.least - ctx.precision + 1

/-- A coefficient without its last `k` digits, rounded to the nearest, the half to the even
neighbour. -/
def dropDigits (c k : Nat) : Nat :=
  if (digitsOf c).length < k then 0
  else
    let q := c / Nat.pow 10 k
    let r := c % Nat.pow 10 k
    if Nat.pow 10 k < 2 * r || (2 * r == Nat.pow 10 k && q % 2 == 1) then q + 1 else q

/-- Whether rounding away the last `k` digits of a coefficient leaves one digit more than there
are in front of them. -/
def carries (c k : Nat) : Bool :=
  (digitsOf (c / Nat.pow 10 k)).length < (digitsOf (dropDigits c k)).length

/-- The loss of a coefficient other than zero. -/
def lossOf (ctx : DecimalContext) (c : Nat) (e : Int) : Option Loss :=
  let first := Decimal.adjusted c e
  if ctx.greatest < first then some .overflow
  else
    let n := (digitsOf c).length
    let small : Bool := first < ctx.least
    let target : Int := if small then ctx.floor else e + n - ctx.precision
    let k := (target - e).toNat
    if k = 0 then none
    else if k ≤ n && c % Nat.pow 10 k == 0 then some .rounded
    else if small then some (.underflow (n < k || c * 2 ≤ Nat.pow 10 k))
    else if first = ctx.greatest && carries c k then some .overflow
    else some .inexact

/-- What a number would lose, if anything. -/
def loss? (ctx : DecimalContext) : Decimal → Option Loss
  | .finite _ 0 e => if e < ctx.floor || ctx.greatest < e then some .clamped else none
  | .finite _ c e => ctx.lossOf c e
  | _ => none

/-- What stands for "not a number" in the context: a payload of too many digits is no number at
all. -/
def admissibleNan (ctx : DecimalContext) (d : Decimal) : Decimal :=
  match d with
  | .nan _ _ payload =>
    if ctx.precision < (digitsOf payload).length then .nan false false 0 else d
  | d => d

def hold (ctx : DecimalContext) (d : Decimal) : Except Loss Decimal :=
  match ctx.loss? d with
  | none => .ok (ctx.admissibleNan d)
  | some l => .error l

/-- A number that loses nothing is held. -/
theorem hold_eq_ok_iff {ctx : DecimalContext} {d d' : Decimal} :
    ctx.hold d = .ok d' ↔ ctx.loss? d = none ∧ d' = ctx.admissibleNan d := by
  unfold hold
  cases ctx.loss? d <;> simp [eq_comm]

/-! ### Rounding -/

def roundZero (ctx : DecimalContext) (negative : Bool) (e : Int) : Decimal :=
  .finite negative 0 (if ctx.greatest < e then ctx.greatest else if e < ctx.floor then ctx.floor
    else e)

/-- A finite number in as many digits as the context has, rounded to the nearest, the half to the
even neighbour.  There is none if it is too great. -/
def round? (ctx : DecimalContext) (negative : Bool) (c : Nat) (e : Int) : Option Decimal :=
  if c = 0 then some (ctx.roundZero negative e)
  else if ctx.greatest < Decimal.adjusted c e then none
  else
    let target : Int := max ctx.floor (e + (digitsOf c).length - ctx.precision)
    if target ≤ e then some (.finite negative c e)
    else
      let q := dropDigits c (target - e).toNat
      let fitted := if ctx.precision < (digitsOf q).length then (q / 10, target + 1) else (q, target)
      if ctx.greatest < Decimal.adjusted fitted.1 fitted.2 then none
      else some (.finite negative fitted.1 fitted.2)

end DecimalContext

end KeysetQuery.Number

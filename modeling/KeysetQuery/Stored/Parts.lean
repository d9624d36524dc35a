import KeysetQuery.Value.Access

/-!
# Numbers given in parts

A number may be given by its sign, its digits and what stands behind them: an exponent, or a letter
for a number that is not finite.

* `DigitTail` — what stands behind the digits;
* `signOfPart`, `tailOfPart`, `digitsOfPart` — the three parts, each with the reason why a value is
  none;
* `decimalOfParts` — the number that parts make;
* `numberOfParts` — the number that a sequence of three parts makes.

The parts are looked at in the order sign, tail, digits.
-/

namespace KeysetQuery.Stored

open Number Text

/-- What stands behind the digits of a number. -/
inductive DigitTail where
  | exponent (e : Int)
  | infinite
  | nan (signalling : Bool)
deriving DecidableEq, Inhabited

/-- A fault for parts that do not make a number. -/
def unfitPart {α : Type} (p : PartsFault) : Except Fault α := .error (.encoding (.parts p))

/-- The integer that a part is; a truth value counts as one or zero. -/
def wholePart? : Value → Option Int
  | .bool b => some (if b then 1 else 0)
  | .int i => some i
  | _ => none

/-- A part that is an integer of 64 bits; `otherwise` is the reason why another value is none, and
`tooGreat` why an integer beyond them is none. -/
def wordOfPart (otherwise tooGreat : PartsFault) (v : Value) : Except Fault Int :=
  match wholePart? v with
  | none => unfitPart otherwise
  | some i => if fitsWord i then .ok i else unfitPart tooGreat

/-- The sign: one stands for a negative number, zero for another one. -/
def signOfPart (v : Value) : Except Fault Bool := do
  let i ← wordOfPart .sign .wordTooGreat v
  if i = 0 then pure false else if i = 1 then pure true else unfitPart .sign

/-- The letters that may stand in place of an exponent. -/
def tailLetters : List (String × DigitTail) :=
  [("F", .infinite), ("n", .nan false), ("N", .nan true)]

def tailOfPart : Value → Except Fault DigitTail
  | .str s =>
    match tailLetters.lookup s with
    | some t => .ok t
    | none => unfitPart .special
  | v => (wordOfPart .exponent .exponentTooGreat v).map .exponent

def digitOfPart (v : Value) : Except Fault Nat := do
  let i ← wordOfPart .coefficient .wordTooGreat v
  if 0 ≤ i && i ≤ 9 then pure i.toNat else unfitPart .coefficient

def digitsOfPart (v : Value) : Except Fault (List Nat) :=
  match v.items? with
  | some vs => eachOk digitOfPart vs
  | none => unfitPart .coefficient

/-- The number that parts make.  The digits of an infinite number do not matter. -/
def decimalOfParts (negative : Bool) (ds : List Nat) : DigitTail → Decimal
  | .exponent e => .finite negative (ofDigits ds) e
  | .infinite => .infinite negative
  | .nan signalling => .nan negative signalling (ofDigits ds)

/-- The number that a sequence of three parts makes. -/
def numberOfParts : List Value → Except Fault Decimal
  | [sign, digits, tail] => do
    let negative ← signOfPart sign
    let t ← tailOfPart tail
    let ds ← digitsOfPart digits
    pure (decimalOfParts negative ds t)
  | _ => unfitPart .count

end KeysetQuery.Stored

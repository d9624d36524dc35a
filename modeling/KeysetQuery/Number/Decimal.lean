import KeysetQuery.Number.IntegerText

/-!
# Decimal numbers

A decimal number keeps the digits and the exponent it was written with, so `1.5` and `1.50` are
two numbers as written and one number in value.

* `Decimal.text` writes a number, with an exponent only where the point would stand far away;
* `Decimal.read?` reads the grammar of such texts, in the digits of any script;
* `Decimal.sameValue` compares two finite numbers in value.
-/

namespace KeysetQuery.Number

open KeysetQuery.Text

/-- A decimal number as written. -/
inductive Decimal where
  | finite (negative : Bool) (coefficient : Nat) (exponent : Int)
  | infinite (negative : Bool)
  | nan (negative signalling : Bool) (payload : Nat)
deriving DecidableEq, Inhabited

/-- The decimal digits of a number, most significant first; zero has one. -/
def digitsOf (n : Nat) : List Char := Nat.toDigits 10 n

theorem length_digitsOf_pos (n : Nat) : 0 < (digitsOf n).length := Nat.length_toDigits_pos

namespace Decimal

def ofInt (i : Int) : Decimal := finite (i < 0) i.natAbs 0

def isSignalling : Decimal → Bool
  | nan _ signalling _ => signalling
  | _ => false

/-- Whether a number stands for "not a number". -/
def isNan : Decimal → Bool
  | nan _ _ _ => true
  | _ => false

/-! ### Writing -/

def signText (negative : Bool) : String := if negative then "-" else ""

def exponentText (e : Int) : String :=
  if e < 0 then "-" ++ toString e.natAbs else "+" ++ toString e.natAbs

/-- The digits of a number with the point after `left` of them; `left` is at most their number. -/
def positional (ds : List Char) (left : Int) : List Char :=
  if left ≤ 0 then '0' :: '.' :: List.replicate (-left).toNat '0' ++ ds
  else if left.toNat < ds.length then ds.take left.toNat ++ '.' :: ds.drop left.toNat
  else ds

/-- The digits of a number with the point after the first, if there are more. -/
def leading : List Char → List Char
  | d :: d' :: ds => d :: '.' :: d' :: ds
  | ds => ds

/-- The text of a number.  An exponent is written when it is positive, or when the first digit
stands more than six places behind the point. -/
def text : Decimal → String
  | nan neg signalling payload =>
    signText neg ++ (if signalling then "sNaN" else "NaN")
      ++ (if payload = 0 then "" else toString payload)
  | infinite neg => signText neg ++ "Infinity"
  | finite neg c e =>
    let ds := digitsOf c
    let left : Int := ds.length + e
    if e ≤ 0 && -6 < left then signText neg ++ String.ofList (positional ds left)
    else signText neg ++ String.ofList (leading ds) ++ "E" ++ exponentText (left - 1)

/-! ### Reading -/

/-- The values of the digits at the front of a text, and the rest. -/
def takeDigits : List Char → List Nat × List Char
  | [] => ([], [])
  | c :: cs =>
    match digitValue? c with
    | none => ([], c :: cs)
    | some d => let r := takeDigits cs; (d :: r.1, r.2)

/-- The exponent at the end of a number: nothing, or a letter `e`, a sign and digits. -/
def readExponent? : List Char → Option Int
  | [] => some 0
  | c :: cs =>
    if c = 'e' || c = 'E' then
      let body := takeSign cs
      match takeDigits body.2 with
      | (d :: ds, []) => some (signed body.1 (ofDigits (d :: ds)))
      | _ => none
    else none

/-- A finite number without its sign. -/
def readFinite? (negative : Bool) (cs : List Char) : Option Decimal :=
  let whole := takeDigits cs
  let fraction := match whole.2 with
    | '.' :: rest => takeDigits rest
    | rest => ([], rest)
  let ds := whole.1 ++ fraction.1
  if ds.isEmpty then none
  else (readExponent? fraction.2).map fun e =>
    finite negative (ofDigits ds) (e - fraction.1.length)

/-- The payload of a text for "not a number", after the name. -/
def readPayload? (negative signalling : Bool) (cs : List Char) : Option Decimal :=
  match takeDigits cs with
  | (ds, []) => some (nan negative signalling (ofDigits ds))
  | _ => none

/-- The number written in a text. -/
def read? (s : String) : Option Decimal :=
  let body := takeSign s.toList
  match body.2.map Char.toLower with
  | ['i', 'n', 'f'] => some (infinite body.1)
  | ['i', 'n', 'f', 'i', 'n', 'i', 't', 'y'] => some (infinite body.1)
  | 'n' :: 'a' :: 'n' :: rest => readPayload? body.1 false rest
  | 's' :: 'n' :: 'a' :: 'n' :: rest => readPayload? body.1 true rest
  | _ => readFinite? body.1 body.2

/-! ### Values -/

def isZero : Decimal → Bool
  | finite _ c _ => c == 0
  | _ => false

/-- The exponent of the first digit of a coefficient at an exponent. -/
def adjusted (c : Nat) (e : Int) : Int := e + (digitsOf c).length - 1

/-- Whether two numbers have one value.  The first digits are compared before the coefficients are
brought to one exponent, so exponents of any size do no harm. -/
def sameValue : Decimal → Decimal → Bool
  | finite s c e, finite s' c' e' =>
    if c == 0 || c' == 0 then c == c'
    else s == s' && adjusted c e == adjusted c' e'
      && c * Nat.pow 10 (e - e').toNat == c' * Nat.pow 10 (e' - e).toNat
  | infinite s, infinite s' => s == s'
  | _, _ => false

/-- The integer that a finite number is, if it is one. -/
def toInt? : Decimal → Option Int
  | finite s c e =>
    if 0 ≤ e then some (signed s (c * Nat.pow 10 e.toNat))
    else if c = 0 then some 0
    else if (digitsOf c).length ≤ (-e).toNat then none
    else if c % Nat.pow 10 (-e).toNat = 0 then some (signed s (c / Nat.pow 10 (-e).toNat))
    else none
  | _ => none

end Decimal

end KeysetQuery.Number

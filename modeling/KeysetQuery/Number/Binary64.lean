import KeysetQuery.Number.Decimal

/-!
# Binary floating-point numbers as texts

* `parts` takes a `Float` apart into sign, mantissa and exponent of two, all exact integers;
* `shortest` finds the fewest decimal digits that read back as the number, and of those the
  nearest to it;
* `floatText` lays them out, positionally from `0.0001` to below `10^16` and with an exponent
  elsewhere, always with a point or an exponent;
* `readFloat?` reads a text, rounding to the nearest number;
* `exactDecimal` is the number as a decimal, digit for digit.
-/

namespace KeysetQuery.Number

open KeysetQuery.Text

/-! ### Parts -/

/-- A floating-point number in exact integers: a finite one is `mantissa * 2 ^ exponent`. -/
inductive FloatParts where
  | finite (negative : Bool) (mantissa : Nat) (exponent : Int)
  | infinite (negative : Bool)
  | nan
deriving DecidableEq

/-- The parts of a floating-point number, read off its bits. -/
def parts (x : Float) : FloatParts :=
  let bits : Nat := x.toBits.toNat
  let negative : Bool := Nat.pow 2 63 ≤ bits
  let e : Nat := bits / Nat.pow 2 52 % Nat.pow 2 11
  let m : Nat := bits % Nat.pow 2 52
  if e = 2047 then if m = 0 then .infinite negative else .nan
  else if e = 0 then .finite negative m (-1074)
  else .finite negative (m + Nat.pow 2 52) ((e : Int) - 1075)

/-- Whether a floating-point number is zero. -/
def isZeroFloat (x : Float) : Bool :=
  match parts x with
  | .finite _ m _ => m == 0
  | _ => false

/-- A finite floating-point number as a decimal number, digit for digit and with the fewest
places. -/
def exactDecimal (x : Float) : Decimal :=
  match parts x with
  | .nan => .nan false false 0
  | .infinite s => .infinite s
  | .finite s m e =>
    if 0 ≤ e then .finite s (m * Nat.pow 2 e.toNat) 0
    else if m = 0 then .finite s 0 0
    else
      let places := (-e).toNat
      let common := Nat.gcd m (Nat.pow 2 places)
      let left := places - common.log2
      .finite s (m / common * Nat.pow 5 left) (-(left : Int))

/-! ### Reading -/

/-- A quotient rounded to the nearest integer, the half to the even neighbour. -/
def roundQuotient (num den : Nat) : Nat :=
  let q := num / den
  let r := 2 * (num % den)
  if den < r || (r == den && q % 2 == 1) then q + 1 else q

/-- The exponent of two that leaves a mantissa of 53 bits of the quotient `num / den`; the numbers
nearest to zero have fewer bits. -/
def mantissaExponent (num den : Nat) : Int :=
  let e : Int := (num.log2 : Int) - den.log2 - 53
  let least := if num * Nat.pow 2 (-e).toNat < den * Nat.pow 2 e.toNat * Nat.pow 2 53 then e
    else e + 1
  max least (-1074)

/-- The bits of the floating-point number nearest to `num / den`.  Bits beyond those of the greatest
number are those of infinity. -/
def nearestBits (num den : Nat) : Nat :=
  if num = 0 then 0
  else
    let e := mantissaExponent num den
    let m := roundQuotient (num * Nat.pow 2 (-e).toNat) (den * Nat.pow 2 e.toNat)
    min ((e + 1074).toNat * Nat.pow 2 52 + m) (2047 * Nat.pow 2 52)

/-- The floating-point number of given bits. -/
def ofSignedBits (negative : Bool) (bits : Nat) : Float :=
  Float.ofBits (UInt64.ofNat (if negative then bits + Nat.pow 2 63 else bits))

/-- The floating-point number nearest to a decimal one.  Far beyond the range of the format the
answer is infinite or zero, and no power of ten is computed. -/
def nearestFloat : Decimal → Float
  | .nan _ _ _ => 0.0 / 0.0
  | .infinite s => ofSignedBits s (2047 * Nat.pow 2 52)
  | .finite s c e =>
    ofSignedBits s
      (if c = 0 then 0
      else if 400 < Decimal.adjusted c e then 2047 * Nat.pow 2 52
      else if Decimal.adjusted c e < -400 then 0
      else nearestBits (c * Nat.pow 10 e.toNat) (Nat.pow 10 (-e).toNat))

/-- Whether a floating-point number is infinite. -/
def isInfiniteFloat (x : Float) : Bool :=
  match parts x with
  | .infinite _ => true
  | _ => false

/-- The floating-point number written in a text. -/
def readFloat? (s : String) : Option Float := (Decimal.read? s).map nearestFloat

/-! ### The shortest digits -/

/-- The number `c * 10 ^ e`, not negative, as a floating-point number. -/
def ofDecimalDigits (c : Nat) (e : Int) : Float := nearestFloat (.finite false c e)

/-- The two neighbours of `num / den` on the grid of the multiples of `10 ^ e`, with the nearer
one first; of two equally near ones the even one. -/
def neighbours (num den : Nat) (e : Int) : List Nat :=
  let scaledNum := num * Nat.pow 10 (-e).toNat
  let scaledDen := den * Nat.pow 10 e.toNat
  let low := scaledNum / scaledDen
  let rest := 2 * (scaledNum % scaledDen)
  if rest < scaledDen || (rest == scaledDen && low % 2 == 0) then [low, low + 1]
  else [low + 1, low]

/-- Search of the grids from coarse to fine, beginning at exponent `e`, for a point that reads
back as `x`; the finest grid, whose points are always near enough, is taken as it is. -/
def searchGrids (x : Float) (num den : Nat) : Nat → Int → Nat × Int
  | 0, e => ((neighbours num den e).headD 0, e)
  | fuel + 1, e =>
    match (neighbours num den e).find? fun c => ofDecimalDigits c e == x with
    | some c => (c, e)
    | none => searchGrids x num den fuel (e - 1)

/-- Digits and exponent of the shortest decimal number that reads back as `m * 2 ^ e`, where `x`
is that number. -/
def shortest (x : Float) (m : Nat) (e : Int) : Nat × Int :=
  let num := m * Nat.pow 2 e.toNat
  let den := Nat.pow 2 (-e).toNat
  let first : Int :=
    if den ≤ num then ((digitsOf (num / den)).length : Int) - 1
    else -((digitsOf (den / num)).length : Int)
  searchGrids x num den 17 (first + 1)

/-! ### Writing -/

/-- A coefficient without trailing zeros; its exponent grows by their number. -/
def dropZeros : List Char → List Char
  | ds => (ds.reverse.dropWhile (· == '0')).reverse

/-- An exponent of at least two digits, with its sign. -/
def exponentDigits (e : Int) : String :=
  let ds := toString e.natAbs
  (if e < 0 then "e-" else "e+") ++ (if ds.length < 2 then "0" ++ ds else ds)

/-- The layout of digits whose point stands after `left` of them. -/
def layout (ds : List Char) (left : Int) : String :=
  if left ≤ -4 || 16 < left then
    String.ofList (Decimal.leading ds) ++ exponentDigits (left - 1)
  else if left ≤ 0 then String.ofList ('0' :: '.' :: List.replicate (-left).toNat '0' ++ ds)
  else if left.toNat < ds.length then
    String.ofList (ds.take left.toNat ++ '.' :: ds.drop left.toNat)
  else
    String.ofList (ds ++ List.replicate (left.toNat - ds.length) '0' ++ ['.', '0'])

/-- The text of a floating-point number. -/
def floatText (x : Float) : String :=
  match parts x with
  | .nan => "nan"
  | .infinite s => Decimal.signText s ++ "inf"
  | .finite s 0 _ => Decimal.signText s ++ "0.0"
  | .finite s m e =>
    let found := shortest (if s then -x else x) m e
    let ds := digitsOf found.1
    Decimal.signText s ++ layout (dropZeros ds) (ds.length + found.2)

end KeysetQuery.Number

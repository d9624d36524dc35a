import KeysetQuery.Text.Blank
import KeysetQuery.Text.DecimalDigit

/-!
# Integers as texts

Two grammars for a written integer, both with an optional sign and with single low lines allowed
between digits.  Both ignore white space at both ends and refuse texts of too many digits.

* `IntegerReading` — how a text reads;
* `readInteger` takes the digits of every script;
* `readWhole` takes the digits `0` to `9` and allows a point followed by zeros only.
-/

namespace KeysetQuery.Number

open KeysetQuery.Text

/-! ### Digits -/

/-- The values of a run of digits in which single low lines may stand between digits. -/
def digitRun? (digit : Char → Option Nat) : List Char → Option (List Nat)
  | [] => none
  | [c] => (digit c).map fun d => [d]
  | c :: c' :: cs =>
    match digit c with
    | none => none
    | some d =>
      if c' = '_' then (digitRun? digit cs).map (d :: ·)
      else (digitRun? digit (c' :: cs)).map (d :: ·)

/-- The sign in front of a text, negative or not, and the rest. -/
def takeSign : List Char → Bool × List Char
  | '-' :: cs => (true, cs)
  | '+' :: cs => (false, cs)
  | cs => (false, cs)

def signed (negative : Bool) (n : Nat) : Int :=
  if negative then -(n : Int) else n

/-- The least and the greatest integer of 64 bits lie in this range. -/
def fitsWord (i : Int) : Bool := -(Nat.pow 2 63 : Int) ≤ i && i < (Nat.pow 2 63 : Int)

/-! ### Readings -/

/-- How a text reads as an integer. -/
inductive IntegerReading where
  | value (i : Int)
  /-- It has more digits than are read at all. -/
  | tooLong (digits : Nat)
  | unreadable
deriving DecidableEq, Inhabited

/-- How many digits of an integer are read at most. -/
def digitLimit : Nat := 4300

/-! ### Digits of every script -/

/-- Whether a character may stand in a run of digits. -/
def isRunChar (c : Char) : Bool := (digitValue? c).isSome || c == '_'

/-- How a text reads as an integer, in the digits of any script.  A run of digits that is too long
is not looked at any further. -/
def readInteger (s : String) : IntegerReading :=
  let body := takeSign (trim isSpace s.toList)
  match digitRun? digitValue? (body.2.takeWhile isRunChar) with
  | none => .unreadable
  | some ds =>
    if digitLimit < ds.length then .tooLong ds.length
    else if (body.2.dropWhile isRunChar).isEmpty then .value (signed body.1 (ofDigits ds))
    else .unreadable

/-- The integer written in a text, in the digits of any script. -/
def readInteger? (s : String) : Option Int :=
  match readInteger s with
  | .value i => some i
  | _ => none

/-! ### Whole numbers -/

def isLeadingDigit (c : Char) : Bool := '1' ≤ c && c ≤ '9'

/-- How a plain whole number reads: a minus sign perhaps, and digits without needless zeros in
front.  The sign counts with the digits. -/
def readPlain (cs : List Char) : IntegerReading :=
  let negative := cs.head? == some '-'
  let body := if negative then cs.drop 1 else cs
  match body with
  | [] => .unreadable
  | c :: rest =>
    if c = '0' then if rest.isEmpty then .value 0 else .unreadable
    else if isLeadingDigit c then
      let run := body.takeWhile Char.isDigit
      let size := run.length + (if negative then 1 else 0)
      if digitLimit < size then .tooLong size
      else if (body.dropWhile Char.isDigit).isEmpty then
        .value (signed negative (ofDigits (run.filterMap asciiDigit?)))
      else .unreadable
    else .unreadable

/-- What is left behind zeros and low lines, of which `previous` is the last.  A point keeps the
character in front of it, and if nothing is left the last character is. -/
def pastZeros (previous : Char) : List Char → Option (List Char)
  | [] => some [previous]
  | c :: cs =>
    if c = '0' || c = '_' then pastZeros c cs
    else if isLeadingDigit c || c = '-' then some (c :: cs)
    else if c = '.' then some (previous :: c :: cs)
    else none

def withoutZeros : List Char → Option (List Char)
  | [] => none
  | c :: cs =>
    if c = '0' then pastZeros c cs
    else if isLeadingDigit c || c = '-' then some (c :: cs)
    else none

/-- The part of a text before a point and after it, if there is a point. -/
def splitPoint (cs : List Char) : List Char × Option (List Char) :=
  match cs.dropWhile (· != '.') with
  | [] => (cs, none)
  | _ :: rest => (cs.takeWhile (· != '.'), some rest)

/-- A number without a point that is followed by zeros only. -/
def withoutPoint (cs : List Char) : List Char :=
  match splitPoint cs with
  | (whole, some fraction) => if !fraction.isEmpty && fraction.all (· == '0') then whole else cs
  | (_, none) => cs

/-- Whether two low lines stand side by side. -/
def hasDoubleLine : List Char → Bool
  | c :: c' :: cs => (c == '_' && c' == '_') || hasDoubleLine (c' :: cs)
  | _ => false

/-- A number without low lines, if they stand singly and inside. -/
def withoutLines (cs : List Char) : List Char :=
  if cs.head? == some '_' || cs.getLast? == some '_' || hasDoubleLine cs then cs
  else cs.filter (· != '_')

/-- A number in plain form, its sign apart. -/
def plainForm (cs : List Char) : Option (List Char) :=
  (withoutZeros cs).map fun rest => withoutLines (withoutPoint rest)

def plainNumber (cs : List Char) : Option (List Char) :=
  match cs with
  | '+' :: rest => if rest.head? == some '-' then none else plainForm rest
  | '-' :: rest => (plainForm rest).map ('-' :: ·)
  | rest => plainForm rest

/-- How a text reads as a whole number.  It is first taken as it stands and then in plain form. -/
def readWhole (s : String) : IntegerReading :=
  match readPlain s.toList with
  | .unreadable =>
    match plainNumber (trim isSpace s.toList) with
    | some cs => readPlain cs
    | none => .unreadable
  | reading => reading

end KeysetQuery.Number

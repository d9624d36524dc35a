import KeysetQuery.Text.Utf8
import KeysetQuery.Value.Access

/-!
# Fields of a schema

A field is read leniently: a value of another kind is taken where it means the same.  A byte
string stands for the text that it is in UTF-8.  What cannot be taken leaves issues, and issues of
several fields are gathered.

* `Check` and `Check.both` — a value or issues, and the gathering of issues;
* `readInteger`, `readTruth`, `readText?`, `readRecord` — the kinds of fields;
* `byName` — what several keys of one text come to;
* `Record` — a map with texts as keys.
-/

namespace KeysetQuery

open Number Text

/-- A map with texts as keys, in order. -/
abbrev Record := List (String × Value)

def Record.entries (r : Record) : Entries := r.map fun e => (Value.str e.1, e.2)

def Record.toValue (r : Record) : Value := .map (Record.entries r)

def Record.get? (r : Record) (name : String) : Option Value := r.lookup name

namespace Schema

/-! ### Gathering issues -/

/-- A value, or the issues that stand in its way. -/
abbrev Check (α : Type) := Except (List Issue) α

def issue {α : Type} (place : List Place) (kind : IssueKind) : Check α := .error [⟨place, kind⟩]

/-- Two values, or the issues of both, those of the first in front. -/
def Check.both {α β : Type} (a : Check α) (b : Check β) : Check (α × β) :=
  match a, b with
  | .ok a, .ok b => .ok (a, b)
  | .ok _, .error j => .error j
  | .error i, .ok _ => .error i
  | .error i, .error j => .error (i ++ j)

def Check.all {α : Type} : List (Check α) → Check (List α)
  | [] => .ok []
  | c :: cs =>
    match Check.both c (Check.all cs) with
    | .ok (a, as) => .ok (a :: as)
    | .error i => .error i

/-- A key as a step to the part behind it: an integer of 64 bits or a truth value by its number, a
text by itself, anything else as it is shown inside a value. -/
def placeOfKey : Value → Place
  | .str s => .name s
  | .bool b => .index (if b then 1 else 0)
  | .int i => if fitsWord i then .index i else .name (toString i)
  | v => .name v.quoted

/-! ### Scalars -/

def isFinite : Decimal → Bool
  | .finite _ _ _ => true
  | _ => false

def integerOfText (place : List Place) (s : String) : Check Int :=
  match readWhole s with
  | .value i => .ok i
  | .tooLong _ => issue place .integerTooLarge
  | .unreadable => issue place .integerUnreadable

/-- An integer field: an integer, a truth value as zero or one, a number without a fraction, or
the text of an integer. -/
def readInteger (place : List Place) : Value → Check Int
  | .bool b => .ok (if b then 1 else 0)
  | .int i => .ok i
  | .float x =>
    if isFinite (exactDecimal x) then
      match (exactDecimal x).toInt? with
      | none => issue place .fractionLost
      | some i => if i.natAbs < Nat.pow 2 63 then .ok i else issue place .integerTooLarge
    else issue place .notFinite
  | .decimal d =>
    if isFinite d then
      match d.toInt? with
      | none => issue place .fractionLost
      | some i => .ok i
    else issue place .notFinite
  | .str s => integerOfText place s
  | .bytes bs =>
    match decodeUtf8? bs with
    | some s => integerOfText place s
    | none => issue place .integerUnreadable
  | _ => issue place .integerExpected

/-- A truth value that an integer stands for: one or zero, and only integers of 64 bits are
considered at all. -/
def truthOfInteger (place : List Place) (i : Int) : Check Bool :=
  if i = 1 then .ok true
  else if i = 0 then .ok false
  else if fitsWord i then issue place .truthUnreadable
  else issue place .truthExpected

/-- A truth value that a floating-point number stands for: one or zero, and only numbers without a
fraction and less than `2 ^ 63` are considered at all. -/
def truthOfFloat (place : List Place) (x : Float) : Check Bool :=
  match (exactDecimal x).toInt? with
  | some i =>
    if i.natAbs < Nat.pow 2 63 then truthOfInteger place i else issue place .truthExpected
  | none => issue place .truthExpected

def trueTexts : List String := ["1", "t", "true", "y", "yes", "on"]

def falseTexts : List String := ["0", "f", "false", "n", "no", "off"]

/-- A truth value that a text stands for, in any case. -/
def truthOfText (place : List Place) (s : String) : Check Bool :=
  let word := String.ofList (s.toList.map Char.toLower)
  if trueTexts.contains word then .ok true
  else if falseTexts.contains word then .ok false
  else issue place .truthUnreadable

/-- A truth field: a truth value, a number that is one or zero, or a text that stands for a truth
value.  A decimal number is taken for the floating-point number next to it. -/
def readTruth (place : List Place) : Value → Check Bool
  | .bool b => .ok b
  | .int i => truthOfInteger place i
  | .float x => truthOfFloat place x
  | .decimal d => truthOfFloat place (nearestFloat d)
  | .str s => truthOfText place s
  | .bytes bs =>
    match decodeUtf8? bs with
    | some s => truthOfText place s
    | none => issue place .truthUnreadable
  | _ => issue place .truthExpected

def readText (place : List Place) : Value → Check String
  | .str s => .ok s
  | .bytes bs =>
    match decodeUtf8? bs with
    | some s => .ok s
    | none => issue place .textUnreadable
  | _ => issue place .textExpected

def readText? (place : List Place) : Value → Check (Option String)
  | .null => .ok none
  | v => (readText place v).map some

/-! ### Records -/

/-- Write something under a name.  A name that is there already keeps its place. -/
def putByName {α : Type} (name : String) (a : α) : List (String × α) → List (String × α)
  | [] => [(name, a)]
  | (n, b) :: ps => if n = name then (name, a) :: ps else (n, b) :: putByName name a ps

/-- What is written under names, one after the other; later ones win. -/
def byName {α : Type} (ps : List (String × α)) : List (String × α) :=
  ps.foldl (fun acc p => putByName p.1 p.2 acc) []

/-- The text of a key; issues are placed behind the key. -/
def readKey (place : List Place) (k : Value) : Check String :=
  readText (place ++ [placeOfKey k, .name "[key]"]) k

/-- The entries of a record, with an issue for each key that is no text. -/
def readKeys (place : List Place) (es : List (Value × Value)) : List (Check (String × Value)) :=
  es.map fun e => (readKey place e.1).map fun s => (s, e.2)

def readRecord (place : List Place) : Value → Check Record
  | .map es => (Check.all (readKeys place es)).map byName
  | _ => issue place .mapExpected

def readRecord? (place : List Place) : Value → Check (Option Record)
  | .null => .ok none
  | v => (readRecord place v).map some

def readInteger? (place : List Place) : Value → Check (Option Int)
  | .null => .ok none
  | v => (readInteger place v).map some

end Schema

end KeysetQuery

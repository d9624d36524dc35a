import KeysetQuery.Number.Binary64

/-!
# Values

Names, keys, conditions, records and requests are all made of one kind of value.

* `Value` — scalars, sequences, sets and maps; a map keeps the order of its entries;
* `Value.isSequence`, `Value.isEmpty` — the sequences, and the values a store refuses to keep;
* `Value.truthy` — what counts as a yes;
* `Value.Kind` — the kind of a value, for messages;
* `Value.isKey` — whether a value may be a key, and `Value.unfitKind?` what stands in the way.
-/

namespace KeysetQuery

open Number

/-- A value.  `missing` stands where an attribute has no value at all, which is not the same as
having the value `null`; `binary` is a byte string in the wrapping a store gives it. -/
inductive Value where
  | null
  | missing
  | bool (b : Bool)
  | int (i : Int)
  | float (x : Float)
  | decimal (d : Decimal)
  | str (s : String)
  | bytes (bs : List UInt8)
  | binary (bs : List UInt8)
  | list (vs : List Value)
  | tuple (vs : List Value)
  | set (vs : List Value)
  | map (es : List (Value × Value))
deriving Inhabited

namespace Value

/-! ### Classes of values -/

def items? : Value → Option (List Value)
  | list vs => some vs
  | tuple vs => some vs
  | _ => none

def isSequence (v : Value) : Bool := v.items?.isSome

/-- Whether a store would refuse to keep a value: a missing one, an empty text or an empty
sequence.  Null, zero, false and empty maps are real values. -/
def isEmpty : Value → Bool
  | missing => true
  | str s => s == ""
  | list vs => vs.isEmpty
  | tuple vs => vs.isEmpty
  | _ => false

/-- Whether a value counts as a yes: everything but null, what is missing, false, zero and what
is empty. -/
def truthy : Value → Bool
  | null => false
  | missing => false
  | bool b => b
  | int i => i != 0
  | float x => !isZeroFloat x
  | decimal d => !d.isZero
  | str s => s != ""
  | bytes bs => !bs.isEmpty
  | binary _ => true
  | list vs => !vs.isEmpty
  | tuple vs => !vs.isEmpty
  | set vs => !vs.isEmpty
  | map es => !es.isEmpty

def isMissing : Value → Bool
  | missing => true
  | _ => false

def isNull : Value → Bool
  | null => true
  | _ => false

theorem isMissing_iff {v : Value} : v.isMissing = true ↔ v = missing := by
  cases v <;> simp [isMissing]

theorem isNull_iff {v : Value} : v.isNull = true ↔ v = null := by
  cases v <;> simp [isNull]

theorem isEmpty_iff {v : Value} :
    v.isEmpty = true ↔ v = missing ∨ v = str "" ∨ v.items? = some [] := by
  cases v <;> simp [isEmpty, items?]

/-! ### Kinds -/

/-- The kind of a value. -/
inductive Kind where
  | null | missing | bool | int | float | decimal | str | bytes | binary | list | tuple | set | map
deriving DecidableEq, Inhabited

def kind : Value → Kind
  | null => .null
  | missing => .missing
  | bool _ => .bool
  | int _ => .int
  | float _ => .float
  | decimal _ => .decimal
  | str _ => .str
  | bytes _ => .bytes
  | binary _ => .binary
  | list _ => .list
  | tuple _ => .tuple
  | set _ => .set
  | map _ => .map

def Kind.name : Kind → String
  | .null => "NoneType"
  | .missing => "_Missing"
  | .bool => "bool"
  | .int => "int"
  | .float => "float"
  | .decimal => "decimal.Decimal"
  | .str => "str"
  | .bytes => "bytes"
  | .binary => "Binary"
  | .list => "list"
  | .tuple => "tuple"
  | .set => "set"
  | .map => "dict"

/-! ### Values that may stand in sets and as keys -/

mutual

/-- The kind of the first part of a value that keeps it from being the key of an entry or a member
of a set.  A key cannot change, so it is no list, set or map, and no tuple that holds one. -/
def unfitKind? : Value → Option Kind
  | list _ => some .list
  | set _ => some .set
  | map _ => some .map
  | tuple vs => firstUnfitKind? vs
  | decimal (.nan _ true _) => some .decimal
  | _ => none
termination_by structural v => v

/-- The kind of the first part of the values of a list that keeps one of them from being a key. -/
def firstUnfitKind? : List Value → Option Kind
  | [] => none
  | v :: vs => (unfitKind? v).or (firstUnfitKind? vs)
termination_by structural vs => vs

end

/-- Whether a value may be the key of an entry or a member of a set. -/
def isKey (v : Value) : Bool := (unfitKind? v).isNone

@[simp] theorem isKey_str (s : String) : isKey (str s) = true := rfl

end Value

end KeysetQuery

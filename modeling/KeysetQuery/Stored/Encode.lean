import KeysetQuery.Value.Access

/-!
# Stored forms of values

A store keeps a value as a map of one entry, from the name of a type to the content.

* `StoredType` and `StoredType.name` — the types;
* `Stored.numberText` — the text of a number, which the store must be able to hold exactly;
* `Stored.encode` — the stored form of a value;
* `Stored.encodeRecord` — a record whose values are stored forms.

The members of a set are written in the order of their texts, so equal sets have one stored form.
-/

namespace KeysetQuery

open Number

/-- A type of stored values. -/
inductive StoredType where
  | null | bool | number | text | bytes | numbers | texts | byteStrings | list | map
deriving DecidableEq, Inhabited

def StoredType.name : StoredType → String
  | null => "NULL"
  | bool => "BOOL"
  | number => "N"
  | text => "S"
  | bytes => "B"
  | numbers => "NS"
  | texts => "SS"
  | byteStrings => "BS"
  | list => "L"
  | map => "M"

namespace Stored

def form (t : StoredType) (content : Value) : Value := .map [(.str t.name, content)]

/-- A fault for a value that has no stored form, or a stored form that has no value. -/
def unfit {α : Type} (e : EncodingFault) : Except Fault α := .error (.encoding e)

/-! ### Numbers -/

/-- The numbers that a store holds: 38 digits, first digits from `10^-128` to `10^126`. -/
def context : DecimalContext := ⟨38, -128, 126⟩

def hold (d : Decimal) : Except Fault Decimal := (context.hold d).mapError .loss

def refusedTexts : List String := ["Infinity", "NaN"]

def numberText (d : Decimal) : Except Fault String := do
  let d ← hold d
  if refusedTexts.contains d.text then unfit .notFinite else pure d.text

def memberNumber : Value → Decimal
  | .bool b => .ofInt (if b then 1 else 0)
  | .int i => .ofInt i
  | .decimal d => d
  | _ => .ofInt 0

/-! ### Sets -/

/-- Whether all members of a set are numbers; the first that is none decides. -/
def allNumbers : List Value → Except Fault Bool
  | [] => .ok true
  | .float _ :: _ => unfit .floatRefused
  | .bool _ :: vs => allNumbers vs
  | .int _ :: vs => allNumbers vs
  | .decimal _ :: vs => allNumbers vs
  | _ :: _ => .ok false

def allTexts? : List Value → Option (List String)
  | [] => some []
  | .str s :: vs => (allTexts? vs).map (s :: ·)
  | _ => none

/-- The byte strings of a set of byte strings. -/
def allBytes? : List Value → Option (List (List UInt8))
  | [] => some []
  | .bytes bs :: vs => (allBytes? vs).map (bs :: ·)
  | .binary bs :: vs => (allBytes? vs).map (bs :: ·)
  | _ => none

def sortTexts (ss : List String) : List String := ss.mergeSort fun a b => decide (a ≤ b)

def sortBytes (bs : List (List UInt8)) : List (List UInt8) :=
  bs.mergeSort fun a b => decide (a ≤ b)

/-- The stored form of a set: its members are all numbers, all texts or all byte strings. -/
def encodeSet (vs : List Value) : Except Fault Value := do
  if ← allNumbers vs then
    let ts ← eachOk (fun v => numberText (memberNumber v)) vs
    pure (form .numbers (.list ((sortTexts ts).map .str)))
  else
    match allTexts? vs, allBytes? vs with
    | some ss, _ => pure (form .texts (.list ((sortTexts ss).map .str)))
    | none, some bs => pure (form .byteStrings (.list ((sortBytes bs).map .bytes)))
    | none, none => unfit (.unsupportedKind (.set vs))

/-! ### Values -/

mutual

def encode : Value → Except Fault Value
  | .null => .ok (form .null (.bool true))
  | .missing => unfit (.unsupportedKind .missing)
  | .bool b => .ok (form .bool (.bool b))
  | .int i => (numberText (.ofInt i)).map fun s => form .number (.str s)
  | .float _ => unfit .floatRefused
  | .decimal d => (numberText d).map fun s => form .number (.str s)
  | .str s => .ok (form .text (.str s))
  | .bytes bs => .ok (form .bytes (.bytes bs))
  | .binary bs => .ok (form .bytes (.bytes bs))
  | .list vs => (encodeItems vs).map fun ws => form .list (.list ws)
  | .tuple vs => (encodeItems vs).map fun ws => form .list (.list ws)
  | .set vs => encodeSet vs
  | .map es => (encodeEntries es).map fun fs => form .map (.map fs)
termination_by structural v => v

/-- The stored forms of the items of a sequence. -/
def encodeItems : List Value → Except Fault (List Value)
  | [] => .ok []
  | v :: vs => do
    let w ← encode v
    let ws ← encodeItems vs
    pure (w :: ws)
termination_by structural vs => vs

def encodeEntry : Value × Value → Except Fault (Value × Value)
  | (k, v) => (encode v).map fun w => (k, w)
termination_by structural e => e

/-- The entries of a map with their values in stored form. -/
def encodeEntries : List (Value × Value) → Except Fault (List (Value × Value))
  | [] => .ok []
  | e :: es => do
    let f ← encodeEntry e
    let fs ← encodeEntries es
    pure (f :: fs)
termination_by structural es => es

end

def encodeRecord (item : Value) : Except Fault Entries := do
  let es ← item.entries
  encodeEntries es

end Stored

end KeysetQuery

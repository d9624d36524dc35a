import KeysetQuery.Stored.Encode
import KeysetQuery.Stored.Parts

/-!
# Values of stored forms

* `StoredType.ofValue?` — the type that a name stands for, in any case of its letters;
* `Stored.decodeNumber` — the number in a stored form; a text that is no number reads as one that
  is "not a number";
* `Stored.decode` — the value of a stored form;
* `Stored.decodeRecord` — a record whose values are stored forms, with their values.
-/

namespace KeysetQuery

open Number Value

/-- The types by the lower case of their names. -/
def StoredType.byName : List (String × StoredType) :=
  [("null", .null), ("bool", .bool), ("n", .number), ("s", .text), ("b", .bytes),
    ("ns", .numbers), ("ss", .texts), ("bs", .byteStrings), ("l", .list), ("m", .map)]

def StoredType.ofValue? (name : Value) : Option StoredType :=
  byName.lookup (String.ofList (name.text.toList.map Char.toLower))

namespace Stored

/-- The type that a name stands for, or the reason why it stands for none. -/
def typeOf (name : Value) : Except Fault StoredType := do
  name.requireText
  match StoredType.ofValue? name with
  | some t => pure t
  | none => unfit (.unknownType name)

/-! ### Scalars -/

/-- The number that a content is, before it is held. -/
def numberOf : Value → Except Fault Decimal
  | .str s => .ok ((Decimal.read? s).getD (.nan false false 0))
  | .bool b => .ok (.ofInt (if b then 1 else 0))
  | .int i => .ok (.ofInt i)
  | .float x => .ok (exactDecimal x)
  | .decimal d => .ok d
  | .list vs => numberOfParts vs
  | .tuple vs => numberOfParts vs
  | v => unfit (.numberExpected v.kind)

def decodeNumber (content : Value) : Except Fault Value := do
  let d ← numberOf content
  let d ← hold d
  pure (.decimal d)

/-- The byte string in a stored form. -/
def decodeBytes : Value → Except Fault Value
  | .bytes bs => .ok (.binary bs)
  | _ => unfit .bytesExpected

/-! ### Sets -/

def decodeSet (read : Value → Except Fault Value) (content : Value) : Except Fault Value := do
  let vs ← content.members
  let ws ← eachOk (fun v => read v >>= asKey) vs
  pure (.set (distinct ws))

/-! ### Values -/

mutual

/-- The value of a stored form.  A form of several entries is read by the first. -/
def decode : Value → Except Fault Value
  | .map es => decodeFirst es
  | v => if v.truthy then misused (.noOperation v.kind "keys") else unfit .emptyForm
termination_by structural v => v

def decodeFirst : List (Value × Value) → Except Fault Value
  | [] => unfit .emptyForm
  | e :: _ => decodeTyped e
termination_by structural es => es

/-- The value of a content by the name of its type. -/
def decodeTyped : Value × Value → Except Fault Value
  | (name, content) =>
    match typeOf name with
    | .error f => .error f
    | .ok .null => .ok .null
    | .ok .bool => .ok content
    | .ok .text => .ok content
    | .ok .number => decodeNumber content
    | .ok .bytes => decodeBytes content
    | .ok .texts => decodeSet .ok content
    | .ok .numbers => decodeSet decodeNumber content
    | .ok .byteStrings => decodeSet decodeBytes content
    | .ok .list => decodeList content
    | .ok .map => decodeMap content
termination_by structural e => e

def decodeList : Value → Except Fault Value
  | .list vs => (decodeItems vs).map .list
  | .tuple vs => (decodeItems vs).map .list
  | .set vs => (decodeItems vs).map .list
  | .map es => (decodeKeys es).map .list
  | .str s => if s = "" then .ok (.list []) else misused (.noOperation .str "keys")
  | .bytes [] => .ok (.list [])
  | .bytes (b :: _) => if b = 0 then unfit .emptyForm else misused (.noOperation .int "keys")
  | v => misused (.notIterable v.kind)
termination_by structural v => v

def decodeMap : Value → Except Fault Value
  | .map es => (decodeEntries es).map .map
  | v => misused (.noOperation v.kind "items")
termination_by structural v => v

def decodeItems : List Value → Except Fault (List Value)
  | [] => .ok []
  | v :: vs => do
    let w ← decode v
    let ws ← decodeItems vs
    pure (w :: ws)
termination_by structural vs => vs

def decodeKey : Value × Value → Except Fault Value
  | (k, _) => decode k
termination_by structural e => e

def decodeKeys : List (Value × Value) → Except Fault (List Value)
  | [] => .ok []
  | e :: es => do
    let w ← decodeKey e
    let ws ← decodeKeys es
    pure (w :: ws)
termination_by structural es => es

def decodeEntry : Value × Value → Except Fault (Value × Value)
  | (k, v) => (decode v).map fun w => (k, w)
termination_by structural e => e

/-- The entries of a map with the values of their stored forms. -/
def decodeEntries : List (Value × Value) → Except Fault (List (Value × Value))
  | [] => .ok []
  | e :: es => do
    let f ← decodeEntry e
    let fs ← decodeEntries es
    pure (f :: fs)
termination_by structural es => es

end

def decodeRecord (item : Value) : Except Fault Entries := do
  let es ← item.entries
  decodeEntries es

end Stored

end KeysetQuery

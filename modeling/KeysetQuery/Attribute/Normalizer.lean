import KeysetQuery.Attribute.Basic
import KeysetQuery.Notice
import KeysetQuery.Text.UpperCase

/-!
# Normalization

Conditions, keys and data come as bare values or as records that carry a value.  A normalizer
brings them into canonical form, once; everything behind it relies on that form.

* `RawAttribute` — the two forms, told apart by `RawAttribute.ofValue`;
* `Normalizer` — the rule that makes an attribute of a raw value and a name; `standard` is the
  usual one and `withNames` changes the names it gives;
* `Normalizer.condition`, `Normalizer.dataValues` — conditions and data by that rule;
* `normalizeGroup` — the declaration of a group of conditions.
-/

namespace KeysetQuery

open Value

/-! ### Raw forms -/

/-- A raw attribute. -/
inductive RawAttribute where
  | bare (v : Value)
  | tagged (record : Entries)

namespace RawAttribute

/-- A map with an entry `value` is a tagged record; anything else is a bare value. -/
def ofValue : Value → RawAttribute
  | map es => if Entries.has es (str "value") then tagged es else bare (map es)
  | v => bare v

def record : RawAttribute → Entries
  | bare v => [(str "value", v)]
  | tagged es => es

/-- The record of a raw attribute carries a value. -/
theorem record_ofValue (v : Value) : ((ofValue v).record.field? "value").isSome = true := by
  cases v with
  | map es =>
    by_cases h : Entries.has es (str "value") = true
    · simp only [ofValue, h, if_true, record]
      exact h
    · simp [ofValue, h, record, Entries.field?, Entries.get?]
  | _ => simp [ofValue, record, Entries.field?, Entries.get?]

end RawAttribute

/-! ### The rule for attributes -/

/-- The rule that makes an attribute of a raw value and a name. -/
structure Normalizer where
  normalize : Value → Value → Except Fault Entries

namespace Normalizer

/-- The canonical record of an attribute: the name, then the parts of the raw record, which may
override it.  A name must be given, and the value must not be missing. -/
def canonical (raw name : Value) : Except Fault Entries :=
  if name.isNull then .error (.invalid .missingName)
  else
    let record := (RawAttribute.ofValue raw).record
    if ((record.field? "value").getD missing).isMissing then do
      name.requireText
      .error (.invalid (.missingValue name))
    else .ok (Entries.merge [(str "name", name)] record)

def standard : Normalizer := ⟨canonical⟩

/-- Change the name in a canonical record. -/
def rename (f : Value → Except Fault Value) (es : Entries) : Except Fault Entries :=
  match es.field? "name" with
  | some v => (f v).map fun w => es.putField "name" w
  | none => misused (.absentEntry (str "name"))

/-- A normalizer that changes the names the usual one gives. -/
def withNames (f : Value → Except Fault Value) : Normalizer where
  normalize raw name := do
    let es ← canonical raw name
    rename f es

/-- A byte with a small letter as its capital; other bytes are left alone. -/
def upperByte (b : UInt8) : UInt8 := if 0x61 ≤ b && b ≤ 0x7a then b - 0x20 else b

def upperName : Value → Except Fault Value
  | str s => .ok (str (Text.upperCase s))
  | bytes bs => .ok (bytes (bs.map upperByte))
  | v => misused (.noOperation v.kind "upper")

def upperCase : Normalizer := withNames upperName

/-! ### Conditions and data -/

def conditionFields : List String := ["name", "path", "operator", "value", "memberOf", "negate"]

/-- The entries of a map at given names, in the order of the names. -/
def pick (names : List String) (es : Entries) : Entries :=
  names.filterMap fun n => (es.field? n).map fun v => (str n, v)

/-- A condition in canonical form; the operator is equality unless it is given. -/
def condition (n : Normalizer) (raw name : Value) : Except Fault Entries := do
  let record ← n.normalize raw name
  pure (pick conditionFields (Entries.merge [(str "operator", Attribute.defaultOperator)] record))

/-- The attributes of a record, one for each value that is not empty. -/
def dataValues (n : Normalizer) (data : Value) : Except Fault (List Entries) := do
  let es ← data.entries
  eachOk (fun e => n.normalize (map [(str "value", e.2)]) e.1)
    (es.filter fun e => !e.2.isEmpty)

end Normalizer

/-! ### Groups -/

/-- The conjunction of a group that declares none. -/
def defaultConjunction : Value := str "AND"

def isConjunction (v : Value) : Bool := conjunctions.any fun c => isText c v

/-- Whether the declaration of a group names a conjunction. -/
def declaresConjunction (raw : Value) : Except Fault Bool :=
  if raw.truthy then raw.contains (str "conjunction") else .ok false

/-- The canonical record of a group: its name and its conjunction. -/
def normalizeGroup (raw name : Value) : Except Fault Entries := do
  if ← declaresConjunction raw then
    let c ← raw.entry "conjunction"
    if isConjunction c then pure [(str "name", name), (str "conjunction", c)]
    else do
      c.requireText
      .error (.invalid (.unsupportedConjunction c))
  else pure [(str "name", name), (str "conjunction", defaultConjunction)]

end KeysetQuery

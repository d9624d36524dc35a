import KeysetQuery.Fault

/-!
# Taking values apart

A value is asked for its parts, and a value of another kind answers with a misuse.

* `Value.entry` and `Value.part?` — the entry of a map at a name, required or not;
* `Value.requireText` — whether a value can be put into a text;
* `Value.members` — the members of a value, in order: the items of a sequence, the keys of a map,
  the characters of a text;
* `Value.compare` — whether two values are the same, which may be refused;
* `Value.contains` — whether a value has a member;
* `Value.mapEntries` — the entries of a value that is a map;
* `Value.toMap` — the map that a map is, or that a series of pairs writes.
-/

namespace KeysetQuery

open Value

namespace Value

def misused {α : Type} (m : Misuse) : Except Fault α := .error (.misuse m)

/-! ### Entries of maps -/

/-- The entry of a map at a name; the map must have one. -/
def entry (v : Value) (name : String) : Except Fault Value :=
  match v with
  | map es =>
    match Entries.field? es name with
    | some w => .ok w
    | none => misused (.absentEntry (str name))
  | v => misused (.notIndexed v.kind)

/-- The entry of a map at a name, if the map has one. -/
def part? (v : Value) (name : String) : Except Fault (Option Value) :=
  match v with
  | map es => .ok (Entries.field? es name)
  | v => misused (.noOperation v.kind "get")

/-- The entries of a map, gone through in order. -/
def entries (v : Value) : Except Fault Entries :=
  match v with
  | map es => .ok es
  | v => misused (.noOperation v.kind "items")

def mapEntries (v : Value) : Except Fault Entries :=
  match v with
  | map es => .ok es
  | v => misused (.notMap v.kind)

@[simp] theorem entries_map (es : Entries) : entries (map es) = .ok es := rfl

@[simp] theorem mapEntries_map (es : Entries) : mapEntries (map es) = .ok es := rfl

/-! ### Texts -/

/-- Whether a value can be put into a text.  A wrapped byte string cannot. -/
def isWritable : Value → Bool
  | binary _ => false
  | _ => true

def requireText (v : Value) : Except Fault Unit :=
  if v.isWritable then .ok () else misused .unwritable

@[simp] theorem requireText_str (s : String) : requireText (str s) = .ok () := rfl

/-! ### Members -/

/-- The members of a value, if it has any to go through. -/
def members? : Value → Option (List Value)
  | list vs => some vs
  | tuple vs => some vs
  | set vs => some vs
  | map es => some (Entries.keys es)
  | str s => some (s.toList.map fun c => str (String.singleton c))
  | bytes bs => some (bs.map fun b => int b.toNat)
  | _ => none

def members (v : Value) : Except Fault (List Value) :=
  match v.members? with
  | some vs => .ok vs
  | none => misused (.notIterable v.kind)

@[simp] theorem members_list (vs : List Value) : members (list vs) = .ok vs := rfl

@[simp] theorem members_map (es : Entries) : members (map es) = .ok (Entries.keys es) := rfl

def asKey (v : Value) : Except Fault Value :=
  match v.unfitKind? with
  | none => .ok v
  | some k => misused (.unfitKey k)

@[simp] theorem asKey_str (s : String) : asKey (str s) = .ok (str s) := rfl

/-- A value that is looked up among the members of a set: what may be a key, or a set. -/
def asMember (v : Value) : Except Fault Value :=
  match v with
  | set vs => .ok (set vs)
  | v => asKey v

@[simp] theorem asMember_str (s : String) : asMember (str s) = .ok (str s) := rfl

theorem asKey_of_isKey {v : Value} (h : v.isKey = true) : asKey v = .ok v := by
  have hv : v.unfitKind? = none := by simpa [isKey] using h
  simp [asKey, hv]

/-- Whether a stretch of characters or bytes occurs among others. -/
def occursIn {α : Type} [BEq α] (cs : List α) : List α → Bool
  | [] => cs.isEmpty
  | d :: ds => cs.isPrefixOf (d :: ds) || occursIn cs ds

/-- Whether two values are the same; the comparison may be refused. -/
def compare (v w : Value) : Except Fault Bool :=
  if signals v w then .error (.arithmetic (.trapped .invalidOperation)) else .ok (same v w)

@[simp] theorem compare_str (v : Value) (s : String) : compare v (str s) = .ok (same v (str s)) := by
  simp [compare]

@[simp] theorem compare_int (i j : Int) : compare (int i) (int j) = .ok (i == j) := by
  simp [compare, signals, isSignalling, same]

/-- Whether a value is the same as one of a list, compared one after the other. -/
def isAmong (member : Value) : List Value → Except Fault Bool
  | [] => .ok false
  | v :: vs => do
    if ← compare v member then pure true else isAmong member vs

/-- Whether a value occurs among bytes: a byte by its number, or a stretch of bytes. -/
def isAmongBytes (bs : List UInt8) : Value → Except Fault Bool
  | bool b => .ok (bs.any fun c => c.toNat == if b then 1 else 0)
  | int i =>
    if 0 ≤ i && i < 256 then .ok (bs.any fun c => (c.toNat : Int) == i) else misused .noByte
  | bytes cs => .ok (occursIn cs bs)
  | _ => misused (.notSearchable .bytes)

def contains (v member : Value) : Except Fault Bool :=
  match v with
  | map es => (asKey member).map fun k => Entries.has es k
  | set vs => (asMember member).map fun k => vs.any fun w => same w k
  | list vs => isAmong member vs
  | tuple vs => isAmong member vs
  | bytes bs => isAmongBytes bs member
  | str s =>
    match member with
    | str t => .ok (occursIn t.toList s.toList)
    | _ => misused (.notSearchable .str)
  | v => misused (.notSearchable v.kind)

/-! ### Maps from pairs -/

/-- The key and the value in one part of a series of pairs. -/
def asPair (index : Nat) (v : Value) : Except Fault (Value × Value) :=
  match v.members? with
  | none => misused (.notPair index)
  | some [k, w] => (asKey k).map fun k => (k, w)
  | some vs => misused (.pairLength index vs.length)

/-- The pairs of a series, numbered from `index` on. -/
def asPairs (index : Nat) : List Value → Except Fault (List (Value × Value))
  | [] => .ok []
  | v :: vs => do
    let p ← asPair index v
    let ps ← asPairs (index + 1) vs
    pure (p :: ps)

/-- The map that a map is, or that a series of pairs writes. -/
def toMap (v : Value) : Except Fault Entries :=
  match v with
  | map es => .ok es
  | v => do
    let vs ← v.members
    let ps ← asPairs 0 vs
    pure (Entries.ofList ps)

@[simp] theorem toMap_map (es : Entries) : toMap (map es) = .ok es := rfl

end Value

end KeysetQuery

import KeysetQuery.Attribute.Basic

/-!
# Placeholder maps

Expressions are written in aliases and placeholders; two maps say what these stand for.

* `Mark` — the characters in front of aliases and of placeholders;
* `aliasMap` and `bindingMap` — what the aliases and the placeholders of attributes stand for;
* `placeholderMap` — one of the two, chosen by a mark that has yet to be read.
-/

namespace KeysetQuery

open Value

/-- What a placeholder map is about. -/
inductive Mark where
  | name
  | value
deriving DecidableEq, Inhabited

namespace Mark

def text : Mark → String
  | name => "#"
  | value => ":"

def ofValue (v : Value) : Except Fault Mark :=
  if isText name.text v then .ok name
  else if isText value.text v then .ok value
  else .error (.unknownMark v)

end Mark

/-! ### The two maps -/

/-- The aliases of attributes, with their mark, each with the segment it stands for. -/
def aliasEntries (attributes : List Attribute) : Entries :=
  attributes.flatMap fun a => a.aliases.map fun p => (str ("#" ++ p.1), str p.2)

def aliasMap (attributes : List Attribute) : Entries := Entries.ofList (aliasEntries attributes)

/-- The placeholders of attributes, with their mark, each with its value. -/
def bindingEntries (attributes : List Attribute) : Entries :=
  attributes.flatMap fun a => a.bindings.map fun p => (str (":" ++ p.1), p.2)

def bindingMap (attributes : List Attribute) : Entries :=
  Entries.ofList (bindingEntries attributes)

def markedMap (attributes : List Attribute) : Mark → Entries
  | .name => aliasMap attributes
  | .value => bindingMap attributes

def readAttributes (vs : List Value) : Except Fault (List Attribute) := eachOk Attribute.read vs

/-- Whether the part of the map for a mark that belongs to an attribute can be written. -/
def requireMarked (m : Mark) (a : Attribute) : Except Fault Unit :=
  match m with
  | .name => a.requireAliases
  | .value => a.requireBindings

/-- The attribute that a map describes, for the map for a mark. -/
def readMarked (m : Mark) (v : Value) : Except Fault Attribute := do
  let a ← Attribute.read v
  requireMarked m a
  pure a

def requireAllAliases : List Attribute → Except Fault Unit
  | [] => .ok ()
  | a :: as => do
    a.requireAliases
    requireAllAliases as

def placeholderMap (attributes mark : Value) : Except Fault Entries := do
  let m ← Mark.ofValue mark
  let vs ← attributes.members
  let as ← eachOk (readMarked m) vs
  pure (markedMap as m)

end KeysetQuery

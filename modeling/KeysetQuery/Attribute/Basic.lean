import KeysetQuery.Text.Segments
import KeysetQuery.Value.Access

/-!
# Attributes

An attribute is a name, perhaps with a path into the document it names, and whatever a condition
or an assignment says about it.

* `Attribute` and `Attribute.read` — the canonical record of an attribute, read from a map;
* `Attribute.aliases` — the aliases that stand for its path, each with the segment it stands for;
* `Attribute.pathText` — the path as it is written in expressions, in aliases only;
* `Attribute.bindings` — the placeholders for its values, each with its value;
* `Attribute.requireAliases`, `Attribute.requireBindings` — whether both can be written.

Aliases of segments begin with the name of the attribute, so that paths of two attributes may
share a segment.
-/

namespace KeysetQuery

open Value

/-- An attribute in canonical form.  Parts that are not given are null, except the operator, which
is equality. -/
structure Attribute where
  name : Value
  path : Value
  operator : Value
  value : Value
  memberOf : Value
  negate : Value

namespace Attribute

/-- The operator of a condition that gives none. -/
def defaultOperator : Value := str "="

/-- The attribute of a given name with the parts that a map gives. -/
def ofEntries (name : Value) (es : Entries) : Attribute where
  name := name
  path := (es.field? "path").getD null
  operator := (es.field? "operator").getD defaultOperator
  value := (es.field? "value").getD null
  memberOf := (es.field? "memberOf").getD null
  negate := (es.field? "negate").getD null

/-- The attribute that a map describes; the map must give the name. -/
def read (v : Value) : Except Fault Attribute :=
  match v with
  | map es =>
    match Entries.field? es "name" with
    | some name => .ok (ofEntries name es)
    | none => misused (.absentEntry (str "name"))
  | v => misused (.notIndexed v.kind)

theorem read_map {es : Entries} {name : Value} (h : es.field? "name" = some name) :
    read (map es) = .ok (ofEntries name es) := by
  simp [read, h]

/-! ### Names -/

/-- The aliases of an attribute, without their mark, each with the segment it stands for. -/
def aliases (a : Attribute) : List (String × String) :=
  if a.path.isNull then [(a.name.text, a.name.text)]
  else (Text.segments '.' a.path.text).map fun s => (a.name.text ++ "_" ++ s, s)

def pathText (a : Attribute) : String :=
  ".".intercalate (a.aliases.map fun p => "#" ++ p.1)

theorem aliases_ne_nil (a : Attribute) : a.aliases ≠ [] := by
  unfold aliases
  split
  · simp
  · simp [Text.segments_ne_nil]

/-- The aliases of an attribute can be written only if its name and its path can be put into
texts. -/
def requireAliases (a : Attribute) : Except Fault Unit := do
  a.path.requireText
  a.name.requireText

/-! ### Values -/

/-- Numbered placeholders, from `i` on. -/
def numbered (name : String) (i : Nat) : List Value → List (String × Value)
  | [] => []
  | v :: vs => (name ++ toString i, v) :: numbered name (i + 1) vs

theorem length_numbered (name : String) (i : Nat) (vs : List Value) :
    (numbered name i vs).length = vs.length := by
  induction vs generalizing i with
  | nil => rfl
  | cons v vs ih => simp [numbered, ih]

/-- The placeholders of an attribute, without their mark, each with its value: one for a scalar,
a numbered one for each item of a sequence, none for a test of existence. -/
def bindings (a : Attribute) : List (String × Value) :=
  if isText "exists" a.operator then []
  else match a.value.items? with
    | some vs => numbered a.name.text 0 vs
    | none => [(a.name.text, a.value)]

/-- The placeholders of an attribute, if there are any, can be written only if its name can be put
into a text. -/
def requireBindings (a : Attribute) : Except Fault Unit :=
  if a.bindings.isEmpty then .ok () else a.name.requireText

end Attribute

end KeysetQuery

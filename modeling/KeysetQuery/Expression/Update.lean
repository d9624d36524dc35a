import KeysetQuery.Expression.Placeholder

/-!
# Update expressions and the guard of a new record

* `Assignment` — one attribute takes one value; `updateText` writes a list of them;
* `updateExpression` — the assignments of the attributes that maps describe;
* `createGuard` — the condition that no record has any of the attributes of a key.
-/

namespace KeysetQuery

open Value

/-- An attribute, by its path in aliases, takes the value of a placeholder. -/
structure Assignment where
  path : String
  placeholder : String
deriving DecidableEq, Inhabited

namespace Assignment

def ofAttribute (a : Attribute) : Assignment := ⟨a.pathText, a.name.text⟩

def text (a : Assignment) : String := a.path ++ " = :" ++ a.placeholder

end Assignment

def updateText (assignments : List Assignment) : String :=
  "SET " ++ ", ".intercalate (assignments.map Assignment.text)

def updateOf (attributes : List Attribute) : String :=
  updateText (attributes.map Assignment.ofAttribute)

def updateExpression (attributes : Value) : Except Fault String := do
  let vs ← attributes.members
  let as ← eachOk (readMarked .name) vs
  pure (updateOf as)

/-- The test that a record does not have an attribute. -/
def createTest (name : Value) : Except Fault String := do
  name.requireText
  pure ("attribute_not_exists(#" ++ name.text ++ ")")

/-- The condition that no record has any attribute of a key, given the names of the key. -/
def createGuard (primaryKey : Value) : Except Fault String := do
  let names ← primaryKey.members
  let tests ← eachOk createTest names
  pure (" OR ".intercalate tests)

end KeysetQuery

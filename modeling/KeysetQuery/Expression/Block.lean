import KeysetQuery.Expression.Clause

/-!
# Condition expressions

* `Block` and `Block.text` — clauses joined by one conjunction, each in parentheses, and all of
  them once more when there are several, so that a block is one term;
* `conditionExpression` — the block of a list of conditions;
* `filterBlocks` — one block for each group that has members, in the order of declaration, and one
  for the conditions outside all groups;
* `filterExpression` — the blocks, all of which must hold.
-/

namespace KeysetQuery

open Value

/-! ### Blocks -/

/-- Clauses joined by one conjunction. -/
structure Block where
  conjunction : String
  clauses : List Clause
deriving DecidableEq, Inhabited

namespace Block

def parenthesised (s : String) : String := "(" ++ s ++ ")"

def text (b : Block) : String :=
  let joined := (" " ++ b.conjunction ++ " ").intercalate
    (b.clauses.map fun c => parenthesised c.text)
  if 1 < b.clauses.length then parenthesised joined else joined

/-- The block of conditions joined by a conjunction, `AND` unless one is given. -/
def ofConditions (conditions : List Value) (conjunction : Value) : Noted Block := do
  let clauses ← Noted.forEach Clause.read conditions
  (conjunction.requireText : Except Fault Unit)
  let word := if conjunction.truthy then conjunction.text else "AND"
  pure ⟨word, clauses⟩

theorem result_ofConditions (conditions : List Value) (conjunction : Value) :
    (ofConditions conditions conjunction).result =
      eachOk (fun v => (Clause.read v).result) conditions >>= fun clauses =>
        conjunction.requireText.map fun _ =>
          ⟨if conjunction.truthy then conjunction.text else "AND", clauses⟩ := by
  simp only [ofConditions, Noted.result_bind, result_forEach, Noted.result_pure,
    Noted.result_liftM]
  cases eachOk (fun v => (Clause.read v).result) conditions <;>
    cases conjunction.requireText <;> rfl

end Block

def conditionExpression (conditions conjunction : Value) : Noted String := do
  let vs ← conditions.members
  let b ← Block.ofConditions vs conjunction
  pure b.text

/-! ### Filters -/

/-- The group that a condition declares itself a member of, null if none. -/
def membership (condition : Value) : Except Fault Value :=
  (condition.part? "memberOf").map fun v => v.getD null

/-- The conditions whose group passes a test, in order. -/
def membersWhere (test : Value → Except Fault Bool) :
    List Value → Except Fault (List Value)
  | [] => .ok []
  | c :: cs => do
    let group ← membership c
    let member ← test group
    let rest ← membersWhere test cs
    pure (if member then c :: rest else rest)

def isClaimed (claimed : List Value) (v : Value) : Except Fault Bool :=
  (asMember v).map fun k => claimed.any fun c => same c k

/-- The blocks of the groups, in order, and the names of the groups that have one.  A group whose
name is claimed already has had its block. -/
def groupBlocks (conditions : Value) (claimed : List Value) :
    List Value → Noted (List Block × List Value)
  | [] => pure ([], claimed)
  | g :: gs => do
    let name ← (g.entry "name" : Except Fault Value)
    if ← isClaimed claimed name then groupBlocks conditions claimed gs
    else
      let vs ← conditions.members
      let members ← membersWhere (fun group => compare group name) vs
      if members.isEmpty then groupBlocks conditions claimed gs
      else
        let conjunction ← (g.entry "conjunction" : Except Fault Value)
        let b ← Block.ofConditions members conjunction
        let key ← (name.asKey : Except Fault Value)
        let rest ← groupBlocks conditions (claimed ++ [key]) gs
        pure (b :: rest.1, rest.2)

/-- The blocks of a filter: those of the groups, then one for the other conditions. -/
def filterBlocks (groups conditions : Value) : Noted (List Block) := do
  let gs ← groups.members
  let grouped ← groupBlocks conditions [] gs
  let vs ← conditions.members
  let others ← membersWhere (fun group => (isClaimed grouped.2 group).map (!·)) vs
  if others.isEmpty then pure grouped.1
  else
    let b ← Block.ofConditions others null
    pure (grouped.1 ++ [b])

/-- The expression of a filter: all of its blocks must hold. -/
def filterText (blocks : List Block) : String := " AND ".intercalate (blocks.map Block.text)

def filterExpression (groups conditions : Value) : Noted String := do
  let blocks ← filterBlocks groups conditions
  pure (filterText blocks)

end KeysetQuery

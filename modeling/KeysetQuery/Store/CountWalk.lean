import KeysetQuery.Store.Policy
import KeysetQuery.Value.Quantity

/-!
# Counting

A store answers a count in pages.  The count goes from page to page, by the key at which each
page ended, until a page ends nowhere.

* `CountWalk` — how far a count is: the next request, the sum so far, the pages read;
* `CountWalk.fromBeginning`, `CountWalk.start` — a count before its first request;
* `CountWalk.checkBound` — whether the count may read another page;
* `CountWalk.absorb` — what a page does to the count.
-/

namespace KeysetQuery

open Value

/-- How far a count is. -/
structure CountWalk where
  /-- The parameters of the next request. -/
  params : Entries
  /-- The sum of the pages read so far. -/
  total : Value
  /-- How many pages were read. -/
  pages : Nat
deriving Inhabited

/-- What a page does to a count. -/
inductive CountProgress where
  | more (walk : CountWalk)
  | complete (total : Value)
deriving Inhabited

namespace CountWalk

/-! ### The start -/

/-- The parameters of the requests of a count: those of the query, for a count alone and without
a page size. -/
def paramsOf (params : Entries) : Entries :=
  Entries.erase (Entries.putField params "Select" (str countSelect)) (str "Limit")

/-- A count from the beginning, before its first request. -/
def fromBeginning (params : Entries) : CountWalk where
  params := Entries.erase (paramsOf params) (str "ExclusiveStartKey")
  total := .int 0
  pages := 0

/-- The value carried over from earlier pages: anything that counts as a no is nothing. -/
def carriedOver (v : Value) : Value := if v.truthy then v else .int 0

/-- A count before its first request.  With nothing carried over it starts at the beginning. -/
def start (params : Entries) (carried : Value) : Except Fault CountWalk := do
  if ← (carriedOver carried).compare (.int 0) then pure (fromBeginning params)
  else pure ⟨paramsOf params, carriedOver carried, 0⟩

/-- A count with an integer carried over starts at the beginning exactly when that is zero. -/
theorem start_int (params : Entries) (n : Int) :
    start params (.int n) =
      .ok (if n = 0 then fromBeginning params else ⟨paramsOf params, .int n, 0⟩) := by
  by_cases h : n = 0 <;>
    simp [start, carriedOver, truthy, h, bind, Except.bind, pure, Except.pure]

def request (w : CountWalk) : Request := ⟨.query, map w.params⟩

/-! ### The bound -/

/-- Whether a count has read as many pages as it may. -/
def isExhausted (p : Policy) (w : CountWalk) : Except Fault Bool :=
  if p.maxCountPages.truthy then p.maxCountPages.isReachedBy w.pages else .ok false

theorem isExhausted_int {p : Policy} {m : Int} (h : p.maxCountPages = .int m) (w : CountWalk) :
    w.isExhausted p = .ok (m != 0 && decide (m ≤ (w.pages : Int))) := by
  by_cases hm : m = 0 <;> simp [isExhausted, h, truthy, hm]

/-- The fault of a count that would need more pages. -/
def limitFault (p : Policy) (w : CountWalk) : Fault :=
  match w.total.requireText with
  | .ok _ => .countLimit p.maxCountPages w.total
  | .error f => f

/-- The notice of a count that would need more pages. -/
def limitNotice (p : Policy) (w : CountWalk) : Notice :=
  .countBound ((Entries.field? w.params "TableName").getD null) p.maxCountPages

/-- A count that would need more pages than it may read fails, and this is reported. -/
def checkBound (p : Policy) (w : CountWalk) : Noted Unit := do
  if ← w.isExhausted p then
    Noted.report p.shownFrom (w.limitNotice p)
    Noted.lift (.error (w.limitFault p))
  else pure ()

/-! ### Pages -/

/-- What a page does to a count.  A page that says where it ended is followed by another one that
starts there. -/
def absorb (w : CountWalk) (response : Value) : Except Fault CountProgress := do
  let count ← response.part? "Count"
  let total ← w.total.plus (count.getD (.int 0))
  let last ← response.part? "LastEvaluatedKey"
  let cursor := last.getD null
  if cursor.truthy then
    pure (.more ⟨Entries.putField w.params "ExclusiveStartKey" cursor, total, w.pages + 1⟩)
  else
    pure (.complete total)

/-- A count goes on exactly when the page says where it ended. -/
theorem absorb_map (w : CountWalk) (es : Entries) (total : Value)
    (h : w.total.plus ((Entries.field? es "Count").getD (.int 0)) = .ok total) :
    w.absorb (map es) = .ok
      (if ((Entries.field? es "LastEvaluatedKey").getD null).truthy then
        .more ⟨Entries.putField w.params "ExclusiveStartKey"
          ((Entries.field? es "LastEvaluatedKey").getD null), total, w.pages + 1⟩
      else .complete total) := by
  simp only [absorb, Value.part?, bind, Except.bind, h]
  split <;> rfl

end CountWalk

end KeysetQuery

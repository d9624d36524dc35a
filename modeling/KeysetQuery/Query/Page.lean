import KeysetQuery.Notice
import KeysetQuery.Schema.Field

/-!
# Pages

* `Page` — the items of a page and what is known about the walk it belongs to;
* `Page.ofResponse` — the page in the answer of a store;
* `Page.reversed` — the page read from the other end;
* `Page.trimLast` — the page cut down to the last page of a walk from the start.
-/

namespace KeysetQuery

open Schema

/-- A page of a query.  The total is what was counted, which is an integer as a rule. -/
structure Page where
  items : List Record
  cursor : Option Record
  totalCount : Option Value
  count : Option Int
  scannedCount : Option Int
deriving Inhabited

namespace Page

/-! ### Reading -/

/-- The items of a page, numbered from `i` on. -/
def readItems (i : Nat) : List Value → List (Check Record)
  | [] => []
  | v :: vs => readRecord [.name "items", .index i] v :: readItems (i + 1) vs

/-- A page with the given parts, or all issues with them. -/
def check (items : List Value) (cursor totalCount count scannedCount : Value) : Check Page := do
  let parts ← (Check.all (readItems 0 items)).both
    ((readRecord? [.name "continuation_cursor"] cursor).both
      ((readInteger? [.name "total_count"] totalCount).both
        ((readInteger? [.name "count"] count).both
          (readInteger? [.name "scanned_count"] scannedCount))))
  let (items, cursor, totalCount, count, scannedCount) := parts
  pure { items, cursor, totalCount := totalCount.map .int, count, scannedCount }

/-- The items of an answer: none if there is nothing that counts as a yes. -/
def itemsOf (v : Value) : Except Fault (List Value) :=
  if v.truthy then v.members else .ok []

def ofResponse (response : Value) : Except Fault Page := do
  let items ← response.part? "Items"
  let vs ← itemsOf (items.getD .null)
  let cursor ← response.part? "LastEvaluatedKey"
  let count ← response.part? "Count"
  let scanned ← response.part? "ScannedCount"
  (check vs (cursor.getD .null) .null (count.getD .null) (scanned.getD .null)).mapError .schema

/-- The items of a page that is built from a value: a sequence or a set of them. -/
def itemList (v : Value) : Check (List Value) :=
  match v with
  | .list vs => .ok vs
  | .tuple vs => .ok vs
  | .set vs => .ok vs
  | _ => issue [.name "items"] .listExpected

def ofParts (items cursor totalCount : Value) : Except Fault Page :=
  (match itemList items with
    | .ok vs => check vs cursor totalCount .null .null
    | .error issues =>
      match check [] cursor totalCount .null .null with
      | .ok _ => .error issues
      | .error more => .error (issues ++ more)).mapError .schema

/-! ### Shaping -/

/-- The page with its items in the opposite order. -/
def reversed (p : Page) : Page := { p with items := p.items.reverse }

@[simp] theorem items_reversed (p : Page) : p.reversed.items = p.items.reverse := rfl

@[simp] theorem reversed_reversed (p : Page) : p.reversed.reversed = p := by
  simp [reversed]

/-- How many items in front of a full page belong to the page before it, when the pages of a walk
hold `limit` items and the walk holds `total`.  A page that is not full is the whole tail. -/
def surplus (length : Nat) (limit total : Value) : Except Fault Nat := do
  if ← (Value.int length).compare limit then Value.remainder total limit else pure 0

/-- The page cut down to the last page of a walk from the start, which is reported where notices
are shown from a severity on.  Nothing comes after it, so it has no cursor. -/
def trimLast (p : Page) (shownFrom : Nat) (limit : Value) : Noted Page :=
  match p.totalCount with
  | none => pure { p with cursor := none }
  | some total => do
    let n ← (surplus p.items.length limit total : Except Fault Nat)
    Noted.report shownFrom (.lastPage total limit n)
    pure { p with items := p.items.drop n, cursor := none }

/-- The surplus of a full page is what a division of the total leaves. -/
theorem surplus_int (length : Nat) (limit total : Int) :
    surplus length (.int limit) (.int total) =
      if (length : Int) = limit then
        if limit = 0 then .error (.arithmetic (.zeroDivisor true)) else .ok (total % limit).toNat
      else .ok 0 := by
  by_cases h : (length : Int) = limit <;>
    simp [surplus, Value.remainder, Value.quantity?, Quantity.unresolved, h, bind, Except.bind, pure,
      Except.pure]

end Page

end KeysetQuery

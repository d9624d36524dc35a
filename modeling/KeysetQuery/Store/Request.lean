import KeysetQuery.Fault

/-!
# Requests to a store

* `Operation` — what a store can be asked for;
* `Request` — an operation and its parameters;
* `Reply` — what comes back: a response, or the fault that stands in its place.
-/

namespace KeysetQuery

/-- What a store can be asked for. -/
inductive Operation where
  | get | put | update | delete | query
deriving DecidableEq, Inhabited

def Operation.name : Operation → String
  | get => "get"
  | put => "put"
  | update => "update"
  | delete => "delete"
  | query => "query"

/-- A request to a store. -/
structure Request where
  operation : Operation
  params : Value
deriving Inhabited

/-- What comes back: a response, or the fault that stands in its place. -/
abbrev Reply := Except Fault Value

/-- The value of the parameter `Select` by which a query asks for a count alone. -/
def countSelect : String := "COUNT"

/-- Whether a value holds the parameters of a query that asks for a count alone. -/
def selectsCount (params : Value) : Bool :=
  match params with
  | .map es =>
    match Entries.field? es "Select" with
    | some v => Value.isText countSelect v
    | none => false
  | _ => false

end KeysetQuery

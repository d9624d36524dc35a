import KeysetQuery.Fault

/-!
# The shared client

All requests go through one client.  The first request opens it, requests that come in the
meantime wait for the same opening, and closing leaves the client so that the next request opens
another one.

A client is created as a context, which is entered by its opening and left by closing.  Contexts
are numbered in the order of their creation, and an opening has the number of its context.

* `Opening` — how far an opening is;
* `SharedClient` — the openings so far, the current context and the client in use;
* `SharedClient.reach` — how a request gets at the client;
* `SharedClient.create`, `enter`, `finish`, `install`, `close` — the steps in the life of a client;
* `SharedClient.giveUp` — an opening is given up by one who waits for it.
-/

namespace KeysetQuery

/-! ### Openings -/

/-- How far an opening is. -/
inductive OpeningStage where
  /-- The context is created and not yet entered. -/
  | created
  /-- The context is entered, and the client not yet open. -/
  | entered
  /-- The opening is over: the client is open, or there is a fault. -/
  | done (fault : Option Fault)
deriving Inhabited

/-- An opening, and whether it was given up. -/
structure Opening where
  stage : OpeningStage
  givenUp : Bool
deriving Inhabited

def OpeningStage.isDone : OpeningStage → Bool
  | done _ => true
  | _ => false

/-! ### The client -/

/-- The openings so far, the current context and the client in use. -/
structure SharedClient where
  openings : List Opening
  context : Option Nat
  client : Option Nat
deriving Inhabited

/-- How a request gets at the client. -/
inductive Access where
  /-- The client is in use already. -/
  | inUse (k : Nat)
  /-- The client is open and is now taken into use. -/
  | opened (k : Nat)
  /-- The client could not be opened. -/
  | refused (f : Fault)
  /-- The request has to wait for an opening. -/
  | waits (k : Nat)
  /-- There is no context; the request has to create one. -/
  | vacant
deriving Inhabited

namespace SharedClient

/-- No client was opened yet. -/
def unused : SharedClient := ⟨[], none, none⟩

def stage (c : SharedClient) (k : Nat) : OpeningStage :=
  match c.openings[k]? with
  | some o => o.stage
  | none => .done none

def reach (c : SharedClient) : Access :=
  match c.client with
  | some k => .inUse k
  | none =>
    match c.context with
    | none => .vacant
    | some k =>
      match c.stage k with
      | .done none => .opened k
      | .done (some f) => .refused f
      | _ => .waits k

/-- A context is created; its number is that of the next opening. -/
def create (c : SharedClient) : SharedClient :=
  { c with openings := c.openings ++ [⟨.created, false⟩], context := some c.openings.length }

/-- The number of the context that is created next. -/
def next (c : SharedClient) : Nat := c.openings.length

def setStage (c : SharedClient) (k : Nat) (s : OpeningStage) : SharedClient :=
  { c with openings := c.openings.modify k fun o => { o with stage := s } }

def isGivenUp (c : SharedClient) (k : Nat) : Bool :=
  match c.openings[k]? with
  | some o => o.givenUp
  | none => false

/-- The context is entered, unless the opening was given up. -/
def enter (c : SharedClient) (k : Nat) : SharedClient :=
  c.setStage k (if c.isGivenUp k then .done (some .cancelled) else .entered)

/-- The opening is over, with a fault or without.  One that was given up has come to nothing. -/
def finish (c : SharedClient) (k : Nat) (fault : Option Fault) : SharedClient :=
  c.setStage k (.done (if c.isGivenUp k then some .cancelled else fault))

/-- An opening is given up by one who waits for it. -/
def giveUp (c : SharedClient) (k : Nat) : SharedClient :=
  { c with openings := c.openings.modify k fun o =>
      if o.stage.isDone then o else { o with givenUp := true } }

/-- An open client is taken into use. -/
def install (c : SharedClient) (k : Nat) : SharedClient := { c with client := some k }

/-- The client is left behind.  Its context, if there is one, has to be left before. -/
def close (c : SharedClient) : SharedClient := { c with context := none, client := none }

/-- Without a client and a context the next request opens one. -/
theorem reach_close (c : SharedClient) : c.close.reach = .vacant := rfl

end SharedClient

end KeysetQuery

import KeysetQuery.Client.Shared

/-!
# Traffic through the shared client

Requests and closes take turns at the shared client.  A request may have to wait until an opening
is over, and a close has to wait until the context is left, so that others go on in the meantime.

* `Deed` — what is done on the way: to a context, for a request, by a close;
* `Traffic` — the shared client, the requests and closes that wait, and all deeds so far;
* `Traffic.Turn`, `Traffic.step` — one of them goes on;
* `Traffic.after` — turns one after the other.

A turn that nobody can take has no outcome.  What the tasks of a session do to the shared client is
traffic at it (`Session.perform_carries`).
-/

namespace KeysetQuery

/-! ### Deeds -/

/-- What is done on the way. -/
inductive Deed where
  /-- A context is created. -/
  | created (k : Nat)
  /-- A context is entered. -/
  | entered (k : Nat)
  /-- A request is sent to the client of a context. -/
  | sent (k : Nat)
  /-- A request fails for want of a client. -/
  | refused (f : Fault)
  /-- A close begins to leave a context. -/
  | left (k : Nat)
  /-- A close is over. -/
  | closed
deriving Inhabited

/-! ### Traffic -/

/-- The shared client, and who goes on with it. -/
structure Traffic where
  client : SharedClient
  /-- The openings for which requests wait, one for each request. -/
  waiting : List Nat
  /-- The contexts that closes are leaving, one for each close. -/
  leaving : List Nat
  deeds : List Deed
deriving Inhabited

namespace Traffic

/-- Nobody has made use of the client yet. -/
def unused : Traffic := ⟨.unused, [], [], []⟩

def note (t : Traffic) (d : Deed) : Traffic := { t with deeds := t.deeds ++ [d] }

/-- Who goes on. -/
inductive Turn where
  /-- A request comes.  If it has to create a context, that may fail. -/
  | request (fault : Option Fault)
  /-- An opening goes on.  If it ends now, it may fail. -/
  | opening (k : Nat) (fault : Option Fault)
  /-- A request goes on after the opening for which it has waited. -/
  | wake (k : Nat)
  /-- A request that waits for an opening is given up. -/
  | giveUp (k : Nat)
  /-- A close comes. -/
  | close
  /-- A close goes on after it has left a context. -/
  | left (k : Nat)
deriving Inhabited

/-! ### Turns -/

/-- A request comes. -/
def request (t : Traffic) (fault : Option Fault) : Traffic :=
  match t.client.reach with
  | .inUse k => t.note (.sent k)
  | .opened k => { t with client := t.client.install k }.note (.sent k)
  | .refused f => t.note (.refused f)
  | .waits k => { t with waiting := t.waiting ++ [k] }
  | .vacant =>
    match fault with
    | some f => t.note (.refused f)
    | none =>
      { t with client := t.client.create, waiting := t.waiting ++ [t.client.next] }.note
        (.created t.client.next)

/-- An opening goes on: the context is entered, then the client is open or there is a fault. -/
def opening (t : Traffic) (k : Nat) (fault : Option Fault) : Option Traffic :=
  match t.client.stage k with
  | .created =>
    let entered := { t with client := t.client.enter k }
    some (if t.client.isGivenUp k then entered else entered.note (.entered k))
  | .entered => some { t with client := t.client.finish k fault }
  | .done _ => none

/-- A request goes on after the opening for which it has waited. -/
def wake (t : Traffic) (k : Nat) : Option Traffic :=
  if k ∈ t.waiting then
    let woken := { t with waiting := t.waiting.erase k }
    match t.client.stage k with
    | .done none => some ({ woken with client := t.client.install k }.note (.sent k))
    | .done (some f) => some (woken.note (.refused f))
    | _ => none
  else none

def giveUp (t : Traffic) (k : Nat) : Option Traffic :=
  if k ∈ t.waiting then
    some { t with client := t.client.giveUp k, waiting := t.waiting.erase k }
  else none

/-- A close comes.  It leaves the context, if there is one, before it is over. -/
def close (t : Traffic) : Traffic :=
  match t.client.context with
  | none => { t with client := t.client.close }.note .closed
  | some k => { t with leaving := t.leaving ++ [k] }.note (.left k)

/-- A close goes on after it has left a context. -/
def finishClose (t : Traffic) (k : Nat) : Option Traffic :=
  if k ∈ t.leaving then
    some ({ t with client := t.client.close, leaving := t.leaving.erase k }.note .closed)
  else none

/-- One turn. -/
def step (t : Traffic) : Turn → Option Traffic
  | .request fault => some (t.request fault)
  | .opening k fault => t.opening k fault
  | .wake k => t.wake k
  | .giveUp k => t.giveUp k
  | .close => some t.close
  | .left k => t.finishClose k

/-- Turns one after the other. -/
def after (t : Traffic) : List Turn → Option Traffic
  | [] => some t
  | x :: xs => (t.step x).bind fun t' => t'.after xs

theorem after_append (t : Traffic) (xs ys : List Turn) :
    t.after (xs ++ ys) = (t.after xs).bind fun t' => t'.after ys := by
  induction xs generalizing t with
  | nil => rfl
  | cons x xs ih =>
    rw [List.cons_append, after, after]
    cases t.step x with
    | none => rfl
    | some t' => exact ih t'

end Traffic

end KeysetQuery

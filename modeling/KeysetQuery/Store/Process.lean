import KeysetQuery.Store.CountWalk

/-!
# Processes

A process sends requests one after the other.  Between two requests it is at rest, so that
several processes can take turns.

* `Process` — a process at rest;
* `Process.next` — what it does when it is its turn: send a request, or stop;
* `Process.receive` — what the reply makes of it;
* `Process.trip` — a turn with a store that answers at once;
* `Process.run` — all turns with such a store, one after the other.
-/

namespace KeysetQuery

/-- A process at rest. -/
inductive Process where
  /-- A single request, whose reply is given as it is. -/
  | direct (request : Request)
  /-- A single request, whose reply is settled by the policy. -/
  | settled (request : Request)
  /-- A count. -/
  | count (walk : CountWalk)
deriving Inhabited

/-- What a process does when it is its turn. -/
inductive Move where
  | send (request : Request)
  | stop (v : Value)
deriving Inhabited

/-- What a turn makes of a process. -/
inductive Progress where
  | goes (p : Process)
  | stops (v : Value)
deriving Inhabited

namespace Process

/-- What a process does when it is its turn.  A count that may not read another page fails. -/
def next (policy : Policy) : Process → Noted Move
  | direct request => pure (.send request)
  | settled request => pure (.send request)
  | count walk =>
    let check := walk.checkBound policy
    match check.result with
    | .ok _ => (pure (.send walk.request) : Noted Move).after check.notices
    | .error f => ((.stop ·) <$> policy.settleCount f).after check.notices

def receiveCount (policy : Policy) (walk : CountWalk) (reply : Reply) : Noted Progress :=
  match reply >>= walk.absorb with
  | .ok (.more walk) => pure (.goes (count walk))
  | .ok (.complete total) => pure (.stops total)
  | .error f => do
    let v ← policy.settleCount f
    pure (.stops v)

def receive (policy : Policy) : Process → Reply → Noted Progress
  | direct _, reply => do
    let v ← (reply : Except Fault Value)
    pure (.stops v)
  | settled request, reply => do
    let v ← policy.settle request.operation reply
    pure (.stops v)
  | count walk, reply => receiveCount policy walk reply

/-! ### Turns with a store that answers at once -/

/-- A store that answers at once: its state, a request, the reply and the state after it. -/
abbrev Responder (σ : Type) := σ → Request → Reply × σ

/-- A turn with a store that answers at once. -/
def trip {σ : Type} (policy : Policy) (respond : Responder σ) (s : σ) (p : Process) :
    Noted Progress × σ :=
  let move := p.next policy
  match move.result with
  | .ok (.send request) =>
    ((p.receive policy (respond s request).1).after move.notices, (respond s request).2)
  | .ok (.stop v) => (⟨.ok (.stops v), move.notices⟩, s)
  | .error f => (⟨.error f, move.notices⟩, s)

/-- The turns of a process, at most a given number of them.  There is no result if more turns are
needed. -/
def run {σ : Type} (policy : Policy) (respond : Responder σ) :
    Nat → σ → Process → Noted (Option Value) × σ
  | 0, s, _ => (pure none, s)
  | turns + 1, s, p =>
    let t := p.trip policy respond s
    match t.1.result with
    | .ok (.goes q) =>
      let r := run policy respond turns t.2 q
      (r.1.after t.1.notices, r.2)
    | .ok (.stops v) => (⟨.ok (some v), t.1.notices⟩, t.2)
    | .error f => (⟨.error f, t.1.notices⟩, t.2)

end Process

end KeysetQuery

import KeysetQuery.Client.Exchange
import KeysetQuery.Client.Shared
import KeysetQuery.Session.Script
import KeysetQuery.Store.QueryRun
import KeysetQuery.Store.RecordStore

/-!
# Sessions

In a session a store does tasks over a scripted connection.  Tasks take turns: what is ready to go
on stands in a queue, first come, first served.

* `Connection` — a store that is reached at once, or through the shared client;
* `Job` and `Output` — a task under way, and what comes of it;
* `Event` and `Delay` — what stands in the queue, and what waits for something else;
* `Call` — what the other side was asked;
* `Session` — all of it; `Play` — a step of a session.
-/

namespace KeysetQuery

/-! ### Connections -/

/-- How the store is reached. -/
inductive Connection where
  /-- At once; the connection may have to be closed. -/
  | immediate (closes : Bool)
  /-- Through the shared client, which is opened with options. -/
  | shared (client : SharedClient) (options : Entries)
deriving Inhabited

/-- What the other side was asked, and whether the question was taken back. -/
structure Call where
  operation : String
  params : Value
  cancelled : Bool
deriving Inhabited

/-! ### Jobs -/

/-- What comes of a task. -/
inductive Output where
  | value (v : Value)
  | page (p : Page)
deriving Inhabited

/-- A task under way. -/
inductive Job where
  /-- It was not begun. -/
  | fresh (t : Task)
  /-- It consists of one process. -/
  | single (b : Branch)
  /-- It is a query. -/
  | query (q : QueryRun)
  /-- It is over. -/
  | finished (r : Except Fault Output)

instance : Inhabited Job := ⟨.finished (.ok (.value .null))⟩

/-- What comes of a job; one that is not over when nothing is ready any more never will be. -/
def Job.result : Job → Except Fault Output
  | finished r => r
  | single (.ended r) => r.map .value
  | _ => .error .cancelled

/-- A branch of a job; the only branch of a job that is no query is its page. -/
structure Address where
  job : Nat
  branch : BranchName
deriving DecidableEq, Inhabited

/-- What is ready to go on. -/
inductive Event where
  /-- A job begins. -/
  | start (job : Nat)
  /-- It is the turn of a branch. -/
  | turn (a : Address)
  /-- A branch no longer has to wait for an opening. -/
  | wake (a : Address) (opening : Nat) (request : Request)
  /-- A query is told that a branch has ended. -/
  | report (a : Address)
  /-- A query that is decided goes on. -/
  | resume (job : Nat)
  /-- An opening goes on. -/
  | opening (k : Nat)
deriving Inhabited

/-- What a branch waits for. -/
inductive Delay where
  | opening (k : Nat) (request : Request)
  | call (index : Nat)
deriving Inhabited

/-! ### Sessions -/

/-- A store at work. -/
structure Session where
  store : RecordStore
  connection : Connection
  script : Script
  jobs : List Job
  queue : List Event
  delays : List (Address × Delay)
  calls : List Call
  notices : List Notice

/-- A step of a session. -/
abbrev Play := StateM Session

namespace Play

def note (ns : List Notice) : Play Unit :=
  modify fun s => { s with notices := s.notices ++ ns }

/-- The result of a computation, whose notices are left. -/
def noted {α : Type} (x : Noted α) : Play (Except Fault α) := do
  note x.notices
  pure x.result

/-- The other side is asked; the call has a number. -/
def record (operation : String) (params : Value) : Play Nat :=
  modifyGet fun s => (s.calls.length, { s with calls := s.calls ++ [⟨operation, params, false⟩] })

def takeBack (index : Nat) : Play Unit :=
  modify fun s => { s with calls := s.calls.modify index fun c => { c with cancelled := true } }

/-- An event is put at the end of the queue. -/
def enqueue (e : Event) : Play Unit := modify fun s => { s with queue := s.queue ++ [e] }

/-- An event is put at the head of the queue: it goes on before anything else does. -/
def proceed (e : Event) : Play Unit := modify fun s => { s with queue := e :: s.queue }

def delay (a : Address) (d : Delay) : Play Unit :=
  modify fun s => { s with delays := s.delays ++ [(a, d)] }

def changeClient (f : SharedClient → SharedClient) : Play Unit :=
  modify fun s =>
    match s.connection with
    | .shared client options => { s with connection := .shared (f client) options }
    | .immediate _ => s

def job (i : Nat) : Play Job := do
  let s ← get
  pure (s.jobs[i]?.getD default)

def setJob (i : Nat) (j : Job) : Play Unit := modify fun s => { s with jobs := s.jobs.set i j }

/-- The process of a branch, unless the branch has ended. -/
def process? (a : Address) : Play (Option Process) := do
  match ← job a.job with
  | .single b => pure b.process?
  | .query q => pure (q.branch a.branch).process?
  | _ => pure none

def setBranch (a : Address) (b : Branch) : Play Unit := do
  match ← job a.job with
  | .single _ => setJob a.job (.single b)
  | .query q => setJob a.job (.query (q.setBranch a.branch b))
  | _ => pure ()

end Play

end KeysetQuery

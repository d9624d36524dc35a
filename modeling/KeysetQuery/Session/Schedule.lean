import KeysetQuery.Session.Transport

/-!
# Taking turns

* `Play.handle` — what happens at an event;
* `Play.drain` — all events in the queue, one after the other;
* `Session.perform` — tasks are done side by side, and what comes of them.
-/

namespace KeysetQuery

namespace Play

/-! ### Branches -/

/-- A branch ends.  A query is told of it later. -/
def finishBranch (a : Address) (r : Except Fault Value) : Play Unit := do
  setBranch a (.ended r)
  match ← job a.job with
  | .query _ => enqueue (.report a)
  | _ => pure ()

def receive (a : Address) (p : Process) (reply : Reply) : Play Unit := do
  let policy := (← get).store.policy
  match ← noted (p.receive policy reply) with
  | .error f => finishBranch a (.error f)
  | .ok (.stops v) => finishBranch a (.ok v)
  | .ok (.goes q) => do
    setBranch a (.active q)
    proceed (.turn a)

/-- A branch has sent a request; the reply may have come already. -/
def continueWith (a : Address) (p : Process) : Option Reply → Play Unit
  | some reply => receive a p reply
  | none => pure ()

def takeTurn (a : Address) : Play Unit := do
  match ← process? a with
  | none => pure ()
  | some p => do
    let policy := (← get).store.policy
    match ← noted (p.next policy) with
    | .error f => finishBranch a (.error f)
    | .ok (.stop v) => finishBranch a (.ok v)
    | .ok (.send request) => do
      let reply ← send a request
      continueWith a p reply

/-- A branch no longer has to wait for an opening. -/
def wake (a : Address) (k : Nat) (request : Request) : Play Unit := do
  match ← process? a with
  | none => pure ()
  | some p => do
    let reply ← sendAfterOpening a k request
    continueWith a p reply

/-- What a branch waited for is taken back. -/
def takeBackDelay : Delay → Play Unit
  | .call index => takeBack index
  | .opening k _ => changeClient fun c => c.giveUp k

/-- A branch is not waited for any more, and waits for nothing itself. -/
def abandon (a : Address) : Play Unit := do
  let own := (← get).delays.filter fun d => d.1 = a
  own.forM fun d => takeBackDelay d.2
  modify fun s => { s with delays := s.delays.filter fun d => d.1 ≠ a }

/-! ### Jobs -/

def finish (i : Nat) (r : Except Fault Output) : Play Unit := setJob i (.finished r)

/-- The connection is entered or left as a context, which only a shared one can be. -/
def asContext (i : Nat) (act : Play Value) : Play Unit := do
  match (← get).connection with
  | .immediate _ => finish i (Value.misused .notOffered)
  | .shared _ _ => do
    let v ← act
    finish i (.ok (.value v))

def leaving : Play Value := do
  leave
  pure .null

def startJob (i : Nat) : Play Unit := do
  match ← job i with
  | .fresh task => do
    let store := (← get).store
    match ← noted (store.begin task) with
    | .error f => finish i (.error f)
    | .ok (.process p) => do
      setJob i (.single (.active p))
      proceed (.turn ⟨i, .page⟩)
    | .ok (.query plan) => do
      setJob i (.query (.start plan))
      enqueue (.turn ⟨i, .page⟩)
      if plan.counts then enqueue (.turn ⟨i, .count⟩)
    | .ok (.answer v) => finish i (.ok (.value v))
    | .ok .close => do
      let v ← leaving
      finish i (.ok (.value v))
    | .ok .enterConnection => asContext i (pure (.bool true))
    | .ok .leaveConnection => asContext i leaving
  | _ => pure ()

/-- A query is told that a branch has ended; once it is decided it goes on. -/
def report (a : Address) : Play Unit := do
  match ← job a.job with
  | .query q => do
    let told := q.report a.branch
    setJob a.job (.query told)
    if q.verdict.isNone && told.verdict.isSome then enqueue (.resume a.job)
  | _ => pure ()

/-- What comes of a query: nothing is the value null. -/
def outputOf : Option Page → Output
  | some p => .page p
  | none => .value .null

/-- A query that is decided goes on: what it still has under way is given up. -/
def resume (i : Nat) : Play Unit := do
  match ← job i with
  | .query q =>
    match q.outcome (← get).store.policy with
    | none => pure ()
    | some outcome => do
      setJob i (.query q.giveUp)
      abandon ⟨i, .page⟩
      abandon ⟨i, .count⟩
      let r ← noted outcome
      finish i (r.map outputOf)
  | _ => pure ()

/-! ### The queue -/

def handle : Event → Play Unit
  | .start i => startJob i
  | .turn a => takeTurn a
  | .wake a k request => wake a k request
  | .report a => report a
  | .resume i => resume i
  | .opening k => continueOpening k

def nextEvent? : Play (Option Event) :=
  modifyGet fun s =>
    match s.queue with
    | [] => (none, s)
    | e :: es => (some e, { s with queue := es })

/-- At most a given number of events, one after the other. -/
def drain : Nat → Play Unit
  | 0 => pure ()
  | n + 1 => do
    match ← nextEvent? with
    | none => pure ()
    | some e => do
      handle e
      drain n

/-! ### Tasks -/

/-- More events than tasks can give rise to while a script lasts. -/
def eventBound (s : Session) : Nat := 16 * (s.script.size + 4 * s.jobs.length + 4)

/-- Tasks are done side by side. -/
def perform (tasks : List Task) : Play (List (Except Fault Output)) := do
  modify fun s =>
    { s with
      jobs := tasks.map .fresh
      queue := (List.range tasks.length).map .start
      delays := []
      calls := []
      notices := [] }
  drain (eventBound (← get))
  pure ((← get).jobs.map Job.result)

end Play

namespace Session

/-- A session before its first task. -/
def start (store : RecordStore) (connection : Connection) (script : Script) : Session where
  store := store
  connection := connection
  script := script
  jobs := []
  queue := []
  delays := []
  calls := []
  notices := []

/-- Tasks are done side by side: what comes of them, and the session afterwards. -/
def perform (s : Session) (tasks : List Task) : List (Except Fault Output) × Session :=
  (Play.perform tasks).run s

end Session

end KeysetQuery

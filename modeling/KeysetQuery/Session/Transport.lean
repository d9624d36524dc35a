import KeysetQuery.Session.State

/-!
# Sending requests

* `Play.transmit` — the next response to a call;
* `Play.exchange` — a request goes to the client and its response comes back;
* `Play.send` — a request is sent over the connection, if need be after an opening;
* `Play.continueOpening` — an opening goes on;
* `Play.leave` — the connection is left.

A request that has to wait has no reply yet; its branch is put among the delays.
-/

namespace KeysetQuery.Play

open Value

/-! ### Calls -/

/-- The name under which the script lists the responses to a request. -/
def scriptName (name : String) (params : Value) : String :=
  if name = "query" && selectsCount params then "count" else name

/-- The other side is asked, and answers as the script says. -/
def transmit (a : Address) (name : String) (params : Value) : Play (Option Reply) := do
  let index ← record name params
  let response ← modifyGet fun s =>
    let t := s.script.take (scriptName name params)
    (t.1, { s with script := t.2 })
  match response with
  | .returns v => pure (some (.ok v))
  | .raises f => pure (some (.error f))
  | .hangs => do
    delay a (.call index)
    pure none

/-- A request goes to the client in stored form, and its response comes back from it. -/
def exchange (a : Address) (request : Request) : Play (Option Reply) := do
  let method := request.operation.method
  match encodeArguments request.params with
  | .error f => pure (some (.error (exchangeFailure method f)))
  | .ok arguments => do
    let reply ← transmit a method (map arguments)
    pure (reply.map (decodeReply method))

/-! ### Getting at the client -/

def clientOptions : Play Entries := do
  match (← get).connection with
  | .shared _ options => pure options
  | .immediate _ => pure []

/-- The notice that an opened client is taken into use. -/
def readyNotice (options : Entries) : Notice :=
  .clientReady ((Entries.field? options "region_name").getD null)
    ((Entries.field? options "endpoint_url").getD (str "default"))

/-- An opened client is taken into use, which is reported. -/
def install (k : Nat) : Play Unit := do
  changeClient fun c => c.install k
  let options ← clientOptions
  note (Noted.report (← get).store.policy.shownFrom (readyNotice options)).notices

/-- A request that cannot be sent fails. -/
def refuse (request : Request) (f : Fault) : Option Reply :=
  some (.error (exchangeFailure request.operation.method f))

/-- A request is sent through a client that was just opened. -/
def sendOpened (a : Address) (k : Nat) (request : Request) : Play (Option Reply) := do
  install k
  exchange a request

def service : Value × Value := (str "service", str "dynamodb")

def createContext : Play (Option Fault) := do
  match asArguments (← clientOptions) with
  | .error f => pure (some f)
  | .ok options => do
    let _ ← record "create_client" (map (service :: options))
    let fault ← modifyGet fun s =>
      let t := s.script.takeCreateFault
      (t.1, { s with script := t.2 })
    match fault with
    | some f => pure (some f)
    | none => do
      changeClient SharedClient.create
      pure none

def sendShared (a : Address) (request : Request) (client : SharedClient) :
    Play (Option Reply) := do
  match client.reach with
  | .inUse _ => exchange a request
  | .opened k => sendOpened a k request
  | .refused f => pure (refuse request f)
  | .waits k => do
    delay a (.opening k request)
    pure none
  | .vacant => do
    match ← createContext with
    | some f => pure (refuse request f)
    | none => do
      enqueue (.opening client.next)
      delay a (.opening client.next request)
      pure none

/-- A request is sent over the connection. -/
def send (a : Address) (request : Request) : Play (Option Reply) := do
  match (← get).connection with
  | .immediate _ => transmit a request.operation.name request.params
  | .shared client _ =>
    match request.params.part? "TableName" with
    | .error f => pure (some (.error f))
    | .ok _ => sendShared a request client

/-! ### Openings -/

/-- Whether a branch waits for an opening, and the event that wakes it up. -/
def wakeEvent? (k : Nat) (d : Address × Delay) : Option Event :=
  match d.2 with
  | .opening j request => if j = k then some (.wake d.1 k request) else none
  | .call _ => none

/-- All branches that wait for an opening become ready, in the order in which they came. -/
def wakeAll (k : Nat) : Play Unit :=
  modify fun s =>
    { s with
      queue := s.queue ++ s.delays.filterMap (wakeEvent? k)
      delays := s.delays.filter fun d => (wakeEvent? k d).isNone }

/-- An opening goes on: first the context is entered, then the client is open or there is a
fault. -/
def continueOpening (k : Nat) : Play Unit := do
  match (← get).connection with
  | .immediate _ => pure ()
  | .shared client _ =>
    match client.stage k with
    | .created =>
      if client.isGivenUp k then do
        changeClient fun c => c.enter k
        wakeAll k
      else do
        changeClient fun c => c.enter k
        let _ ← record "client_enter" null
        enqueue (.opening k)
    | .entered =>
      if client.isGivenUp k then do
        changeClient fun c => c.finish k none
        wakeAll k
      else do
        let fault ← modifyGet fun s =>
          let t := s.script.takeOpenFault
          (t.1, { s with script := t.2 })
        changeClient fun c => c.finish k fault
        wakeAll k
    | .done _ => pure ()

def sendAfterOpening (a : Address) (k : Nat) (request : Request) : Play (Option Reply) := do
  match (← get).connection with
  | .immediate _ => pure none
  | .shared client _ =>
    match client.stage k with
    | .done (some f) => pure (refuse request f)
    | _ => sendOpened a k request

/-! ### Leaving -/

def leave : Play Unit := do
  match (← get).connection with
  | .immediate closes =>
    if closes then do
      let _ ← record "close" null
  | .shared client _ => do
    if client.context.isSome then
      let _ ← record "client_exit" null
    changeClient SharedClient.close

end KeysetQuery.Play

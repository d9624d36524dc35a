import KeysetQuery.Value.Access

/-!
# Scripts

A script says how a store answers: for each operation the responses in the order in which they
are given, and which attempts to reach the store fail.

* `rejection` — a rejection by the store as a fault;
* `Response` — a response of a script; one of them is never to come;
* `Script` — the responses and the faults that are left;
* `Script.take` — the next response to an operation;
* `Script.takeCreateFault`, `Script.takeOpenFault` — whether the next client can be created, and
  opened.
-/

namespace KeysetQuery

open Value

/-! ### Rejections -/

/-- Whether the number of repeated requests in the record of a rejection can be written. -/
def checkRetries (response : Value) : Except Fault Unit := do
  if ← response.contains (str "ResponseMetadata") then
    let metadata ← response.entry "ResponseMetadata"
    let reached ← metadata.part? "MaxAttemptsReached"
    if (reached.getD (.bool false)).truthy then
      if ← metadata.contains (str "RetryAttempts") then
        let n ← metadata.entry "RetryAttempts"
        n.requireText

/-- Whether the record of a rejection can be put into words. -/
def checkRejection (response : Value) : Except Fault Unit := do
  checkRetries response
  let record ← response.part? "Error"
  let code ← (record.getD (map [])).part? "Code"
  let message ← (record.getD (map [])).part? "Message"
  (code.getD null).requireText
  (message.getD null).requireText

/-- A rejection as a fault.  Its record is put into words at once, and a record of another form is a
fault of its own. -/
def rejection (response : Value) (operation : String) : Fault :=
  match checkRejection response with
  | .ok _ => .remote (.rejected response operation)
  | .error f => f

/-! ### Responses -/

/-- A response of a script. -/
inductive Response where
  | returns (v : Value)
  /-- The response never comes. -/
  | hangs
  | raises (f : Fault)
deriving Inhabited

/-- The responses and the faults that are left. -/
structure Script where
  responses : List (String × List Response)
  createFaults : List (Option Fault)
  openFaults : List (Option Fault)
deriving Inhabited

namespace Script

/-- The response to an operation of which nothing is said. -/
def silence : Response := .returns (.map [])

/-- The next response to an operation, among the responses to all operations. -/
def takeFrom (operation : String) :
    List (String × List Response) → Response × List (String × List Response)
  | [] => (silence, [])
  | (name, rs) :: rest =>
    if name = operation then
      match rs with
      | [] => (silence, (name, rs) :: rest)
      | r :: rs => (r, (name, rs) :: rest)
    else
      let t := takeFrom operation rest
      (t.1, (name, rs) :: t.2)

def take (s : Script) (operation : String) : Response × Script :=
  let t := takeFrom operation s.responses
  (t.1, { s with responses := t.2 })

/-- Whether the next client can be created. -/
def takeCreateFault (s : Script) : Option Fault × Script :=
  match s.createFaults with
  | [] => (none, s)
  | f :: fs => (f, { s with createFaults := fs })

/-- Whether the next client can be opened. -/
def takeOpenFault (s : Script) : Option Fault × Script :=
  match s.openFaults with
  | [] => (none, s)
  | f :: fs => (f, { s with openFaults := fs })

/-- How many responses are left. -/
def size (s : Script) : Nat := s.responses.foldl (fun n r => n + r.2.length) 0

end Script

end KeysetQuery

import KeysetQuery.Store.Request
import KeysetQuery.Stored.Message

/-!
# Exchanges with a client

A client takes requests and gives responses in stored form, and fails in its own way.

* `Operation.method` — the name of an operation as the client calls it;
* `exchangeFailure` — the failure that a fault of the exchange is raised as;
* `encodeArguments` — a request as it is handed to the client;
* `decodeReply` — a reply as it is given back.
-/

namespace KeysetQuery

open Value

/-- The name of an operation as the client calls it. -/
def Operation.method : Operation → String
  | get => "get_item"
  | put => "put_item"
  | update => "update_item"
  | delete => "delete_item"
  | query => "query"

/-- The failure that a fault of the exchange is raised as.  Only what the store and the way to it
are to blame for becomes a failure; any other fault stays what it is. -/
def exchangeFailure (method : String) (f : Fault) : Fault :=
  match f with
  | .remote (.rejected response operation) =>
    .failed (method ++ " failed with " ++ (RemoteFault.errorField response "Code").text ++ ": "
      ++ (RemoteFault.rejected response operation).message) method (some f)
  | .remote .unspecified =>
    .failed (method ++ " failed: " ++ RemoteFault.unspecified.message) method (some f)
  | .remote (.unreachable url) =>
    .failed (method ++ " failed: " ++ (RemoteFault.unreachable url).message) method (some f)
  | f => f

def hasTextKeys (es : Entries) : Bool :=
  es.all fun e =>
    match e.1 with
    | .str _ => true
    | _ => false

/-- Entries that are handed over one by one, by their names. -/
def asArguments (es : Entries) : Except Fault Entries :=
  if hasTextKeys es then .ok es else misused .textKeysExpected

/-- A request as it is handed to the client. -/
def encodeArguments (params : Value) : Except Fault Entries := do
  let es ← Stored.encodeRequest params
  asArguments es

def decodeReply (method : String) (reply : Reply) : Reply :=
  match reply with
  | .ok response => (Stored.decodeResponse response).map .map
  | .error f => .error (exchangeFailure method f)

end KeysetQuery

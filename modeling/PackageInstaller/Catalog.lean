import PackageInstaller.Catalog.Failure
import PackageInstaller.Log
import PackageInstaller.Repository

/-!
Looking a package up in the catalog. A name that is an owner and a repository is looked up as such;
anything else is searched for, and the first hit counts. Requests that the server fails on, or that
do not reach it, are sent again after a while.
-/

namespace PackageInstaller.Catalog

structure Request where
  path : Text
  parameters : List (Text × Text)
  deriving DecidableEq, Repr

inductive Reply where
  | response (status : Int) (body : Bytes)
  | transport (kind : TransportKind) (message : Text)
  | exchange (kind : ExchangeKind) (message : Text)
  deriving DecidableEq, Repr

/-- The requests sent, the seconds waited between them, and the replies that were not needed. -/
structure Traffic where
  requests : List Request
  delays : List Nat
  unused : List Reply
  deriving DecidableEq, Repr

structure Conversation (α : Type) where
  traffic : Traffic
  log : List Event
  outcome : Except LookupFailure α

def Query.request : Query → Request
  | .package name => ⟨"/data/package/".toList ++ name, []⟩
  | .search words =>
    ⟨"/api/search/".toList ++ words,
      [("items".toList, "1".toList), ("chart".toList, "moststarred".toList)]⟩

def maxAttempts : Nat := 3

/-- The seconds to wait after an attempt: one after the first, and twice as many each time. -/
def delayAfter (attempt : Nat) : Nat := Nat.pow 2 (attempt - 1)

/-- What a reply means for the request. -/
inductive Verdict where
  | accepted (body : Bytes)
  | rejected (failure : LookupFailure)
  | retry (fault : LastFault)

def verdictOf (request : Request) : Reply → Verdict
  | .response status body =>
    if status < 400 then .accepted body
    else if status < 500 then .rejected (.catalog (.refused request.path status))
    else .retry (.status status)
  | .transport kind message => .retry (.transport kind message)
  | .exchange kind message => .rejected (.exchange kind message)

def retryEvent (request : Request) (attempt : Nat) (fault : LastFault) : Event :=
  let counts := [("attempt", Field.count attempt), ("max_retries", .count maxAttempts)]
  match fault with
  | .status status =>
    ⟨.warning, "catalog.server_error", [("path", .text request.path), ("status", .count status)] ++ counts⟩
  | .transport _ message =>
    ⟨.warning, "catalog.transport_error", [("path", .text request.path), ("error", .text message)] ++ counts⟩

def Traffic.after (request : Request) (delays : List Nat) (t : Traffic) : Traffic :=
  { t with requests := request :: t.requests, delays := delays ++ t.delays }

/-- A conversation that a request, a wait and log events come before. -/
def Conversation.after {α : Type} (request : Request) (delays : List Nat) (log : List Event)
    (c : Conversation α) : Conversation α :=
  { c with traffic := c.traffic.after request delays, log := log ++ c.log }

def ended {α : Type} (unused : List Reply) (outcome : Except LookupFailure α) : Conversation α :=
  ⟨⟨[], [], unused⟩, [], outcome⟩

/-- Sends a request, as often as need be and allowed, with `attempt` the number of the next time. -/
def send (request : Request) (attempt : Nat) : List Reply → Conversation Bytes
  | [] => (ended [] (.error .unanswered)).after request [] []
  | reply :: replies =>
    match verdictOf request reply with
    | .accepted body => (ended replies (.ok body)).after request [] []
    | .rejected failure => (ended replies (.error failure)).after request [] []
    | .retry fault =>
      let log := [retryEvent request attempt fault]
      if attempt < maxAttempts then
        (send request (attempt + 1) replies).after request [delayAfter attempt] log
      else
        let failure := CatalogError.unreachable request.path attempt fault
        (ended replies (.error (.catalog failure))).after request [] log

def invalid {α : Type} (query : Query) (c : Checked α) : Except LookupFailure α :=
  c.mapError fun problems => .catalog (.invalid query problems)

/-- What the payload says the package is. -/
def interpret (query : Query) (payload : Json) : Except LookupFailure Reference :=
  match query with
  | .package _ => invalid query (package payload)
  | .search words => do
    match ← invalid query (searchHits payload) with
    | [] => .error (.catalog (.nothingFound words))
    | first :: _ => return first

/-- A body that is nested too deeply is not the catalog's fault; anything else is. -/
def unreadable (query : Query) (e : Json.BodyError) : LookupFailure :=
  match e with
  | .malformed cause =>
    match cause.flaw with
    | .tooDeep _ => .beyondLimits cause
    | _ => .catalog (.unreadable query.request.path e)
  | _ => .catalog (.unreadable query.request.path e)

def interpretBody (query : Query) (body : Bytes) : Except LookupFailure Reference := do
  let payload ← (Json.readBody body).mapError (unreadable query)
  interpret query payload

def foundEvent (query : Query) (reference : Reference) : Event :=
  let found := [("url", Field.text reference.url), ("version", .text reference.version)]
  match query with
  | .package name => ⟨.debug, "catalog.package", ("name", .text name) :: found⟩
  | .search words => ⟨.debug, "catalog.search", ("query", .text words) :: found⟩

def run (query : Query) (replies : List Reply) : Conversation Reference :=
  let sent := send query.request 1 replies
  let outcome := sent.outcome.bind (interpretBody query)
  let log := match outcome with
    | .ok reference => [foundEvent query reference]
    | .error _ => []
  ⟨sent.traffic, sent.log ++ log, outcome⟩

def queryFor (name : Text) : Query :=
  if Repository.isOwnerAndName name then .package (Text.strip name) else .search (Text.strip name)

def resolve (name : Text) (replies : List Reply) : Conversation Reference := run (queryFor name) replies

end PackageInstaller.Catalog

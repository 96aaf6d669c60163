import Mathlib.Data.Finset.Sort
import Mathlib.Order.SymmDiff
import ShadowDataPlane.Contracts.Gap
import ShadowDataPlane.Foundation.Dict
import ShadowDataPlane.Foundation.Transition

/-!
# The subscriptions of a connection

A websocket connection subscribes its streams, changes them by updates and asks
the server from time to time for the streams which it holds.  An update is sent
as up to two requests, and the connection counts it only at the last
acknowledgement.  Its caller may give up meanwhile: an update which is still
queued is then skipped, one which was sent counts as before.

The server answers requests in their order.  `Server.drifted` records for the
proofs which streams it holds or lacks other than by requests: a request which
names such a stream repairs it, and no audit sees that it was gone.

Events, snapshot requests of the initial subscription and the clock are left
out.  What else raises in the loop ends a run, as does the end of the process.
-/

namespace ShadowDataPlane.Edge.SubscriptionAudit

open ShadowDataPlane.Contracts
open ShadowDataPlane.Foundation

/-! ## Messages -/

/-- The method of a request. -/
inductive Method where
  | subscribe
  | unsubscribe
  | listSubscriptions
  deriving DecidableEq

/-- A request of the connection. -/
structure Request where
  method : Method
  params : List String
  id : Nat
  deriving DecidableEq

/-- A control message of the server. -/
structure ControlReply where
  id : Nat
  code : Option Int := none
  result : Option (List String) := none

/-- The state of a future of a caller. -/
inductive FutureState where
  | waiting
  | done
  | cancelled
  deriving DecidableEq

/-- An update in the queue; its ticket names the futures of its caller. -/
structure SubscriptionUpdate where
  add : List String
  remove : List String
  snapshotRequests : List (String × StreamType)
  ticket : Nat

/-- An update which was sent and is not yet acknowledged. -/
structure PendingSubscriptionUpdate where
  remainingIds : List Nat
  add : List String
  remove : List String
  snapshotRequests : List (String × StreamType)
  ticket : Nat

/-- Why the connection gives up. -/
inductive ConnectionError where
  /-- "Binance subscription rejected". -/
  | rejected
  /-- "subscription audit mismatch". -/
  | mismatch (missing unexpected : List String)
  /-- "subscription audit response was not received". -/
  | unanswered
  deriving DecidableEq

/-! ## The connection -/

/-- The variables of `BinanceWebSocketConnection.run`, and its futures. -/
structure Connection where
  subscriptionId : Nat
  pendingUpdates : Dict Nat PendingSubscriptionUpdate := Dict.empty
  pendingAudits : List Nat := []
  activeSubscriptions : Finset String
  /-- The updates which wait in the queue. -/
  updates : List SubscriptionUpdate := []
  acknowledged : Dict Nat FutureState := Dict.empty
  completion : Dict Nat FutureState := Dict.empty
  /-- The callers whose snapshots are being fetched. -/
  resyncTasks : List Nat := []
  error : Option ConnectionError := none

/-- Give a result to a future, unless it is done or cancelled. -/
def setResult (futures : Dict Nat FutureState) (ticket : Nat) :
    Dict Nat FutureState :=
  if futures.get? ticket = some .waiting then futures.set ticket .done
  else futures

/-- Cancel a future, unless it is done. -/
def cancelFuture (futures : Dict Nat FutureState) (ticket : Nat) :
    Dict Nat FutureState :=
  if futures.get? ticket = some .waiting then futures.set ticket .cancelled
  else futures

/-- The requests of an update: parts without streams are not sent. -/
def numberRequests : Nat → List (Method × List String) → List Request
  | _, [] => []
  | subscriptionId, (method, streams) :: rest =>
      if streams = [] then numberRequests subscriptionId rest
      else
        { method, params := streams, id := subscriptionId + 1 } ::
          numberRequests (subscriptionId + 1) rest

namespace Connection

/-- `_submit_update` puts an update into the queue. -/
def submit (connection : Connection) (update : SubscriptionUpdate) :
    Connection :=
  { connection with
    updates := connection.updates ++ [update]
    acknowledged := connection.acknowledged.set update.ticket .waiting
    completion := connection.completion.set update.ticket .waiting }

/-- `_submit_update` ends: it cancels what is not done. -/
def giveUp (connection : Connection) (ticket : Nat) : Connection :=
  { connection with
    acknowledged := cancelFuture connection.acknowledged ticket
    completion := cancelFuture connection.completion ticket }

/-- An update from the queue: skip it, or send its requests. -/
def takeUpdate (connection : Connection) (update : SubscriptionUpdate)
    (rest : List SubscriptionUpdate) : Connection × List Request :=
  if connection.acknowledged.get? update.ticket = some .cancelled ∨
      connection.completion.get? update.ticket = some .cancelled then
    ({ connection with updates := rest }, [])
  else
    let requests := numberRequests connection.subscriptionId
      [(.unsubscribe, update.remove), (.subscribe, update.add)]
    let ids := requests.map Request.id
    let pending : PendingSubscriptionUpdate := {
      remainingIds := ids
      add := update.add
      remove := update.remove
      snapshotRequests := update.snapshotRequests
      ticket := update.ticket }
    ({ connection with
        updates := rest
        subscriptionId := connection.subscriptionId + requests.length
        pendingUpdates := ids.foldl
          (fun pendingUpdates id => pendingUpdates.set id pending)
          connection.pendingUpdates
        acknowledged :=
          if ids = [] then setResult connection.acknowledged update.ticket
          else connection.acknowledged
        completion :=
          if ids = [] then setResult connection.completion update.ticket
          else connection.completion },
      requests)

/-- The audit timer rings. -/
def auditDue (connection : Connection) : Connection × List Request :=
  if connection.pendingAudits ≠ [] then
    ({ connection with error := some .unanswered }, [])
  else if connection.pendingUpdates.entries = [] then
    let id := connection.subscriptionId + 1
    ({ connection with
        subscriptionId := id
        pendingAudits := connection.pendingAudits ++ [id] },
      [{ method := .listSubscriptions, params := [], id }])
  else (connection, [])

/-- A reply to an audit. -/
def receiveAudit (connection : Connection) (reply : ControlReply) :
    Connection :=
  if reply.id ∈ connection.pendingAudits then
    let actual := (reply.result.getD []).toFinset
    let active := connection.activeSubscriptions
    { connection with
      pendingAudits := connection.pendingAudits.erase reply.id
      error :=
        if actual ≠ active then
          some (.mismatch ((active \ actual).sort (· ≤ ·))
            ((actual \ active).sort (· ≤ ·)))
        else connection.error }
  else connection

/-- The last request of an update is acknowledged. -/
def acknowledge (connection : Connection)
    (pending : PendingSubscriptionUpdate) : Connection :=
  { connection with
    activeSubscriptions :=
      (connection.activeSubscriptions \ pending.remove.toFinset) ∪
        pending.add.toFinset
    acknowledged := setResult connection.acknowledged pending.ticket
    resyncTasks :=
      if pending.snapshotRequests ≠ [] then
        connection.resyncTasks ++ [pending.ticket]
      else connection.resyncTasks
    completion :=
      if pending.snapshotRequests ≠ [] then connection.completion
      else setResult connection.completion pending.ticket }

/-- A reply to a request of an update; its other requests share the object. -/
def receiveUpdate (connection : Connection) (reply : ControlReply) :
    Connection :=
  match connection.pendingUpdates.get? reply.id with
  | none => connection
  | some pending =>
      let left := { pending with
        remainingIds := pending.remainingIds.erase reply.id }
      let popped := { connection with
        pendingUpdates := left.remainingIds.foldl
          (fun pendingUpdates id => pendingUpdates.set id left)
          (connection.pendingUpdates.erase reply.id) }
      if left.remainingIds = [] then popped.acknowledge left else popped

/-- A control message. -/
def receive (connection : Connection) (reply : ControlReply) : Connection :=
  if reply.code ≠ none then { connection with error := some .rejected }
  else
    let audited := connection.receiveAudit reply
    if audited.error ≠ none then audited else audited.receiveUpdate reply

/-- The snapshots of an update have arrived. -/
def completeSnapshots (connection : Connection) (ticket : Nat) : Connection :=
  { connection with
    resyncTasks := connection.resyncTasks.erase ticket
    completion := setResult connection.completion ticket }

end Connection

/-! ## The server -/

/-- The streams of a connection on the server. -/
structure Server where
  holds : Finset String
  /-- Streams which it holds or lacks other than by requests. -/
  drifted : Finset String

/-- What a request makes of a set of streams. -/
def Request.apply (streams : Finset String) (request : Request) :
    Finset String :=
  match request.method with
  | .subscribe => streams ∪ request.params.toFinset
  | .unsubscribe => streams \ request.params.toFinset
  | .listSubscriptions => streams

/-- The streams which a request subscribes or unsubscribes. -/
def Request.names (request : Request) : Finset String :=
  match request.method with
  | .listSubscriptions => ∅
  | _ => request.params.toFinset

namespace Server

def process (server : Server) (request : Request) : Server where
  holds := request.apply server.holds
  drifted := server.drifted \ request.names

/-- Streams are dropped, or added, without a request. -/
def change (server : Server) (streams : Finset String) : Server where
  holds := symmDiff server.holds streams
  drifted := symmDiff server.drifted streams

end Server

/-- A reply, and what had drifted when it was made. -/
structure Answer where
  reply : ControlReply
  drifted : Finset String

/-- The answer to a request, with the streams in some order. -/
def Server.answer (server : Server) (request : Request)
    (order : List String) : Option Answer :=
  let drifted := (server.process request).drifted
  match request.method with
  | .listSubscriptions =>
      if order.toFinset = server.holds then
        some { reply := { id := request.id, result := some order }, drifted }
      else none
  | _ => some { reply := { id := request.id }, drifted }

/-! ## Runs -/

/-- A connection, its server, and all messages between them so far. -/
structure ConnectionRun where
  connection : Connection
  server : Server
  sent : List Request
  answers : List Answer := []
  /-- How many replies the connection has received. -/
  received : Nat := 0

/-- The steps of a connection and of those who submit to it. -/
inductive ConnectionLabel where
  | submit (update : SubscriptionUpdate)
  | giveUp (ticket : Nat)
  | takeUpdate
  | auditDue
  /-- No reply to an audit arrived in time. -/
  | auditTimeout
  | receive
  | snapshotsFetched (ticket : Nat)
  | answer (order : List String)
  | change (streams : Finset String)

namespace ConnectionRun

/-- The connection did something and sent requests. -/
def advance (run : ConnectionRun) (next : Connection × List Request) :
    ConnectionRun :=
  { run with connection := next.1, sent := run.sent ++ next.2 }

end ConnectionRun

/-- One label, as long as the connection has not given up. -/
def connectionStep (run : ConnectionRun) :
    ConnectionLabel → Option ConnectionRun := fun label =>
  if run.connection.error ≠ none then none
  else
    match label with
    | .submit update =>
        if (run.connection.acknowledged.get? update.ticket).isSome then none
        else some (run.advance (run.connection.submit update, []))
    | .giveUp ticket => some (run.advance (run.connection.giveUp ticket, []))
    | .takeUpdate =>
        match run.connection.updates with
        | [] => none
        | update :: rest =>
            some (run.advance (run.connection.takeUpdate update rest))
    | .auditDue => some (run.advance run.connection.auditDue)
    | .auditTimeout =>
        if run.connection.pendingAudits = [] then none
        else
          some (run.advance
            ({ run.connection with error := some .unanswered }, []))
    | .receive =>
        match run.answers[run.received]? with
        | none => none
        | some answer => some {
            run.advance (run.connection.receive answer.reply, []) with
            received := run.received + 1 }
    | .snapshotsFetched ticket =>
        if ticket ∈ run.connection.resyncTasks then
          some (run.advance (run.connection.completeSnapshots ticket, []))
        else none
    | .answer order =>
        match run.sent[run.answers.length]? with
        | none => none
        | some request =>
            (run.server.answer request order).map fun answer => {
              run with
              server := run.server.process request
              answers := run.answers ++ [answer] }
    | .change streams =>
        some { run with server := run.server.change streams }

/-- The connection has sent its initial subscription. -/
def openConnection (subscriptionId : Nat) (subscriptions : List String) :
    ConnectionRun where
  connection := {
    subscriptionId
    activeSubscriptions := subscriptions.toFinset }
  server := { holds := ∅, drifted := ∅ }
  sent := [{
    method := .subscribe
    params := subscriptions
    id := subscriptionId }]

end ShadowDataPlane.Edge.SubscriptionAudit

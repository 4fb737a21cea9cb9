import Nameserver.Forwarding.Exchange
import Nameserver.Forwarding.Ticket
import Nameserver.Message.Request

/-!
# The pool of forwarding workers

Every forwarder has one worker with a bounded queue.  A query that is forwarded is offered to all
workers in turn; those that take it work on it side by side, and a `Ticket` lets one reply out.

**Actions.**  Several callers and workers are at it at the same time, so the pool is described by
single actions, each of which touches shared data once.  `Pool.act` takes one, and leaves the pool
alone when it is not possible just then; what happens in any order is therefore a list of
`Pool.Action`s, and every such list is something that can happen.

**Events.**  Where nobody comes in between, a caller or a worker goes on until it has to wait.
`Pool.step` lets it, by the actions that `Pool.Event.actions` lists.

**A query's way.**  It is entered, offered to one worker after the other, and settled once all have
been asked: the caller sends the error reply itself if no worker will.  A worker takes the oldest
query of its queue, looks whether it has been answered meanwhile, and if not sends it on and hears
what arrives, until that ends the exchange.  An attempt that comes to nothing, because a worker
refuses the query, comes too late or hears no answer, is counted off the ticket.
-/

namespace Nameserver

/-- What a client gets for a query that was forwarded. -/
inductive Relay where
  | answer (datagram : Bytes)
  /-- A header that says that the server could not work the query out. -/
  | servFail
deriving DecidableEq, Repr

/-- The datagram of a reply to a query.  A query without an id gets none. -/
def Relay.datagram? (query : Bytes) : Relay → Option Bytes
  | .answer datagram => some datagram
  | .servFail => errorReply? query .servFail

/-- What the caller of a query is doing. -/
inductive Caller where
  /-- It asks one worker after the other. -/
  | asking
  /-- The worker that it has asked has refused, and it has not counted the attempt off. -/
  | refused
  /-- It has counted off the last attempt, and not asked for the right to reply. -/
  | claiming
  /-- It knows whether it has to reply, and has done so. -/
  | settled
deriving DecidableEq, Repr

/-- A query that is or was under way. -/
structure Forwarded where
  query : Bytes
  ticket : Ticket
  caller : Caller := .asking
  /-- How many workers the caller is done with. -/
  asked : Nat := 0
  /-- Whether the caller has to send the error reply. -/
  callerReplies : Bool := false
  /-- What was sent to the client, in order. -/
  replies : List Relay := []
deriving DecidableEq, Repr

/-- What a worker is doing.  Queries go by their numbers. -/
inductive Activity where
  | idle
  /-- It has taken a query and not looked at its ticket. -/
  | holding (query : Nat)
  /-- It has sent a query on and waits. -/
  | waiting (query : Nat)
  /-- It has nothing for a query, and has not counted its attempt off. -/
  | failing (query : Nat)
  /-- It has counted off the last attempt, and not asked for the right to reply. -/
  | claiming (query : Nat)
  /-- It does not work any more. -/
  | stopped
deriving DecidableEq, Repr

/-- The worker of a forwarder. -/
structure Worker where
  forwarder : SocketAddress
  /-- The queries that wait for it, oldest first. -/
  queue : List Nat := []
  activity : Activity := .idle
deriving DecidableEq, Repr

/-- Whether one more query may wait for a worker. -/
def Worker.accepts (worker : Worker) (depth : Nat) : Bool :=
  worker.activity ≠ .stopped && worker.queue.length < depth

/-- All workers and all queries. -/
structure Pool where
  /-- How many queries may wait for one worker. -/
  depth : Nat
  workers : List Worker
  queries : List Forwarded := []
deriving DecidableEq, Repr

/-- An action of someone.  Anyone else may act before the next one. -/
inductive Pool.Action where
  /-- A query is to be forwarded. -/
  | enter (query : Bytes)
  /-- The caller of a query asks the next worker to take it. -/
  | offer (query : Nat)
  /-- The caller counts off the attempt of the worker that has refused. -/
  | countRefusal (query : Nat)
  /-- The caller asks for the right to reply. -/
  | claimRefusal (query : Nat)
  /-- The caller sees whether it has to reply, and does. -/
  | settle (query : Nat)
  /-- A worker takes the oldest query of its queue. -/
  | take (worker : Nat)
  /-- A worker looks at the ticket of the query it has taken. -/
  | look (worker : Nat)
  /-- Something arrives at the socket of a worker that waits. -/
  | hear (worker : Nat) (arrival : Arrival)
  /-- A worker counts off its attempt. -/
  | countFailure (worker : Nat)
  /-- A worker asks for the right to send the error reply. -/
  | claimFailure (worker : Nat)
  /-- A worker ends, and with it what waits for it. -/
  | stop (worker : Nat)
deriving DecidableEq, Repr

/-- What a caller or a worker does without a pause. -/
inductive Pool.Event where
  | enter (query : Bytes)
  | offer (query : Nat)
  | settle (query : Nat)
  | take (worker : Nat)
  | look (worker : Nat)
  | hear (worker : Nat) (arrival : Arrival)
  | stop (worker : Nat)
deriving DecidableEq, Repr

namespace Pool

/-- A pool with a worker for each forwarder.  There is always room for one query in a queue. -/
def start (forwarders : List SocketAddress) (depth : Nat) : Pool :=
  { depth := max depth 1, workers := forwarders.map fun forwarder => { forwarder } }

/-- The pool with a query changed. -/
def modifyQuery (pool : Pool) (query : Nat) (f : Forwarded → Forwarded) : Pool :=
  { pool with queries := pool.queries.modify query f }

/-- The pool with a worker changed. -/
def modifyWorker (pool : Pool) (worker : Nat) (f : Worker → Worker) : Pool :=
  { pool with workers := pool.workers.modify worker f }

/-- The pool in which a worker does something else. -/
def turn (pool : Pool) (worker : Nat) (activity : Activity) : Pool :=
  pool.modifyWorker worker fun w => { w with activity }

end Pool

namespace Forwarded

/-- A query for so many workers.  Without any, the caller has the reply at once. -/
def ofQuery (query : Bytes) (workers : Nat) : Forwarded :=
  let ticket := Ticket.issue workers
  if workers = 0 then { query, ticket := ticket.redeem.2, callerReplies := ticket.redeem.1 }
  else { query, ticket }

/-- A worker has taken the query into its queue, and the caller goes on to the next one. -/
def accept (q : Forwarded) : Forwarded := { q with asked := q.asked + 1 }

/-- A worker has no room for the query, or has stopped. -/
def refuse (q : Forwarded) : Forwarded := { q with caller := .refused }

/-- The caller counts off the attempt of the worker that has refused, and goes on to the next one
unless this was the last attempt. -/
def countRefusal (q : Forwarded) : Forwarded :=
  { q with
    asked := q.asked + 1
    ticket := q.ticket.countOff.2
    caller := if q.ticket.countOff.1 then .claiming else .asking }

/-- The caller, whose last worker has refused, asks for the right to send the error reply. -/
def claimRefusal (q : Forwarded) : Forwarded :=
  { q with
    ticket := q.ticket.redeem.2
    caller := .asking
    callerReplies := q.callerReplies || q.ticket.redeem.1 }

/-- The caller is done with the workers, and sends the error reply if it has the right to. -/
def settle (q : Forwarded) : Forwarded :=
  { q with
    caller := .settled
    replies := if q.callerReplies then q.replies ++ [.servFail] else q.replies }

/-- A worker counts off its attempt, which has brought no answer. -/
def countFailure (q : Forwarded) : Forwarded := { q with ticket := q.ticket.countOff.2 }

/-- A worker asks for the right to send the error reply, and sends it if it may. -/
def claimFailure (q : Forwarded) : Forwarded :=
  { q with
    ticket := q.ticket.redeem.2
    replies := if q.ticket.redeem.1 then q.replies ++ [.servFail] else q.replies }

/-- A worker has got an answer, which goes out if it is the first. -/
def answer (q : Forwarded) (datagram : Bytes) : Forwarded :=
  { q with
    ticket := q.ticket.redeem.2
    replies := if q.ticket.redeem.1 then q.replies ++ [.answer datagram] else q.replies }

end Forwarded

namespace Pool

/-- Takes in a query, with a ticket for as many attempts as there are workers. -/
def enter (pool : Pool) (query : Bytes) : Pool :=
  { pool with queries := pool.queries ++ [.ofQuery query pool.workers.length] }

/-- Lets the caller of a query ask the next worker. -/
def offer (pool : Pool) (query : Nat) : Pool :=
  match pool.queries[query]? with
  | some q =>
    match q.caller, pool.workers[q.asked]? with
    | .asking, some worker =>
      if worker.accepts pool.depth then
        let pool := pool.modifyWorker q.asked fun w => { w with queue := w.queue ++ [query] }
        pool.modifyQuery query .accept
      else pool.modifyQuery query .refuse
    | _, _ => pool
  | none => pool

/-- Lets the caller of a query count off the attempt of a worker that has refused. -/
def countRefusal (pool : Pool) (query : Nat) : Pool :=
  match pool.queries[query]? with
  | some q => if q.caller = .refused then pool.modifyQuery query .countRefusal else pool
  | none => pool

/-- Lets the caller that has counted off the last attempt ask for the right to reply. -/
def claimRefusal (pool : Pool) (query : Nat) : Pool :=
  match pool.queries[query]? with
  | some q => if q.caller = .claiming then pool.modifyQuery query .claimRefusal else pool
  | none => pool

/-- Lets the caller that has asked all workers see whether it has to reply. -/
def settle (pool : Pool) (query : Nat) : Pool :=
  match pool.queries[query]? with
  | some q =>
    if q.asked = pool.workers.length ∧ q.caller = .asking then pool.modifyQuery query .settle
    else pool
  | none => pool

/-- Lets a worker with nothing to do take the oldest query of its queue. -/
def take (pool : Pool) (worker : Nat) : Pool :=
  match pool.workers[worker]? with
  | some { queue := query :: queue, activity := .idle, .. } =>
    pool.modifyWorker worker fun w => { w with queue, activity := .holding query }
  | _ => pool

/-- Lets a worker look at the ticket of the query that it holds. -/
def look (pool : Pool) (worker : Nat) : Pool :=
  match pool.workers[worker]? with
  | some { activity := .holding query, .. } =>
    match pool.queries[query]? with
    | some q => pool.turn worker (if q.ticket.redeemed then .failing query else .waiting query)
    | none => pool
  | _ => pool

/-- Lets a worker that waits hear what arrives at its socket. -/
def hear (pool : Pool) (worker : Nat) (arrival : Arrival) : Pool :=
  match pool.workers[worker]? with
  | some { forwarder, activity := .waiting query, .. } =>
    match pool.queries[query]? with
    | some q =>
      match Exchange.ending? forwarder q.query arrival with
      | none => pool
      | some (.ok datagram) => (pool.turn worker .idle).modifyQuery query (·.answer datagram)
      | some (.error _) => pool.turn worker (.failing query)
    | none => pool
  | _ => pool

/-- Lets a worker that has nothing for a query count off its attempt. -/
def countFailure (pool : Pool) (worker : Nat) : Pool :=
  match pool.workers[worker]? with
  | some { activity := .failing query, .. } =>
    match pool.queries[query]? with
    | some q =>
      let activity := if q.ticket.countOff.1 then Activity.claiming query else .idle
      (pool.turn worker activity).modifyQuery query .countFailure
    | none => pool
  | _ => pool

/-- Lets a worker that has counted off the last attempt ask for the right to reply. -/
def claimFailure (pool : Pool) (worker : Nat) : Pool :=
  match pool.workers[worker]? with
  | some { activity := .claiming query, .. } =>
    match pool.queries[query]? with
    | some _ => (pool.turn worker .idle).modifyQuery query .claimFailure
    | none => pool
  | _ => pool

/-- Ends a worker with nothing to do. -/
def stop (pool : Pool) (worker : Nat) : Pool :=
  match pool.workers[worker]? with
  | some { activity := .idle, .. } =>
    pool.modifyWorker worker fun w => { w with queue := [], activity := .stopped }
  | _ => pool

/-- Takes an action, if it is possible. -/
def act (pool : Pool) : Action → Pool
  | .enter query => pool.enter query
  | .offer query => pool.offer query
  | .countRefusal query => pool.countRefusal query
  | .claimRefusal query => pool.claimRefusal query
  | .settle query => pool.settle query
  | .take worker => pool.take worker
  | .look worker => pool.look worker
  | .hear worker arrival => pool.hear worker arrival
  | .countFailure worker => pool.countFailure worker
  | .claimFailure worker => pool.claimFailure worker
  | .stop worker => pool.stop worker

/-- Takes actions one after the other. -/
def play (pool : Pool) (actions : List Action) : Pool := actions.foldl act pool

/-- The actions that an event stands for. -/
def Event.actions : Event → List Action
  | .enter query => [.enter query]
  | .offer query => [.offer query, .countRefusal query, .claimRefusal query]
  | .settle query => [.settle query]
  | .take worker => [.take worker]
  | .look worker => [.look worker, .countFailure worker, .claimFailure worker]
  | .hear worker arrival =>
    [.hear worker arrival, .countFailure worker, .claimFailure worker]
  | .stop worker => [.stop worker]

/-- Lets an event happen, with nothing else in between. -/
def step (pool : Pool) (event : Event) : Pool := pool.play event.actions

/-- Lets events happen one after the other. -/
def run (pool : Pool) (events : List Event) : Pool := events.foldl step pool

/-- Takes in a query and offers it to all workers, with nothing else happening in between. -/
def forward (pool : Pool) (query : Bytes) : Pool :=
  pool.run (.enter query :: List.replicate pool.workers.length (.offer pool.queries.length))

/-- A run of events is what their actions come to, so what is shown of all actions holds of it. -/
theorem run_eq_play (pool : Pool) (events : List Event) :
    pool.run events = pool.play (events.flatMap Event.actions) := by
  induction events generalizing pool with
  | nil => rfl
  | cons event events ih =>
    rw [List.flatMap_cons, play, List.foldl_append]
    exact ih _

end Pool

end Nameserver

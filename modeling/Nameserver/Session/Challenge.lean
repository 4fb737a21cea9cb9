import Nameserver.Json.Reader
import Nameserver.Session.Message

/-!
# Challenge sessions

A client that wants challenges shown opens a session and sends requests.  Whatever a session had
registered is shown until the session ends, and no longer.

**One frame, one acknowledgement.**  `ChallengeListener.receive` answers every frame: a request that
passes the checks is registered as a whole, and anything else changes nothing.

**Actions.**  Sessions go on side by side, so what they do is described by single actions, each of
which touches the registry once.  A request that is granted first gets a number
(`ChallengeListener.grant`) and is then registered under it (`ChallengeListener.register`); other
sessions may do something in between.  An action that is not possible just then changes nothing, so
every list of actions is something that can happen.

**Ending.**  A session ends when its client hangs up or the service stops.  Its registrations are
then released one by one (`ChallengeListener.release`), and again others may come in between.
-/

namespace Nameserver

/-- A session of a client. -/
structure ChallengeSession where
  peer : IpAddress
  isOpen : Bool := true
  /-- What has a number and is about to be registered. -/
  granted? : Option Registration := none
  /-- What was registered and not released. -/
  held : List Registration := []
deriving DecidableEq, Repr

/-- All challenge sessions and what they have registered. -/
structure ChallengeListener where
  policy : ChallengePolicy
  registry : ChallengeRegistry := {}
  sessions : List ChallengeSession := []
deriving Repr

/-- An action of someone.  Anyone else may act before the next one. -/
inductive ChallengeListener.Action where
  | connect (peer : IpAddress)
  /-- A session looks at a frame, and gives the request a number if it is granted. -/
  | grant (session : Nat) (payload : Bytes)
  /-- A session registers the request that it has granted. -/
  | register (session : Nat)
  | finish (session : Nat)
  /-- A session releases the registration at some place of those that it holds. -/
  | release (session place : Nat)
deriving DecidableEq, Repr

/-- The request in a frame, if it may be granted to a peer. -/
def ChallengeRequest.ofFrame (policy : ChallengePolicy) (peer : IpAddress) (payload : Bytes) :
    Except Failure ChallengeRequest :=
  match (Json.parse? payload).bind ofJson? with
  | none => .error .invalidJson
  | some request => (request.check policy peer).map fun _ => request

namespace ChallengeListener

/-- The listener with a session changed. -/
def modifySession (listener : ChallengeListener) (session : Nat)
    (f : ChallengeSession → ChallengeSession) : ChallengeListener :=
  { listener with sessions := listener.sessions.modify session f }

/-- Opens a session, whose number is the number of sessions so far. -/
def connect (listener : ChallengeListener) (peer : IpAddress) : ChallengeListener :=
  { listener with sessions := listener.sessions ++ [{ peer }] }

/-- Looks at a frame of a session, and acknowledges it.  A request that is granted gets a number. -/
def grant (listener : ChallengeListener) (session : Nat) (payload : Bytes) :
    Option Ack × ChallengeListener :=
  match listener.sessions[session]? with
  | none => (none, listener)
  | some s =>
    if !s.isOpen || s.granted?.isSome then (none, listener)
    else match ChallengeRequest.ofFrame listener.policy s.peer payload with
      | .error failure => (some (.ofFailure failure), listener)
      | .ok request =>
        let (id, registry) := listener.registry.freshId
        (some .ok, { listener with registry }.modifySession session fun s =>
          { s with granted? := some ⟨id, request.challenges⟩ })

/-- Registers what a session has granted. -/
def register (listener : ChallengeListener) (session : Nat) : ChallengeListener :=
  match listener.sessions[session]? with
  | some { granted? := some registration, .. } =>
    { listener with
      registry := listener.registry.register registration.id registration.challenges }.modifySession
      session fun s => { s with granted? := none, held := s.held ++ [registration] }
  | _ => listener

/-- Takes a frame of a session with nobody coming in between, and acknowledges it. -/
def receive (listener : ChallengeListener) (session : Nat) (payload : Bytes) :
    Option Ack × ChallengeListener :=
  let (ack?, listener) := listener.grant session payload
  (ack?, listener.register session)

/-- Ends a session, unless it is about to register something.  It takes no more frames. -/
def finish (listener : ChallengeListener) (session : Nat) : ChallengeListener :=
  listener.modifySession session fun s =>
    if s.granted?.isSome then s else { s with isOpen := false }

/-- Releases the registration at some place of those that a session holds. -/
def release (listener : ChallengeListener) (session place : Nat) : ChallengeListener :=
  match listener.sessions[session]?.bind (·.held[place]?) with
  | some registration =>
    { listener with registry := listener.registry.release registration }.modifySession session
      fun s => { s with held := s.held.eraseIdx place }
  | none => listener

/-- Takes an action, if it is possible. -/
def act (listener : ChallengeListener) : Action → ChallengeListener
  | .connect peer => listener.connect peer
  | .grant session payload => (listener.grant session payload).2
  | .register session => listener.register session
  | .finish session => listener.finish session
  | .release session place => listener.release session place

/-- Takes actions one after the other. -/
def play (listener : ChallengeListener) (actions : List Action) : ChallengeListener :=
  actions.foldl act listener

/-- Ends a session and releases everything that it holds, oldest first. -/
def close (listener : ChallengeListener) (session : Nat) : ChallengeListener :=
  let held := match listener.sessions[session]? with
    | some s => s.held.length
    | none => 0
  listener.play (.finish session :: List.replicate held (.release session 0))

/-- The authority records of a name. -/
def issuerRecords (listener : ChallengeListener) (name : Text) : List Caa :=
  listener.registry.issuerRecords listener.policy.issuers name

end ChallengeListener

end Nameserver

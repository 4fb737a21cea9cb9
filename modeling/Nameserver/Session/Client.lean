import Nameserver.Session.Challenge
import Nameserver.Session.Connection
import Nameserver.Session.MailKey

/-!
# Clients of the private listeners

A client sends one document, and makes a success or a failure of what comes back.

**Failures.**  A listener that cannot be reached and a document too large for a frame are failures
of input and output.  An acknowledgement that says what is wrong is a refusal in these words, and so
is a connection that ends without one.
-/

namespace Nameserver

/-- Whether what is sent over a network arrives. -/
inductive Link where
  | up
  | down
deriving DecidableEq, Repr

namespace Client

/-- The frame in which a document is sent. -/
def request (document : Json) : Except Failure Bytes :=
  match Frame.encode? document.print with
  | some frame => .ok frame
  | none => .error .io

/-- What a frame that comes back means, or its absence at the end of the connection. -/
def outcome (payload? : Option Bytes) : Except Failure Unit :=
  match payload? with
  | none => .error (.rejected "connection closed".toList)
  | some payload =>
    match (Json.parse? payload).bind Ack.ofJson? with
    | none => .error .invalidJson
    | some { error? := none } => .ok ()
    | some { error? := some reason } => .error (.rejected reason)

/-- Sends a document over a new connection and waits for what comes back. -/
def converse {σ : Type} (link : Link) (handle : FrameHandler σ) (state : σ) (document : Json) :
    Except Failure Unit × Connection × σ :=
  match link, request document with
  | .down, _ => (.error .io, {}, state)
  | .up, .error failure => (.error failure, {}, state)
  | .up, .ok frame =>
    let (connection, state) := ({} : Connection).write handle frame state
    let (payload?, connection) := connection.read
    (outcome payload?, connection, state)

/-- Announces a mail key once. -/
def announce (link : Link) (registry : MailKeyRegistry) (now : Nat)
    (announcement : MailKeyAnnouncement) : Except Failure Unit × MailKeyRegistry :=
  let handle : FrameHandler MailKeyRegistry := fun registry payload =>
    let (ack, registry) := registry.receive now payload
    (some ack, registry)
  let (result, _, registry) := converse link handle registry announcement.toJson
  (result, registry)

end Client

end Nameserver

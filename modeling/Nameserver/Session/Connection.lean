import Nameserver.Json.Printer
import Nameserver.Session.Frame
import Nameserver.Session.Message

/-!
# Connections

The server's end of a private connection: what has arrived and not been taken, and what was sent and
not been read.  `Connection.serve` takes frame after frame off what has arrived and has each one
acknowledged before it looks at the next.

**When a connection ends.**  The peer may hang up, with or without a broken frame behind.  A frame
that is too large ends the connection, and so does an acknowledgement that is too large to be sent.
-/

namespace Nameserver

/-- The server's end of a connection. -/
structure Connection where
  /-- What has arrived and not been taken. -/
  received : Bytes := []
  /-- What was sent and not been read. -/
  unread : Bytes := []
  /-- Whether the server goes on with it. -/
  isOpen : Bool := true
deriving DecidableEq, Repr

/-- What someone does with the payload of a frame: an acknowledgement, or none if there is nobody
to take it. -/
abbrev FrameHandler (σ : Type) := σ → Bytes → Option Ack × σ

namespace Connection

/-- Ends the connection; what was sent may still be read. -/
def close (connection : Connection) : Connection := { connection with isOpen := false }

/-- Takes all frames that have arrived, one after the other. -/
def serve {σ : Type} (handle : FrameHandler σ) (connection : Connection) (state : σ) :
    Connection × σ :=
  if connection.isOpen then
    match _front : Frame.next connection.received with
    | .incomplete => (connection, state)
    | .oversized => (connection.close, state)
    | .frame payload received =>
      let (ack?, state) := handle state payload
      match ack?.bind fun ack => Frame.encode? ack.toJson.print with
      | none => ({ connection with received, isOpen := false }, state)
      | some frame =>
        serve handle { connection with received, unread := connection.unread ++ frame } state
  else (connection, state)
termination_by connection.received.length
decreasing_by exact Frame.length_rest_lt _front

/-- Takes in what the peer has sent.  After the end it is lost. -/
def write {σ : Type} (handle : FrameHandler σ) (connection : Connection) (bytes : Bytes)
    (state : σ) : Connection × σ :=
  if connection.isOpen then
    serve handle { connection with received := connection.received ++ bytes } state
  else (connection, state)

/-- The next frame for the peer, if there is one, and the connection once it has been read. -/
def read (connection : Connection) : Option Bytes × Connection :=
  match Frame.next connection.unread with
  | .frame payload unread => (some payload, { connection with unread })
  | _ => (none, connection)

end Connection

end Nameserver

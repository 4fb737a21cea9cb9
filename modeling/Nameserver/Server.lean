import Nameserver.Configuration
import Nameserver.Resolution

/-!
# Listening for queries

`Server.handle` decides what happens to one datagram: it is dropped, replied to, or handed to the
forwarding workers.

**Numbers.**  A server numbers the datagrams that reach it, malformed ones included.  The numbers
pick whose turn it is among several addresses.

**Forwarding.**  A query is forwarded if no zone holds its name, its client asks for recursion and
the configuration allows it for the client's address.  Any other query is answered at once, if only
by a refusal.
-/

namespace Nameserver

/-- What happens to a datagram. -/
inductive Disposition where
  | dropped
  | replied (reply : Bytes)
  /-- The forwarding workers take care of it. -/
  | forwarded
deriving DecidableEq, Repr

/-- The reply that the server itself sends to a datagram, given whether forwarding has left the
reply to it. -/
def Disposition.reply? (disposition : Disposition) (datagram : Bytes) (callerReplies : Bool) :
    Option Bytes :=
  match disposition with
  | .dropped => none
  | .replied reply => some reply
  | .forwarded => if callerReplies then errorReply? datagram .servFail else none

/-- A server at one address. -/
structure Server where
  config : Configuration
  /-- The number of the next datagram. -/
  nextQuery : UInt64 := 0
deriving Repr

namespace Server

/-- What happens to a datagram with this number. -/
def dispose (config : Configuration) (resolver : Resolver) (query : UInt64) (source : IpAddress)
    (datagram : Bytes) : Disposition :=
  match Request.parse datagram with
  | .error fault =>
    match fault.rcode?.bind (errorReply? datagram) with
    | some reply => .replied reply
    | none => .dropped
  | .ok request =>
    let mayForward := config.mayForward source
    if !resolver.isLocal request && request.header.recursionDesired && mayForward then .forwarded
    else .replied (resolver.respond request query mayForward)

/-- What happens to a datagram, and the server after it. -/
def handle (server : Server) (resolver : Resolver) (source : IpAddress) (datagram : Bytes) :
    Disposition × Server :=
  (dispose server.config resolver server.nextQuery source datagram,
    { server with nextQuery := server.nextQuery + 1 })

/-- What happens to a datagram that arrives, of which only so much counts as fits into the
buffer. -/
def receive (server : Server) (resolver : Resolver) (source : IpAddress) (datagram : Bytes) :
    Disposition × Server :=
  server.handle resolver source (datagram.take bufferSize)

end Server

end Nameserver

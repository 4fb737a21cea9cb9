import Nameserver.Failure
import Nameserver.Message.Header
import Nameserver.Message.Reader

/-!
# Exchanges with a forwarder

A query is sent to a forwarder over a socket that is kept from one exchange to the next, so what
arrives may be a late answer to an earlier query.  `Exchange.run` says how an exchange ends.

**Telling answers apart.**  A datagram belongs to the query if it carries the query's id and its
question, octet for octet.  Everything else is thrown away and the wait goes on.

**Good and bad answers.**  An answer that says that the forwarder could not or would not answer is a
failure, as is an answer that does not come in time.  Every other answer is handed on as it is.
-/

namespace Nameserver

/-- What comes of waiting at a socket. -/
inductive Arrival where
  | datagram (bytes : Bytes)
  /-- Nothing, until the time is up. -/
  | timeout
  | broken
deriving DecidableEq, Repr

namespace Exchange

/-- The question of a message as it stands there: everything from the end of the header to the end
of the first question. -/
def question? (message : Bytes) : Option Bytes :=
  let pass : Read Unit := do
    let _ ← Read.wireName
    Read.skip 4
  match pass { message, offset := headerSize } with
  | .ok _ r => some ((message.take r.offset).drop headerSize)
  | .error _ _ => none

/-- Whether a datagram has the id and the question of a query. -/
def belongs (query datagram : Bytes) : Bool :=
  Header.idOf? datagram = Header.idOf? query && question? datagram = question? query

/-- The response code of an answer; an answer without a complete header counts as malformed. -/
def rcodeOf (answer : Bytes) : UInt8 :=
  match Header.decode answer with
  | .ok header => header.rcode
  | .error _ => Rcode.formErr.code

/-- What an answer that belongs to the query is worth. -/
def judge (forwarder : SocketAddress) (answer : Bytes) : Except Failure Bytes :=
  let rcode := rcodeOf answer
  if rcode = Rcode.servFail.code ∨ rcode = Rcode.refused.code then
    .error (.forwarderRejected forwarder rcode)
  else .ok answer

/-- How an exchange ends with an arrival, or `none` if the wait goes on.  Only so much of a datagram
counts as fits into the buffer. -/
def ending? (forwarder : SocketAddress) (query : Bytes) : Arrival → Option (Except Failure Bytes)
  | .datagram bytes =>
    let received := bytes.take bufferSize
    if belongs query received then some (judge forwarder received) else none
  | .timeout => some (.error (.forwarderTimeout forwarder))
  | .broken => some (.error .io)

/-- How an exchange ends that meets with these arrivals, and the arrivals it leaves to the next one.
There is no result if none of them ends it. -/
def run (forwarder : SocketAddress) (query : Bytes) :
    List Arrival → Option (Except Failure Bytes × List Arrival)
  | [] => none
  | arrival :: rest =>
    match ending? forwarder query arrival with
    | some result => some (result, rest)
    | none => run forwarder query rest

end Exchange

end Nameserver

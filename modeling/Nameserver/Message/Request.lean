import Nameserver.Message.Header
import Nameserver.Message.Question

/-!
# Requests

`Request.parse` reads a query datagram: a header with exactly one question, the question, and any
records behind it.  Records are passed over, except that an extension record among the additional
ones advertises how large a response may be.  Octets behind the last record are ignored.

The order of the checks decides which fault is reported when there are several: header, question,
class, then the records one by one.
-/

namespace Nameserver

/-- A query. -/
structure Request where
  header : Header
  question : Question
  /-- The response size that the client advertised, if it did. -/
  payload? : Option UInt16 := none
deriving DecidableEq, Repr

namespace Request

/-- Reads the fixed part of a record and passes over its data. -/
def passRecord : Read RecordHeader := do
  let record ← RecordHeader.decode
  Read.skip record.dataSize.toNat
  return record

/-- Passes over `n` records. -/
def passRecords : (n : Nat) → Read Unit
  | 0 => return ()
  | n + 1 => do
    let _ ← passRecord
    passRecords n

/-- The advertised size after one more additional record. -/
def advertise (payload? : Option UInt16) (record : RecordHeader) :
    Except Fault (Option UInt16) :=
  if record.type ≠ RecordType.opt then .ok payload?
  else if payload?.isSome then .error .duplicateOpt
  else if !record.name.isEmpty then .error .namedOpt
  else if record.recordClass.toNat < defaultLimit then .error (.smallPayload record.recordClass)
  else .ok (some record.recordClass)

/-- Reads `n` additional records and the size they advertise. -/
def readAdditionals (payload? : Option UInt16) : (n : Nat) → Read (Option UInt16)
  | 0 => return payload?
  | n + 1 => do
    let record ← passRecord
    match advertise payload? record with
    | .ok payload? => readAdditionals payload? n
    | .error fault => throw fault

/-- Reads what follows a header that promises a query. -/
def body (header : Header) : Read Request := do
  let question ← Question.decode
  if question.recordClass ≠ classInternet then throw (.unsupportedClass question.recordClass)
  passRecords (header.answers.toNat + header.authorities.toNat)
  let payload? ← readAdditionals none header.additionals.toNat
  return { header, question, payload? }

/-- Reads a query, or tells the first fault that it has. -/
def parse (datagram : Bytes) : Except Fault Request :=
  match Header.decode datagram with
  | .error fault => .error fault
  | .ok header =>
    if header.isResponse then .error .notAQuery
    else if header.opcode ≠ 0 then .error (.opcode header.opcode)
    else if header.questions ≠ 1 then .error (.questionCount header.questions)
    else (body header).value { message := datagram, offset := headerSize }

/-- The most octets a response to this request may have. -/
def limit (request : Request) : Nat :=
  match request.payload? with
  | none => defaultLimit
  | some size => min (max size.toNat defaultLimit) bufferSize

end Request

/-- A reply that is only a header, for a datagram that cannot be answered otherwise.  It echoes what
is left of the datagram's header: the id, and the operation and the wish for recursion if the header
is complete. -/
def errorReply? (datagram : Bytes) (rcode : Rcode) : Option Bytes :=
  (Header.idOf? datagram).map fun id =>
    let header := match Header.decode datagram with
      | .ok request => Header.responseTo request
      | .error _ => { id, isResponse := true }
    (header.withRcode rcode).encode

end Nameserver

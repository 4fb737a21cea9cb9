import Nameserver.Text.Basic

/-!
# Vocabulary of DNS messages

Record types, response codes, numbers on the wire, and the reasons for which a datagram is not a
query that can be answered.

**Faults.**  A `Fault` says what is wrong and where.  `Fault.rcode?` decides what the sender is
told: nothing at all when the datagram has no id or is itself a response, otherwise that the request
is not implemented or not well-formed.
-/

namespace Nameserver

/-- The size of the message header. -/
def headerSize : Nat := 12

/-- The most octets of a response to a client that did not advertise a size. -/
def defaultLimit : Nat := 512

/-- The size of the receive buffer, and the most octets of any response. -/
def bufferSize : Nat := 4096

/-- The class of all records that the server has. -/
def classInternet : UInt16 := 1

/-- A number of 16 bits, high octet first. -/
def encode16 (n : UInt16) : Bytes := [(n >>> 8).toUInt8, n.toUInt8]

/-- A number of 32 bits, high octet first. -/
def encode32 (n : UInt32) : Bytes :=
  [(n >>> 24).toUInt8, (n >>> 16).toUInt8, (n >>> 8).toUInt8, n.toUInt8]

/-- The number that octets stand for, high octet first. -/
def decodeNat (bytes : Bytes) : Nat := bytes.foldl (fun n b => n * 256 + b.toNat) 0

/-- A response code that this server sends. -/
inductive Rcode where
  | noError
  | formErr
  /-- The server could not work the query out. -/
  | servFail
  | nxDomain
  /-- The kind of query is not supported. -/
  | notImp
  /-- The server does not answer this client or this name. -/
  | refused
deriving DecidableEq, Repr

namespace Rcode

/-- The code on the wire. -/
def code : Rcode → UInt8
  | .noError => 0
  | .formErr => 1
  | .servFail => 2
  | .nxDomain => 3
  | .notImp => 4
  | .refused => 5

/-- The response code with this number, if the server knows it. -/
def ofCode? (n : UInt8) : Option Rcode :=
  [noError, formErr, servFail, nxDomain, notImp, refused].find? fun r => r.code == n

/-- Every response code is found under its number. -/
theorem ofCode?_code (r : Rcode) : ofCode? r.code = some r := by cases r <;> rfl

end Rcode

/-- The type of a record.  Types without a name of their own are carried along as numbers. -/
structure RecordType where
  code : UInt16
deriving DecidableEq, Repr

namespace RecordType

/-- Version 4 addresses. -/
def a : RecordType := ⟨1⟩

/-- Name servers. -/
def ns : RecordType := ⟨2⟩

/-- Aliases. -/
def cname : RecordType := ⟨5⟩

/-- The start of a zone. -/
def soa : RecordType := ⟨6⟩

/-- Mail exchanges. -/
def mx : RecordType := ⟨15⟩

/-- Texts. -/
def txt : RecordType := ⟨16⟩

/-- The pseudo record of the extension mechanism. -/
def opt : RecordType := ⟨41⟩

/-- Certification authorities that may issue. -/
def caa : RecordType := ⟨257⟩

/-- The mnemonic of a type, or `TYPE` and its number. -/
def text (t : RecordType) : String :=
  if t = a then "A"
  else if t = ns then "NS"
  else if t = cname then "CNAME"
  else if t = soa then "SOA"
  else if t = mx then "MX"
  else if t = txt then "TXT"
  else if t = opt then "OPT"
  else if t = caa then "CAA"
  else s!"TYPE{t.code}"

end RecordType

/-- Why a datagram is not a query that can be answered. -/
inductive Fault where
  | noId
  /-- There is an id but no complete header. -/
  | shortHeader
  | notAQuery
  /-- A read that began at this offset ran past the end. -/
  | unexpectedEnd (offset : Nat)
  /-- The label at this offset contains a dot. -/
  | dotInLabel (offset : Nat)
  /-- The operation is not a standard query. -/
  | opcode (code : UInt8)
  /-- There is not exactly one question. -/
  | questionCount (count : UInt16)
  /-- The class of the question is not Internet. -/
  | unsupportedClass (code : UInt16)
  | duplicateOpt
  /-- The extension record belongs to a name other than the root. -/
  | namedOpt
  /-- The advertised size is below the default. -/
  | smallPayload (size : UInt16)
deriving DecidableEq, Repr

namespace Fault

/-- What the sender is told, or `none` when the datagram is dropped. -/
def rcode? : Fault → Option Rcode
  | .noId | .notAQuery => none
  | .opcode _ | .questionCount _ | .unsupportedClass _ => some .notImp
  | _ => some .formErr

/-- The words for a fault, in logs. -/
def message : Fault → String
  | .noId => "message too short to carry a transaction id"
  | .shortHeader => s!"message shorter than the {headerSize} byte header"
  | .notAQuery => "message is a response, not a query"
  | .unexpectedEnd offset => s!"unexpected end of message at offset {offset}"
  | .dotInLabel offset => s!"label at offset {offset} contains a '.'"
  | .opcode code => s!"unsupported opcode {code}"
  | .questionCount count => s!"expected exactly one question, found {count}"
  | .unsupportedClass code => s!"unsupported class {code}"
  | .duplicateOpt => "more than one OPT record"
  | .namedOpt => "OPT record with a non-root owner name"
  | .smallPayload size => s!"advertised UDP payload size {size} is below {defaultLimit}"

end Fault

end Nameserver

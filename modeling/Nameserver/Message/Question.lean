import Nameserver.Message.Reader
import Nameserver.Name

/-!
# Questions and record headers

**Two names.**  A `Question` holds the name twice: lowered, for look-ups, and as the octets that the
client sent, so that a response can echo them exactly.

A `RecordHeader` is the fixed part of a record.  The data behind it is left to the caller, who
usually passes over it.
-/

namespace Nameserver

/-- A question. -/
structure Question where
  /-- The name with ASCII letters in lower case. -/
  name : Text
  /-- The name as it stands on the wire. -/
  wireName : Bytes
  type : RecordType
  recordClass : UInt16 := classInternet
deriving DecidableEq, Repr

namespace Question

/-- The question for a name. -/
def ofName (name : Text) (type : RecordType) : Question :=
  { name := Text.normalize name, wireName := Name.encode name, type }

/-- Reads a question.  A dot inside a label is reported by its offset in the name. -/
def decode : Read Question := do
  let wireName ← Read.wireName
  let name ← match Read.name.value { message := wireName } with
    | .ok name => pure name
    | .error fault => throw fault
  let type ← Read.uint16
  let recordClass ← Read.uint16
  return { name := name.lower, wireName, type := ⟨type⟩, recordClass }

/-- The octets a question takes. -/
def size (q : Question) : Nat := q.wireName.length + 4

/-- The octets of a question, with the name as it was asked. -/
def encode (q : Question) : Bytes := q.wireName ++ encode16 q.type.code ++ encode16 q.recordClass

end Question

/-- The fixed part of a record. -/
structure RecordHeader where
  /-- The owner with ASCII letters in lower case. -/
  name : Text
  type : RecordType
  recordClass : UInt16
  /-- How long the record may be kept, in seconds. -/
  ttl : UInt32
  /-- The octets of data behind this header. -/
  dataSize : UInt16
deriving DecidableEq, Repr

namespace RecordHeader

/-- Reads the fixed part of a record. -/
def decode : Read RecordHeader := do
  let name ← Read.name
  let type ← Read.uint16
  let recordClass ← Read.uint16
  let ttl ← Read.uint32
  let dataSize ← Read.uint16
  return { name := name.lower, type := ⟨type⟩, recordClass, ttl, dataSize }

/-- Writes the fixed part of a record. -/
def encode (r : RecordHeader) : Bytes :=
  Name.encode r.name ++ encode16 r.type.code ++ encode16 r.recordClass ++ encode32 r.ttl ++
    encode16 r.dataSize

end RecordHeader

end Nameserver

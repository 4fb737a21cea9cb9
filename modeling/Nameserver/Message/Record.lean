import Nameserver.Message.Question
import Nameserver.Net.Address

/-!
# Records

What a response may hold.  `RecordData.size` tells the octets of a record's data before they are
written, and `Record.size` those of the whole record.

**Texts.**  A text is written as character strings of at most 255 octets, each behind its length;
the empty text is one empty string.

**Cuts.**  The data size and the length of a tag are written in 16 and 8 bits, so that a value too
large for them loses its high bits.  Responses are too small for the first to matter, and tags are
short words.
-/

namespace Nameserver

/-- A certification authority record. -/
structure Caa where
  flags : UInt8
  /-- What the record says about issuing. -/
  tag : Text
  value : Text
deriving DecidableEq, Repr

namespace Caa

/-- Allows one authority to issue. -/
def issue (issuer : Text) : Caa := { flags := 0, tag := "issue".toList, value := issuer }

/-- Allows no authority to issue. -/
def denyAll : Caa := issue [';']

end Caa

/-- The data of a start-of-zone record. -/
structure Soa where
  primary : Text
  /-- The mailbox of the administrator, in the form of a name. -/
  mailbox : Text
  serial : UInt32
  refresh : UInt32
  retry : UInt32
  /-- Seconds until the data is given up. -/
  expire : UInt32
  /-- Seconds for which a missing name is remembered. -/
  minimum : UInt32
deriving DecidableEq, Repr

/-- The data of a record. -/
inductive RecordData where
  | a (address : Ipv4Address)
  | ns (host : Text)
  /-- The name that an alias stands for. -/
  | cname (target : Text)
  | soa (start : Soa)
  | mx (preference : UInt16) (exchange : Text)
  | txt (text : Text)
  | caa (entry : Caa)
deriving DecidableEq, Repr

namespace RecordData

/-- The type under which the data is kept. -/
def type : RecordData → RecordType
  | .a _ => RecordType.a
  | .ns _ => RecordType.ns
  | .cname _ => RecordType.cname
  | .soa _ => RecordType.soa
  | .mx _ _ => RecordType.mx
  | .txt _ => RecordType.txt
  | .caa _ => RecordType.caa

/-- The most octets of a character string. -/
def maxString : Nat := 255

/-- The character strings of the octets after passing over `skip` of them. -/
def stringsAfter : (skip : Nat) → Bytes → List Bytes
  | _, [] => []
  | skip + 1, _ :: rest => stringsAfter skip rest
  | 0, b :: rest => (b :: rest.take (maxString - 1)) :: stringsAfter (maxString - 1) rest

/-- The character strings of a text. -/
def strings (text : Bytes) : List Bytes := if text.isEmpty then [[]] else stringsAfter 0 text

/-- The octets that the data takes. -/
def size : RecordData → Nat
  | .a _ => 4
  | .ns name | .cname name => Name.size name
  | .soa start => Name.size start.primary + Name.size start.mailbox + 20
  | .mx _ exchange => 2 + Name.size exchange
  | .txt text => Utf8.size text + (strings (Utf8.encode text)).length
  | .caa entry => 2 + Utf8.size entry.tag + Utf8.size entry.value

/-- The octets of the data. -/
def encode : RecordData → Bytes
  | .a address => address.octets
  | .ns name | .cname name => Name.encode name
  | .soa start =>
    Name.encode start.primary ++ Name.encode start.mailbox ++
      [start.serial, start.refresh, start.retry, start.expire, start.minimum].flatMap encode32
  | .mx preference exchange => encode16 preference ++ Name.encode exchange
  | .txt text => (strings (Utf8.encode text)).flatMap fun s => UInt8.ofNat s.length :: s
  | .caa entry =>
    entry.flags :: UInt8.ofNat (Utf8.size entry.tag) ::
      (Utf8.encode entry.tag ++ Utf8.encode entry.value)

end RecordData

/-- A record ready to be written.  The owner is in wire form, so that the name of a question can be
echoed octet for octet. -/
structure Record where
  /-- The owner as it stands on the wire. -/
  owner : Bytes
  /-- How long the record may be kept, in seconds. -/
  ttl : UInt32
  data : RecordData
deriving DecidableEq, Repr

namespace Record

/-- The octets that the record takes. -/
def size (r : Record) : Nat := r.owner.length + 10 + r.data.size

/-- The octets of a record, which tell the size of its data. -/
def encode (r : Record) : Bytes :=
  r.owner ++ encode16 r.data.type.code ++ encode16 classInternet ++ encode32 r.ttl ++
    encode16 (UInt16.ofNat r.data.size) ++ r.data.encode

end Record

end Nameserver

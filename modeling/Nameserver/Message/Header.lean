import Nameserver.Message.Basic

/-!
# Message headers

The twelve octets at the front of a message, with the flags of octets two and three unpacked.  The
three reserved bits are not kept, and an operation or response code is four bits wide on the wire,
whatever the field holds.
-/

namespace Nameserver

/-- The header of a message. -/
structure Header where
  id : UInt16 := 0
  /-- Whether the message is a response. -/
  isResponse : Bool := false
  /-- The operation; zero for a standard query. -/
  opcode : UInt8 := 0
  /-- Whether the answer comes from the data of a zone. -/
  authoritative : Bool := false
  truncated : Bool := false
  /-- Whether the client wants other servers asked. -/
  recursionDesired : Bool := false
  /-- Whether the server would ask other servers. -/
  recursionAvailable : Bool := false
  rcode : UInt8 := 0
  questions : UInt16 := 0
  answers : UInt16 := 0
  authorities : UInt16 := 0
  additionals : UInt16 := 0
deriving DecidableEq, Repr

namespace Header

/-- The number of 16 bits in two octets. -/
def word (high low : UInt8) : UInt16 := high.toUInt16 <<< 8 ||| low.toUInt16

/-- The transaction id, if the message is long enough to hold one. -/
def idOf? : Bytes → Option UInt16
  | high :: low :: _ => some (word high low)
  | _ => none

/-- Reads the header at the front of a message. -/
def decode : Bytes → Except Fault Header
  | i₁ :: i₂ :: f :: g :: q₁ :: q₂ :: a₁ :: a₂ :: n₁ :: n₂ :: r₁ :: r₂ :: _ =>
    .ok
      { id := word i₁ i₂
        isResponse := f &&& 0x80 != 0
        opcode := f >>> 3 &&& 0x0F
        authoritative := f &&& 0x04 != 0
        truncated := f &&& 0x02 != 0
        recursionDesired := f &&& 0x01 != 0
        recursionAvailable := g &&& 0x80 != 0
        rcode := g &&& 0x0F
        questions := word q₁ q₂
        answers := word a₁ a₂
        authorities := word n₁ n₂
        additionals := word r₁ r₂ }
  | _ :: _ :: _ => .error .shortHeader
  | _ => .error .noId

/-- The octet with one bit set if `b` holds. -/
def bit (b : Bool) (mask : UInt8) : UInt8 := if b then mask else 0

/-- The octets of a header.  Of operation and response code four bits are written. -/
def encode (h : Header) : Bytes :=
  let flags := (h.opcode &&& 0x0F) <<< 3 ||| bit h.isResponse 0x80 ||| bit h.authoritative 0x04 |||
    bit h.truncated 0x02 ||| bit h.recursionDesired 0x01
  let codes := h.rcode &&& 0x0F ||| bit h.recursionAvailable 0x80
  encode16 h.id ++ [flags, codes] ++ encode16 h.questions ++ encode16 h.answers ++
    encode16 h.authorities ++ encode16 h.additionals

/-- A response to a request: same id, operation and wish for recursion, and nothing counted yet. -/
def responseTo (request : Header) : Header :=
  { id := request.id
    isResponse := true
    opcode := request.opcode
    recursionDesired := request.recursionDesired }

/-- The header with a response code. -/
def withRcode (h : Header) (r : Rcode) : Header := { h with rcode := r.code }

/-- A header always takes twelve octets. -/
theorem length_encode (h : Header) : h.encode.length = headerSize := rfl

end Header

end Nameserver

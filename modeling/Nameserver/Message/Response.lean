import Nameserver.Message.Header
import Nameserver.Message.Record

/-!
# Responses

A `Draft` is a response part way through.  It never grows past its limit: whatever is to be added
is measured first, and if it does not fit it is left out and the response is marked truncated.

**Truncation sticks.**  Once something was left out, every later question and record is left out as
well, even one that would fit, so the records of a truncated response are the first ones of the
complete one.

**Reserved room.**  Room for the extension record is set aside before anything is added and given
back when that record is added (`Draft.addOpt`), which is not stopped by truncation.  The room is
counted in 64 bits and starts over from zero beyond that, while giving back stops at zero.

The counts of the header go up only with what is really added.
-/

namespace Nameserver

/-- The octets of an extension record without options. -/
def optSize : Nat := 11

/-- The sections of records, in their order. -/
inductive Section where
  | answer
  /-- Records about the authority for the answer. -/
  | authority
  | additional
deriving DecidableEq, Repr

namespace Section

/-- The header with one more record counted in a section. -/
def countIn (s : Section) (h : Header) : Header :=
  match s with
  | .answer => { h with answers := h.answers + 1 }
  | .authority => { h with authorities := h.authorities + 1 }
  | .additional => { h with additionals := h.additionals + 1 }

end Section

/-- A response part way through. -/
structure Draft where
  header : Header
  body : Bytes := []
  /-- The most octets of the response. -/
  limit : Nat
  /-- The octets set aside at its end. -/
  reserved : UInt64 := 0
deriving DecidableEq, Repr

namespace Draft

/-- A response with this header and nothing behind it. -/
def empty (header : Header) (limit : Nat) : Draft :=
  { header :=
      { header with
        questions := 0, answers := 0, authorities := 0, additionals := 0, truncated := false }
    limit }

/-- The octets of the response so far. -/
def size (d : Draft) : Nat := headerSize + d.body.length

/-- Sets aside octets at the end. -/
def reserve (d : Draft) (n : UInt64) : Draft := { d with reserved := d.reserved + n }

/-- The draft with a response code. -/
def withRcode (d : Draft) (r : Rcode) : Draft := { d with header := d.header.withRcode r }

/-- The draft marked as answered from the data of a zone, or not. -/
def withAuthoritative (d : Draft) (b : Bool) : Draft :=
  { d with header := { d.header with authoritative := b } }

/-- The draft marked as one that lacks something. -/
def truncate (d : Draft) : Draft := { d with header := { d.header with truncated := true } }

/-- Whether `n` more octets may be added. -/
def fits (d : Draft) (n : Nat) : Bool :=
  !d.header.truncated && decide (d.size + n ≤ d.limit - d.reserved.toNat)

/-- Adds octets of which `n` were announced and counts them, or marks the draft as truncated.  Says
whether they were added. -/
def add (d : Draft) (n : Nat) (octets : Bytes) (count : Header → Header) : Bool × Draft :=
  if d.fits n then (true, { d with header := count d.header, body := d.body ++ octets })
  else (false, d.truncate)

/-- Adds a question, which stands in front of all records. -/
def addQuestion (d : Draft) (q : Question) : Bool × Draft :=
  d.add q.size q.encode fun h => { h with questions := h.questions + 1 }

/-- Adds a record to a section. -/
def addRecord (d : Draft) (s : Section) (r : Record) : Bool × Draft :=
  d.add r.size r.encode s.countIn

/-- Adds a record to the answers. -/
def addAnswer (d : Draft) (r : Record) : Bool × Draft := d.addRecord .answer r

/-- The extension record that advertises a size. -/
def optRecord (payload : UInt16) : RecordHeader :=
  { name := [], type := RecordType.opt, recordClass := payload, ttl := 0, dataSize := 0 }

/-- Gives back the room of the extension record and adds it, if it fits the limit. -/
def addOpt (d : Draft) (payload : UInt16) : Bool × Draft :=
  let d := { d with reserved := UInt64.ofNat (d.reserved.toNat - optSize) }
  if d.limit < d.size + optSize then (false, d.truncate)
  else
    (true,
      { d with
        header := Section.additional.countIn d.header
        body := d.body ++ (optRecord payload).encode })

/-- The message that was drafted. -/
def finish (d : Draft) : Bytes := d.header.encode ++ d.body

end Draft

end Nameserver

import Nameserver.Text.Utf8

/-!
# Domain names on the wire

A name is a text with dots between its labels.  On the wire it is its labels, each behind its
length, and a zero octet; names are never compressed.

**Empty labels and long labels.**  Writing drops empty parts, so the root is the empty text as well
as a lone dot, and cuts a label to its first 63 octets.  Configured names are checked before they
come here, but a name from elsewhere may need the cut, which can fall inside a character.

The size of a name is known before it is written (`Name.size`), which lets a response be
measured before anything is added to it.
-/

namespace Nameserver.Name

/-- The most octets a label may have. -/
def maxLabel : Nat := 63

/-- The most octets a configured name may have on the wire. -/
def maxSize : Nat := 255

/-- The labels of a name as they are written. -/
def labels (name : Text) : List Bytes :=
  ((Text.parts name).filter fun part => !part.isEmpty).map fun part =>
    (Utf8.encode part).take maxLabel

/-- The octets a name takes on the wire. -/
def size (name : Text) : Nat := (labels name).foldr (fun label n => label.length + 1 + n) 1

/-- One label behind its length. -/
def encodeLabel (label : Bytes) : Bytes := UInt8.ofNat label.length :: label

/-- The wire form of a name. -/
def encode (name : Text) : Bytes := (labels name).flatMap encodeLabel ++ [0]

end Nameserver.Name

import Nameserver.Net.Reader

/-!
# Networks

A network is an address together with the number of leading bits that its members share with it.
The address is kept as it was given, host bits included, because that is how the network is shown.

**Written form.**  `address/length`; without a length the network holds the one address.  The
length may carry a plus sign and leading zeros.  A version 4 network may give a netmask instead,
which must be ones followed by zeros.
-/

namespace Nameserver

/-- A set of addresses that share their leading bits. -/
inductive Network where
  /-- The version 4 addresses that share `length` bits with `address`. -/
  | v4 (address : Ipv4Address) (length : Nat)
  /-- The version 6 addresses that share `length` bits with `address`. -/
  | v6 (address : Ipv6Address) (length : Nat)
deriving DecidableEq, Repr

namespace Network

/-- Membership; the two versions never mix. -/
def contains : Network → IpAddress → Bool
  | .v4 address length, .v4 ip => address.bits >>> (32 - length) == ip.bits >>> (32 - length)
  | .v6 address length, .v6 ip => address.bits >>> (128 - length) == ip.bits >>> (128 - length)
  | _, _ => false

/-- The address and the length. -/
def text : Network → Text
  | .v4 address length => address.text ++ '/' :: Text.ofNat length
  | .v6 address length => address.text ++ '/' :: Text.ofNat length

/-- Reads a length of at most `most` bits. -/
def length? (most : Nat) (t : Text) : Option Nat :=
  let digits := match t with
    | '+' :: rest => rest
    | _ => t
  match Net.whole? (Net.number 10 255 none true) digits with
  | some n => if n ≤ most then some n else none
  | none => none

/-- The length that a netmask stands for. -/
def maskLength? (mask : Ipv4Address) : Option Nat :=
  (List.range 33).find? fun n => mask.bits == (BitVec.allOnes 32) <<< (32 - n)

/-- Reads the part after the slash of a version 4 network. -/
def length4? (t : Text) : Option Nat :=
  match Ipv4Address.ofText? t with
  | some mask => maskLength? mask
  | none => length? 32 t

/-- The text before the first slash and, if there is one, the text after it. -/
def cut (t : Text) : Text × Option Text :=
  match t.dropWhile (· != '/') with
  | [] => (t, none)
  | _ :: after => (t.takeWhile (· != '/'), some after)

/-- Reads an address with a length or, for version 4, a mask behind a slash.  An address alone is a
network of its own. -/
def ofText? (t : Text) : Option Network :=
  match cut t with
  | (address, none) =>
    match IpAddress.ofText? address with
    | some (.v4 a) => some (.v4 a 32)
    | some (.v6 a) => some (.v6 a 128)
    | none => none
  | (address, some after) =>
    match IpAddress.ofText? address with
    | some (.v4 a) => (length4? after).map (.v4 a)
    | some (.v6 a) => (length? 128 after).map (.v6 a)
    | none => none

end Network

end Nameserver

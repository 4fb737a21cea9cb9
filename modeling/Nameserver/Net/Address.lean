import Nameserver.Text.Basic

/-!
# Addresses

Internet addresses, socket addresses, and how both are written.

* `Ipv4Address` and `Ipv6Address` are 32 and 128 bits, `IpAddress` is one of the two.
* `SocketAddress` adds a port and, for version 6, a scope number that is written only when it is
  not zero.

**Writing version 6.**  Groups are hexadecimal without leading zeros.  The first of the longest
runs of zero groups becomes `::` when it holds two groups or more.  An address that maps a version
4 address shows it in dotted form (`Ipv6Address.mapped?`).
-/

namespace Nameserver

/-- A version 4 address. -/
structure Ipv4Address where
  /-- The address as a number, first octet highest. -/
  bits : BitVec 32
deriving DecidableEq, Repr

/-- A version 6 address. -/
structure Ipv6Address where
  /-- The address as a number, first group highest. -/
  bits : BitVec 128
deriving DecidableEq, Repr

/-- An address of either version. -/
inductive IpAddress where
  | v4 (address : Ipv4Address)
  | v6 (address : Ipv6Address)
deriving DecidableEq, Repr

/-- An address with a port. -/
structure SocketAddress where
  ip : IpAddress
  port : UInt16
  /-- The scope number of a version 6 address, zero for none. -/
  scope : UInt32 := 0
deriving DecidableEq, Repr

namespace Ipv4Address

/-- The address with these four octets. -/
def ofOctets (a b c d : UInt8) : Ipv4Address :=
  ⟨a.toBitVec ++ b.toBitVec ++ c.toBitVec ++ d.toBitVec⟩

/-- The octets, first one first. -/
def octets (ip : Ipv4Address) : Bytes :=
  [⟨ip.bits.extractLsb' 24 8⟩, ⟨ip.bits.extractLsb' 16 8⟩, ⟨ip.bits.extractLsb' 8 8⟩,
    ⟨ip.bits.extractLsb' 0 8⟩]

/-- The octets in decimal with dots between them. -/
def text (ip : Ipv4Address) : Text := Text.join (ip.octets.map fun b => Text.ofNat b.toNat)

/-- The addresses of the host itself, `127.0.0.0/8`. -/
def isLoopback (ip : Ipv4Address) : Bool := ip.bits >>> 24 == 127#32

/-- The private addresses: `10.0.0.0/8`, `172.16.0.0/12` and `192.168.0.0/16`. -/
def isPrivate (ip : Ipv4Address) : Bool :=
  ip.bits >>> 24 == 10#32 || ip.bits >>> 20 == 0xAC1#32 || ip.bits >>> 16 == 0xC0A8#32

end Ipv4Address

namespace Ipv6Address

/-- The address with these groups of sixteen bits; missing groups count as zero. -/
def ofGroups (groups : List Nat) : Ipv6Address :=
  ⟨BitVec.ofNat 128 ((groups ++ List.replicate (8 - groups.length) 0).foldl
    (fun n g => n * 65536 + g) 0)⟩

/-- The eight groups of sixteen bits. -/
def groups (ip : Ipv6Address) : List Nat :=
  [112, 96, 80, 64, 48, 32, 16, 0].map fun shift => (ip.bits.extractLsb' shift 16).toNat

/-- The version 4 address that this address maps, for addresses in `::ffff:0:0/96`. -/
def mapped? (ip : Ipv6Address) : Option Ipv4Address :=
  if ip.bits >>> 32 == 0xFFFF#128 then some ⟨ip.bits.setWidth 32⟩ else none

/-- The address of the host itself, `::1`. -/
def isLoopback (ip : Ipv6Address) : Bool := ip.bits == 1#128

/-- The unique local addresses, `fc00::/7`. -/
def isUniqueLocal (ip : Ipv6Address) : Bool := ip.bits >>> 121 == 0x7E#128

/-- The first of the longest runs of zeros, as its start and length. -/
def longestZeroRun (groups : List Nat) : Nat × Nat :=
  go 0 (0, 0) (0, 0) groups
where
  /-- Walks on from index `i` with the longest run so far and the run that ends here. -/
  go (i : Nat) (longest current : Nat × Nat) : List Nat → Nat × Nat
    | [] => longest
    | g :: rest =>
      if g = 0 then
        let current := if current.2 = 0 then (i, 1) else (current.1, current.2 + 1)
        go (i + 1) (if longest.2 < current.2 then current else longest) current rest
      else go (i + 1) longest (0, 0) rest

/-- Groups in hexadecimal with colons between them. -/
def groupsText (groups : List Nat) : Text :=
  [':'].intercalate (groups.map (Nat.toDigits 16))

/-- The groups in hexadecimal with `::` for the longest run of zeros.  A mapped version 4 address is
written as one. -/
def text (ip : Ipv6Address) : Text :=
  match ip.mapped? with
  | some v4 => "::ffff:".toList ++ v4.text
  | none =>
    let groups := ip.groups
    let (start, length) := longestZeroRun groups
    if 1 < length then
      groupsText (groups.take start) ++ [':', ':'] ++ groupsText (groups.drop (start + length))
    else groupsText groups

end Ipv6Address

namespace IpAddress

/-- The address as it is written. -/
def text : IpAddress → Text
  | .v4 ip => ip.text
  | .v6 ip => ip.text

/-- The address that counts for access rules.  A socket that serves both versions reports version
4 peers under their mapped version 6 address, so a mapped address counts as version 4. -/
def canonical : IpAddress → IpAddress
  | .v4 ip => .v4 ip
  | .v6 ip => match ip.mapped? with
    | some inner => .v4 inner
    | none => .v6 ip

/-- Whether a listener without authentication of its own may be bound here: loopback or private
for version 4, loopback or unique local for version 6. -/
def isPrivate : IpAddress → Bool
  | .v4 ip => ip.isLoopback || ip.isPrivate
  | .v6 ip => ip.isLoopback || ip.isUniqueLocal

end IpAddress

/-- The address and port as they are written, a version 6 address in brackets. -/
def SocketAddress.text (address : SocketAddress) : Text :=
  let port := Text.ofNat address.port.toNat
  match address.ip with
  | .v4 ip => ip.text ++ ':' :: port
  | .v6 ip =>
    let scope := if address.scope = 0 then [] else '%' :: Text.ofNat address.scope.toNat
    '[' :: ip.text ++ scope ++ [']', ':'] ++ port

end Nameserver

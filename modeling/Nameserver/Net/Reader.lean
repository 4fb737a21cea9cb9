import Nameserver.Net.Address

/-!
# Reading addresses

Readers for the written forms of addresses.  A reader takes what it needs from the front of a text
and returns the rest; the functions that end in `?` want the whole text.

**Numbers.**  An octet of a version 4 address has one to three digits and no leading zero.  A group
of a version 6 address has one to four hexadecimal digits.  Ports and scope numbers may have any
number of leading zeros but must fit their size.

**Version 6.**  The groups before `::` are read greedily, then those after it.  Two groups may be
written as a version 4 address, but only where they end the address.  A `::` stands for at least
one group.
-/

namespace Nameserver.Net

/-- A function that takes something from the front of a text. -/
abbrev Reader (α : Type) := Text → Option (α × Text)

/-- The value of a digit in a base up to sixteen. -/
def digit? (base : Nat) (c : Char) : Option Nat :=
  let n :=
    if '0' ≤ c ∧ c ≤ '9' then c.toNat - 48
    else if 'a' ≤ c ∧ c ≤ 'f' then c.toNat - 87
    else if 'A' ≤ c ∧ c ≤ 'F' then c.toNat - 55
    else base
  if n < base then some n else none

/-- The number that digits stand for. -/
def value (base : Nat) (digits : Text) : Nat :=
  digits.foldl (fun n c => n * base + (digit? base c).getD 0) 0

/-- Reads a number of at most `limit`: all digits that follow, at least one of them, no more than
`most` where that is given, and a leading zero in longer numbers only if `zeros` allows it. -/
def number (base limit : Nat) (most : Option Nat) (zeros : Bool) : Reader Nat := fun t =>
  let digits := t.takeWhile fun c => (digit? base c).isSome
  let tooLong := match most with
    | some m => m < digits.length
    | none => false
  let padded := digits.head? == some '0' && 1 < digits.length
  if digits.isEmpty || tooLong || (padded && !zeros) || limit < value base digits then none
  else some (value base digits, t.drop digits.length)

/-- Reads one given character. -/
def character (c : Char) : Reader Unit
  | d :: t => if c = d then some ((), t) else none
  | [] => none

/-- Reads with a separator in front, which the first of several items does not have. -/
def separated {α : Type} (separator : Char) (first : Bool) (item : Reader α) : Reader α := fun t =>
  if first then item t
  else do
    let (_, t) ← character separator t
    item t

/-- Reads one octet of a version 4 address. -/
def octet (first : Bool) : Reader UInt8 := fun t => do
  let (n, t) ← separated '.' first (number 10 255 (some 3) false) t
  some (UInt8.ofNat n, t)

/-- Reads a version 4 address. -/
def ipv4 : Reader Ipv4Address := fun t => do
  let (a, t) ← octet true t
  let (b, t) ← octet false t
  let (c, t) ← octet false t
  let (d, t) ← octet false t
  some (Ipv4Address.ofOctets a b c d, t)

/-- Reads up to `room` groups and says whether they end in a version 4 address, which takes the
place of two.  Stops, without failing, at the first thing that is no group. -/
def groups (first : Bool) : (room : Nat) → Text → List Nat × Bool × Text
  | 0, t => ([], false, t)
  | room + 1, t =>
    match if 0 < room then separated ':' first ipv4 t else none with
    | some (ip, t) =>
      ([(ip.bits.extractLsb' 16 16).toNat, (ip.bits.extractLsb' 0 16).toNat], true, t)
    | none =>
      match separated ':' first (number 16 0xFFFF (some 4) true) t with
      | some (g, t) =>
        let (gs, dotted, t) := groups false room t
        (g :: gs, dotted, t)
      | none => ([], false, t)

/-- Reads a version 6 address. -/
def ipv6 : Reader Ipv6Address := fun t => do
  let (front, dotted, t) := groups true 8 t
  if front.length = 8 then some (Ipv6Address.ofGroups front, t)
  else if dotted then none
  else
    let (_, t) ← character ':' t
    let (_, t) ← character ':' t
    let (back, _, t) := groups true (7 - front.length) t
    let zeros := List.replicate (8 - front.length - back.length) 0
    some (Ipv6Address.ofGroups (front ++ zeros ++ back), t)

/-- Reads an address of either version. -/
def ip : Reader IpAddress := fun t =>
  match ipv4 t with
  | some (a, t) => some (.v4 a, t)
  | none => (ipv6 t).map fun (a, t) => (.v6 a, t)

/-- Reads a port after its colon. -/
def port : Reader UInt16 := fun t => do
  let (_, t) ← character ':' t
  let (n, t) ← number 10 65535 none true t
  some (UInt16.ofNat n, t)

/-- Reads a scope number after its percent sign. -/
def scope : Reader UInt32 := fun t => do
  let (_, t) ← character '%' t
  let (n, t) ← number 10 4294967295 none true t
  some (UInt32.ofNat n, t)

/-- Reads a version 4 address with a port. -/
def socket4 : Reader SocketAddress := fun t => do
  let (a, t) ← ipv4 t
  let (p, t) ← port t
  some ({ ip := .v4 a, port := p }, t)

/-- Reads a version 6 address in brackets, perhaps with a scope, and a port. -/
def socket6 : Reader SocketAddress := fun t => do
  let (_, t) ← character '[' t
  let (a, t) ← ipv6 t
  let (s, t) := (scope t).getD (0, t)
  let (_, t) ← character ']' t
  let (p, t) ← port t
  some ({ ip := .v6 a, port := p, scope := s }, t)

/-- The result of a reader that must take the whole text. -/
def whole? {α : Type} (reader : Reader α) (t : Text) : Option α :=
  match reader t with
  | some (a, []) => some a
  | _ => none

end Nameserver.Net

namespace Nameserver

/-- Reads a version 4 address. -/
def Ipv4Address.ofText? (t : Text) : Option Ipv4Address := Net.whole? Net.ipv4 t

/-- Reads a version 6 address. -/
def Ipv6Address.ofText? (t : Text) : Option Ipv6Address := Net.whole? Net.ipv6 t

/-- Reads an address of either version. -/
def IpAddress.ofText? (t : Text) : Option IpAddress := Net.whole? Net.ip t

/-- Reads an address with its port. -/
def SocketAddress.ofText? (t : Text) : Option SocketAddress :=
  match Net.whole? Net.socket4 t with
  | some a => some a
  | none => Net.whole? Net.socket6 t

end Nameserver

import Nameserver.Message.Basic
import Nameserver.Text.Utf8

/-!
# Reading messages

A `Reader` is a message and an offset into it.  Readings of type `Read α` move the offset forward;
a reading that fails leaves it where the failing part began, so everything read before counts as
read.

**Bounds.**  `Read.take` is the only reading that looks at octets by number, and it checks first
that they are all there.  An offset past the end is allowed and makes every reading fail.

**Names.**  `Read.name` gives the dotted form of a name and `Read.wireName` its octets.  A label
that contains a dot has no dotted form and is refused by the first and accepted by the second.
Both walk over the labels by counting down the octets still to pass over, so they recurse on the
octets themselves.
-/

namespace Nameserver

/-- A message and an offset into it. -/
structure Reader where
  message : Bytes
  offset : Nat := 0
deriving DecidableEq, Repr

/-- A reading that yields an `α` or a fault, and in both cases moves the offset. -/
abbrev Read (α : Type) := EStateM Fault Reader α

namespace Read

/-- The next `n` octets. -/
def take (n : Nat) : Read Bytes := fun r =>
  if r.offset + n ≤ r.message.length then
    .ok ((r.message.drop r.offset).take n) { r with offset := r.offset + n }
  else .error (.unexpectedEnd r.offset) r

/-- Passes over `n` octets. -/
def skip (n : Nat) : Read Unit := do
  let _ ← take n

/-- A number of one octet. -/
def uint8 : Read UInt8 := return UInt8.ofNat (decodeNat (← take 1))

/-- A number of two octets. -/
def uint16 : Read UInt16 := return UInt16.ofNat (decodeNat (← take 2))

/-- A number of four octets. -/
def uint32 : Read UInt32 := return UInt32.ofNat (decodeNat (← take 4))

/-- The labels of the name that starts after `skip` octets, which end at `offset`, and the offset
behind the name or behind what was read of it. -/
def labels (offset skip : Nat) : Bytes → Except Fault (List Bytes) × Nat
  | [] => (.error (.unexpectedEnd offset), offset)
  | size :: rest =>
    match skip with
    | skip + 1 => labels offset skip rest
    | 0 =>
      let start := offset + 1
      if size = 0 then (.ok [], start)
      else if rest.length < size.toNat then (.error (.unexpectedEnd start), start)
      else if (rest.take size.toNat).contains 46 then
        (.error (.dotInLabel start), start + size.toNat)
      else
        let (result, stop) := labels (start + size.toNat) size.toNat rest
        (result.map (rest.take size.toNat :: ·), stop)

/-- The offset behind the name that starts after `skip` octets, which end at `offset`. -/
def nameEnd (offset skip : Nat) : Bytes → Except Nat Nat
  | [] => .error offset
  | size :: rest =>
    match skip with
    | skip + 1 => nameEnd offset skip rest
    | 0 =>
      let start := offset + 1
      if size = 0 then .ok start
      else if rest.length < size.toNat then .error start
      else nameEnd (start + size.toNat) size.toNat rest

/-- A name in dotted form; the root is the empty text. -/
def name : Read Text := fun r =>
  match labels r.offset 0 (r.message.drop r.offset) with
  | (.ok ls, stop) => .ok (Text.join (ls.map Utf8.decodeLossy)) { r with offset := stop }
  | (.error fault, stop) => .error fault { r with offset := stop }

/-- The octets of a name, its terminator included. -/
def wireName : Read Bytes := fun r =>
  match nameEnd r.offset 0 (r.message.drop r.offset) with
  | .ok stop =>
    .ok ((r.message.drop r.offset).take (stop - r.offset)) { r with offset := stop }
  | .error stop => .error (.unexpectedEnd stop) { r with offset := stop }

end Read

/-- The value of a reading, without the reader it leaves behind. -/
def Read.value {α : Type} (reading : Read α) (r : Reader) : Except Fault α :=
  match reading r with
  | .ok a _ => .ok a
  | .error fault _ => .error fault

end Nameserver

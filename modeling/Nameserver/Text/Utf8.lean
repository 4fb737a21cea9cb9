import Nameserver.Text.Basic

/-!
# UTF-8

`Utf8.encode` writes a text as octets.  Two readers stand beside it:

* `Utf8.decode?` is strict and refuses anything that is not well-formed.
* `Utf8.decodeLossy` reads any octets at all.  Each maximal piece of an ill-formed sequence becomes
  one replacement character `U+FFFD`, so one stray octet never hides the octets after it.

Both go octet by octet through `Utf8.step`, which knows the well-formed sequences by the range its
second octet may come from: the ranges after `E0`, `ED`, `F0` and `F4` are narrower than the rest,
which keeps out overlong forms, surrogates and code points past `U+10FFFF`.
-/

namespace Nameserver.Utf8

/-- The octets of the code point `n`.  Nothing stops a caller from passing half of a surrogate pair;
the octets are then ill-formed, and the readers below treat them so. -/
def encodePoint (n : Nat) : Bytes :=
  if n < 0x80 then [UInt8.ofNat n]
  else if n < 0x800 then [UInt8.ofNat (0xC0 + n / 64), UInt8.ofNat (0x80 + n % 64)]
  else if n < 0x10000 then
    [UInt8.ofNat (0xE0 + n / 4096), UInt8.ofNat (0x80 + n / 64 % 64), UInt8.ofNat (0x80 + n % 64)]
  else
    [UInt8.ofNat (0xF0 + n / 262144), UInt8.ofNat (0x80 + n / 4096 % 64),
      UInt8.ofNat (0x80 + n / 64 % 64), UInt8.ofNat (0x80 + n % 64)]

/-- The octets of one character. -/
def encodeChar (c : Char) : Bytes := encodePoint c.toNat

/-- The octets of a text. -/
def encode (t : Text) : Bytes := t.flatMap encodeChar

/-- The number of octets of a text. -/
def size (t : Text) : Nat := (encode t).length

/-- What a first octet above `7F` asks for: how many octets follow it, and the range of the first
of them.  Octets that start no well-formed sequence ask for nothing. -/
def lead? (b : UInt8) : Option (Nat × UInt8 × UInt8) :=
  if 0xC2 ≤ b && b ≤ 0xDF then some (1, 0x80, 0xBF)
  else if b == 0xE0 then some (2, 0xA0, 0xBF)
  else if b == 0xED then some (2, 0x80, 0x9F)
  else if 0xE1 ≤ b && b ≤ 0xEF then some (2, 0x80, 0xBF)
  else if b == 0xF0 then some (3, 0x90, 0xBF)
  else if b == 0xF4 then some (3, 0x80, 0x8F)
  else if 0xF1 ≤ b && b ≤ 0xF3 then some (3, 0x80, 0xBF)
  else none

/-- The octets of `rest` that continue a sequence: at most `more`, the first of them between `low`
and `high`, the others continuation octets. -/
def continuation (more : Nat) (low high : UInt8) (rest : Bytes) : Bytes :=
  match more, rest with
  | 0, _ => []
  | _, [] => []
  | more + 1, b :: rest =>
    if low ≤ b && b ≤ high then b :: continuation more 0x80 0xBF rest else []

/-- The payload bits of a first octet followed by `more` others. -/
def leadBits (more : Nat) (b : UInt8) : Nat :=
  match more with
  | 1 => b.toNat % 32
  | 2 => b.toNat % 16
  | _ => b.toNat % 8

/-- Reads the first octet `b` and what follows: the character, if the sequence is well-formed, and
how many octets of `rest` it took. -/
def step (b : UInt8) (rest : Bytes) : Option Char × Nat :=
  if b < 0x80 then (some (Char.ofNat b.toNat), 0)
  else match lead? b with
    | none => (none, 0)
    | some (more, low, high) =>
      let tail := continuation more low high rest
      if tail.length = more then
        (some (Char.ofNat (tail.foldl (fun n c => n * 64 + c.toNat % 64) (leadBits more b))), more)
      else (none, tail.length)

/-- Reads any octets after passing over `skip` of them: each maximal piece of an ill-formed sequence
becomes `U+FFFD`. -/
def decodeLossyAfter : Nat → Bytes → Text
  | _, [] => []
  | skip + 1, _ :: rest => decodeLossyAfter skip rest
  | 0, b :: rest => (step b rest).1.getD '\uFFFD' :: decodeLossyAfter (step b rest).2 rest

/-- Reads any octets, replacing what is ill-formed. -/
def decodeLossy (bytes : Bytes) : Text := decodeLossyAfter 0 bytes

/-- Reads well-formed octets after passing over `skip` of them. -/
def decodeAfter? : Nat → Bytes → Option Text
  | _, [] => some []
  | skip + 1, _ :: rest => decodeAfter? skip rest
  | 0, b :: rest =>
    match (step b rest).1 with
    | none => none
    | some c => (decodeAfter? (step b rest).2 rest).map (c :: ·)

/-- Reads octets that are well-formed as a whole. -/
def decode? (bytes : Bytes) : Option Text := decodeAfter? 0 bytes

/-- Passing over octets is the same as dropping them first. -/
theorem decodeLossyAfter_eq_drop (skip : Nat) (bytes : Bytes) :
    decodeLossyAfter skip bytes = decodeLossy (bytes.drop skip) := by
  induction bytes generalizing skip with
  | nil => cases skip <;> rfl
  | cons b rest ih =>
    cases skip with
    | zero => rfl
    | succ skip => simpa [decodeLossyAfter] using ih skip

end Nameserver.Utf8

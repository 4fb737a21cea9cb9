import Nameserver.Text.Utf8

/-!
# Base64

Two variants are in use: the padded standard alphabet for public keys and the unpadded URL-safe
alphabet for challenge digests.  A `Base64.Variant` names the last two characters of the alphabet
and says whether a short last group is filled up with `=`.

**One spelling per value.**  `Base64.decode?` is strict: padding must be exactly what the variant
asks for, and the bits of the last character that carry no data must be zero.  So a text it accepts
is the text that `Base64.encode` writes for the result.
-/

namespace Nameserver.Base64

/-- The choices in which base64 variants differ. -/
structure Variant where
  /-- The characters for 62 and 63. -/
  last : UInt8 × UInt8
  /-- Whether a short last group is filled up with `=`. -/
  padded : Bool
deriving DecidableEq, Repr

/-- The alphabet with `+` and `/`, and with padding. -/
def standard : Variant := ⟨(43, 47), true⟩

/-- The URL-safe alphabet without padding. -/
def urlSafe : Variant := ⟨(45, 95), false⟩

/-- The octet of `=`. -/
def pad : UInt8 := 61

/-- The six bits a character stands for. -/
def digit? (v : Variant) (b : UInt8) : Option Nat :=
  if 65 ≤ b && b ≤ 90 then some (b.toNat - 65)
  else if 97 ≤ b && b ≤ 122 then some (b.toNat - 71)
  else if 48 ≤ b && b ≤ 57 then some (b.toNat + 4)
  else if b == v.last.1 then some 62
  else if b == v.last.2 then some 63
  else none

/-- The character that stands for six bits. -/
def character (v : Variant) (n : Nat) : UInt8 :=
  if n < 26 then UInt8.ofNat (n + 65)
  else if n < 52 then UInt8.ofNat (n + 71)
  else if n < 62 then UInt8.ofNat (n - 4)
  else if n = 62 then v.last.1 else v.last.2

/-- Writes octets, three of them as four characters. -/
def encode (v : Variant) : Bytes → Bytes
  | [] => []
  | [a] =>
    let n := a.toNat * 16
    [character v (n / 64), character v (n % 64)] ++ (if v.padded then [pad, pad] else [])
  | [a, b] =>
    let n := (a.toNat * 256 + b.toNat) * 4
    [character v (n / 4096), character v (n / 64 % 64), character v (n % 64)] ++
      (if v.padded then [pad] else [])
  | a :: b :: c :: rest =>
    let n := (a.toNat * 256 + b.toNat) * 256 + c.toNat
    character v (n / 262144) :: character v (n / 4096 % 64) :: character v (n / 64 % 64) ::
      character v (n % 64) :: encode v rest

/-- The octet of a last group of two characters. -/
def lastOne? (v : Variant) (p q : UInt8) : Option Bytes := do
  let n := (← digit? v p) * 64 + (← digit? v q)
  if n % 16 = 0 then some [UInt8.ofNat (n / 16)] else none

/-- The octets of a last group of three characters. -/
def lastTwo? (v : Variant) (p q r : UInt8) : Option Bytes := do
  let n := ((← digit? v p) * 64 + (← digit? v q)) * 64 + (← digit? v r)
  if n % 4 = 0 then some [UInt8.ofNat (n / 1024), UInt8.ofNat (n / 4)] else none

/-- Reads what `encode` writes and nothing else. -/
def decode? (v : Variant) : Bytes → Option Bytes
  | [] => some []
  | [_] => none
  | [p, q] => if v.padded then none else lastOne? v p q
  | [p, q, r] => if v.padded then none else lastTwo? v p q r
  | p :: q :: r :: s :: rest =>
    if v.padded && s == pad && rest.isEmpty then
      if r == pad then lastOne? v p q else lastTwo? v p q r
    else do
      let n := (((← digit? v p) * 64 + (← digit? v q)) * 64 + (← digit? v r)) * 64 + (← digit? v s)
      let tail ← decode? v rest
      some (UInt8.ofNat (n / 65536) :: UInt8.ofNat (n / 256) :: UInt8.ofNat n :: tail)

end Nameserver.Base64

import Nameserver.Json.Basic

/-!
# JSON tokens

The first half of reading: octets become tokens.  Blanks are space, tab, line feed and carriage
return.  Each reader below looks at the octets behind the first one of a token and says how many of
them the token takes, so that `Token.scan` can pass over them.

**Strings.**  Control octets must be escaped.  An escape `\u` names a 16-bit unit by four digits of
either case; a high unit directly followed by a low one is one character.  A unit that has lost its
partner is kept as three ill-formed octets, which makes the string unreadable as text but not as
JSON.
-/

namespace Nameserver.Json

/-- The smallest parts of a JSON document. -/
inductive Token where
  | openObject
  | closeObject
  | openArray
  | closeArray
  | colon
  | comma
  /-- A literal or number, complete in itself. -/
  | scalar (value : Json)
  /-- A string, which may be a value or a key. -/
  | string (bytes : Bytes)

/-- A piece of a string: an octet that stands for itself, or a 16-bit unit from an escape. -/
inductive Piece where
  | octet (b : UInt8)
  /-- A unit named by four digits. -/
  | unit (n : Nat)

namespace Piece

/-- Whether a unit is the first half of a pair. -/
def isHigh (n : Nat) : Bool := 0xD800 ≤ n && n ≤ 0xDBFF

/-- Whether a unit is the second half of a pair. -/
def isLow (n : Nat) : Bool := 0xDC00 ≤ n && n ≤ 0xDFFF

/-- The octets of a string from its pieces; pairs of units are joined. -/
def assemble : List Piece → Bytes
  | [] => []
  | .octet b :: ps => b :: assemble ps
  | .unit high :: .unit low :: ps =>
    if isHigh high && isLow low then
      Utf8.encodePoint (0x10000 + (high - 0xD800) * 1024 + (low - 0xDC00)) ++ assemble ps
    else Utf8.encodePoint high ++ assemble (.unit low :: ps)
  | .unit n :: ps => Utf8.encodePoint n ++ assemble ps

end Piece

/-- The value of a hexadecimal digit. -/
def hexDigit? (b : UInt8) : Option Nat :=
  if 48 ≤ b && b ≤ 57 then some (b.toNat - 48)
  else if 97 ≤ b && b ≤ 102 then some (b.toNat - 87)
  else if 65 ≤ b && b ≤ 70 then some (b.toNat - 55)
  else none

/-- The unit that four hexadecimal digits name. -/
def unit? (a b c d : UInt8) : Option Nat := do
  some ((((← hexDigit? a) * 16 + (← hexDigit? b)) * 16 + (← hexDigit? c)) * 16 + (← hexDigit? d))

/-- The octet that a one-letter escape stands for. -/
def escape? (letter : UInt8) : Option UInt8 :=
  if letter = 34 ∨ letter = 92 ∨ letter = 47 then some letter
  else if letter = 98 then some 8
  else if letter = 102 then some 12
  else if letter = 110 then some 10
  else if letter = 114 then some 13
  else if letter = 116 then some 9
  else none

/-- Reads a string behind its opening quote: the pieces and the number of octets taken, closing
quote included. -/
def stringBody : Bytes → Option (List Piece × Nat)
  | [] => none
  | b :: rest =>
    if b = 34 then some ([], 1)
    else if b < 32 then none
    else if b = 92 then
      match rest with
      | 117 :: p :: q :: r :: s :: rest =>
        match unit? p q r s, stringBody rest with
        | some n, some (ps, taken) => some (.unit n :: ps, taken + 6)
        | _, _ => none
      | letter :: rest =>
        match escape? letter, stringBody rest with
        | some c, some (ps, taken) => some (.octet c :: ps, taken + 2)
        | _, _ => none
      | [] => none
    else match stringBody rest with
      | some (ps, taken) => some (.octet b :: ps, taken + 1)
      | none => none

/-- Whether an octet is a decimal digit. -/
def isDigit (b : UInt8) : Bool := 48 ≤ b && b ≤ 57

/-- The digits at the front, which must not be missing. -/
def digits? (bytes : Bytes) : Option Bytes :=
  let ds := bytes.takeWhile isDigit
  if ds.isEmpty then none else some ds

/-- The digits before the point: a single zero, or digits that start with another one. -/
def wholePart? (bytes : Bytes) : Option Bytes :=
  match bytes with
  | 48 :: _ => some [48]
  | _ => digits? bytes

/-- The point and the digits behind it, if there is a point. -/
def fraction? (bytes : Bytes) : Option Bytes :=
  match bytes with
  | 46 :: rest => (digits? rest).map (46 :: ·)
  | _ => some []

/-- The exponent, if there is one. -/
def exponent? (bytes : Bytes) : Option Bytes :=
  match bytes with
  | e :: rest =>
    if e = 101 ∨ e = 69 then
      match rest with
      | sign :: digits =>
        if sign = 43 ∨ sign = 45 then (digits? digits).map (e :: sign :: ·)
        else (digits? rest).map (e :: ·)
      | [] => none
    else some []
  | [] => some []

/-- The number literal at the front, without its sign. -/
def magnitude? (bytes : Bytes) : Option Bytes := do
  let whole ← wholePart? bytes
  let rest := bytes.drop whole.length
  let fraction ← fraction? rest
  let exponent ← exponent? (rest.drop fraction.length)
  some (whole ++ fraction ++ exponent)

/-- The number literal at the front. -/
def number? (bytes : Bytes) : Option Bytes :=
  match bytes with
  | 45 :: rest => (magnitude? rest).map (45 :: ·)
  | _ => magnitude? bytes

namespace Token

/-- The token that starts with octet `b`, and how many octets of `rest` it takes. -/
def first? (b : UInt8) (rest : Bytes) : Option (Token × Nat) :=
  if b = 123 then some (openObject, 0)
  else if b = 125 then some (closeObject, 0)
  else if b = 91 then some (openArray, 0)
  else if b = 93 then some (closeArray, 0)
  else if b = 58 then some (colon, 0)
  else if b = 44 then some (comma, 0)
  else if b = 34 then (stringBody rest).map fun (ps, taken) => (string (Piece.assemble ps), taken)
  else if b = 110 then
    if rest.take 3 = [117, 108, 108] then some (scalar .null, 3) else none
  else if b = 116 then
    if rest.take 3 = [114, 117, 101] then some (scalar (.bool true), 3) else none
  else if b = 102 then
    if rest.take 4 = [97, 108, 115, 101] then some (scalar (.bool false), 4) else none
  else (number? (b :: rest)).map fun literal => (scalar (.num literal), literal.length - 1)

/-- A blank octet between tokens. -/
def isBlank (b : UInt8) : Bool := b == 32 || b == 9 || b == 10 || b == 13

/-- The tokens of a document after passing over `skip` octets. -/
def scanAfter : Nat → Bytes → Option (List Token)
  | _, [] => some []
  | skip + 1, _ :: rest => scanAfter skip rest
  | 0, b :: rest =>
    if isBlank b then scanAfter 0 rest
    else match first? b rest with
      | none => none
      | some (token, taken) => (scanAfter taken rest).map (token :: ·)

/-- The tokens of a document. -/
def scan (bytes : Bytes) : Option (List Token) := scanAfter 0 bytes

end Token

end Nameserver.Json

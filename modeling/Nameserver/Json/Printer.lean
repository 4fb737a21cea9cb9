import Nameserver.Json.Basic

/-!
# Writing JSON

`Json.print` writes a value without any blanks.  Inside strings the quote, the backslash and the
control octets are escaped: five of them by a letter, the rest as `\u00` and two lower-case digits.
All other octets, those of characters beyond ASCII included, are written as they are.
-/

namespace Nameserver.Json

/-- The hexadecimal digit of a number below 16. -/
def hexDigit (n : Nat) : UInt8 := if n < 10 then UInt8.ofNat (48 + n) else UInt8.ofNat (87 + n)

/-- An octet inside a string. -/
def escaped (b : UInt8) : Bytes :=
  if b = 34 ∨ b = 92 then [92, b]
  else if b = 8 then [92, 98]
  else if b = 9 then [92, 116]
  else if b = 10 then [92, 110]
  else if b = 12 then [92, 102]
  else if b = 13 then [92, 114]
  else if b < 32 then [92, 117, 48, 48, hexDigit (b.toNat / 16), hexDigit (b.toNat % 16)]
  else [b]

/-- A string in its quotes. -/
def quoted (bytes : Bytes) : Bytes := 34 :: bytes.flatMap escaped ++ [34]

mutual

/-- Writes a value. -/
def print : Json → Bytes
  | .null => [110, 117, 108, 108]
  | .bool true => [116, 114, 117, 101]
  | .bool false => [102, 97, 108, 115, 101]
  | .num literal => literal
  | .str bytes => quoted bytes
  | .arr items => 91 :: printItems items ++ [93]
  | .obj fields => 123 :: printFields fields ++ [125]

/-- Writes the items of an array with commas between them. -/
def printItems : List Json → Bytes
  | [] => []
  | [item] => print item
  | item :: items => print item ++ 44 :: printItems items

/-- Writes the fields of an object with commas between them. -/
def printFields : List (Bytes × Json) → Bytes
  | [] => []
  | [(key, value)] => quoted key ++ 58 :: print value
  | (key, value) :: fields => quoted key ++ 58 :: print value ++ 44 :: printFields fields

end

end Nameserver.Json

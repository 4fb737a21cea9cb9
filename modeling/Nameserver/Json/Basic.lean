import Nameserver.Text.Utf8

/-!
# JSON values

A `Json` value keeps what was written rather than what it might mean:

* a number is its literal, so that `1`, `1.0` and `1e0` stay apart and no size limit applies;
* a string is octets with the escapes replaced, so that a string nobody looks at need not be
  well-formed text;
* an object is its fields in the order in which they stand, repeated keys included.

Whoever expects a text, a number of a certain size or a set of fields asks for it with the functions
of `Nameserver.Json.Decode`.
-/

namespace Nameserver

/-- A JSON value. -/
inductive Json where
  | null
  | bool (value : Bool)
  /-- A number as it is written. -/
  | num (literal : Bytes)
  /-- A string with its escapes replaced. -/
  | str (bytes : Bytes)
  | arr (items : List Json)
  /-- An object: its fields in order. -/
  | obj (fields : List (Bytes × Json))
deriving Repr, Inhabited

namespace Json

/-- The string that holds a text. -/
def ofText (t : Text) : Json := .str (Utf8.encode t)

/-- The string that holds characters of the source text. -/
def ofString (s : String) : Json := ofText s.toList

/-- The number literal of a natural number. -/
def ofNat (n : Nat) : Json := .num (Utf8.encode (Text.ofNat n))

/-- The object with these fields. -/
def ofFields (fields : List (String × Json)) : Json :=
  .obj (fields.map fun (key, value) => (Utf8.encode key.toList, value))

end Json

end Nameserver

import Nameserver.Json.Reader
import Nameserver.Table

/-!
# Decoding JSON values

Functions from a `Json` value to the value it was expected to hold, or `none`.

**Records.**  A record with named fields may be written as an object or as an array of its fields
in order.  In an object a field may stand once only, and fields nobody asks for are passed over.  In
an array trailing fields may be missing if they have a default, and nothing may follow the last one.

**Maps.**  In a map from texts to values a key may be repeated; the last value counts.

**Numbers.**  Only plain digits are a natural number, so neither `1.0` nor `-0` is one.
-/

namespace Nameserver.Json

/-- The text that a string holds. -/
def text? : Json → Option Text
  | .str bytes => Utf8.decode? bytes
  | _ => none

/-- The natural number of at most `limit` that a number literal stands for. -/
def natural? (limit : Nat) : Json → Option Nat
  | .num literal =>
    let n := literal.foldl (fun n b => n * 10 + (b.toNat - 48)) 0
    if literal.all isDigit && n ≤ limit then some n else none
  | _ => none

/-- A number of 16 bits. -/
def uint16? (j : Json) : Option UInt16 := (natural? 65535 j).map UInt16.ofNat

/-- A number of 32 bits. -/
def uint32? (j : Json) : Option UInt32 := (natural? 4294967295 j).map UInt32.ofNat

/-- A number of 64 bits. -/
def uint64? (j : Json) : Option Nat := natural? 18446744073709551615 j

/-- The items of an array. -/
def list? {α : Type} (item : Json → Option α) : Json → Option (List α)
  | .arr items => items.mapM item
  | _ => none

/-- `null` for nothing, or a value. -/
def nullable? {α : Type} (value : Json → Option α) : Json → Option (Option α)
  | .null => some none
  | j => (value j).map some

/-- The entries of a map whose keys and values are read as given; the last entry of a key counts. -/
def table? {α β : Type} [DecidableEq α] (key : Text → Option α) (value : Json → Option β) :
    Json → Option (Table α β)
  | .obj fields =>
    (fields.mapM fun (name, j) => do
      let k ← key (← Utf8.decode? name)
      let v ← value j
      some (k, v)).map Table.ofEntries
  | _ => none

/-- The values of the fields with these names, as far as they are there. -/
def record? (names : List String) : Json → Option (List (Option Json))
  | .arr items =>
    if items.length ≤ names.length then
      some (items.map some ++ List.replicate (names.length - items.length) none)
    else none
  | .obj fields =>
    if fields.all fun (name, _) => (Utf8.decode? name).isSome then
      names.mapM fun name =>
        match fields.filter fun field => field.1 == Utf8.encode name.toList with
        | [] => some none
        | [(_, value)] => some (some value)
        | _ => none
    else none
  | _ => none

/-- A field that must be there. -/
def required? {α : Type} (value : Json → Option α) (field : Option Json) : Option α :=
  field.bind value

/-- A field that stands for `fallback` when it is missing. -/
def defaulted? {α : Type} (value : Json → Option α) (fallback : α) : Option Json → Option α
  | none => some fallback
  | some j => value j

end Nameserver.Json

import Nameserver.Json.Token

/-!
# Reading JSON

The second half of reading: tokens become one value.  The containers that are part way through are
kept in a list of frames, innermost first, and `Expect` says what may come next.  So nesting is
limited by nothing but the document, and the reader recurses on the tokens alone.
-/

namespace Nameserver.Json

/-- A container part way through, its finished parts last one first. -/
inductive Frame where
  | array (done : List Json)
  /-- An object, and the key whose value is being read. -/
  | object (done : List (Bytes × Json)) (key : Bytes)

/-- What may come next. -/
inductive Expect where
  | value
  /-- The first item of an array, or its end. -/
  | item
  /-- The first key of an object, or its end. -/
  | field
  /-- A further key of an object. -/
  | key (done : List (Bytes × Json))
  | colon (done : List (Bytes × Json)) (key : Bytes)
  /-- What follows a complete value: a comma or the end of the container around it. -/
  | next (value : Json)

/-- The frames and the expectation after one more token, or `none` if it may not stand there. -/
def advance? (frames : List Frame) : Expect → Token → Option (List Frame × Expect)
  | .value, .openArray => some (.array [] :: frames, .item)
  | .value, .openObject => some (frames, .field)
  | .value, .scalar v => some (frames, .next v)
  | .value, .string s => some (frames, .next (.str s))
  | .item, .openArray => some (.array [] :: frames, .item)
  | .item, .openObject => some (frames, .field)
  | .item, .scalar v => some (frames, .next v)
  | .item, .string s => some (frames, .next (.str s))
  | .item, .closeArray => some (frames.drop 1, .next (.arr []))
  | .field, .closeObject => some (frames, .next (.obj []))
  | .field, .string key => some (frames, .colon [] key)
  | .key done, .string key => some (frames, .colon done key)
  | .colon done key, .colon => some (.object done key :: frames, .value)
  | .next v, token =>
    match frames, token with
    | .array done :: frames, .comma => some (.array (v :: done) :: frames, .value)
    | .array done :: frames, .closeArray => some (frames, .next (.arr (v :: done).reverse))
    | .object done key :: frames, .comma => some (frames, .key ((key, v) :: done))
    | .object done key :: frames, .closeObject =>
      some (frames, .next (.obj ((key, v) :: done).reverse))
    | _, _ => none
  | _, _ => none

/-- Reads on through the tokens; a value that no container waits for must be the last thing. -/
def ofTokens? (frames : List Frame) (expect : Expect) : List Token → Option Json
  | [] => match frames, expect with
    | [], .next v => some v
    | _, _ => none
  | token :: tokens =>
    match advance? frames expect token with
    | some (frames, expect) => ofTokens? frames expect tokens
    | none => none

/-- Reads a document that holds one value and blanks around it. -/
def parse? (document : Bytes) : Option Json :=
  (Token.scan document).bind (ofTokens? [] .value)

end Nameserver.Json

import Nameserver.Message.Basic

/-!
# Frames

On the private connections every document travels in a frame: four octets that tell its length, high
octet first, and then the document.  `Frame.next` takes the first frame off a stream.

**Limit.**  Frames with more than 64 KiB inside are neither sent nor taken.  Since the rest of a
stream cannot be told apart after such a frame, it ends the conversation.
-/

namespace Nameserver.Frame

/-- The most octets inside a frame. -/
def limit : Nat := 64 * 1024

/-- The octets that tell the length. -/
def lengthSize : Nat := 4

/-- The frame around a payload, if it may be sent. -/
def encode? (payload : Bytes) : Option Bytes :=
  if payload.length ≤ limit then some (encode32 (UInt32.ofNat payload.length) ++ payload) else none

/-- What stands at the front of a stream. -/
inductive Front where
  | incomplete
  /-- A frame that is too large. -/
  | oversized
  /-- A frame and what follows it. -/
  | frame (payload rest : Bytes)
deriving DecidableEq, Repr

/-- Looks at the front of a stream. -/
def next (stream : Bytes) : Front :=
  if stream.length < lengthSize then .incomplete
  else
    let size := decodeNat (stream.take lengthSize)
    let rest := stream.drop lengthSize
    if limit < size then .oversized
    else if rest.length < size then .incomplete
    else .frame (rest.take size) (rest.drop size)

/-- A frame takes its length with it, so what follows is shorter. -/
theorem length_rest_lt {stream payload rest : Bytes} (h : next stream = .frame payload rest) :
    rest.length < stream.length := by
  have size : lengthSize = 4 := rfl
  simp only [next] at h
  split at h
  · cases h
  · split at h
    · cases h
    · split at h
      · cases h
      · cases h
        simp only [List.length_drop]
        omega

end Nameserver.Frame

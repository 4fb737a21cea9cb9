import Nameserver.Configuration
import Nameserver.Json.Printer
import Nameserver.Registry.Challenge
import Nameserver.Text.Base64

/-!
# Messages of the private listeners

Clients send a `ChallengeRequest` or a `MailKeyAnnouncement`, and each is answered with an `Ack`.
All three are JSON documents.

**Values.**  A challenge value is the unpadded URL-safe base64 form of a 32 octet digest.  A public
key is the padded standard base64 form of at least one octet.

**Checks.**  `ChallengeRequest.check` looks at the challenges one after the other and reports the
first that fails: no domain, a domain the peer may not touch, or a value that is no digest.  A
request is taken as a whole or not at all.
-/

namespace Nameserver

/-- Why a value cannot be shown. -/
inductive ValueFault where
  | invalidEncoding
  /-- The value stands for another number of octets. -/
  | wrongLength (actual expected : Nat)
  | empty
deriving DecidableEq, Repr

namespace ValueFault

/-- The fault in words, where there are words for it. -/
def message? : ValueFault → Option String
  | .invalidEncoding => none
  | .wrongLength actual expected =>
    some s!"invalid decoded length: found {actual} bytes, expected {expected}"
  | .empty => some "empty value"

end ValueFault

/-- The octets of a digest. -/
def digestSize : Nat := 32

/-- Checks that the value of a challenge is a digest. -/
def Challenge.checkValue (c : Challenge) : Except ValueFault Unit :=
  match Base64.decode? Base64.urlSafe (Utf8.encode c.value) with
  | none => .error .invalidEncoding
  | some digest =>
    if digest.length = digestSize then .ok ()
    else .error (.wrongLength digest.length digestSize)

/-- Challenges to be shown for as long as the session lasts. -/
structure ChallengeRequest where
  challenges : List Challenge := []
deriving DecidableEq, Repr

/-- A public key of a mail provider. -/
structure MailKeyAnnouncement where
  provider : Text
  publicKey : Text
deriving DecidableEq, Repr

/-- The answer to a message: all is well, or what is not. -/
structure Ack where
  error? : Option Text := none
deriving DecidableEq, Repr

namespace Challenge

/-- The names of the fields in a document, in their order. -/
def fieldNames : List String := ["domain", "value"]

/-- Reads a challenge, of which both fields must be there. -/
def ofJson? (j : Json) : Option Challenge :=
  match Json.record? fieldNames j with
  | some [domain, value] => do
    some
      { domain := ← Json.required? Json.text? domain
        value := ← Json.required? Json.text? value }
  | _ => none

/-- The document of a challenge. -/
def toJson (c : Challenge) : Json :=
  Json.ofFields [("domain", Json.ofText c.domain), ("value", Json.ofText c.value)]

end Challenge

namespace ChallengeRequest

/-- Reads a request. -/
def ofJson? (j : Json) : Option ChallengeRequest :=
  match Json.record? ["challenges"] j with
  | some [challenges] => do
    some { challenges := ← Json.required? (Json.list? Challenge.ofJson?) challenges }
  | _ => none

/-- The document of a request. -/
def toJson (request : ChallengeRequest) : Json :=
  Json.ofFields [("challenges", .arr (request.challenges.map Challenge.toJson))]

/-- Checks one challenge from a peer. -/
def checkChallenge (policy : ChallengePolicy) (peer : IpAddress) (c : Challenge) :
    Except Failure Unit :=
  if c.baseDomain.isEmpty then .error (.invalidName c.domain .emptyDomain)
  else if !policy.mayUpdate peer c.baseDomain then .error (.forbidden peer c.baseDomain)
  else match c.checkValue with
    | .ok _ => .ok ()
    | .error _ => .error (.invalidChallenge c.domain)

/-- Checks a request from a peer as a whole. -/
def check (policy : ChallengePolicy) (peer : IpAddress) (request : ChallengeRequest) :
    Except Failure Unit :=
  if request.challenges.isEmpty then .error .emptyChallengeSet
  else request.challenges.forM (checkChallenge policy peer)

end ChallengeRequest

namespace MailKeyAnnouncement

/-- The names of the fields in a document, in their order. -/
def fieldNames : List String := ["provider", "public_key"]

/-- Reads an announcement, of which both fields must be there. -/
def ofJson? (j : Json) : Option MailKeyAnnouncement :=
  match Json.record? fieldNames j with
  | some [provider, publicKey] => do
    some
      { provider := ← Json.required? Json.text? provider
        publicKey := ← Json.required? Json.text? publicKey }
  | _ => none

/-- The document of an announcement. -/
def toJson (announcement : MailKeyAnnouncement) : Json :=
  Json.ofFields
    [("provider", Json.ofText announcement.provider),
      ("public_key", Json.ofText announcement.publicKey)]

/-- Checks that the key is base64 of something. -/
def checkKey (announcement : MailKeyAnnouncement) : Except ValueFault Unit :=
  if announcement.publicKey.isEmpty then .error .empty
  else match Base64.decode? Base64.standard (Utf8.encode announcement.publicKey) with
    | some _ => .ok ()
    | none => .error .invalidEncoding

/-- Checks an announcement: the provider must be one label and the key usable. -/
def check (announcement : MailKeyAnnouncement) : Except Failure Unit :=
  let provider := announcement.provider
  if provider.isEmpty || provider.contains '.' || Name.maxLabel < Utf8.size provider then
    .error (.invalidName provider .notOneLabel)
  else match announcement.checkKey with
    | .ok _ => .ok ()
    | .error _ => .error (.invalidMailKey provider)

end MailKeyAnnouncement

namespace Ack

/-- The acknowledgement of what went well. -/
def ok : Ack := {}

/-- The acknowledgement that tells of a failure. -/
def ofFailure (failure : Failure) : Ack := { error? := some failure.message }

/-- Whether all is well. -/
def isOk (ack : Ack) : Bool := ack.error?.isNone

/-- Reads an acknowledgement; without the field, or with `null` in it, all is well. -/
def ofJson? (j : Json) : Option Ack :=
  match Json.record? ["error"] j with
  | some [error] => do
    some { error? := ← Json.defaulted? (Json.nullable? Json.text?) none error }
  | _ => none

/-- The document of an acknowledgement, which has no field when all is well. -/
def toJson (ack : Ack) : Json :=
  match ack.error? with
  | none => .obj []
  | some error => Json.ofFields [("error", Json.ofText error)]

end Ack

end Nameserver

import Nameserver.Json.Printer

/-!
# Status page

What the operator can ask over HTTP: whether the service is alive, and what it serves at the moment.
Challenge values and keys are never told here.

**Requests.**  There are two pages.  Each can be fetched, or asked for without its contents; nothing
else can be done with them.  What stands behind a question mark is not looked at.
-/

namespace Nameserver

/-- What the service serves at the moment. -/
structure Status where
  /-- The names of the zones, in order. -/
  zones : List Text
  /-- How many challenge values are shown, if challenges are taken. -/
  pendingChallenges? : Option Nat := none
  /-- The mail providers in order with the times of their last announcements, if announcements are
  taken. -/
  mailKeys? : Option (List (Text × Nat)) := none
deriving DecidableEq, Repr

/-- The answer to a request for a page. -/
structure PageReply where
  code : Nat
  body : Bytes := []
deriving DecidableEq, Repr

namespace Status

/-- The document of a status, in which times are written by `stamp`. -/
def toJson (status : Status) (stamp : Nat → Text) : Json :=
  let challenges := match status.pendingChallenges? with
    | some n => Json.ofFields [("pending_challenges", Json.ofNat n)]
    | none => .null
  let mailKeys := match status.mailKeys? with
    | some keys =>
      .arr (keys.map fun (provider, announced) =>
        Json.ofFields
          [("provider", Json.ofText provider), ("updated_at", Json.ofText (stamp announced))])
    | none => .null
  Json.ofFields
    [("zones", .arr (status.zones.map Json.ofText)), ("acme", challenges), ("dkim", mailKeys)]

/-- The document that says that the service is alive. -/
def healthy : Json := Json.ofFields [("ok", Json.ofString "healthy")]

/-- The document at a path. -/
def page? (status : Status) (stamp : Nat → Text) (path : Text) : Option Json :=
  if path = "/healthcheck".toList then some healthy
  else if path = "/status".toList then some (status.toJson stamp)
  else none

/-- The path of a request target. -/
def pathOf (target : Text) : Text := target.takeWhile fun c => c ≠ '?' ∧ c ≠ '#'

/-- The answer to a request. -/
def reply (status : Status) (stamp : Nat → Text) (method target : Text) : PageReply :=
  match status.page? stamp (pathOf target) with
  | none => { code := 404 }
  | some page =>
    if method = "GET".toList then { code := 200, body := page.print }
    else if method = "HEAD".toList then { code := 200 }
    else { code := 405 }

end Status

end Nameserver

import Nameserver.Message.Record
import Nameserver.Table

/-!
# Pending challenges

A certification authority checks that a domain is under someone's control by asking for a text at a
name below it.  A `ChallengeRegistry` keeps the values to show, each under the registration that
brought it, so that several registrations for one domain can come and go without touching each
other.

**Base domains.**  A wildcard is checked at the domain behind it, so `*.example.org` and
`example.org` share their values.

**Nothing is left behind.**  A domain whose last value goes is removed.
-/

namespace Nameserver

/-- A request to show a value for a domain. -/
structure Challenge where
  domain : Text
  value : Text
deriving DecidableEq, Repr

/-- The domain at which a challenge is checked. -/
def Challenge.baseDomain (c : Challenge) : Text :=
  let domain := Text.normalize c.domain
  (Text.dropStart? domain ['*', '.']).getD domain

/-- Numbers that tell registrations apart. -/
abbrev RegistrationId := UInt64

/-- A set of challenges that were registered together. -/
structure Registration where
  id : RegistrationId
  challenges : List Challenge
deriving DecidableEq, Repr

/-- The values to show, by domain, and the next number to give out. -/
structure ChallengeRegistry where
  /-- The values of each domain with the registrations they belong to. -/
  pending : Table Text (List (RegistrationId × Text)) := []
  nextId : RegistrationId := 0
deriving DecidableEq, Repr

namespace ChallengeRegistry

/-- The values of a base domain with the registrations they belong to. -/
def entries (registry : ChallengeRegistry) (domain : Text) : List (RegistrationId × Text) :=
  (registry.pending.get? domain).getD []

/-- A number that was not given out before, and the registry that has given it out. -/
def freshId (registry : ChallengeRegistry) : RegistrationId × ChallengeRegistry :=
  (registry.nextId, { registry with nextId := registry.nextId + 1 })

/-- Adds a value to a domain.  The same value of the same registration is kept once. -/
def add (registry : ChallengeRegistry) (domain : Text) (entry : RegistrationId × Text) :
    ChallengeRegistry :=
  let entries := registry.entries domain
  { registry with
    pending := registry.pending.insert domain
      (if entry ∈ entries then entries else entries ++ [entry]) }

/-- Takes a value from a domain. -/
def remove (registry : ChallengeRegistry) (domain : Text) (entry : RegistrationId × Text) :
    ChallengeRegistry :=
  match (registry.entries domain).filter (· ≠ entry) with
  | [] => { registry with pending := registry.pending.erase domain }
  | left => { registry with pending := registry.pending.insert domain left }

/-- Adds all challenges of a registration. -/
def register (registry : ChallengeRegistry) (id : RegistrationId) (challenges : List Challenge) :
    ChallengeRegistry :=
  challenges.foldl (fun r c => r.add c.baseDomain (id, c.value)) registry

/-- Takes all challenges of a registration away. -/
def unregister (registry : ChallengeRegistry) (id : RegistrationId) (challenges : List Challenge) :
    ChallengeRegistry :=
  challenges.foldl (fun r c => r.remove c.baseDomain (id, c.value)) registry

/-- The values to show for a domain, one for each registration that has it. -/
def values (registry : ChallengeRegistry) (domain : Text) : List Text :=
  (registry.entries (Text.normalize domain)).map (·.2)

/-- The number of values that are pending, those of all domains together. -/
def size (registry : ChallengeRegistry) : Nat :=
  (registry.pending.flatMap fun e => e.2).length

/-- Registers challenges under a fresh number. -/
def hold (registry : ChallengeRegistry) (challenges : List Challenge) :
    Registration × ChallengeRegistry :=
  let (id, registry) := registry.freshId
  (⟨id, challenges⟩, registry.register id challenges)

/-- Takes back a registration, which ends what it shows. -/
def release (registry : ChallengeRegistry) (registration : Registration) : ChallengeRegistry :=
  registry.unregister registration.id registration.challenges

/-- The authority records of a name: the issuers while something is pending for it, else nothing. -/
def issuerRecords (registry : ChallengeRegistry) (issuers : List Text) (name : Text) : List Caa :=
  if (registry.values name).isEmpty then [] else issuers.map Caa.issue

end ChallengeRegistry

end Nameserver

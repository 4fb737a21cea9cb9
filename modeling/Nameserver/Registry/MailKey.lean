import Nameserver.Table
import Nameserver.Text.Basic

/-!
# Announced mail keys

Mail signers announce their public keys again and again.  A `MailKeyRegistry` keeps the last key of
each provider with the time of its announcement, and forgets a key that was not announced for five
refresh intervals.

**Time.**  Times are nanoseconds on a clock that never goes back.  An age limit too large to be
counted in 64 bits of seconds is no limit.

**Sweeping.**  A key goes when a sweep finds it too old, not before.  `Sweeper` says when sweeps are
due: one when it starts and one every minute after that; turns that were missed are made up for.
Several sweepers may share a registry.  What a sweep removes depends on the age of each key alone,
so `Sweeper.runAllUntil` may let one sweeper after the other take its turns.
-/

namespace Nameserver

/-- A second in nanoseconds. -/
def second : Nat := 1000000000

/-- A key and when it was announced. -/
structure MailKey where
  publicKey : Text
  /-- The time of the last announcement. -/
  announced : Nat
deriving DecidableEq, Repr

/-- The keys of all providers. -/
structure MailKeyRegistry where
  /-- The keys by provider, in lower case. -/
  keys : Table Text MailKey := []
  refreshInterval : Nat
deriving DecidableEq, Repr

namespace MailKeyRegistry

/-- After how many intervals without an announcement a key may go. -/
def expiryIntervals : Nat := 5

/-- Stores the key of a provider in place of the one before it. -/
def store (registry : MailKeyRegistry) (now : Nat) (provider publicKey : Text) :
    MailKeyRegistry :=
  { registry with keys := registry.keys.insert provider.lower ⟨publicKey, now⟩ }

/-- The key of a provider, which must be given in lower case. -/
def lookup? (registry : MailKeyRegistry) (provider : Text) : Option Text :=
  (registry.keys.get? provider).map (·.publicKey)

/-- The greatest age of a key, or `none` if there is no limit. -/
def maxAge? (registry : MailKeyRegistry) : Option Nat :=
  let age := registry.refreshInterval * expiryIntervals
  if age / second < UInt64.size then some age else none

/-- Whether a key may stay. -/
def isFresh (registry : MailKeyRegistry) (now : Nat) (key : MailKey) : Bool :=
  match registry.maxAge? with
  | some age => now - key.announced ≤ age
  | none => true

/-- Removes every key that is too old, and says how many there were. -/
def sweep (registry : MailKeyRegistry) (now : Nat) : Nat × MailKeyRegistry :=
  let kept := registry.keys.filter fun e => registry.isFresh now e.2
  (registry.keys.length - kept.length, { registry with keys := kept })

/-- The providers, in order. -/
def providers (registry : MailKeyRegistry) : List Text := Text.sort (registry.keys.map (·.1))

/-- The providers in order, each with the time of its last announcement. -/
def announcements (registry : MailKeyRegistry) : List (Text × Nat) :=
  registry.providers.filterMap fun provider =>
    (registry.keys.get? provider).map fun key => (provider, key.announced)

end MailKeyRegistry

/-- When the next sweep is due. -/
structure Sweeper where
  /-- The time of the next sweep. -/
  due : Nat
deriving DecidableEq, Repr

namespace Sweeper

/-- The time between two turns. -/
def interval : Nat := 60 * second

/-- A sweeper that starts now. -/
def start (now : Nat) : Sweeper := ⟨now⟩

/-- The sweeper after its turn. -/
def next (sweeper : Sweeper) : Sweeper := ⟨sweeper.due + interval⟩

/-- Takes every turn that falls due up to the time `stop`, each at its time, or now if that has
passed. -/
def runUntil (sweeper : Sweeper) (registry : MailKeyRegistry) (now stop : Nat) :
    Sweeper × MailKeyRegistry :=
  if sweeper.due ≤ stop then
    let time := max now sweeper.due
    runUntil sweeper.next (registry.sweep time).2 time stop
  else (sweeper, registry)
termination_by stop + 1 - sweeper.due
decreasing_by simp only [next, interval, second]; omega

/-- Lets several sweepers of one registry take every turn that falls due up to the time `stop`. -/
def runAllUntil (sweepers : List Sweeper) (registry : MailKeyRegistry) (now stop : Nat) :
    List Sweeper × MailKeyRegistry :=
  match sweepers with
  | [] => ([], registry)
  | sweeper :: rest =>
    let (sweeper, registry) := sweeper.runUntil registry now stop
    let (rest, registry) := runAllUntil rest registry now stop
    (sweeper :: rest, registry)

end Sweeper

end Nameserver

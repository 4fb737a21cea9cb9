/-!
# Tickets

A query that is passed on goes to several forwarders at once, and its client must get one reply.
The attempts share a `Ticket`, which decides who sends it.

**Redeeming.**  Whoever redeems the ticket first may reply, and nobody after that.

**Counting off.**  An attempt that brings no answer is counted off.  Whoever counts off the last one
then tries to redeem the ticket for an error reply.  These are two actions, between which others may
use the ticket.
-/

namespace Nameserver

/-- What the attempts of one query share. -/
structure Ticket where
  /-- Whether someone has redeemed it and may reply. -/
  redeemed : Bool := false
  /-- The attempts that have not been counted off so far. -/
  outstanding : Int
deriving DecidableEq, Repr

namespace Ticket

/-- A ticket for so many attempts. -/
def issue (attempts : Nat) : Ticket := { outstanding := attempts }

/-- Asks for the right to reply, which is given once. -/
def redeem (ticket : Ticket) : Bool × Ticket := (!ticket.redeemed, { ticket with redeemed := true })

/-- Counts off an attempt, and tells whether it was the last one. -/
def countOff (ticket : Ticket) : Bool × Ticket :=
  (ticket.outstanding = 1, { ticket with outstanding := ticket.outstanding - 1 })

end Ticket

end Nameserver

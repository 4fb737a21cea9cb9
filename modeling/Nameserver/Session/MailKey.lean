import Nameserver.Json.Reader
import Nameserver.Registry.MailKey
import Nameserver.Session.Message

/-!
# Announcements of mail keys

A mail signer connects and announces its key again and again.  Every frame is acknowledged, and a
key outlives the connection over which it came; it goes when the announcements stop.
-/

namespace Nameserver

/-- The announcement in a frame, if it can be used. -/
def MailKeyAnnouncement.ofFrame (payload : Bytes) : Except Failure MailKeyAnnouncement :=
  match (Json.parse? payload).bind ofJson? with
  | none => .error .invalidJson
  | some announcement => announcement.check.map fun _ => announcement

/-- Takes a frame, and acknowledges it. -/
def MailKeyRegistry.receive (registry : MailKeyRegistry) (now : Nat) (payload : Bytes) :
    Ack × MailKeyRegistry :=
  match MailKeyAnnouncement.ofFrame payload with
  | .error failure => (.ofFailure failure, registry)
  | .ok announcement =>
    (.ok, registry.store now announcement.provider announcement.publicKey)

end Nameserver

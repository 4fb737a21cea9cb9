import Nameserver.Net.Address

/-!
# Failures

Everything that can go wrong outside of a single DNS message, by cause.  `Failure.message` is the
one place that words it; clients of the private listeners and the operator see these texts.
-/

namespace Nameserver

/-- What is wrong with a name. -/
inductive NameDefect where
  | emptyName
  /-- Two dots stand side by side, or a dot stands at an end. -/
  | emptyLabel
  /-- A label has more than 63 octets. -/
  | longLabel
  /-- The name has more than 255 octets on the wire. -/
  | longName
  /-- A challenge is for no domain. -/
  | emptyDomain
  /-- A mail provider is not one label. -/
  | notOneLabel
deriving DecidableEq, Repr

/-- What is told of a defect, behind the name that has it. -/
def NameDefect.message : NameDefect → String
  | .emptyName => "empty name"
  | .emptyLabel => "empty label"
  | .longLabel => "label longer than 63 bytes"
  | .longName => "name longer than 255 bytes"
  | .emptyDomain => "empty domain"
  | .notOneLabel => "provider must be a single label"

/-- Why something could not be done. -/
inductive Failure where
  | invalidName (name : Text) (defect : NameDefect)
  /-- Two zones have the same apex. -/
  | duplicateZone (apex : Text)
  /-- A private listener would be reachable from outside. -/
  | insecureBind (ip : IpAddress)
  /-- A peer may not register challenges for a domain. -/
  | forbidden (peer : IpAddress) (domain : Text)
  /-- A challenge value is not a digest. -/
  | invalidChallenge (domain : Text)
  | emptyChallengeSet
  /-- A public key is not usable. -/
  | invalidMailKey (provider : Text)
  /-- A listener refused a request, with these words. -/
  | rejected (reason : Text)
  /-- A forwarder did not answer in time. -/
  | forwarderTimeout (forwarder : SocketAddress)
  /-- A forwarder answered that it could not or would not answer. -/
  | forwarderRejected (forwarder : SocketAddress) (rcode : UInt8)
  | io
  /-- A document is not the JSON that was expected. -/
  | invalidJson
deriving DecidableEq, Repr

namespace Failure

/-- A text in double quotes. -/
def quoted (t : Text) : Text := '"' :: t ++ ['"']

/-- The words for a failure, in logs and in refusals. -/
def message : Failure → Text
  | .invalidName name defect =>
    "invalid domain name ".toList ++ quoted name ++ ": ".toList ++ defect.message.toList
  | .duplicateZone apex => "zone ".toList ++ quoted apex ++ " is configured more than once".toList
  | .insecureBind ip =>
    "private listener bind address (".toList ++ ip.text ++
      ") must be a loopback or private IP".toList
  | .forbidden peer domain =>
    "IP ".toList ++ peer.text ++ " is not authorized to register challenges for ".toList ++
      quoted domain
  | .invalidChallenge domain =>
    "TXT value for ".toList ++ quoted domain ++ " is not a valid DNS-01 challenge response".toList
  | .emptyChallengeSet => "challenge request is empty".toList
  | .invalidMailKey provider =>
    "invalid DKIM announcement for provider ".toList ++ quoted provider
  | .rejected reason => "request rejected: ".toList ++ reason
  | .forwarderTimeout forwarder => "upstream ".toList ++ forwarder.text ++ " timed out".toList
  | .forwarderRejected forwarder rcode =>
    "upstream ".toList ++ forwarder.text ++ " answered with rcode ".toList ++
      Text.ofNat rcode.toNat
  | .io => "an IO error occurred".toList
  | .invalidJson => "invalid JSON".toList

end Failure

end Nameserver

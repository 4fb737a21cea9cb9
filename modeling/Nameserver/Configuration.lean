import Nameserver.Zone.Basic

/-!
# Configuration

What the operator decides: where to listen, which zones to serve, whom to forward for, and whether
challenges and mail keys are taken.

**Access rules.**  Three questions are answered here.  `Configuration.mayForward` says for whose
queries other servers are asked, `ChallengePolicy.mayUpdate` says which peer may register challenges
for which domain, and `Configuration.check` refuses private listeners that would be reachable from
outside.  Peers count under their canonical address.
-/

namespace Nameserver

/-- Who may register challenges, and where. -/
structure ChallengePolicy where
  listen : SocketAddress
  /-- The authorities that may issue while a challenge is pending. -/
  issuers : List Text := ["letsencrypt.org".toList]
  /-- The domains that each network may register challenges for; without it everybody may. -/
  grants? : Option (Table Network (List Text)) := none
deriving Repr

/-- How mail keys are taken. -/
structure MailKeyPolicy where
  listen : SocketAddress
  refreshSeconds : Nat := 60
deriving Repr

/-- The configuration of a server. -/
structure Configuration where
  listen : List SocketAddress
  /-- Where the status is served, if it is. -/
  statusListen? : Option SocketAddress := none
  /-- Seconds that a status request may take. -/
  statusTimeout : Nat := 10
  /-- The servers that other queries are forwarded to. -/
  forwarders : List SocketAddress := []
  /-- The networks whose queries are forwarded. -/
  forwardFor : List Network := []
  /-- Seconds that a forwarder may take. -/
  forwardTimeout : Nat := 2
  /-- How many queries may wait for one forwarder. -/
  queueDepth : Nat := 64
  zones : List ZoneConfig := []
  /-- Who may register challenges; without it nobody may. -/
  challenges? : Option ChallengePolicy := none
  /-- How mail keys are taken; without it none are. -/
  mailKeys? : Option MailKeyPolicy := none
deriving Repr

namespace ChallengePolicy

/-- The names of the fields in a document, in their order. -/
def fieldNames : List String := ["bind_addr", "caa_issuers", "acl"]

/-- Reads a policy, whose issuers and grants may be left out. -/
def ofJson? (j : Json) : Option ChallengePolicy :=
  match Json.record? fieldNames j with
  | some [listen, issuers, grants] => do
    some
      { listen := ← Json.required? SocketAddress.ofJson? listen
        issuers := ←
          Json.defaulted? (Json.list? Json.text?) ["letsencrypt.org".toList] issuers
        grants? := ←
          Json.defaulted?
            (Json.nullable? (Json.table? Network.ofText? fun j =>
              (Json.list? Json.text? j).map List.eraseDups)) none grants }
  | _ => none

/-- Whether a peer may register challenges for a domain: some network that holds the peer is granted
the domain or a parent of it. -/
def mayUpdate (policy : ChallengePolicy) (peer : IpAddress) (domain : Text) : Bool :=
  match policy.grants? with
  | none => true
  | some grants =>
    grants.any fun (network, domains) =>
      network.contains peer.canonical &&
        domains.any fun granted => Text.isSameOrBelow domain (Text.normalize granted)

end ChallengePolicy

namespace MailKeyPolicy

/-- The names of the fields in a document, in their order. -/
def fieldNames : List String := ["bind_addr", "refresh_interval"]

/-- Reads a policy, whose interval may be left out. -/
def ofJson? (j : Json) : Option MailKeyPolicy :=
  match Json.record? fieldNames j with
  | some [listen, refresh] => do
    some
      { listen := ← Json.required? SocketAddress.ofJson? listen
        refreshSeconds := ← Json.defaulted? Json.uint64? 60 refresh }
  | _ => none

end MailKeyPolicy

namespace Configuration

/-- The names of the fields in a document, in their order. -/
def fieldNames : List String :=
  ["dns_bind_addrs", "api_bind_addr", "api_timeout", "forwarders", "forward_for",
    "forward_timeout", "forward_queue_depth", "zones", "acme", "dkim"]

/-- Reads a configuration, of which only the addresses to listen at must be there. -/
def ofJson? (j : Json) : Option Configuration :=
  match Json.record? fieldNames j with
  | some [listen, status, statusTimeout, forwarders, forwardFor, forwardTimeout, depth, zones,
      challenges, mailKeys] => do
    some
      { listen := ← Json.required? (Json.list? SocketAddress.ofJson?) listen
        statusListen? := ← Json.defaulted? (Json.nullable? SocketAddress.ofJson?) none status
        statusTimeout := ← Json.defaulted? Json.uint64? 10 statusTimeout
        forwarders := ← Json.defaulted? (Json.list? SocketAddress.ofJson?) [] forwarders
        forwardFor := ← Json.defaulted? (Json.list? Network.ofJson?) [] forwardFor
        forwardTimeout := ← Json.defaulted? Json.uint64? 2 forwardTimeout
        queueDepth := ← Json.defaulted? Json.uint64? 64 depth
        zones := ← Json.defaulted? (Json.list? ZoneConfig.ofJson?) [] zones
        challenges? := ← Json.defaulted? (Json.nullable? ChallengePolicy.ofJson?) none challenges
        mailKeys? := ← Json.defaulted? (Json.nullable? MailKeyPolicy.ofJson?) none mailKeys }
  | _ => none

/-- The addresses of the private listeners, in the order in which they are checked. -/
def privateListeners (config : Configuration) : List SocketAddress :=
  config.statusListen?.toList ++ (config.challenges?.map (·.listen)).toList ++
    (config.mailKeys?.map (·.listen)).toList

/-- Refuses a configuration whose private listeners would be reachable from outside. -/
def check (config : Configuration) : Except Failure Configuration :=
  match config.privateListeners.find? fun address => !address.ip.isPrivate with
  | some address => .error (.insecureBind address.ip)
  | none => .ok config

/-- Reads and checks a configuration. -/
def ofDocument (document : Bytes) : Except Failure Configuration :=
  match (Json.parse? document).bind ofJson? with
  | some config => config.check
  | none => .error .invalidJson

/-- Whether queries from an address may be forwarded. -/
def mayForward (config : Configuration) (source : IpAddress) : Bool :=
  !config.forwarders.isEmpty &&
    config.forwardFor.any fun network => network.contains source.canonical

end Configuration

end Nameserver

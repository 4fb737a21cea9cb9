import Nameserver.Forwarding.Pool
import Nameserver.Server
import Nameserver.Session.Client
import Nameserver.Status

/-!
# The service

All listeners together: they share the zones, the registries and the forwarding workers.

**One event at a time.**  Every function below is the service's reaction to one thing that happens:
a datagram arrives, a client connects, sends or hangs up, a page is asked for, time passes, the
operator stops the service.  What a client would see is returned or can be read off the service that
comes out.

**Shared data.**  A response is made of the zones and of what the registries hold when the query is
looked at (`Service.resolver`).
-/

namespace Nameserver

/-- What a connection is for. -/
inductive Purpose where
  /-- It is the challenge session with this number. -/
  | challenges (session : Nat)
  | mailKeys
deriving DecidableEq, Repr

/-- A connection and what it is for. -/
structure Conversation where
  purpose : Purpose
  connection : Connection := {}
deriving DecidableEq, Repr

/-- A service that runs or has run. -/
structure Service where
  config : Configuration
  zones : ZoneStore
  /-- The servers, in the order of the configuration. -/
  servers : List Server
  pool : Pool
  /-- The challenge sessions, if challenges are taken. -/
  challenges? : Option ChallengeListener := none
  /-- The mail keys, if announcements are taken. -/
  mailKeys? : Option MailKeyRegistry := none
  /-- When the next sweep of the mail keys is due. -/
  sweeper : Sweeper := .start 0
  now : Nat := 0
  conversations : List Conversation := []
  isRunning : Bool := true
deriving Repr

namespace Service

/-- Makes the zones of a configuration and whatever it switches on. -/
def start (config : Configuration) : Except Failure Service :=
  (ZoneStore.ofConfigs config.zones).map fun zones =>
    { config
      zones
      servers := config.listen.map fun _ => { config }
      pool := .start config.forwarders config.queueDepth
      challenges? := config.challenges?.map fun policy => { policy }
      mailKeys? := config.mailKeys?.map fun policy =>
        { refreshInterval := policy.refreshSeconds * second } }

/-- A snapshot of the dynamic sources. -/
def sources (service : Service) : Sources :=
  { challenges? := service.challenges?.map (·.registry.values)
    issuers? := service.challenges?.map (·.issuerRecords)
    mailKeys? := service.mailKeys?.map fun registry provider => (registry.lookup? provider).toList }

/-- The zones with a snapshot of the dynamic sources. -/
def resolver (service : Service) : Resolver :=
  { zones := service.zones, sources := service.sources }

/-- Lets a server have a datagram.  A query that is forwarded is offered to the workers, and if none
takes it the error reply goes out; it has the next number in the pool. -/
def receive (service : Service) (server : Nat) (source : IpAddress) (datagram : Bytes) :
    Disposition × Service :=
  match service.isRunning, service.servers[server]? with
  | true, some s =>
    let (disposition, s) := s.receive service.resolver source datagram
    let service := { service with servers := service.servers.set server s }
    let pool := match disposition with
      | .forwarded =>
        (service.pool.forward (datagram.take bufferSize)).step
          (.settle service.pool.queries.length)
      | _ => service.pool
    (disposition, { service with pool })
  | _, _ => (.dropped, service)

/-- The number of the next connection. -/
def nextConnection (service : Service) : Nat := service.conversations.length

/-- Opens a challenge session for a client, if challenges are taken. -/
def connectChallenges? (service : Service) (peer : IpAddress) : Option Service :=
  service.challenges?.map fun listener =>
    { service with
      challenges? := some (listener.connect peer)
      conversations :=
        service.conversations ++ [{ purpose := .challenges listener.sessions.length }] }

/-- Opens a connection for a mail signer, if announcements are taken. -/
def connectMailKeys? (service : Service) : Option Service :=
  service.mailKeys?.map fun _ =>
    { service with conversations := service.conversations ++ [{ purpose := .mailKeys }] }

/-- Takes the payload of a frame. -/
def acknowledge (purpose : Purpose) : FrameHandler Service := fun service payload =>
  match purpose with
  | .challenges session =>
    match service.challenges? with
    | none => (none, service)
    | some listener =>
      let (ack?, listener) := listener.receive session payload
      (ack?, { service with challenges? := some listener })
  | .mailKeys =>
    match service.mailKeys? with
    | none => (none, service)
    | some registry =>
      let (ack, registry) := registry.receive service.now payload
      (some ack, { service with mailKeys? := some registry })

/-- Does what the end of a connection calls for. -/
def dismiss (service : Service) (purpose : Purpose) : Service :=
  match purpose with
  | .challenges session =>
    { service with challenges? := service.challenges?.map (·.close session) }
  | .mailKeys => service

/-- The service with this connection in the place of another, which is dismissed if it has ended. -/
def putConnection (service : Service) (number : Nat) (purpose : Purpose)
    (connection : Connection) : Service :=
  let service :=
    { service with conversations := service.conversations.set number { purpose, connection } }
  if connection.isOpen then service else service.dismiss purpose

/-- Takes in what the peer of a connection has sent, and has its frames acknowledged. -/
def write (service : Service) (number : Nat) (bytes : Bytes) : Service :=
  match service.conversations[number]? with
  | none => service
  | some { purpose, connection } =>
    let (connection, service) := connection.write (acknowledge purpose) bytes service
    service.putConnection number purpose connection

/-- The next frame that the peer of a connection reads, if there is one. -/
def read (service : Service) (number : Nat) : Option Bytes × Service :=
  match service.conversations[number]? with
  | none => (none, service)
  | some c =>
    let (payload?, connection) := c.connection.read
    (payload?,
      { service with conversations := service.conversations.set number { c with connection } })

/-- Ends a connection because its peer has hung up. -/
def hangUp (service : Service) (number : Nat) : Service :=
  match service.conversations[number]? with
  | none => service
  | some { purpose, connection } => service.putConnection number purpose connection.close

/-- What the peer of a connection has not read. -/
def unread (service : Service) (number : Nat) : Bytes :=
  match service.conversations[number]? with
  | none => []
  | some c => c.connection.unread

/-- What a client sees that opens a challenge session and asks for challenges.  A session that is
refused is given up at once. -/
def holdChallenges? (service : Service) (link : Link) (peer : IpAddress)
    (request : ChallengeRequest) : Option (Except Failure Unit × Service) :=
  match link, Client.request request.toJson with
  | .down, _ => service.challenges?.map fun _ => (.error .io, service)
  | .up, frame =>
    (service.connectChallenges? peer).map fun connected =>
      let number := service.nextConnection
      match frame with
      | .error failure => (.error failure, connected.hangUp number)
      | .ok bytes =>
        let (payload?, talked) := (connected.write number bytes).read number
        match Client.outcome payload? with
        | .ok _ => (.ok (), talked)
        | .error failure => (.error failure, talked.hangUp number)

/-- What the service serves at the moment. -/
def status (service : Service) : Status :=
  { zones := Text.sort service.zones.apexes
    pendingChallenges? := service.challenges?.map (·.registry.size)
    mailKeys? := service.mailKeys?.map (·.announcements) }

/-- The answer to a request for a page, if the status is served. -/
def page? (service : Service) (stamp : Nat → Text) (method target : Text) : Option PageReply :=
  service.config.statusListen?.map fun _ => service.status.reply stamp method target

/-- Lets time pass, in which the sweeper takes its turns. -/
def sleep (service : Service) (duration : Nat) : Service :=
  let stop := service.now + duration
  match service.mailKeys? with
  | none => { service with now := stop }
  | some registry =>
    let (sweeper, registry) := service.sweeper.runUntil registry service.now stop
    { service with now := stop, sweeper, mailKeys? := some registry }

/-- Stops the service: all connections end, and so does every worker that has nothing to do.  The
others may end once they have nothing to do. -/
def stop (service : Service) : Service :=
  let stopped := (List.range service.conversations.length).foldl hangUp service
  { stopped with
    isRunning := false
    pool := stopped.pool.run ((List.range stopped.pool.workers.length).map .stop) }

end Service

end Nameserver

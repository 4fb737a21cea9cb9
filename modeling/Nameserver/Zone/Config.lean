import Nameserver.Json.Decode
import Nameserver.Net.Network

/-!
# Zones as they are configured

A `ZoneConfig` is what the operator wrote about one zone.  Names are taken as they stand; they are
normalized, completed and checked when a `Zone` is made of them.
-/

namespace Nameserver

/-- The description of a zone. -/
structure ZoneConfig where
  domain : Text
  primary : Text
  admin : Text
  serial : UInt32
  /-- How long its records may be kept, in seconds. -/
  ttl : UInt32 := 60
  nameservers : List Text := []
  addresses : Table Text (List Ipv4Address) := []
  aliases : Table Text Text := []
  texts : Table Text (List Text) := []
  /-- The preference of each mail exchange. -/
  exchanges : Table Text UInt16 := []
deriving Repr

/-- Reads a version 4 address from a string. -/
def Ipv4Address.ofJson? (j : Json) : Option Ipv4Address := j.text?.bind Ipv4Address.ofText?

/-- Reads an address with its port from a string. -/
def SocketAddress.ofJson? (j : Json) : Option SocketAddress := j.text?.bind SocketAddress.ofText?

/-- Reads a network from a string. -/
def Network.ofJson? (j : Json) : Option Network := j.text?.bind Network.ofText?

namespace ZoneConfig

/-- The names of the fields in a document, in their order. -/
def fieldNames : List String :=
  ["domain", "primary_ns", "ns_admin", "serial", "ttl", "nameservers", "a", "cname", "txt", "mx"]

/-- Reads the description of a zone. -/
def ofJson? (j : Json) : Option ZoneConfig :=
  match Json.record? fieldNames j with
  | some [domain, primary, admin, serial, ttl, nameservers, a, cname, txt, mx] => do
    some
      { domain := ← Json.required? Json.text? domain
        primary := ← Json.required? Json.text? primary
        admin := ← Json.required? Json.text? admin
        serial := ← Json.required? Json.uint32? serial
        ttl := ← Json.defaulted? Json.uint32? 60 ttl
        nameservers := ← Json.defaulted? (Json.list? Json.text?) [] nameservers
        addresses := ←
          Json.defaulted? (Json.table? some (Json.list? Ipv4Address.ofJson?)) [] a
        aliases := ← Json.defaulted? (Json.table? some Json.text?) [] cname
        texts := ← Json.defaulted? (Json.table? some (Json.list? Json.text?)) [] txt
        exchanges := ← Json.defaulted? (Json.table? some Json.uint16?) [] mx }
  | _ => none

end ZoneConfig

end Nameserver

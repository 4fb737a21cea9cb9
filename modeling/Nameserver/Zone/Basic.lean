import Nameserver.Failure
import Nameserver.Name
import Nameserver.Zone.Config

/-!
# Zones

A `Zone` is the data of one zone with every name in its normal form: no trailing dots, lower case,
labels of 1 to 63 octets, at most 255 octets on the wire.

**Completing names.**  The keys of addresses, aliases and texts, and the targets of aliases, may be
written as `@` for the apex, relative to the apex, or in full (`Zone.qualify`).  Two keys that come
out as the same name leave one entry, that of the later key.

**First fault.**  `Zone.ofConfig` checks the apex, the exchanges, the primary name server, the
administrator, the name servers, the addresses, the aliases and the texts in this order, and reports
the first name that cannot be used.
-/

namespace Nameserver

/-- The data of a zone. -/
structure Zone where
  apex : Text
  serial : UInt32
  primary : Text
  /-- The mailbox of the administrator, in the form of a name. -/
  admin : Text
  /-- How long its records may be kept, in seconds. -/
  ttl : UInt32
  nameservers : List Text := []
  addresses : Table Text (List Ipv4Address) := []
  aliases : Table Text Text := []
  texts : Table Text (List Text) := []
  /-- Mail exchanges and their preferences, in the order of the exchanges. -/
  exchanges : List (Text × UInt16) := []
deriving Repr

namespace Zone

/-- The first thing wrong with a name, if any. -/
def defect? (name : Text) : Option NameDefect :=
  if name.isEmpty then some .emptyName
  else if (Text.parts name).any List.isEmpty then some .emptyLabel
  else if (Text.parts name).any fun part => Name.maxLabel < Utf8.size part then some .longLabel
  else if Name.maxSize < Name.size name then some .longName
  else none

/-- The name, if it can be written on the wire. -/
def valid (name : Text) : Except Failure Text :=
  match defect? name with
  | none => .ok name
  | some defect => .error (.invalidName name defect)

/-- The full name for a key of a zone, before it is checked. -/
def complete (apex key : Text) : Text :=
  let key := Text.normalize key
  if key.isEmpty || key == ['@'] then apex
  else if key == apex || ('.' :: apex).isSuffixOf key then key
  else key ++ '.' :: apex

/-- The full name for a key of a zone. -/
def qualify (apex key : Text) : Except Failure Text := valid (complete apex key)

/-- Whether one exchange stands before or beside another: by name, then by preference. -/
def exchangeLe (x y : Text × UInt16) : Bool := x.1 < y.1 || (x.1 == y.1 && x.2 ≤ y.2)

/-- The entries of a table under their full names, with each value checked or changed by `value`. -/
def qualifyTable {α β : Type} (apex : Text) (value : α → Except Failure β) (t : Table Text α) :
    Except Failure (Table Text β) :=
  (t.mapM fun (key, a) => do
    let name ← qualify apex key
    let b ← value a
    return (name, b)).map Table.ofEntries

/-- Makes a zone of its description. -/
def ofConfig (config : ZoneConfig) : Except Failure Zone := do
  let apex ← valid (Text.normalize config.domain)
  let exchanges ← config.exchanges.mapM fun (exchange, preference) =>
    return (← valid (Text.normalize exchange), preference)
  let primary ← valid (Text.normalize config.primary)
  let admin ← valid (Text.normalize (config.admin.map fun c => if c = '@' then '.' else c))
  let nameservers ← config.nameservers.mapM fun host => valid (Text.normalize host)
  let addresses ← qualifyTable apex .ok config.addresses
  let aliases ← qualifyTable apex (qualify apex) config.aliases
  let texts ← qualifyTable apex .ok config.texts
  return {
    apex, primary, admin, nameservers, addresses, aliases, texts
    serial := config.serial
    ttl := config.ttl
    exchanges := sortBy exchangeLe exchanges }

/-- Whether a name is the apex or below it. -/
def contains (zone : Zone) (name : Text) : Bool := Text.isSameOrBelow name zone.apex

/-- Whether a name is the apex. -/
def isApex (zone : Zone) (name : Text) : Bool := name == zone.apex

/-- The name that an alias stands for. -/
def alias? (zone : Zone) (name : Text) : Option Text := zone.aliases.get? name

/-- The addresses of a name. -/
def addressesOf (zone : Zone) (name : Text) : List Ipv4Address :=
  (zone.addresses.get? name).getD []

/-- The texts of a name. -/
def textsOf (zone : Zone) (name : Text) : List Text := (zone.texts.get? name).getD []

end Zone

end Nameserver

import Nameserver.Zone.Basic

/-!
# Zone stores

All zones of a server, by apex.  `ZoneStore.find?` looks for the most specific zone of a name: it
tries the name itself and then what stands behind each of its dots, longest first.
-/

namespace Nameserver

/-- The name and the texts behind each of its dots, longest first. -/
def Name.ancestors (name : Text) : List Text :=
  name :: go name
where
  go : Text → List Text
    | [] => []
    | c :: rest => if c = '.' then rest :: go rest else go rest

/-- Zones by apex. -/
structure ZoneStore where
  zones : Table Text Zone := []
deriving Repr

namespace ZoneStore

/-- The store with one more zone. -/
def insert (store : ZoneStore) (zone : Zone) : Except Failure ZoneStore :=
  match store.zones.get? zone.apex with
  | some _ => .error (.duplicateZone zone.apex)
  | none => .ok ⟨store.zones.insert zone.apex zone⟩

/-- Makes a store of the descriptions of its zones. -/
def ofConfigs (configs : List ZoneConfig) : Except Failure ZoneStore :=
  configs.foldlM (fun store config => do store.insert (← Zone.ofConfig config)) {}

/-- The most specific zone that holds a name. -/
def find? (store : ZoneStore) (name : Text) : Option Zone :=
  (Name.ancestors name).findSome? store.zones.get?

/-- The names of the zones. -/
def apexes (store : ZoneStore) : List Text := store.zones.map (·.1)

/-- The number of zones. -/
def size (store : ZoneStore) : Nat := store.zones.length

end ZoneStore

end Nameserver

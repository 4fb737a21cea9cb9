import Nameserver.Proofs.Resolution.Layout
import Nameserver.Proofs.Zone.Finding
import Nameserver.Proofs.Zone.Vetting
import Nameserver.Server

/-!
# Whose turn it is

Addresses and name servers take turns: an answer starts with the one that the number of the datagram
picks.  A server numbers all datagrams that reach it, so in a run the number tells the place of the
datagram (`Server.getElem?_run`), up to the size of the counter.

**Turns.**  Hence the first item of an answer is the one at the number of its datagram, counted
around the list (`Server.first?_run`).  Some queries let each item come first once exactly if their
numbers, counted around the list, are all different (`Server.takes_turns`).  Those of queries that
come one right after the other are, as long as the counter does not start over between them.

**No promise beyond that.**  What else arrives in between counts as well, so it can bring the same
item to the front again and again (`Server.turns_skipped`).
-/

namespace Nameserver

/-! ## Runs of a server -/

/-- A datagram that reaches a server, whom it is from, and what the sources hold at that moment. -/
structure Incoming where
  sources : Sources := {}
  source : IpAddress
  datagram : Bytes

/-- The datagram asks for a type at a name. -/
def Incoming.Asks (incoming : Incoming) (name : Text) (type : RecordType) : Prop :=
  ∃ request, Request.parse (incoming.datagram.take bufferSize) = .ok request ∧
    request.question.name = name ∧ request.question.type = type

namespace Disposition

/-- The data of the first answer that a client reads. -/
def first? : Disposition → Option RecordData
  | .replied message => do
    let (_, t) ← Transcript.read? message
    let entry ← t.answers.head?
    RecordData.decode? entry.type entry.data
  | .dropped | .forwarded => none

/-- There is a reply, and it is not marked as one from which something is left out. -/
def IsWhole : Disposition → Prop
  | .replied message => ∃ h, Header.decode message = .ok h ∧ h.truncated = false
  | .dropped | .forwarded => False

end Disposition

namespace Server

/-- What becomes of datagrams that reach a server one after the other. -/
def run (server : Server) (zones : ZoneStore) : List Incoming → List Disposition
  | [] => []
  | incoming :: arrivals =>
    let (disposition, server) :=
      server.receive { zones, sources := incoming.sources } incoming.source incoming.datagram
    disposition :: server.run zones arrivals

/-- The number that a server gives to the datagram at some place of a run. -/
def number (server : Server) (place : Nat) : Nat :=
  (server.nextQuery + UInt64.ofNat place).toNat

/-- The counter starts over behind its largest number. -/
lemma number_add (server : Server) (start k : Nat) :
    server.number (start + k) = (server.number start + k) % 2 ^ 64 := by
  simp [number, ← Nat.add_assoc]

/-- Each datagram has the next number, whatever came before it. -/
theorem getElem?_run (server : Server) (zones : ZoneStore) (arrivals : List Incoming)
    (place : Nat) :
    (server.run zones arrivals)[place]? = arrivals[place]?.map fun incoming =>
      dispose server.config { zones, sources := incoming.sources }
        (server.nextQuery + UInt64.ofNat place) incoming.source
        (incoming.datagram.take bufferSize) := by
  induction arrivals generalizing server place with
  | nil => rfl
  | cons incoming arrivals ih =>
      cases place with
      | zero =>
          have hnumber : server.nextQuery + UInt64.ofNat 0 = server.nextQuery :=
            UInt64.add_zero _
          rw [hnumber]
          rfl
      | succ place =>
          have hnumber : server.nextQuery + UInt64.ofNat (place + 1) =
              server.nextQuery + 1 + UInt64.ofNat place := by
            rw [UInt64.ofNat_add, UInt64.add_assoc, UInt64.add_comm (UInt64.ofNat place)]
            rfl
          rw [hnumber]
          exact ih { server with nextQuery := server.nextQuery + 1 } place

/-- A query about a name of a zone is answered at once. -/
lemma dispose_of_find? (resolver : Resolver) {config : Configuration} {query : UInt64}
    {source : IpAddress} {datagram : Bytes} {request : Request} {zone : Zone}
    (hparse : Request.parse datagram = .ok request)
    (hzone : resolver.zones.find? request.question.name = some zone) :
    dispose config resolver query source datagram =
      .replied (resolver.respond request query (config.mayForward source)) := by
  have hlocal : resolver.isLocal request = true := by rw [Resolver.isLocal, hzone]; rfl
  simp [dispose, hparse, hlocal]

end Server

namespace Disposition

variable {configs : List ZoneConfig} {resolver : Resolver} {request : Request} {query : UInt64}
  {recursionAvailable : Bool} {datagram : Bytes}

lemma isWhole_respond_iff (resolver : Resolver)
    (hstore : ZoneStore.ofConfigs configs = .ok resolver.zones) :
    (replied (resolver.respond request query recursionAvailable)).IsWhole ↔
      Resolver.isCut request (resolver.records query request.question) = false := by
  have hheader := (Resolver.carries_respond hstore request query recursionAvailable).header
  simp only [IsWhole, hheader, Except.ok.injEq, exists_eq_left']
  rfl

/-- What comes first in the records comes first for a client. -/
lemma first?_respond (resolver : Resolver)
    (hstore : ZoneStore.ofConfigs configs = .ok resolver.zones)
    (hparse : Request.parse datagram = .ok request)
    (hwhole : Resolver.isCut request (resolver.records query request.question) = false)
    (hsound : ∀ r ∈ resolver.records query request.question, r.data.IsSound) :
    (replied (resolver.respond request query recursionAvailable)).first? =
      (resolver.records query request.question).head?.map Record.data := by
  obtain ⟨t, hread, hanswers⟩ := Resolver.read_whole resolver hstore hparse query recursionAvailable
  simp only [first?, hread, hanswers hwhole, Option.bind_eq_bind, Option.bind_some]
  cases hrecords : resolver.records query request.question with
  | nil => rfl
  | cons r rest =>
      have hr : r ∈ resolver.records query request.question := by rw [hrecords]; simp
      exact RecordData.decode?_encode (hsound r hr)

end Disposition

/-! ## What takes turns -/

/-- Data of a type that takes turns in the answers about a name of a zone. -/
inductive Zone.TakesTurns (zone : Zone) : Text → RecordType → List RecordData → Prop
  | addresses {name : Text} (halias : zone.alias? name = none) :
      TakesTurns zone name RecordType.a ((zone.addressesOf name).map .a)
  | nameservers : TakesTurns zone zone.apex RecordType.ns (zone.nameservers.map .ns)

namespace Zone.TakesTurns

variable {config : ZoneConfig} {zone : Zone} {name : Text} {type : RecordType}
  {items : List RecordData} {resolver : Resolver} {q : Question}

lemma isSound (h : zone.TakesTurns name type items) (hmade : ofConfig config = .ok zone) :
    ∀ data ∈ items, data.IsSound := by
  intro data hdata
  cases h with
  | addresses halias =>
      obtain ⟨address, -, rfl⟩ := List.mem_map.mp hdata
      trivial
  | nameservers =>
      obtain ⟨host, hhost, rfl⟩ := List.mem_map.mp hdata
      have hname : host ∈ zone.names := by simp [names, hhost]
      exact .inr (isName_of_mem_names hmade hname).labels

/-- The records of an answer are the items from the one whose turn it is. -/
lemma records_eq (resolver : Resolver) (h : zone.TakesTurns q.name q.type items)
    (hzone : resolver.zones.find? q.name = some zone) (query : UInt64) :
    resolver.records query q =
      (items.rotate (query.toNat % items.length)).map fun data => ⟨q.wireName, zone.ttl, data⟩ := by
  simp only [Resolver.records, hzone]
  generalize hname : q.name = name at h
  generalize htype : q.type = type at h
  cases h with
  | addresses halias =>
      have hfollows : Resolver.Follows zone q :=
        Resolver.follows_of_type (by rw [htype]; decide)
      rw [Resolver.reference_of_alias?_eq_none hfollows (hname ▸ halias), htype, hname]
      simp only [Resolver.referenceData, if_true, List.map_rotate, List.length_map]
  | nameservers =>
      rw [Resolver.reference, if_neg (by rw [htype]; decide), if_pos ⟨htype, hname⟩]
      simp only [List.map_rotate, List.length_map]

/-- The item whose turn it is comes first. -/
lemma head?_records (h : zone.TakesTurns q.name q.type items)
    (hzone : resolver.zones.find? q.name = some zone) (query : UInt64) :
    (resolver.records query q).head?.map Record.data = items[query.toNat % items.length]? := by
  rw [h.records_eq resolver hzone, List.head?_map, Option.map_map]
  cases items with
  | nil => rfl
  | cons first rest =>
      have hlt : query.toNat % (first :: rest).length < (first :: rest).length :=
        Nat.mod_lt _ (Nat.zero_lt_succ _)
      rw [List.head?_rotate hlt]
      exact Option.map_id'

end Zone.TakesTurns

/-! ## Turns in a run -/

/-- Among different items each is picked once exactly if no two picks are the same. -/
lemma existsUnique_pick_iff {α : Type} {items : List α} (hdistinct : items.Nodup)
    {picks : Fin items.length → Nat} (hpicks : ∀ k, picks k < items.length) :
    (∀ x ∈ items, ∃! k, items[picks k]? = some x) ↔ Function.Injective picks := by
  constructor
  · intro hall j k heq
    have hj : items[picks j]? = some (items.get ⟨picks j, hpicks j⟩) :=
      List.getElem?_eq_getElem (hpicks j)
    have hk : items[picks k]? = some (items.get ⟨picks j, hpicks j⟩) := heq ▸ hj
    exact (hall _ (List.getElem_mem (hpicks j))).unique hj hk
  · intro hinjective x hx
    let pick : Fin items.length → Fin items.length := fun k => ⟨picks k, hpicks k⟩
    have hpick : Function.Injective pick := fun j k heq => hinjective (congrArg Fin.val heq)
    obtain ⟨i, hi, rfl⟩ := List.getElem_of_mem hx
    obtain ⟨k, hk⟩ := (Finite.injective_iff_surjective.mp hpick) ⟨i, hi⟩
    have hk : picks k = i := congrArg Fin.val hk
    have hpicked : items[picks k]? = some items[i] := by rw [hk, List.getElem?_eq_getElem hi]
    refine ⟨k, hpicked, fun j hj => hinjective ?_⟩
    exact (List.getElem?_inj (hpicks j) hdistinct).mp (hj.trans hpicked.symm)

namespace Server

variable {configs : List ZoneConfig} {store : ZoneStore} {zone : Zone} {name : Text}
  {type : RecordType} {items : List RecordData}

/-- The answer to a datagram starts with the item that its number picks. -/
lemma first?_run (hstore : ZoneStore.ofConfigs configs = .ok store)
    (hzone : store.find? name = some zone) (hturns : zone.TakesTurns name type items)
    {server : Server} {arrivals : List Incoming} {place : Nat}
    (hasks : ∃ incoming ∈ arrivals[place]?, incoming.Asks name type)
    (hwhole : ∃ disposition ∈ (server.run store arrivals)[place]?, disposition.IsWhole) :
    (server.run store arrivals)[place]?.bind Disposition.first? =
      items[server.number place % items.length]? := by
  obtain ⟨incoming, hincoming, request, hparse, rfl, rfl⟩ := hasks
  obtain ⟨disposition, hdisposition, hwhole⟩ := hwhole
  let resolver : Resolver := { zones := store, sources := incoming.sources }
  rw [getElem?_run, Option.mem_def.mp hincoming, Option.map_some,
    dispose_of_find? resolver hparse hzone] at hdisposition ⊢
  rw [Option.mem_some_iff] at hdisposition
  subst hdisposition
  have hcut := (Disposition.isWhole_respond_iff resolver hstore).mp hwhole
  obtain ⟨config, -, hmade⟩ := ZoneStore.exists_config hstore hzone
  have hrecords := hturns.records_eq resolver hzone
  have hsound : ∀ r ∈ resolver.records (server.nextQuery + UInt64.ofNat place) request.question,
      r.data.IsSound := by
    intro r hr
    rw [hrecords] at hr
    obtain ⟨data, hdata, rfl⟩ := List.mem_map.mp hr
    exact hturns.isSound hmade data (List.mem_rotate.mp hdata)
  rw [Option.bind_some, Disposition.first?_respond resolver hstore hparse hcut hsound]
  exact hturns.head?_records hzone _

/-- Numbers in a row pick all items, unless the counter starts over between them. -/
lemma injective_number_add (server : Server) {start n : Nat}
    (hcounts : server.number start + n ≤ 2 ^ 64 ∨ n ∣ 2 ^ 64) :
    Function.Injective fun k : Fin n => server.number (start + k) % n := by
  intro j k heq
  have hmod : ∀ k : Fin n, server.number (start + k) % n = (server.number start + k) % n := by
    intro k
    rw [number_add]
    rcases hcounts with hbefore | hdivides
    · rw [Nat.mod_eq_of_lt (show server.number start + k < 2 ^ 64 by omega)]
    · exact Nat.mod_mod_of_dvd _ hdivides
  dsimp only at heq
  rw [hmod, hmod] at heq
  have hoffsets : (j : Nat) ≡ k [MOD n] := Nat.ModEq.add_left_cancel' _ heq
  exact Fin.ext (hoffsets.eq_of_lt_of_lt j.isLt k.isLt)

/-- **Taking turns.**  In a run of a server, whatever reaches it, take some queries for addresses of
a name that is no alias, or for the name servers of a zone, as many as there are such items, with
whole answers.  Each answer starts with the item that is at the number of the query, counted around
the list.  So each item comes first in exactly one of the answers if and only if no two of these
counts are the same, for which it suffices that the queries come one right after the other and the
counter does not start over between them, or only at a multiple of the length of the list. -/
theorem takes_turns (hstore : ZoneStore.ofConfigs configs = .ok store)
    (hzone : store.find? name = some zone) (hturns : zone.TakesTurns name type items)
    (hdistinct : items.Nodup) (server : Server) (arrivals : List Incoming)
    (places : Fin items.length → Nat)
    (hasks : ∀ k, ∃ incoming ∈ arrivals[places k]?, incoming.Asks name type)
    (hwhole : ∀ k, ∃ disposition ∈ (server.run store arrivals)[places k]?,
      disposition.IsWhole) :
    let first k := (server.run store arrivals)[places k]?.bind Disposition.first?
    (∀ k, first k = items[server.number (places k) % items.length]?) ∧
    ((∀ data ∈ items, ∃! k, first k = some data) ↔
      Function.Injective fun k => server.number (places k) % items.length) ∧
    ∀ start, (∀ k, places k = start + k) →
      server.number start + items.length ≤ 2 ^ 64 ∨ items.length ∣ 2 ^ 64 →
      ∀ data ∈ items, ∃! k, first k = some data := by
  intro first
  have hfirst : ∀ k, first k = items[server.number (places k) % items.length]? :=
    fun k => first?_run hstore hzone hturns (hasks k) (hwhole k)
  have hpicks : ∀ k, server.number (places k) % items.length < items.length :=
    fun k => Nat.mod_lt _ (Nat.zero_lt_of_lt k.isLt)
  have honce : (∀ data ∈ items, ∃! k, first k = some data) ↔
      Function.Injective fun k => server.number (places k) % items.length := by
    simp only [hfirst]
    exact existsUnique_pick_iff hdistinct hpicks
  refine ⟨hfirst, honce, fun start hrow hcounts => honce.mpr ?_⟩
  simp only [hrow]
  exact server.injective_number_add hcounts

/-- A zone with two addresses of one name. -/
def pairConfig : ZoneConfig :=
  { ZoneStore.emptyConfig "a" with
    addresses := [("b".toList, [.ofOctets 10 0 0 1, .ofOctets 10 0 0 2])] }

/-- The data of both, in the order in which the zone has them. -/
def pairAddresses : List RecordData := [.a (.ofOctets 10 0 0 1), .a (.ofOctets 10 0 0 2)]

/-- A query for a type at that name. -/
def pairQuery (type : UInt8) : Incoming where
  source := .v4 (.ofOctets 127 0 0 1)
  datagram := [0, 7, 1, 0, 0, 1, 0, 0, 0, 0, 0, 0, 1, 98, 1, 97, 0, 0, type, 0, 1]

/-- The store of the zone, and that there is room for both addresses in the answer. -/
lemma exists_pairStore : ∃ store zone, ZoneStore.ofConfigs [pairConfig] = .ok store ∧
    store.find? "b.a".toList = some zone ∧
    zone.TakesTurns "b.a".toList RecordType.a pairAddresses ∧
    (pairQuery 1).Asks "b.a".toList RecordType.a ∧
    ∀ (server : Server) (arrivals : List Incoming) (place : Nat),
      arrivals[place]? = some (pairQuery 1) →
      ∃ disposition ∈ (server.run store arrivals)[place]?, disposition.IsWhole := by
  obtain ⟨store, zone, request, hstore, hzone, hturns, hparse, hname, htype, hroom⟩ :
      ∃ store zone request, ZoneStore.ofConfigs [pairConfig] = .ok store ∧
        store.find? "b.a".toList = some zone ∧
        zone.TakesTurns "b.a".toList RecordType.a pairAddresses ∧
        Request.parse ((pairQuery 1).datagram.take bufferSize) = .ok request ∧
        request.question.name = "b.a".toList ∧ request.question.type = RecordType.a ∧
        ∀ turn < 2, headerSize + request.question.encode.length +
          Record.total ((pairAddresses.rotate turn).map fun data =>
            ⟨request.question.wireName, zone.ttl, data⟩) ≤
          request.limit - Resolver.room request :=
    ⟨_, _, _, rfl, rfl, .addresses rfl, rfl, rfl, rfl, by decide +kernel⟩
  refine ⟨store, zone, hstore, hzone, hturns, ⟨request, hparse, hname, htype⟩, ?_⟩
  intro server arrivals place hplace
  rw [← hname, ← htype] at hturns
  rw [← hname] at hzone
  let resolver : Resolver := { zones := store, sources := (pairQuery 1).sources }
  have hrecords := hturns.records_eq resolver hzone
  rw [getElem?_run, hplace, Option.map_some, dispose_of_find? resolver hparse hzone]
  refine ⟨_, rfl, (Disposition.isWhole_respond_iff resolver hstore).mpr ?_⟩
  rw [hrecords]
  exact Resolver.isCut_of_room (hroom _ (Nat.mod_lt _ (Nat.zero_lt_succ 1)))

/-- After a datagram that is no query, two queries in a row have each address first once. -/
theorem takes_turns_pair :
    ∃ store, ZoneStore.ofConfigs [pairConfig] = .ok store ∧
      ∀ data ∈ pairAddresses, ∃! k : Fin 2,
        (({ config := { listen := [] } } : Server).run store
          [{ pairQuery 1 with datagram := [] }, pairQuery 1, pairQuery 1])[1 + (k : Nat)]?.bind
            Disposition.first? = some data := by
  obtain ⟨store, zone, hstore, hzone, hturns, hasks, hwhole⟩ := exists_pairStore
  let arrivals := [{ pairQuery 1 with datagram := [] }, pairQuery 1, pairQuery 1]
  have hplaces : ∀ k : Fin 2, arrivals[1 + (k : Nat)]? = some (pairQuery 1) := by
    intro k
    fin_cases k <;> rfl
  obtain ⟨-, -, hrow⟩ := takes_turns hstore hzone hturns (by decide)
    { config := { listen := [] } } arrivals (fun k => 1 + (k : Nat))
    (fun k => ⟨pairQuery 1, hplaces k, hasks⟩) (fun k => hwhole _ _ _ (hplaces k))
  exact ⟨store, hstore, hrow 1 (fun _ => rfl) (.inl (by decide))⟩

/-- With a query for texts in between, two queries for addresses have the same one first. -/
theorem turns_skipped :
    ∃ store zone, ZoneStore.ofConfigs [pairConfig] = .ok store ∧
      store.find? "b.a".toList = some zone ∧
      zone.TakesTurns "b.a".toList RecordType.a pairAddresses ∧ pairAddresses.Nodup ∧
      let arrivals := [pairQuery 1, pairQuery 16, pairQuery 1]
      let dispositions := ({ config := { listen := [] } } : Server).run store arrivals
      (∀ place, (∃ incoming ∈ arrivals[place]?, incoming.Asks "b.a".toList RecordType.a) ↔
        place = 0 ∨ place = 2) ∧
      (∀ place, place = 0 ∨ place = 2 →
        ∃ disposition ∈ dispositions[place]?, disposition.IsWhole) ∧
      dispositions[0]?.bind Disposition.first? = some (.a (.ofOctets 10 0 0 1)) ∧
      dispositions[2]?.bind Disposition.first? = some (.a (.ofOctets 10 0 0 1)) := by
  obtain ⟨store, zone, hstore, hzone, hturns, hasks, hwhole⟩ := exists_pairStore
  refine ⟨store, zone, hstore, hzone, hturns, by decide, ?_⟩
  intro arrivals dispositions
  have hfirst : ∀ place, arrivals[place]? = some (pairQuery 1) →
      dispositions[place]?.bind Disposition.first? = pairAddresses[place % 2 ^ 64 % 2]? := by
    intro place hplace
    have hnumber : Server.number { config := { listen := [] } } place = place % 2 ^ 64 := by
      simp [number]
    rw [first?_run hstore hzone hturns ⟨_, hplace, hasks⟩ (hwhole _ _ _ hplace), hnumber]
    rfl
  refine ⟨?_, ?_, hfirst 0 rfl, hfirst 2 rfl⟩
  · intro place
    constructor
    · rintro ⟨incoming, hplace, request, hparse, -, htype⟩
      match place, hplace with
      | 0, _ => exact .inl rfl
      | 2, _ => exact .inr rfl
      | 1, hplace =>
          cases hplace
          cases hparse
          exact absurd htype (by decide)
    · rintro (rfl | rfl)
      · exact ⟨_, rfl, hasks⟩
      · exact ⟨_, rfl, hasks⟩
  · rintro place (rfl | rfl)
    · exact hwhole _ _ _ rfl
    · exact hwhole _ _ _ rfl

end Server

end Nameserver

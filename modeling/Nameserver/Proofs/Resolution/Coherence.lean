import Nameserver.Proofs.Resolution.Layout
import Nameserver.Proofs.Zone.Finding
import Nameserver.Proofs.Zone.Vetting

/-!
# Answers through aliases

The answer about an alias has the aliases on the walk from there, and then what is at the end of the
walk.  This file compares the latter with what a client is told who asks about the end itself.

**Zones.**  A walk stays in the zone of the name in question, so what follows the aliases is what
this zone has to say (`Resolver.answers_through_aliases`).  A client who asks about the end is told
the same unless there is another zone in between, with a longer apex (`Resolver.answers_past_zone`).

**The apex.**  Name servers and mail exchanges are those of the apex.  Below it there are aliases at
most (`Resolver.answers_for_apex_types`), and at the apex not even these
(`Resolver.answers_alias_at_apex`).
-/

namespace Nameserver

/-! ## Walks inside a zone -/

namespace Zone

variable {config : ZoneConfig} {zone : Zone} {name target : Text}

/-- Aliases and their targets are names of the zone. -/
lemma contains_of_alias? (hmade : ofConfig config = .ok zone)
    (halias : zone.alias? name = some target) :
    zone.contains name = true ∧ zone.contains target = true := by
  obtain ⟨-, rfl⟩ := ofConfig_eq_ok_iff.mp hmade
  obtain ⟨key, written, -, rfl, rfl⟩ := exists_entry_of_completed halias
  exact ⟨isSameOrBelow_complete _ key, isSameOrBelow_complete _ written⟩

/-- A walk never leaves the zone. -/
lemma contains_walk (hmade : ofConfig config = .ok zone) (hname : zone.contains name = true)
    (k : Nat) : zone.contains (zone.walk name k) = true := by
  induction k with
  | zero => exact hname
  | succ k ih =>
      rw [walk]
      cases halias : zone.alias? (zone.walk name k) with
      | none => exact ih
      | some target => exact (contains_of_alias? hmade halias).2

lemma not_revisits_iff :
    ¬ zone.Revisits name ↔ zone.alias? (zone.walk name (zone.walkEnd name)) = none := by
  rw [revisits_iff, not_not]

end Zone

namespace ZoneStore

variable {config : ZoneConfig} {configs : List ZoneConfig} {store : ZoneStore} {zone : Zone}
  {name : Text}

/-- A zone can stand alone. -/
lemma exists_alone (hmade : Zone.ofConfig config = .ok zone) :
    ∃ store, ofConfigs [config] = .ok store := by
  simp [ofConfigs, hmade, insert, bind, Except.bind, pure, Except.pure]

/-- A store of one zone finds it for the names in it. -/
lemma find?_alone (hmade : Zone.ofConfig config = .ok zone)
    (hstore : ofConfigs [config] = .ok store) (name : Text) :
    store.find? name = if zone.contains name then some zone else none := by
  have honly : ∀ config' ∈ [config], ∀ other, Zone.ofConfig config' = .ok other → other = zone := by
    intro config' hconfig other hother
    rw [List.mem_singleton.mp hconfig, hmade] at hother
    exact (Except.ok.inj hother).symm
  split_ifs with hcontains
  · refine (find?_eq_some_iff hstore).mpr ⟨⟨config, by simp, hmade⟩, hcontains, ?_⟩
    intro config' hconfig other hother _
    rw [honly config' hconfig other hother]
  · refine (find?_eq_none_iff hstore).mpr ?_
    intro config' hconfig other hother
    rw [honly config' hconfig other hother]
    exact Bool.eq_false_of_not_eq_true hcontains

/-- What a store finds for a name of a zone is this zone, or one with a longer apex. -/
lemma exists_nearest (hstore : ofConfigs configs = .ok store) (hconfig : config ∈ configs)
    (hmade : Zone.ofConfig config = .ok zone) (hname : zone.contains name = true) :
    ∃ nearest, store.find? name = some nearest ∧
      (nearest = zone ∨ zone.apex.length < nearest.apex.length) := by
  cases hfind : store.find? name with
  | none =>
      have houtside := (find?_eq_none_iff hstore).mp hfind config hconfig zone hmade
      rw [hname] at houtside
      cases houtside
  | some nearest =>
      refine ⟨nearest, rfl, ?_⟩
      obtain ⟨-, -, hlongest⟩ := (find?_eq_some_iff hstore).mp hfind
      by_cases hlt : zone.apex.length < nearest.apex.length
      · exact .inr hlt
      · have hzone : store.find? name = some zone := by
          refine (find?_eq_some_iff hstore).mpr ⟨⟨config, hconfig, hmade⟩, hname, ?_⟩
          intro config' hconfig' other hother hcontains
          have hle := hlongest config' hconfig' other hother hcontains
          omega
        exact .inl (Option.some.inj (hfind.symm.trans hzone))

end ZoneStore

namespace Resolver

variable {zone : Zone} {resolver : Resolver} {q q' : Question} {query : UInt64}

/-! ## Through the aliases -/

/-- The entries of the aliases on the walk of a question, and then those of an answer about the
name at its end. -/
def throughAliases (zone : Zone) (q : Question) (entries : List Entry) : List Entry :=
  (aliasRecords zone q.name q.wireName).map Record.entry ++ entries.map fun e =>
    { e with owner := walkOwner zone q.name q.wireName (zone.walkEnd q.name) }

/-- The records of an answer that follows aliases are those on the walk and those at its end. -/
lemma entries_of_follows (resolver resolver' : Resolver)
    (hzone : resolver.zones.find? q.name = some zone)
    (hzone' : resolver'.zones.find? q'.name = some zone)
    (hsources : resolver'.sources = resolver.sources) (hfollows : Follows zone q)
    (hfollows' : Follows zone q') (htype : q'.type = q.type)
    (hdirect : q'.name = zone.walk q.name (zone.walkEnd q.name))
    (hends : ¬ zone.Revisits q.name) :
    (resolver.records query q).map Record.entry =
      throughAliases zone q ((resolver'.records query q').map Record.entry) := by
  have hend := Zone.not_revisits_iff.mp hends
  have hchased : resolver.records query q = aliasRecords zone q.name q.wireName ++
      (referenceData resolver.sources zone query q.type q'.name).map fun data =>
        ⟨walkOwner zone q.name q.wireName (zone.walkEnd q.name), zone.ttl, data⟩ := by
    simp only [records, hzone, reference_of_follows hfollows, endRecords, if_pos hend, hdirect]
  rw [← hdirect] at hend
  have hasked : resolver'.records query q' =
      (referenceData resolver.sources zone query q.type q'.name).map fun data =>
        ⟨q'.wireName, zone.ttl, data⟩ := by
    rw [records, hzone', ← hsources, ← htype]
    simp only [reference_of_alias?_eq_none hfollows' hend]
  rw [hchased, hasked]
  simp only [throughAliases, List.map_append, List.map_map]
  rfl

/-! ## Other zones -/

/-- **Following aliases.**  A question about addresses, texts or any other type that nothing but the
end of a walk can answer is answered with the aliases on the walk, which ends in the same zone, and
then with the answers that a client gets who asks about the end, where the same zone is found for
it.  A store of this zone alone finds it, and so does the store itself unless a zone with a longer
apex holds the end. -/
theorem answers_through_aliases {configs : List ZoneConfig} {store : ZoneStore}
    {datagram : Bytes} {request : Request} (hstore : ZoneStore.ofConfigs configs = .ok store)
    (hparse : Request.parse datagram = .ok request)
    (hzone : store.find? request.question.name = some zone)
    (htype : request.question.type ∉ [.soa, .ns, .mx, .caa, .cname])
    (hends : ¬ zone.Revisits request.question.name) (sources : Sources) :
    let q := request.question
    let last := zone.walk q.name (zone.walkEnd q.name)
    zone.alias? last = none ∧
    (∃ nearest, store.find? last = some nearest ∧
      (nearest = zone ∨ zone.apex.length < nearest.apex.length)) ∧
    (∃ config ∈ configs, ∃ alone, Zone.ofConfig config = .ok zone ∧
      ZoneStore.ofConfigs [config] = .ok alone ∧ alone.find? last = some zone) ∧
    ∀ configs' store' datagram' request', ZoneStore.ofConfigs configs' = .ok store' →
      store'.find? last = some zone → Request.parse datagram' = .ok request' →
      request'.question.name = last → request'.question.type = q.type →
      ∀ query recursionAvailable recursionAvailable', ∃ h t h' t',
        Transcript.read? (respond { zones := store, sources } request query recursionAvailable) =
          some (h, t) ∧
        Transcript.read? (respond { zones := store', sources } request' query
          recursionAvailable') = some (h', t') ∧
        (h.truncated = false → h'.truncated = false →
          t.answers = throughAliases zone q t'.answers) := by
  intro q last
  obtain ⟨⟨config, hconfig, hmade⟩, hname, -⟩ := (ZoneStore.find?_eq_some_iff hstore).mp hzone
  have hlast : zone.contains last = true := Zone.contains_walk hmade hname _
  obtain ⟨alone, halone⟩ := ZoneStore.exists_alone hmade
  refine ⟨Zone.not_revisits_iff.mp hends,
    ZoneStore.exists_nearest hstore hconfig hmade hlast,
    ⟨config, hconfig, alone, hmade, halone, ?_⟩, ?_⟩
  · rw [ZoneStore.find?_alone hmade halone, if_pos hlast]
  · intro configs' store' datagram' request' hstore' hzone' hparse' hdirect htype' query
      recursionAvailable recursionAvailable'
    let resolver : Resolver := { zones := store, sources }
    let resolver' : Resolver := { zones := store', sources }
    obtain ⟨t, hread, hanswers⟩ :=
      read_whole resolver hstore hparse query recursionAvailable
    obtain ⟨t', hread', hanswers'⟩ :=
      read_whole resolver' hstore' hparse' query recursionAvailable'
    refine ⟨_, t, _, t', hread, hread', fun hwhole hwhole' => ?_⟩
    rw [hanswers hwhole, hanswers' hwhole']
    exact entries_of_follows resolver resolver' hzone (hdirect ▸ hzone') rfl (follows_of_type htype)
      (follows_of_type (htype' ▸ htype)) htype' hdirect hends

/-- A zone with an alias for a name that it has an address of. -/
def outerConfig : ZoneConfig :=
  { ZoneStore.emptyConfig "a" with
    addresses := [("y.b".toList, [.ofOctets 10 0 0 2])]
    aliases := [("x".toList, "y.b".toList)] }

/-- A zone in that zone, which holds the name, with an address of its own. -/
def innerConfig : ZoneConfig :=
  { ZoneStore.emptyConfig "b.a" with addresses := [("y".toList, [.ofOctets 10 0 0 1])] }

/-- A query for a type at a name. -/
def askFor (type : UInt8) (name : String) : Bytes :=
  [0, 7, 1, 0, 0, 1, 0, 0, 0, 0, 0, 0] ++ Name.encode name.toList ++ [0, type, 0, 1]

/-- The answer about the alias of the outer zone. -/
def nestedRecords (outer : Zone) (q q' : Question) : List Record :=
  [⟨q.wireName, outer.ttl, .cname q'.name⟩,
    ⟨Name.encode q'.name, outer.ttl, .a (.ofOctets 10 0 0 2)⟩]

/-- The two zones, and requests for addresses of the alias and of the name that it stands for. -/
structure IsNested (store : ZoneStore) (outer inner : Zone) (request request' : Request) :
    Prop where
  stored : ZoneStore.ofConfigs [outerConfig, innerConfig] = .ok store
  parsed : Request.parse (askFor 1 "x.a") = .ok request
  parsed' : Request.parse (askFor 1 "y.b.a") = .ok request'
  type_eq : request.question.type = RecordType.a
  type_eq' : request'.question.type = RecordType.a
  found : store.find? request.question.name = some outer
  found' : store.find? request'.question.name = some inner
  walkEnd_eq : outer.walkEnd request.question.name = 1
  walk_eq : outer.walk request.question.name 1 = request'.question.name
  noAlias : outer.alias? request'.question.name = none
  noAlias' : inner.alias? request'.question.name = none
  addresses : outer.addressesOf request'.question.name = [.ofOctets 10 0 0 2]
  addresses' : inner.addressesOf request'.question.name = [.ofOctets 10 0 0 1]
  room : headerSize + request.question.encode.length +
    Record.total (nestedRecords outer request.question request'.question) ≤
      request.limit - room request
  /-- A record of an address has 14 octets behind its owner. -/
  room' : headerSize + request'.question.encode.length + (request'.question.wireName.length + 14) ≤
    request'.limit - Resolver.room request'

lemma exists_isNested :
    ∃ store outer inner request request', IsNested store outer inner request request' :=
  ⟨_, _, _, _, _, rfl, rfl, rfl, rfl, rfl, rfl, rfl,
    (Nat.find_eq_iff _).mpr ⟨by decide, by decide⟩, rfl, rfl, rfl, rfl, rfl, by decide +kernel,
    by decide +kernel⟩

/-- The answer about a name with one address. -/
lemma records_address (resolver : Resolver) (query : UInt64) {address : Ipv4Address}
    (hzone : resolver.zones.find? q.name = some zone) (htype : q.type = RecordType.a)
    (halias : zone.alias? q.name = none)
    (haddress : zone.addressesOf q.name = [address]) :
    resolver.records query q = [⟨q.wireName, zone.ttl, .a address⟩] := by
  have hfollows : Follows zone q := follows_of_type (by rw [htype]; decide)
  rw [records, hzone]
  simp [reference_of_alias?_eq_none hfollows halias, htype, referenceData, haddress]

namespace IsNested

variable {store : ZoneStore} {outer inner : Zone} {request request' : Request}

lemma not_revisits (h : IsNested store outer inner request request') :
    ¬ outer.Revisits request.question.name := by
  rw [Zone.not_revisits_iff, h.walkEnd_eq, h.walk_eq, h.noAlias]

lemma records_eq (h : IsNested store outer inner request request') :
    Resolver.records { zones := store } query request.question =
      nestedRecords outer request.question request'.question := by
  have hfollows : Follows outer request.question := follows_of_type (by rw [h.type_eq]; decide)
  rw [Resolver.records, h.found]
  simp [reference_of_follows hfollows, aliasRecords, aliasRecord, endRecords, h.walkEnd_eq,
    h.walk_eq, h.noAlias, h.type_eq, referenceData, h.addresses, walkOwner, nestedRecords]

/-- The answer about the alias is read as it is. -/
lemma read_eq (h : IsNested store outer inner request request') :
    ∃ header t, Transcript.read? (respond { zones := store } request 0 false) = some (header, t) ∧
      header.truncated = false ∧ t.answers =
        (nestedRecords outer request.question request'.question).map Record.entry := by
  obtain ⟨header, t, hread, hmark, -, hanswers⟩ :=
    read_fitting { zones := store } 0 h.stored h.parsed false (by rw [h.records_eq]; exact h.room)
  rw [h.records_eq] at hanswers
  exact ⟨header, t, hread, hmark, hanswers⟩

/-- So is the answer about the name itself. -/
lemma read_eq' (h : IsNested store outer inner request request') {configs : List ZoneConfig}
    {store' : ZoneStore} {zone : Zone} {address : Ipv4Address}
    (hstore : ZoneStore.ofConfigs configs = .ok store')
    (hzone : store'.find? request'.question.name = some zone)
    (halias : zone.alias? request'.question.name = none)
    (haddress : zone.addressesOf request'.question.name = [address]) :
    ∃ header t, Transcript.read? (respond { zones := store' } request' 0 false) = some (header, t) ∧
      header.truncated = false ∧
      t.answers = [Record.entry ⟨request'.question.wireName, zone.ttl, .a address⟩] := by
  have hrecords := records_address { zones := store' } 0 hzone h.type_eq' halias haddress
  obtain ⟨header, t, hread, hmark, -, hanswers⟩ :=
    read_fitting { zones := store' } 0 hstore h.parsed' false
      (by simpa [hrecords, Record.size, RecordData.size] using h.room')
  rw [hrecords] at hanswers
  exact ⟨header, t, hread, hmark, hanswers⟩

end IsNested

/-- The outer zone alone says the same of the alias and of the name that it stands for. -/
theorem answers_through_aliases_nested :
    ∃ store outer inner request request', IsNested store outer inner request request' ∧
      ∃ config ∈ [outerConfig, innerConfig], ∃ alone header t header' t',
        Zone.ofConfig config = .ok outer ∧ ZoneStore.ofConfigs [config] = .ok alone ∧
        Transcript.read? (respond { zones := store } request 0 false) = some (header, t) ∧
        Transcript.read? (respond { zones := alone } request' 0 false) = some (header', t') ∧
        header.truncated = false ∧ header'.truncated = false ∧
        t.answers = throughAliases outer request.question t'.answers := by
  obtain ⟨store, outer, inner, request, request', h⟩ := exists_isNested
  obtain ⟨-, -, ⟨config, hconfig, alone, hmade, halone, hfound⟩, hcoherent⟩ :=
    answers_through_aliases h.stored h.parsed h.found (by rw [h.type_eq]; decide) h.not_revisits {}
  rw [h.walkEnd_eq, h.walk_eq] at hfound hcoherent
  obtain ⟨header, t, header', t', hread, hread', hanswers⟩ :=
    hcoherent [config] alone _ request' halone hfound h.parsed' rfl
      (h.type_eq'.trans h.type_eq.symm) 0 false false
  obtain ⟨_, _, hwhole, hmark, -⟩ := h.read_eq
  obtain ⟨_, _, hwhole', hmark', -⟩ := h.read_eq' halone hfound h.noAlias h.addresses
  cases Option.some.inj (hread.symm.trans hwhole)
  cases Option.some.inj (hread'.symm.trans hwhole')
  exact ⟨store, outer, inner, request, request', h, config, hconfig, alone, _, t, _, t', hmade,
    halone, hread, hread', hmark, hmark', hanswers hmark hmark'⟩

/-- The inner zone says something else of the name, and the store finds that zone for it. -/
theorem answers_past_zone :
    ∃ store outer inner request request' header t header' t',
      IsNested store outer inner request request' ∧
      ¬ outer.Revisits request.question.name ∧
      Transcript.read? (respond { zones := store } request 0 false) = some (header, t) ∧
      Transcript.read? (respond { zones := store } request' 0 false) = some (header', t') ∧
      header.truncated = false ∧ header'.truncated = false ∧
      t.answers ≠ throughAliases outer request.question t'.answers := by
  obtain ⟨store, outer, inner, request, request', h⟩ := exists_isNested
  obtain ⟨header, t, hread, hmark, hanswers⟩ := h.read_eq
  obtain ⟨header', t', hread', hmark', hanswers'⟩ :=
    h.read_eq' h.stored h.found' h.noAlias' h.addresses'
  refine ⟨store, outer, inner, request, request', header, t, header', t', h, h.not_revisits, hread,
    hread', hmark, hmark', ?_⟩
  rw [hanswers, hanswers']
  intro hsame
  have hlast := congrArg (fun entries => entries.getLast?.map Entry.data) hsame
  simp only [throughAliases, List.map_cons, List.map_nil, List.getLast?_append, nestedRecords,
    List.getLast?_cons_cons, List.getLast?_singleton, Option.some_or, Option.map_some,
    Option.some.injEq] at hlast
  have hdata : (RecordData.a (.ofOctets 10 0 0 2)).encode ≠
      (RecordData.a (.ofOctets 10 0 0 1)).encode := by decide
  exact hdata hlast

/-! ## Name servers and mail exchanges -/

/-- What the apex alone has of a type. -/
def apexData (zone : Zone) (query : UInt64) (type : RecordType) : List RecordData :=
  if type = RecordType.ns then
    (zone.nameservers.rotate (query.toNat % zone.nameservers.length)).map .ns
  else zone.exchanges.map fun e => .mx e.2 e.1

section Alone

variable {config : ZoneConfig}

/-- At the apex of a zone that stands alone, the answer is what the apex has. -/
lemma records_at_apex (resolver : Resolver) (hmade : Zone.ofConfig config = .ok zone)
    (hstore : ZoneStore.ofConfigs [config] = .ok resolver.zones)
    (htype : q.type = RecordType.ns ∨ q.type = RecordType.mx) (hname : q.name = zone.apex) :
    resolver.records query q =
      (apexData zone query q.type).map fun data => ⟨q.wireName, zone.ttl, data⟩ := by
  have hcontains : zone.contains q.name = true := by simp [hname, Zone.contains, Text.isSameOrBelow]
  have hexchanges : zone.exchanges.mergeSort Zone.exchangeLe = zone.exchanges :=
    List.mergeSort_of_pairwise (Zone.pairwise_exchanges_of_ofConfig hmade)
  rw [records, ZoneStore.find?_alone hmade hstore, if_pos hcontains]
  simp only [reference, hexchanges, apexData]
  rcases htype with htype | htype
  · rw [if_neg (by rw [htype]; decide), if_pos ⟨htype, hname⟩, if_pos htype]
  · have hns : q.type ≠ RecordType.ns := by rw [htype]; decide
    rw [if_neg (by rw [htype]; decide), if_neg fun h => hns h.1, if_pos ⟨htype, hname⟩, if_neg hns]

/-- At an apex that is no alias, a question is one about the end of its walk. -/
lemma entries_at_apex (hmade : Zone.ofConfig config = .ok zone)
    (hstore : ZoneStore.ofConfigs [config] = .ok resolver.zones)
    (htype : q.type = RecordType.ns ∨ q.type = RecordType.mx) (htype' : q'.type = q.type)
    (hname : q.name = zone.apex) (halias : zone.alias? q.name = none)
    (hdirect : q'.name = zone.walk q.name (zone.walkEnd q.name)) :
    (resolver.records query q).map Record.entry =
      throughAliases zone q ((resolver.records query q').map Record.entry) := by
  have hend : zone.walkEnd q.name = 0 := Zone.walkEnd_eq_zero_iff.mpr halias
  rw [hend] at hdirect
  have hname' : q'.name = zone.apex := hdirect.trans hname
  rw [records_at_apex resolver hmade hstore htype hname,
    records_at_apex resolver hmade hstore (htype' ▸ htype) hname', htype']
  simp only [throughAliases, aliasRecords, hend, List.range_zero, List.map_nil, List.nil_append,
    List.map_map]
  rfl

/-- Elsewhere, the answer is the aliases on the walk. -/
lemma records_off_apex (resolver : Resolver) (hmade : Zone.ofConfig config = .ok zone)
    (hstore : ZoneStore.ofConfigs [config] = .ok resolver.zones)
    (htype : q.type = RecordType.ns ∨ q.type = RecordType.mx) (hname : q.name ≠ zone.apex) :
    resolver.records query q = aliasRecords zone q.name q.wireName := by
  rw [records, ZoneStore.find?_alone hmade hstore]
  by_cases hcontains : zone.contains q.name = true
  · have hfollows : Follows zone q := by
      refine ⟨?_, fun hapex => absurd hapex hname⟩
      rcases htype with htype | htype <;> rw [htype] <;> decide
    have hdata : referenceData resolver.sources zone query q.type = fun _ => [] := by
      funext name
      rcases htype with htype | htype <;>
        rw [referenceData, htype, if_neg (by decide), if_neg (by decide)]
    rw [if_pos hcontains]
    simp [reference_of_follows hfollows, hdata, endRecords]
  · have halias : zone.alias? q.name = none := by
      by_contra hsome
      obtain ⟨target, htarget⟩ := Option.ne_none_iff_exists'.mp hsome
      exact hcontains (Zone.contains_of_alias? hmade htarget).1
    rw [if_neg hcontains, aliasRecords, Zone.walkEnd_eq_zero_iff.mpr halias]
    rfl

/-- **Types of the apex.**  In a zone that stands alone, a question about the name servers or mail
exchanges of a name is answered with the aliases on the walk from there and with the first of the
answers, if not all, that a client gets who asks about the end of the walk.  These are all of them
unless a walk from below the apex ends at the apex.  The exception is an alias at the apex: it does
not count, and the answer is what the apex has. -/
theorem answers_for_apex_types (hmade : Zone.ofConfig config = .ok zone) {store : ZoneStore}
    (hstore : ZoneStore.ofConfigs [config] = .ok store) {datagram datagram' : Bytes}
    {request request' : Request} (hparse : Request.parse datagram = .ok request)
    (hparse' : Request.parse datagram' = .ok request')
    (htype : request.question.type = RecordType.ns ∨ request.question.type = RecordType.mx)
    (htype' : request'.question.type = request.question.type)
    (hends : ¬ zone.Revisits request.question.name)
    (hdirect : request'.question.name =
      zone.walk request.question.name (zone.walkEnd request.question.name))
    (sources : Sources) (query : UInt64) (recursionAvailable recursionAvailable' : Bool) :
    let q := request.question
    let resolver : Resolver := { zones := store, sources }
    ∃ h t h' t',
      Transcript.read? (resolver.respond request query recursionAvailable) = some (h, t) ∧
      Transcript.read? (resolver.respond request' query recursionAvailable') = some (h', t') ∧
      (h.truncated = false → h'.truncated = false →
        (¬ (q.name = zone.apex ∧ zone.alias? q.name ≠ none) →
          ∃ rest, t.answers = throughAliases zone q rest ∧ rest <+: t'.answers ∧
            ((request'.question.name = zone.apex → q.name = zone.apex) → rest = t'.answers)) ∧
        (q.name = zone.apex → zone.alias? q.name ≠ none →
          t.answers = (apexData zone query q.type).map fun data =>
            Record.entry ⟨q.wireName, zone.ttl, data⟩)) := by
  intro q resolver
  let q' := request'.question
  have hq' : q'.type = RecordType.ns ∨ q'.type = RecordType.mx := htype' ▸ htype
  obtain ⟨t, hread, hanswers⟩ :=
    read_whole resolver hstore hparse query recursionAvailable
  obtain ⟨t', hread', hanswers'⟩ :=
    read_whole resolver hstore hparse' query recursionAvailable'
  refine ⟨_, t, _, t', hread, hread', fun hwhole hwhole' => ⟨?_, ?_⟩⟩
  · intro hcounts
    rw [hanswers hwhole, hanswers' hwhole']
    by_cases hname : q.name = zone.apex
    · have halias : zone.alias? q.name = none := by
        by_contra hsome
        exact hcounts ⟨hname, hsome⟩
      exact ⟨_, entries_at_apex hmade hstore htype htype' hname halias hdirect, List.prefix_rfl,
        fun _ => rfl⟩
    · refine ⟨[], ?_, List.nil_prefix, fun hbelow => ?_⟩
      · rw [records_off_apex resolver hmade hstore htype hname]
        simp [throughAliases, q]
      · have hname' : q'.name ≠ zone.apex := fun hapex => hname (hbelow hapex)
        have halias' : zone.alias? q'.name = none := hdirect ▸ Zone.not_revisits_iff.mp hends
        rw [records_off_apex resolver hmade hstore hq' hname', aliasRecords,
          Zone.walkEnd_eq_zero_iff.mpr halias']
        rfl
  · intro hname _
    rw [hanswers hwhole,
      records_at_apex resolver hmade hstore htype hname, List.map_map]
    rfl

/-- A zone with a name server, an alias at the apex and an alias below it. -/
def aliasedApexConfig : ZoneConfig :=
  { ZoneStore.emptyConfig "a" with
    nameservers := ["ns".toList]
    aliases := [("@".toList, "b".toList), ("w".toList, "v".toList)] }

/-- Requests for name servers of an alias in the zone and of the name that it stands for. -/
structure IsOneStep (name name' : String) (store : ZoneStore) (zone : Zone)
    (request request' : Request) : Prop where
  made : Zone.ofConfig aliasedApexConfig = .ok zone
  stored : ZoneStore.ofConfigs [aliasedApexConfig] = .ok store
  parsed : Request.parse (askFor 2 name) = .ok request
  parsed' : Request.parse (askFor 2 name') = .ok request'
  name_eq : request.question.name = name.toList
  type_eq : request.question.type = RecordType.ns
  type_eq' : request'.question.type = RecordType.ns
  apex_eq : zone.apex = "a".toList
  nameservers_eq : zone.nameservers = ["ns".toList]
  off_apex : request'.question.name ≠ zone.apex
  walkEnd_eq : zone.walkEnd request.question.name = 1
  walk_eq : zone.walk request.question.name 1 = request'.question.name
  noAlias : zone.alias? request'.question.name = none
  room : ∀ data ∈ [RecordData.cname request'.question.name, .ns "ns".toList],
    headerSize + request.question.encode.length +
      Record.total [⟨request.question.wireName, zone.ttl, data⟩] ≤
        request.limit - Resolver.room request
  room' : headerSize + request'.question.encode.length + Record.total [] ≤
    request'.limit - Resolver.room request'

lemma exists_isOneStep (name name' : String)
    (h : (name, name') ∈ [("a", "b.a"), ("w.a", "v.a")]) :
    ∃ store zone request request', IsOneStep name name' store zone request request' := by
  rcases List.mem_pair.mp h with h | h <;> cases h
  · exact ⟨_, _, _, _, rfl, rfl, rfl, rfl, rfl, rfl, rfl, rfl, rfl, by decide,
      (Nat.find_eq_iff _).mpr ⟨by decide, by decide⟩, rfl, rfl, by decide +kernel,
      by decide +kernel⟩
  · exact ⟨_, _, _, _, rfl, rfl, rfl, rfl, rfl, rfl, rfl, rfl, rfl, by decide,
      (Nat.find_eq_iff _).mpr ⟨by decide, by decide⟩, rfl, rfl, by decide +kernel,
      by decide +kernel⟩

namespace IsOneStep

variable {name name' : String} {store : ZoneStore} {request request' : Request}

lemma not_revisits (h : IsOneStep name name' store zone request request') :
    ¬ zone.Revisits request.question.name := by
  rw [Zone.not_revisits_iff, h.walkEnd_eq, h.walk_eq, h.noAlias]

lemma aliasRecords_eq (h : IsOneStep name name' store zone request request') :
    aliasRecords zone request.question.name request.question.wireName =
      [⟨request.question.wireName, zone.ttl, .cname request'.question.name⟩] := by
  simp [aliasRecords, aliasRecord, h.walkEnd_eq, h.walk_eq, walkOwner]

/-- There are no name servers at the end of the walk. -/
lemma read_eq' (h : IsOneStep name name' store zone request request') :
    ∃ header t, Transcript.read? (respond { zones := store } request' 0 false) = some (header, t) ∧
      header.truncated = false ∧ t.answers = [] := by
  have hrecords : Resolver.records { zones := store } 0 request'.question = [] := by
    rw [records_off_apex _ h.made h.stored (.inl h.type_eq') h.off_apex, aliasRecords,
      Zone.walkEnd_eq_zero_iff.mpr h.noAlias]
    rfl
  obtain ⟨header, t, hread, hmark, -, hanswers⟩ :=
    read_fitting { zones := store } 0 h.stored h.parsed' false
      (by rw [hrecords]; exact h.room')
  rw [hrecords] at hanswers
  exact ⟨header, t, hread, hmark, hanswers⟩

end IsOneStep

/-- Below the apex, the alias is all that there is to say. -/
theorem answers_for_apex_types_below :
    ∃ store zone request request' header t header' t',
      IsOneStep "w.a" "v.a" store zone request request' ∧
      Transcript.read? (respond { zones := store } request 0 false) = some (header, t) ∧
      Transcript.read? (respond { zones := store } request' 0 false) = some (header', t') ∧
      header.truncated = false ∧ header'.truncated = false ∧
      t.answers = throughAliases zone request.question t'.answers := by
  obtain ⟨store, zone, request, request', h⟩ := exists_isOneStep "w.a" "v.a" (by simp)
  have hname : request.question.name ≠ zone.apex := by
    rw [h.name_eq, h.apex_eq]
    decide
  have hrecords : Resolver.records { zones := store } 0 request.question =
      [⟨request.question.wireName, zone.ttl, .cname request'.question.name⟩] := by
    rw [records_off_apex _ h.made h.stored (.inl h.type_eq) hname, h.aliasRecords_eq]
  obtain ⟨header, t, header', t', hread, hread', hanswers⟩ := answers_for_apex_types h.made h.stored
    h.parsed h.parsed' (.inl h.type_eq) (h.type_eq'.trans h.type_eq.symm) h.not_revisits
    (by rw [h.walkEnd_eq, h.walk_eq]) {} 0 false false
  obtain ⟨_, _, hwhole, hmark, -⟩ :=
    read_fitting { zones := store } 0 h.stored h.parsed false
      (by rw [hrecords]; exact h.room _ (by simp))
  obtain ⟨_, _, hwhole', hmark', -⟩ := h.read_eq'
  cases Option.some.inj (hread.symm.trans hwhole)
  cases Option.some.inj (hread'.symm.trans hwhole')
  obtain ⟨hcoherent, -⟩ := hanswers hmark hmark'
  obtain ⟨rest, hrest, -, hall⟩ := hcoherent fun hapex => hname hapex.1
  rw [hall fun hapex => absurd hapex h.off_apex] at hrest
  exact ⟨store, zone, request, request', _, t, _, t', h, hread, hread', hmark, hmark', hrest⟩

/-- An alias at the apex is not part of the answer about its name servers. -/
theorem answers_alias_at_apex :
    ∃ store zone request request' header t header' t',
      IsOneStep "a" "b.a" store zone request request' ∧
      ¬ zone.Revisits request.question.name ∧
      Transcript.read? (respond { zones := store } request 0 false) = some (header, t) ∧
      Transcript.read? (respond { zones := store } request' 0 false) = some (header', t') ∧
      header.truncated = false ∧ header'.truncated = false ∧
      t.answers ≠ throughAliases zone request.question t'.answers := by
  obtain ⟨store, zone, request, request', h⟩ := exists_isOneStep "a" "b.a" (by simp)
  have hname : request.question.name = zone.apex := h.name_eq.trans h.apex_eq.symm
  have hrecords : Resolver.records { zones := store } 0 request.question =
      [⟨request.question.wireName, zone.ttl, .ns "ns".toList⟩] := by
    rw [records_at_apex _ h.made h.stored (.inl h.type_eq) hname, h.type_eq]
    simp [apexData, h.nameservers_eq]
  obtain ⟨header, t, hread, hmark, -, hanswers⟩ :=
    read_fitting { zones := store } 0 h.stored h.parsed false
      (by rw [hrecords]; exact h.room _ (by simp))
  obtain ⟨header', t', hread', hmark', hanswers'⟩ := h.read_eq'
  refine ⟨store, zone, request, request', header, t, header', t', h, h.not_revisits, hread, hread',
    hmark, hmark', ?_⟩
  rw [hanswers, hanswers', hrecords, throughAliases, h.aliasRecords_eq]
  intro hsame
  have htype : RecordType.ns = RecordType.cname := congrArg Entry.type (List.cons.inj hsame).1
  exact absurd htype (by decide)

end Alone

end Resolver

end Nameserver

import Mathlib
import Nameserver.Proofs.Resolution.Layout
import Nameserver.Proofs.Session.Holdings
import Nameserver.Proofs.Zone.Finding

/-!
# Challenges in answers

The texts below the label of challenges and the authority records of a name come from the registry
of challenges.  Here the answers to such questions are traced back to the registrations that are
live: `Resolver.shows_live`.

**One key.**  A domain is registered as its client spells it, and looked up as it stands in a query
or as the target of an alias.  Both come to the same normal form, without a wildcard in front
(`Challenge.baseDomain_spelling`): names that were read and names on a walk are in normal form
already (`Request.isNormal_name`, `Zone.IsNamed.isNormal_walk`).

**Live registrations.**  What is shown for a domain are the values of the live registrations that
have a challenge for it, each value once for each of them (`Holdings.Shows.coe_values`).
-/

namespace Nameserver

variable {d name spelling : Text}

/-! ## Names in normal form -/

lemma Name.isNormal_dotted {labels : List Bytes} (hsized : AreSized labels)
    (hdotless : AreDotless labels) : Text.IsNormal (dotted labels).lower where
  lower := Text.lower_lower _
  last := by
    intro hdot
    obtain ⟨front, hfront⟩ := List.getLast?_eq_some_iff.mp hdot
    by_cases hroot : labels = []
    · subst hroot
      simp [dotted, Text.join, Text.lower] at hfront
    · -- the part behind the last dot would be empty
      have hparts := parts_lower_dotted hroot hdotless
      have hmem : [] ∈ Text.parts (dotted labels).lower := by
        rw [hfront, Text.parts_dot]
        simp [Text.parts]
      rw [hparts] at hmem
      obtain ⟨octets, hoctets, hnil⟩ := List.mem_map.mp hmem
      obtain ⟨label, hlabel, rfl⟩ := List.mem_map.mp hoctets
      have hne : label.map Utf8.lowerOctet ≠ [] := by simpa using (hsized label hlabel).1
      exact decodeLossy_ne_nil hne hnil

/-- The name of a query that was parsed is in normal form. -/
lemma Request.isNormal_name {datagram : Bytes} {request : Request}
    (h : parse datagram = .ok request) : Text.IsNormal request.question.name := by
  obtain ⟨q, hsound, -, rfl⟩ := parse_eq_ok.mp h
  exact Name.isNormal_dotted hsound.sized hsound.dotless

/-- And so are all names on its walk. -/
lemma Zone.IsNamed.isNormal_walk {zone : Zone} (h : zone.IsNamed) (hname : Text.IsNormal name)
    (k : Nat) : Text.IsNormal (zone.walk name k) := by
  induction k with
  | zero => exact hname
  | succ k ih =>
      rw [walk]
      cases halias : zone.alias? (zone.walk name k) with
      | none => exact ih
      | some target => exact (h.target _ _ halias).normal

/-- A challenge goes by its domain in normal form, without a wildcard. -/
lemma Challenge.baseDomain_spelling (hd : Text.IsNormal d) (hlower : spelling.lower = d) (n : Nat)
    (value : Text) :
    (¬ ['*', '.'] <+: d → baseDomain ⟨spelling ++ List.replicate n '.', value⟩ = d) ∧
      (d ≠ [] → baseDomain ⟨'*' :: '.' :: spelling ++ List.replicate n '.', value⟩ = d) := by
  constructor
  · intro hplain
    have hnone : Text.dropStart? d ['*', '.'] = none := by
      rw [Option.eq_none_iff_forall_ne_some]
      intro rest hrest
      exact hplain ⟨rest, (Text.dropStart?_eq_some_iff.mp hrest).symm⟩
    rw [baseDomain, hd.normalize_spelling hlower, hnone]
    rfl
  · intro hne
    have hwildcard : Text.IsNormal ('*' :: '.' :: d) := by
      refine ⟨?_, ?_⟩
      · show '*' :: '.' :: d.lower = '*' :: '.' :: d
        rw [hd.lower]
      · obtain ⟨c, rest, rfl⟩ := List.exists_cons_of_ne_nil hne
        rw [List.getLast?_cons_cons, List.getLast?_cons_cons]
        exact hd.last
    have hspelling : Text.lower ('*' :: '.' :: spelling) = '*' :: '.' :: d := by
      rw [← hlower]
      rfl
    have hsome : Text.dropStart? ('*' :: '.' :: d) ['*', '.'] = some d :=
      Text.dropStart?_eq_some_iff.mpr rfl
    rw [baseDomain, hwildcard.normalize_spelling hspelling, hsome]
    rfl

/-! ## What live registrations show -/

/-- The values that a registration has for a domain. -/
def Registration.valuesFor (g : Registration) (d : Text) : Finset Text :=
  ((g.challenges.filter (·.baseDomain = d)).map (·.value)).toFinset

lemma Registration.mem_valuesFor {g : Registration} {value : Text} :
    value ∈ g.valuesFor d ↔ ∃ c ∈ g.challenges, c.baseDomain = d ∧ c.value = value := by
  simp [valuesFor, and_assoc]

lemma Registration.mem_postings_iff {g : Registration} {p : Posting} :
    p ∈ g.postings ↔ g.id = p.id ∧ p.value ∈ g.valuesFor p.domain := by
  simp only [mem_valuesFor, postings, List.mem_map, Posting.ext_iff]
  constructor
  · rintro ⟨c, hc, hdomain, hid, hvalue⟩
    exact ⟨hid, c, hc, hdomain, hvalue⟩
  · rintro ⟨hid, c, hc, hdomain, hvalue⟩
    exact ⟨c, hc, hdomain, hid, hvalue⟩

/-- A bag of registrations gives each of its values to a domain under its own number. -/
lemma nodup_bind_valuesFor {held : Multiset Registration} (d : Text)
    (hdistinct : (held.map Registration.id).Nodup) :
    (held.bind fun g => (g.valuesFor d).val.map fun value => (g.id, value)).Nodup := by
  induction held using Multiset.induction_on with
  | empty => simp
  | cons g held ih =>
      rw [Multiset.map_cons, Multiset.nodup_cons] at hdistinct
      rw [Multiset.cons_bind, Multiset.nodup_add]
      refine ⟨(Finset.nodup _).map fun x y h => (Prod.ext_iff.mp h).2, ih hdistinct.2, ?_⟩
      rw [Multiset.disjoint_left]
      rintro ⟨id, value⟩ hfirst hrest
      obtain ⟨_, -, heq⟩ := Multiset.mem_map.mp hfirst
      obtain ⟨g', hg', hmem⟩ := Multiset.mem_bind.mp hrest
      obtain ⟨_, -, heq'⟩ := Multiset.mem_map.mp hmem
      have hsame : g'.id = g.id := (Prod.ext_iff.mp heq').1.trans (Prod.ext_iff.mp heq).1.symm
      exact hdistinct.1 (Multiset.mem_map.mpr ⟨g', hg', hsame⟩)

namespace Holdings

variable {h : Holdings}

/-- What a registry has for a domain are the values of the live registrations. -/
lemma Shows.coe_entries (hshows : h.Shows) (d : Text) :
    (h.registry.entries d : Multiset (RegistrationId × Text)) =
      h.held.bind fun g => (g.valuesFor d).val.map fun value => (g.id, value) := by
  have hdistinct := hshows.distinct
  rw [Multiset.map_add, Multiset.nodup_add] at hdistinct
  refine (Multiset.Nodup.ext (Multiset.coe_nodup.mpr (hshows.tidy.nodup d))
    (nodup_bind_valuesFor d hdistinct.1)).mpr ?_
  rintro ⟨id, value⟩
  have hposting := hshows.tidy.mem_postings (p := ⟨d, id, value⟩)
  rw [Multiset.mem_coe, ← hposting, hshows.mem_postings, Multiset.mem_bind]
  refine exists_congr fun g => and_congr_right fun _ => ?_
  simp only [Registration.mem_postings_iff, Multiset.mem_map, Finset.mem_val, Prod.mk.injEq]
  constructor
  · rintro ⟨hid, hvalue⟩
    exact ⟨value, hvalue, hid, rfl⟩
  · rintro ⟨_, hvalue, hid, rfl⟩
    exact ⟨hid, hvalue⟩

lemma Shows.coe_values (hshows : h.Shows) (hd : Text.IsNormal d) :
    (h.registry.values d : Multiset Text) = h.held.bind fun g => (g.valuesFor d).val := by
  rw [ChallengeRegistry.values, hd.normalize_eq, ← Multiset.map_coe, hshows.coe_entries,
    Multiset.map_bind]
  simp

/-- Something is shown for a domain if a live registration has a challenge for it. -/
lemma Shows.values_ne_nil (hshows : h.Shows) (hd : Text.IsNormal d) :
    h.registry.values d ≠ [] ↔ ∃ g ∈ h.held, ∃ c ∈ g.challenges, c.baseDomain = d := by
  have hmem : ∀ value, value ∈ h.registry.values d ↔ ∃ g ∈ h.held, value ∈ g.valuesFor d := by
    intro value
    rw [← Multiset.mem_coe, hshows.coe_values hd, Multiset.mem_bind]
    rfl
  constructor
  · intro hne
    obtain ⟨value, hvalue⟩ := List.exists_mem_of_ne_nil _ hne
    obtain ⟨g, hg, hvalue⟩ := (hmem value).mp hvalue
    obtain ⟨c, hc, hdomain, -⟩ := Registration.mem_valuesFor.mp hvalue
    exact ⟨g, hg, c, hc, hdomain⟩
  · rintro ⟨g, hg, c, hc, rfl⟩
    exact List.ne_nil_of_mem
      ((hmem c.value).mpr ⟨g, hg, Registration.mem_valuesFor.mpr ⟨c, hc, rfl, rfl⟩⟩)

end Holdings

namespace Resolver

variable {zone : Zone} {query : UInt64} {request : Request}

/-! ## What is answered -/

/-- The registry of challenges as the source of texts and of authority records. -/
def challengeSources (registry : ChallengeRegistry) (issuers : List Text)
    (mailKeys? : Option (Text → List Text)) : Sources where
  challenges? := some registry.values
  issuers? := some (registry.issuerRecords issuers)
  mailKeys? := mailKeys?

variable {registry : ChallengeRegistry} {issuers : List Text}
  {mailKeys? : Option (Text → List Text)} {q : Question}

/-- Where a walk ends at a challenge, its values follow the aliases. -/
lemma reference_txt (htype : q.type = RecordType.txt)
    (hend : zone.alias? (zone.walk q.name (zone.walkEnd q.name)) = none)
    (hlast : zone.walk q.name (zone.walkEnd q.name) = challengeLabel ++ '.' :: d)
    (htexts : zone.textsOf (challengeLabel ++ '.' :: d) = []) :
    (reference (challengeSources registry issuers mailKeys?) zone query q).1 =
      aliasRecords zone q.name q.wireName ++ (registry.values d).map fun value =>
        ⟨walkOwner zone q.name q.wireName (zone.walkEnd q.name), zone.ttl, .txt value⟩ := by
  have hshown : referenceTexts (challengeSources registry issuers mailKeys?) zone
      (challengeLabel ++ '.' :: d) = registry.values d := by
    rw [← texts_eq, texts, htexts, challengeDomain?_eq_some_iff.mpr rfl]
    rfl
  have hfollows : Follows zone q := follows_of_type (by rw [htype]; decide)
  have hdata : ∀ name, referenceData (challengeSources registry issuers mailKeys?) zone query
      RecordType.txt name =
        (referenceTexts (challengeSources registry issuers mailKeys?) zone name).map .txt := by
    intro name
    rw [referenceData, if_neg (by decide), if_pos rfl]
  rw [hlast] at hend
  simp only [reference_of_follows hfollows, endRecords, hlast, if_pos hend, htype, hdata, hshown,
    List.map_map, Function.comp_def]

/-- At a name with a challenge the issuers may issue, and elsewhere nobody may. -/
lemma reference_caa (htype : q.type = RecordType.caa) :
    (reference (challengeSources registry issuers mailKeys?) zone query q).1 =
      (if registry.values q.name = [] ∨ issuers = [] then [Caa.denyAll]
        else issuers.map Caa.issue).map fun caa => ⟨q.wireName, zone.ttl, .caa caa⟩ := by
  have hissuers : referenceIssuers (challengeSources registry issuers mailKeys?) q.name =
      if registry.values q.name = [] ∨ issuers = [] then [Caa.denyAll]
        else issuers.map Caa.issue := by
    rw [referenceIssuers, challengeSources, Option.map_some, ChallengeRegistry.issuerRecords]
    cases registry.values q.name <;> cases issuers <;> simp
  simp only [reference, htype, hissuers, List.map_map]
  simp [RecordType.soa, RecordType.ns, RecordType.mx, RecordType.caa, Function.comp_def]

/-- **Live challenges are shown.**  At any time the answer to a query for texts that ends at a
challenge has the values of the registrations that are live, and the answer to a query for
authority records lists the issuers exactly if one of them is for that name.  How a client spells
the domain makes no difference, nor does a wildcard in front of it.  What a session is told to be
accepted is live from then on, and what is dropped is live no longer. -/
theorem shows_live {configs : List ZoneConfig} {store : ZoneStore}
    (hstore : ZoneStore.ofConfigs configs = .ok store) (issuers : List Text)
    (mailKeys? : Option (Text → List Text)) :
    (∀ h : Holdings, h.Reachable →
      ∀ datagram request zone query recursionAvailable,
      Request.parse datagram = .ok request → store.find? request.question.name = some zone →
      let sources := challengeSources h.registry issuers mailKeys?
      let q := request.question
      let last := zone.walkEnd q.name
      ∃ header t,
        Transcript.read? (respond { zones := store, sources } request query recursionAvailable) =
          some (header, t) ∧
        (header.truncated = false →
          (q.type = RecordType.txt →
            ∀ d, zone.alias? (zone.walk q.name last) = none →
            zone.walk q.name last = challengeLabel ++ '.' :: d →
            zone.textsOf (challengeLabel ++ '.' :: d) = [] →
            ∃ values : List Text,
              t.answers = (aliasRecords zone q.name q.wireName ++ values.map fun value =>
                ({ owner := walkOwner zone q.name q.wireName last
                   ttl := zone.ttl
                   data := .txt value } : Record)).map Record.entry ∧
              (values : Multiset Text) = h.held.bind fun g => (g.valuesFor d).val) ∧
          (q.type = RecordType.caa →
            ((∃ g ∈ h.held, ∃ c ∈ g.challenges, c.baseDomain = q.name) ∧ issuers ≠ [] →
              t.answers = issuers.map fun issuer =>
                Record.entry ⟨q.wireName, zone.ttl, .caa (Caa.issue issuer)⟩) ∧
            (¬ ((∃ g ∈ h.held, ∃ c ∈ g.challenges, c.baseDomain = q.name) ∧ issuers ≠ []) →
              t.answers = [Record.entry ⟨q.wireName, zone.ttl, .caa Caa.denyAll⟩])))) ∧
    (∀ d, Text.IsNormal d → ∀ spelling : Text, spelling.lower = d → ∀ n value,
      (¬ ['*', '.'] <+: d →
        Challenge.baseDomain ⟨spelling ++ List.replicate n '.', value⟩ = d) ∧
      (d ≠ [] →
        Challenge.baseDomain ⟨'*' :: '.' :: spelling ++ List.replicate n '.', value⟩ = d)) ∧
    (∀ policy actions session payload listener',
      ChallengeListener.registrations { policy }
        (actions ++ [.grant session payload, .register session]) < 2 ^ 64 →
      let listener := ChallengeListener.play { policy } actions
      listener.receive session payload = (some .ok, listener') →
      listener'.holdings.Reachable ∧
      ∃ s request g, listener.sessions[session]? = some s ∧
        ChallengeRequest.ofFrame listener.policy s.peer payload = .ok request ∧
        g.challenges = request.challenges ∧
        listener'.holdings.held = g ::ₘ listener.holdings.held) ∧
    (∀ h : Holdings, h.Reachable → ∀ g rest, h.held = g ::ₘ rest →
      Holdings.Reachable ⟨h.registry.release g, rest, h.granted⟩) := by
  refine ⟨?_, fun d hd spelling => Challenge.baseDomain_spelling hd, ?_,
    fun h hreach g rest => hreach.drop⟩
  · intro h hreach datagram request zone query recursionAvailable hparse hzone sources q last
    have hname := Request.isNormal_name hparse
    obtain ⟨config, -, hconfig⟩ := ZoneStore.exists_config hstore hzone
    obtain ⟨t, hread, hwhole⟩ :=
      read_whole { zones := store, sources } hstore hparse query recursionAvailable
    refine ⟨_, t, hread, ?_⟩
    intro huntruncated
    have hanswers : t.answers =
        (reference sources zone query request.question).1.map Record.entry := by
      rw [hwhole huntruncated, records, hzone]
    constructor
    · intro htype d hend hlast htexts
      have hnormal := (Zone.isNamed_of_ofConfig hconfig).isNormal_walk hname last
      rw [hlast] at hnormal
      refine ⟨h.registry.values d, ?_, hreach.shows.coe_values hnormal.of_dot⟩
      rw [hanswers, reference_txt htype hend hlast htexts]
    · intro htype
      rw [hanswers, reference_caa htype]
      have hlive := hreach.shows.values_ne_nil hname
      constructor
      · rintro ⟨hheld, hissuers⟩
        have hvalues : h.registry.values q.name ≠ [] := hlive.mpr hheld
        simp [hvalues, hissuers]
      · intro hnone
        have hdenied : h.registry.values q.name = [] ∨ issuers = [] := by
          by_contra hboth
          rw [not_or] at hboth
          exact hnone ⟨hlive.mp hboth.1, hboth.2⟩
        simp [hdenied]
  · intro policy actions session payload listener' hnumbers listener hreceive
    constructor
    · have hsound := ChallengeListener.sound_start policy
      have hreach := ChallengeListener.reachable_play
        (actions ++ [.grant session payload, .register session])
        (ChallengeListener.reachable_start policy) hsound (by simpa using hnumbers)
      have hplay : ChallengeListener.play { policy }
          (actions ++ [.grant session payload, .register session]) =
            (listener.receive session payload).2 := by
        rw [ChallengeListener.play, List.foldl_append]
        rfl
      rwa [hplay, hreceive] at hreach
    · obtain ⟨s, request, hs, hrequest, hholdings⟩ := ChallengeListener.holdings_receive hreceive
      exact ⟨s, request, _, hs, hrequest, rfl, by rw [hholdings]⟩

/-- A challenge for all names below `a`, in another spelling. -/
def wildcardChallenge : Challenge := ⟨"*.A.".toList, "v".toList⟩

/-- The query for the values of challenges for `a`. -/
def wildcardQuery : Bytes :=
  [0, 7, 1, 0, 0, 1, 0, 0, 0, 0, 0, 0, 15] ++ Utf8.encode challengeLabel ++ [1, 97, 0, 0, 16, 0, 1]

/-- The value of a challenge for a wildcard is all of the answer. -/
theorem shows_live_wildcard :
    let registry := (({} : ChallengeRegistry).hold [wildcardChallenge]).2
    ∃ store request header t, ZoneStore.ofConfigs [ZoneStore.emptyConfig "a"] = .ok store ∧
      Request.parse wildcardQuery = .ok request ∧
      Transcript.read? (respond
        { zones := store, sources := challengeSources registry [] none } request 0 false) =
          some (header, t) ∧
      header.truncated = false ∧
      t.answers = [Record.entry ⟨request.question.wireName, 60, .txt ['v']⟩] := by
  intro registry
  obtain ⟨store, hstore⟩ :
      ∃ store, ZoneStore.ofConfigs [ZoneStore.emptyConfig "a"] = .ok store := ⟨_, rfl⟩
  obtain ⟨request, hparse⟩ : ∃ request, Request.parse wildcardQuery = .ok request := ⟨_, rfl⟩
  have hquestion : request.question.name = challengeLabel ++ ['.', 'a'] ∧
      request.question.type = RecordType.txt := by
    cases hparse
    exact ⟨rfl, rfl⟩
  obtain ⟨zone, hzone, hplain⟩ : ∃ zone, store.find? request.question.name = some zone ∧
      zone.aliases = [] ∧ zone.texts = [] ∧ zone.ttl = 60 := by
    cases hstore
    rw [hquestion.1]
    exact ⟨_, rfl, rfl, rfl, rfl⟩
  have hwhole : (Transcript.read? (respond
      { zones := store, sources := challengeSources registry [] none } request 0 false)).map
        (·.1.truncated) = some false := by
    cases hstore
    cases hparse
    decide +kernel
  have hreach := Holdings.Reachable.empty.hold [wildcardChallenge] (by simp)
  obtain ⟨hanswers, -⟩ := shows_live hstore [] none
  obtain ⟨header, t, hread, hshown⟩ := hanswers _ hreach _ request zone 0 false hparse hzone
  rw [hread] at hwhole
  have huntruncated : header.truncated = false := by simpa using hwhole
  have halias : ∀ name, zone.alias? name = none := by
    intro name
    simp [Zone.alias?, hplain]
  have hend : zone.walkEnd request.question.name = 0 := Zone.walkEnd_eq_zero_iff.mpr (halias _)
  obtain ⟨values, heq, hvalues⟩ := (hshown huntruncated).1 hquestion.2 ['a'] (halias _)
    (by rw [hend, Zone.walk, hquestion.1]) (by simp [Zone.textsOf, hplain])
  have hlive : (({} : ChallengeRegistry).hold [wildcardChallenge]).1.valuesFor ['a'] = {['v']} := by
    decide
  refine ⟨store, request, header, t, hstore, hparse, hread, huntruncated, ?_⟩
  simp only [Multiset.cons_bind, Multiset.zero_bind, hlive, add_zero, Finset.singleton_val,
    Multiset.coe_eq_singleton] at hvalues
  simp [heq, hvalues, aliasRecords, hend, walkOwner, hplain]

end Resolver

end Nameserver

import Nameserver.Proofs.Registry.Expiry
import Nameserver.Proofs.Resolution.Layout
import Nameserver.Proofs.Zone.Finding

/-!
# Serving mail keys

A key that a mail signer announces is served below every apex, at the label of the provider in front
of the label of mail keys (`Resolver.serves_announced`).  The way there is from a frame to the
registry, and from the registry to the answer.

**Frames.**  A frame that is acknowledged without an error holds an announcement of one label
(`MailKeyAnnouncement.ofFrame_of_ok`), and the registry has its key until the provider announces
another or a sweep finds it too old (`Timeline.holds_announced`).

**Answers.**  A provider is one label, so the name is read as that of a mail key for it and for no
other, and as that of a challenge only if the provider has the label of challenges for a name
(`Resolver.challengeDomain?_mailKeyName`).  Then pending challenges come first
(`Resolver.serves_announced_pending`), and nothing is promised if there are none.
-/

namespace Nameserver

/-! ## Names of one label in front -/

/-- What stands in front of the first dot and what is behind it are unique. -/
lemma Text.append_dot_inj {p p' t t' : Text} (hp : '.' ∉ p) (hp' : '.' ∉ p') :
    p ++ '.' :: t = p' ++ '.' :: t' ↔ p = p' ∧ t = t' := by
  have hparts {p : Text} (hp : '.' ∉ p) : parts p = [p] := by
    show parts (join [p]) = [p]
    exact parts_join (List.cons_ne_nil _ _) (by simpa using hp)
  constructor
  · intro h
    have hsame := congrArg parts h
    rw [parts_dot, parts_dot, hparts hp, hparts hp', List.singleton_append, List.singleton_append,
      List.cons.injEq] at hsame
    exact ⟨hsame.1, parts_injective hsame.2⟩
  · rintro ⟨rfl, rfl⟩
    rfl

/-! ## Frames -/

namespace MailKeyAnnouncement

variable {announcement : MailKeyAnnouncement} {payload : Bytes}

/-- The provider is one label. -/
lemma provider_of_check (h : announcement.check = .ok ()) :
    announcement.provider ≠ [] ∧ '.' ∉ announcement.provider := by
  rw [check] at h
  split_ifs at h with hbad
  simp only [Bool.or_eq_true, not_or, List.isEmpty_iff, List.contains_iff_mem] at hbad
  exact hbad.1

lemma check_of_ofFrame (h : ofFrame payload = .ok announcement) : announcement.check = .ok () := by
  rw [ofFrame] at h
  split at h
  · cases h
  · rename_i read _
    cases hcheck : read.check with
    | error failure =>
        rw [hcheck] at h
        cases h
    | ok done =>
        rw [hcheck] at h
        cases h
        exact hcheck

/-- A frame is acknowledged without an error if the announcement in it can be used. -/
lemma ofFrame_of_ok {registry : MailKeyRegistry} {now : Nat}
    (hread : (Json.parse? payload).bind ofJson? = some announcement)
    (hack : (registry.receive now payload).1 = .ok) : ofFrame payload = .ok announcement := by
  rw [MailKeyRegistry.receive, ofFrame, hread] at hack
  rw [ofFrame, hread]
  dsimp only at hack ⊢
  cases hcheck : announcement.check with
  | error failure =>
      rw [hcheck] at hack
      cases hack
  | ok done => rfl

end MailKeyAnnouncement

/-! ## From frames to the registry -/

namespace Timeline

open MailKeyRegistry (Outlives)

variable {t : Timeline} {p : Text} {key : MailKey}

/-- The event brings a key for a provider. -/
def Event.Brings (p : Text) : Event → Prop
  | .store provider _ => provider.lower = p
  | .announce payload =>
    ∃ announcement, MailKeyAnnouncement.ofFrame payload = .ok announcement ∧
      announcement.provider.lower = p
  | .lookup _ | .sweep | .pass _ | .watch | .rest _ => False

/-- The latest announcement stays the latest until there is another. -/
lemma latest?_step {event : Event} (h : ¬ event.Brings p) :
    (t.step event).latest? p = t.latest? p := by
  cases event with
  | store provider publicKey =>
      rw [latest?_step_store]
      exact if_neg h
  | announce payload =>
      rw [step_announce]
      cases hframe : MailKeyAnnouncement.ofFrame payload with
      | error failure => rfl
      | ok announcement =>
          dsimp only
          rw [latest?_step_store]
          exact if_neg fun hp => h ⟨announcement, hframe, hp⟩
  | lookup provider => rfl
  | sweep => exact latest?_afterSweeps t.now [t.now] t.sweepers
  | pass duration =>
      rw [step_pass]
      exact latest?_afterSweeps _ _ _
  | watch =>
      rw [step_watch]
      exact latest?_afterSweeps _ _ _
  | rest sweeper => rfl

lemma latest?_foldl {events : List Event} (h : ∀ event ∈ events, ¬ event.Brings p) :
    (events.foldl step t).latest? p = t.latest? p := by
  induction events generalizing t with
  | nil => rfl
  | cons event events ih =>
      obtain ⟨hfirst, hrest⟩ := List.forall_mem_cons.mp h
      rw [List.foldl_cons, ih hrest, latest?_step hfirst]

/-- The registry has the key of an announcement that came in a frame, as long as the provider has
not announced another and no sweep has found it too old. -/
lemma holds_announced {interval start : Nat} {before after : List Event} {payload : Bytes}
    {announcement : MailKeyAnnouncement}
    (hframe : MailKeyAnnouncement.ofFrame payload = .ok announcement)
    (hlatest : ∀ event ∈ after, ¬ event.Brings announcement.provider.lower)
    (hkept : ∀ time ∈ (run interval start (before ++ .announce payload :: after)).sweeps,
      ¬ Outlives interval time ⟨announcement.publicKey, (run interval start before).now⟩) :
    (run interval start (before ++ .announce payload :: after)).registry.lookup?
      announcement.provider.lower = some announcement.publicKey := by
  have hsound := isSound_run interval start (before ++ .announce payload :: after)
  have hlast : (run interval start (before ++ .announce payload :: after)).latest?
      announcement.provider.lower =
        some ⟨announcement.publicKey, (run interval start before).now⟩ := by
    rw [run, List.foldl_append, List.foldl_cons, latest?_foldl hlatest, ← run, step_announce,
      hframe]
    dsimp only
    rw [latest?_step_store, if_pos rfl]
  have hget := (hsound.held _ _).mpr ⟨hlast, by rwa [refreshInterval_run]⟩
  rw [MailKeyRegistry.lookup?, hget]
  rfl

end Timeline

/-! ## From the registry to the answer -/

namespace Resolver

variable {resolver : Resolver} {request : Request} {zone : Zone} {query : UInt64}

/-- The records of some texts at the name in question. -/
def textRecords (zone : Zone) (q : Question) (texts : List Text) : List Record :=
  texts.map fun text => ⟨q.wireName, zone.ttl, .txt text⟩

/-- The texts of a name that is no alias are the answer to a question about them. -/
lemma records_txt {q : Question} (hzone : resolver.zones.find? q.name = some zone)
    (htype : q.type = RecordType.txt) (halias : zone.alias? q.name = none) :
    resolver.records query q = textRecords zone q (texts resolver.sources zone q.name) ∧
      resolver.verdict query q = .noError := by
  have hfollows : Follows zone q := follows_of_type (by rw [htype]; decide)
  have hdata : referenceData resolver.sources zone query RecordType.txt q.name =
      (texts resolver.sources zone q.name).map .txt := by
    rw [referenceData, if_neg (by decide), if_pos rfl, texts_eq]
  simp only [records, verdict, hzone, reference_of_alias?_eq_none hfollows halias, htype, hdata,
    List.map_map, textRecords]
  exact ⟨rfl, trivial⟩

/-- The name at which the key of a provider is served. -/
def mailKeyName (provider apex : Text) : Text := provider ++ '.' :: mailKeyLabel ++ '.' :: apex

lemma mailProvider?_mailKeyName {provider : Text} (hne : provider ≠ []) (apex : Text) :
    mailProvider? (mailKeyName provider apex) apex = some provider := by
  rw [mailProvider?_eq, Option.filter_eq_some_iff, List.dropSuffix?_eq_some_iff]
  refine ⟨⟨_, ?_, beq_self_eq_true _⟩, by simpa using hne⟩
  simp [mailKeyName]

/-- The name of a mail key is that of a challenge if the provider has the label of challenges. -/
lemma challengeDomain?_mailKeyName {provider : Text} (hdot : '.' ∉ provider) (apex domain : Text) :
    challengeDomain? (mailKeyName provider apex) = some domain ↔
      provider = challengeLabel ∧ domain = mailKeyLabel ++ '.' :: apex := by
  rw [challengeDomain?_eq_some_iff, mailKeyName, List.append_assoc, List.cons_append,
    Text.append_dot_inj hdot (by decide), eq_comm (a := domain)]

/-- What is served at the name of a mail key, where the zone has no texts of its own. -/
lemma texts_mailKeyName {sources : Sources} {keys : Text → List Text} {provider : Text}
    (hsource : sources.mailKeys? = some keys) (hne : provider ≠ []) (hdot : '.' ∉ provider)
    (hplain : zone.textsOf (mailKeyName provider zone.apex) = []) :
    (sources.challenges? = none ∨ provider ≠ challengeLabel →
      texts sources zone (mailKeyName provider zone.apex) =
        ((keys provider).take 1).map mailKeyText) ∧
    ∀ values, sources.challenges? = some values → provider = challengeLabel →
      texts sources zone (mailKeyName provider zone.apex) =
        values (mailKeyLabel ++ '.' :: zone.apex) := by
  have hkeys : mailKeyTexts sources (mailKeyName provider zone.apex) zone.apex =
      ((keys provider).take 1).map mailKeyText := by
    rw [mailKeyTexts, hsource, mailProvider?_mailKeyName hne]
  constructor
  · intro hother
    rw [texts, hplain]
    dsimp only
    split
    · rename_i values domain hvalues hdomain
      obtain ⟨hchallenge, -⟩ := (challengeDomain?_mailKeyName hdot _ _).mp hdomain
      exact absurd hchallenge (hother.resolve_left (by rw [hvalues]; exact Option.some_ne_none _))
    · exact hkeys
  · intro values hvalues hchallenge
    rw [texts, hplain, hvalues, (challengeDomain?_mailKeyName hdot _ _).mpr ⟨hchallenge, rfl⟩]

/-- If there is room for the records of these texts, a client reads them and nothing else. -/
def Serves (resolver : Resolver) (request : Request) (query : UInt64) (recursionAvailable : Bool)
    (zone : Zone) (texts : List Text) : Prop :=
  let records := textRecords zone request.question texts
  headerSize + request.question.encode.length + Record.total records ≤
      request.limit - room request →
    ∃ h t, Transcript.read? (resolver.respond request query recursionAvailable) = some (h, t) ∧
      h.truncated = false ∧ h.rcode = Rcode.noError.code ∧ t.answers = records.map Record.entry

lemma serves_texts {configs : List ZoneConfig} {datagram : Bytes}
    (hstore : ZoneStore.ofConfigs configs = .ok resolver.zones)
    (hparse : Request.parse datagram = .ok request)
    (hzone : resolver.zones.find? request.question.name = some zone)
    (htype : request.question.type = RecordType.txt)
    (halias : zone.alias? request.question.name = none) (recursionAvailable : Bool) :
    resolver.Serves request query recursionAvailable zone
      (texts resolver.sources zone request.question.name) := by
  obtain ⟨hrecords, hverdict⟩ := @records_txt resolver zone query _ hzone htype halias
  intro hfits
  rw [← hrecords] at hfits
  obtain ⟨h, t, hread, hmark, hrcode, hanswers⟩ :=
    read_fitting resolver query hstore hparse recursionAvailable hfits
  rw [hverdict] at hrcode
  rw [hrecords] at hanswers
  exact ⟨h, t, hread, hmark, hrcode, hanswers⟩

/-- Zones with a registry of mail keys, next to any other sources. -/
def withMailKeys (store : ZoneStore) (challenges? : Option (Text → List Text))
    (issuers? : Option (Text → List Caa)) (registry : MailKeyRegistry) : Resolver where
  zones := store
  sources :=
    { challenges?, issuers?
      mailKeys? := some fun provider => (registry.lookup? provider).toList }

/-- **Announced keys are served.**  A frame is acknowledged without an error, the provider in it
announces no other key after it, and no sweep comes when it is too old.  Then a query for texts at
the provider below the apex of a zone, where this has neither an alias nor texts, is answered with
that key and nothing else, unless challenges are taken and the provider has their label for a name.
In that case the challenges that are pending for the domain behind it are the answer.  What the
answer is when none are pending is left open: this is what the hypothesis on `values` is for, which
the proof does not use. -/
theorem serves_announced {configs : List ZoneConfig} {store : ZoneStore} {datagram payload : Bytes}
    {announcement : MailKeyAnnouncement} (interval start : Nat) (before after : List Timeline.Event)
    (hstore : ZoneStore.ofConfigs configs = .ok store)
    (hread : (Json.parse? payload).bind MailKeyAnnouncement.ofJson? = some announcement)
    (hack : let t := Timeline.run interval start before
      (t.registry.receive t.now payload).1 = .ok)
    (hlatest : ∀ event ∈ after, ¬ event.Brings announcement.provider.lower)
    (hkept : ∀ time ∈ (Timeline.run interval start (before ++ .announce payload :: after)).sweeps,
      ¬ MailKeyRegistry.Outlives interval time
        ⟨announcement.publicKey, (Timeline.run interval start before).now⟩)
    (hparse : Request.parse datagram = .ok request)
    (htype : request.question.type = RecordType.txt)
    (hzone : store.find? request.question.name = some zone)
    (hname : request.question.name =
      announcement.provider.lower ++ '.' :: "_domainkey".toList ++ '.' :: zone.apex)
    (halias : zone.alias? request.question.name = none)
    (hplain : zone.textsOf request.question.name = [])
    (challenges? : Option (Text → List Text)) (issuers? : Option (Text → List Caa))
    (query : UInt64) (recursionAvailable : Bool) :
    let t := Timeline.run interval start (before ++ .announce payload :: after)
    let resolver := withMailKeys store challenges? issuers? t.registry
    (challenges? = none ∨ announcement.provider.lower ≠ "_acme-challenge".toList →
      resolver.Serves request query recursionAvailable zone
        ["v=DKIM1;k=rsa;p=".toList ++ announcement.publicKey]) ∧
    ∀ values, challenges? = some values →
      announcement.provider.lower = "_acme-challenge".toList →
      values ("_domainkey".toList ++ '.' :: zone.apex) ≠ [] →
      resolver.Serves request query recursionAvailable zone
        (values ("_domainkey".toList ++ '.' :: zone.apex)) := by
  intro t resolver
  have hframe := MailKeyAnnouncement.ofFrame_of_ok hread hack
  have hkey : t.registry.lookup? announcement.provider.lower = some announcement.publicKey :=
    Timeline.holds_announced hframe hlatest hkept
  obtain ⟨hne, hdot⟩ :=
    MailKeyAnnouncement.provider_of_check (MailKeyAnnouncement.check_of_ofFrame hframe)
  have hlowerNe : announcement.provider.lower ≠ [] := by simpa [Text.lower] using hne
  have hlowerDot : '.' ∉ announcement.provider.lower := by rwa [Text.dot_mem_lower]
  have hserves : resolver.Serves request query recursionAvailable zone
      (texts resolver.sources zone request.question.name) :=
    serves_texts hstore hparse hzone htype halias recursionAvailable
  have hmail : request.question.name = mailKeyName announcement.provider.lower zone.apex := hname
  rw [hmail] at hplain hserves
  obtain ⟨hother, hpending⟩ :=
    @texts_mailKeyName zone resolver.sources _ _ rfl hlowerNe hlowerDot hplain
  refine ⟨fun hnone => ?_, fun values hvalues hlabel _ => ?_⟩
  · rw [hother hnone, hkey] at hserves
    exact hserves
  · rw [hpending values hvalues hlabel] at hserves
    exact hserves

/-- A frame in which a provider announces a key. -/
def keyFrame (provider : Text) : Bytes :=
  [91, 34] ++ Utf8.encode provider ++ [34, 44, 34, 65, 65, 65, 65, 34, 93]

/-- The query for texts at a provider in the zone `a`. -/
def keyQuery (provider : Text) : Bytes :=
  [0, 7, 1, 0, 0, 1, 0, 0, 0, 0, 0, 0, UInt8.ofNat provider.length] ++ Utf8.encode provider ++
    [10] ++ Utf8.encode mailKeyLabel ++ [1, 97, 0, 0, 16, 0, 1]

/-- A request for texts at a provider, about a zone without any names in it, with room for the key
and for the value of a challenge. -/
structure IsKeyRequest (store : ZoneStore) (request : Request) (zone : Zone) (provider : Text) :
    Prop where
  stored : ZoneStore.ofConfigs [ZoneStore.emptyConfig "a"] = .ok store
  parsed : Request.parse (keyQuery provider) = .ok request
  found : store.find? request.question.name = some zone
  type_eq : request.question.type = RecordType.txt
  apex_eq : zone.apex = ['a']
  name_eq : request.question.name = mailKeyName provider zone.apex
  noAlias : zone.alias? request.question.name = none
  noTexts : zone.textsOf request.question.name = []
  room : ∀ text ∈ [['v'], "v=DKIM1;k=rsa;p=AAAA".toList],
    headerSize + request.question.encode.length +
      Record.total (textRecords zone request.question [text]) ≤ request.limit - room request

lemma exists_isKeyRequest {provider : Text} (h : provider ∈ ["mail".toList, challengeLabel]) :
    ∃ store request zone, IsKeyRequest store request zone provider := by
  rcases List.mem_pair.mp h with rfl | rfl
  · exact ⟨_, _, _, rfl, rfl, rfl, rfl, rfl, rfl, rfl, rfl, by decide +kernel⟩
  · exact ⟨_, _, _, rfl, rfl, rfl, rfl, rfl, rfl, rfl, rfl, by decide +kernel⟩

/-- What comes in the frames is accepted. -/
lemma receive_keyFrame {provider : Text} (h : provider ∈ ["Mail".toList, challengeLabel]) :
    (Json.parse? (keyFrame provider)).bind MailKeyAnnouncement.ofJson? =
        some ⟨provider, "AAAA".toList⟩ ∧
      let t := Timeline.run (60 * second) 0 []
      (t.registry.receive t.now (keyFrame provider)).1 = .ok := by
  rcases List.mem_pair.mp h with rfl | rfl
  · decide +kernel
  · decide +kernel

/-- The key is served while a challenge is pending for the zone. -/
theorem serves_announced_mail :
    let t := Timeline.run (60 * second) 0 [.announce (keyFrame "Mail".toList)]
    let registry := (({} : ChallengeRegistry).hold [⟨"a".toList, "v".toList⟩]).2
    ∃ store request zone header reading, IsKeyRequest store request zone "mail".toList ∧
      Transcript.read? ((withMailKeys store (some registry.values) none t.registry).respond request
        0 false) = some (header, reading) ∧ header.truncated = false ∧
      reading.answers = (textRecords zone request.question
        ["v=DKIM1;k=rsa;p=AAAA".toList]).map Record.entry := by
  intro t registry
  obtain ⟨store, request, zone, hrequest⟩ := @exists_isKeyRequest "mail".toList (by simp)
  obtain ⟨hframe, hack⟩ := @receive_keyFrame "Mail".toList (by simp)
  have hsweeps : t.sweeps = [] := by decide +kernel
  have hkept : ∀ time ∈ t.sweeps,
      ¬ MailKeyRegistry.Outlives (60 * second) time ⟨"AAAA".toList, 0⟩ := by
    rw [hsweeps]
    exact fun _ htime => nomatch htime
  obtain ⟨hserves, -⟩ := serves_announced (60 * second) 0 [] [] hrequest.stored hframe hack
    (fun _ hevent => nomatch hevent) hkept hrequest.parsed hrequest.type_eq hrequest.found
    hrequest.name_eq hrequest.noAlias hrequest.noTexts (some registry.values) none 0 false
  obtain ⟨header, reading, hread, hmark, -, hanswers⟩ :=
    hserves (.inr (by decide)) (hrequest.room _ (by simp))
  exact ⟨store, request, zone, header, reading, hrequest, hread, hmark, hanswers⟩

/-- A key of the provider that has the label of challenges for a name is accepted, and is not served
while a challenge is pending for the domain behind that label. -/
theorem serves_announced_pending :
    let frame := keyFrame challengeLabel
    let t := Timeline.run (60 * second) 0 [.announce frame]
    let registry := (({} : ChallengeRegistry).hold [⟨"_domainkey.a".toList, "v".toList⟩]).2
    (({ refreshInterval := 60 * second } : MailKeyRegistry).receive 0 frame).1 = .ok ∧
    t.latest? challengeLabel = some ⟨"AAAA".toList, 0⟩ ∧ t.sweeps = [] ∧
    ∃ store request zone header reading, IsKeyRequest store request zone challengeLabel ∧
      Transcript.read? ((withMailKeys store (some registry.values) none t.registry).respond request
        0 false) = some (header, reading) ∧ header.truncated = false ∧
      reading.answers ≠ (textRecords zone request.question
        ["v=DKIM1;k=rsa;p=AAAA".toList]).map Record.entry := by
  intro frame t registry
  obtain ⟨store, request, zone, hrequest⟩ := @exists_isKeyRequest challengeLabel (by simp)
  obtain ⟨-, hack⟩ := @receive_keyFrame challengeLabel (by simp)
  have hlatest : t.latest? challengeLabel = some ⟨"AAAA".toList, 0⟩ := by decide +kernel
  have hsweeps : t.sweeps = [] := by decide +kernel
  let resolver := withMailKeys store (some registry.values) none t.registry
  have hname := hrequest.name_eq
  have hplain := hrequest.noTexts
  rw [hname] at hplain
  have hvalues : registry.values (mailKeyLabel ++ '.' :: ['a']) = [['v']] := by decide +kernel
  obtain ⟨-, hpending⟩ := @texts_mailKeyName zone resolver.sources _ challengeLabel rfl (by decide)
    (by decide) hplain
  have htexts := hpending registry.values rfl rfl
  rw [hrequest.apex_eq, hvalues, ← hrequest.apex_eq, ← hname] at htexts
  have hserves : resolver.Serves request 0 false zone (texts resolver.sources zone _) :=
    serves_texts hrequest.stored hrequest.parsed hrequest.found hrequest.type_eq hrequest.noAlias
      false
  rw [htexts] at hserves
  obtain ⟨header, reading, hread, hmark, -, hanswers⟩ := hserves (hrequest.room _ (by simp))
  refine ⟨hack, hlatest, hsweeps, store, request, zone, header, reading, hrequest, hread, hmark, ?_⟩
  have hdata : (RecordData.txt ['v']).encode ≠
      (RecordData.txt "v=DKIM1;k=rsa;p=AAAA".toList).encode := by decide +kernel
  rw [hanswers]
  intro hsame
  exact hdata (congrArg Entry.data (List.cons.inj hsame).1)

end Resolver

end Nameserver

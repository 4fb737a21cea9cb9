import Nameserver.Proofs.Resolution.Walk
import Nameserver.Proofs.Text.Parts

/-!
# What the answer to a question is

`Resolver.reference` is the complete list of answers to a question about a name of a zone, with the
response code that goes with it, as if there were no limit to a response.  `Resolver.resolve_eq`
says that the resolver adds the answers of this list in this order, and that the code is the one of
the list if nothing is left out.

**Texts.**  The sources of texts are asked in their order.  The domain of a challenge is what
follows the label of challenges, and the provider of a mail key what stands in front of the label
of mail keys and the apex.
-/

namespace Nameserver

namespace Resolver

variable {sources : Sources} {zone : Zone} {query : UInt64} {type : RecordType} {name : Text}

/-! ## Where texts come from -/

lemma challengeDomain?_eq (name : Text) :
    challengeDomain? name = name.dropPrefix? (challengeLabel ++ ['.']) := by
  ext domain
  rw [challengeDomain?, Option.bind_eq_some_iff, List.dropPrefix?_eq_some_iff]
  constructor
  · rintro ⟨rest, hfirst, hrest⟩
    rw [Text.dropStart?_eq_some_iff] at hfirst hrest
    exact ⟨challengeLabel ++ ['.'], by rw [hfirst, hrest, List.append_assoc], beq_self_eq_true _⟩
  · rintro ⟨start, rfl, heq⟩
    rw [beq_iff_eq.mp heq]
    refine ⟨['.'] ++ domain, ?_, Text.dropStart?_eq_some_iff.mpr rfl⟩
    rw [Text.dropStart?_eq_some_iff, List.append_assoc]

lemma challengeDomain?_eq_some_iff {domain : Text} :
    challengeDomain? name = some domain ↔ name = challengeLabel ++ '.' :: domain := by
  rw [challengeDomain?_eq, List.dropPrefix?_eq_some_iff]
  constructor
  · rintro ⟨start, rfl, heq⟩
    rw [beq_iff_eq.mp heq, List.append_assoc]
    rfl
  · rintro rfl
    exact ⟨challengeLabel ++ ['.'], by simp, beq_self_eq_true _⟩

lemma mailProvider?_eq (name apex : Text) :
    mailProvider? name apex =
      (name.dropSuffix? ('.' :: mailKeyLabel ++ '.' :: apex)).filter fun provider =>
        !provider.isEmpty := by
  ext provider
  rw [Option.filter_eq_some_iff, List.dropSuffix?_eq_some_iff]
  simp only [mailProvider?, Option.bind_eq_bind, Option.bind_eq_some_iff,
    Text.dropEnding?_eq_some_iff]
  constructor
  · rintro ⟨_, rfl, _, rfl, _, rfl, provider', rfl, h⟩
    split_ifs at h with hempty
    cases h
    exact ⟨⟨'.' :: mailKeyLabel ++ '.' :: apex, by simp, beq_self_eq_true _⟩, by simp [hempty]⟩
  · rintro ⟨⟨ending, rfl, heq⟩, hempty⟩
    rw [beq_iff_eq.mp heq]
    refine ⟨provider ++ '.' :: mailKeyLabel ++ ['.'], by simp, provider ++ '.' :: mailKeyLabel, rfl,
      provider ++ ['.'], by simp, provider, rfl, ?_⟩
    rw [if_neg (by simpa using hempty)]

/-- The text of the first key of the mail provider in front of the apex. -/
def referenceKeys (sources : Sources) (zone : Zone) (name : Text) : List Text :=
  match sources.mailKeys?,
    (name.dropSuffix? ('.' :: mailKeyLabel ++ '.' :: zone.apex)).filter (!·.isEmpty) with
  | some keys, some provider =>
    ((keys provider).head?.map fun key => "v=DKIM1;k=rsa;p=".toList ++ key).toList
  | _, _ => []

/-- The texts of a name: those of the zone, else the values of a challenge, else a mail key. -/
def referenceTexts (sources : Sources) (zone : Zone) (name : Text) : List Text :=
  match zone.textsOf name, sources.challenges?, name.dropPrefix? (challengeLabel ++ ['.']) with
  | text :: texts, _, _ => text :: texts
  | [], some values, some domain => values domain
  | [], _, _ => referenceKeys sources zone name

lemma mailKeyTexts_eq (sources : Sources) (zone : Zone) (name : Text) :
    mailKeyTexts sources name zone.apex = referenceKeys sources zone name := by
  unfold mailKeyTexts referenceKeys
  rw [mailProvider?_eq]
  generalize Option.filter _ _ = provider?
  cases sources.mailKeys? with
  | none => rfl
  | some keys =>
      cases provider? with
      | none => rfl
      | some provider =>
          show ((keys provider).take 1).map mailKeyText =
            ((keys provider).head?.map mailKeyText).toList
          cases keys provider <;> rfl

lemma texts_eq (sources : Sources) (zone : Zone) (name : Text) :
    texts sources zone name = referenceTexts sources zone name := by
  unfold texts referenceTexts
  rw [challengeDomain?_eq, mailKeyTexts_eq]
  generalize List.dropPrefix? name (challengeLabel ++ ['.']) = domain?
  cases zone.textsOf name with
  | cons text texts => rfl
  | nil =>
      cases sources.challenges? with
      | none => rfl
      | some values => cases domain? <;> rfl

/-! ## The list of answers -/

/-- The data of a type at the end of a walk. -/
def referenceData (sources : Sources) (zone : Zone) (query : UInt64) (type : RecordType)
    (name : Text) : List RecordData :=
  if type = RecordType.a then
    let addresses := zone.addressesOf name
    (addresses.rotate (query.toNat % addresses.length)).map .a
  else if type = RecordType.txt then (referenceTexts sources zone name).map .txt
  else []

/-- The authority records of a name, or the one that denies all. -/
def referenceIssuers (sources : Sources) (name : Text) : List Caa :=
  match sources.issuers?.map (· name) with
  | some (first :: rest) => first :: rest
  | _ => [Caa.denyAll]

/-- The answers to a question about a name of a zone, and the response code that goes with them. -/
def reference (sources : Sources) (zone : Zone) (query : UInt64) (q : Question) :
    List Record × Rcode :=
  let records (data : List RecordData) : List Record := data.map fun data =>
    { owner := q.wireName, ttl := zone.ttl, data }
  if q.type = RecordType.soa then
    if q.name = zone.apex then
      (records [.soa ⟨zone.primary, zone.admin, zone.serial, 60, 60, 60, 60⟩], .noError)
    else ([], .nxDomain)
  else if q.type = RecordType.ns ∧ q.name = zone.apex then
    (records ((zone.nameservers.rotate (query.toNat % zone.nameservers.length)).map .ns), .noError)
  else if q.type = RecordType.mx ∧ q.name = zone.apex then
    (records ((zone.exchanges.mergeSort Zone.exchangeLe).map fun e => .mx e.2 e.1), .noError)
  else if q.type = RecordType.caa then
    (records ((referenceIssuers sources q.name).map .caa), .noError)
  else if q.type = RecordType.cname then
    ((aliasRecords zone q.name q.wireName).take 1, .noError)
  else
    (aliasRecords zone q.name q.wireName ++
      endRecords zone q.name q.wireName (referenceData sources zone query q.type),
      walkRcode zone q.name)

/-- The answer to a question follows the aliases of the zone. -/
def Follows (zone : Zone) (q : Question) : Prop :=
  q.type ∉ [RecordType.soa, RecordType.caa, RecordType.cname] ∧
    (q.name = zone.apex → q.type ∉ [RecordType.ns, RecordType.mx])

lemma follows_of_type {q : Question}
    (h : q.type ∉ [.soa, .ns, .mx, .caa, .cname]) : Follows zone q := by
  simp only [Follows, List.mem_cons, List.not_mem_nil, or_false, not_or] at h ⊢
  tauto

lemma reference_of_follows {q : Question} (h : Follows zone q) :
    reference sources zone query q =
      (aliasRecords zone q.name q.wireName ++
        endRecords zone q.name q.wireName (referenceData sources zone query q.type),
        walkRcode zone q.name) := by
  obtain ⟨htype, hapex⟩ := h
  simp only [List.mem_cons, List.not_mem_nil, or_false, not_or] at htype hapex
  obtain ⟨hsoa, hcaa, hcname⟩ := htype
  simp only [reference]
  rw [if_neg hsoa, if_neg fun hns => (hapex hns.2).1 hns.1, if_neg fun hmx => (hapex hmx.2).2 hmx.1,
    if_neg hcaa, if_neg hcname]

/-- Where a name is no alias, the answer is what the zone holds there. -/
lemma reference_of_alias?_eq_none {q : Question} (h : Follows zone q)
    (halias : zone.alias? q.name = none) :
    reference sources zone query q =
      ((referenceData sources zone query q.type q.name).map fun data =>
        ⟨q.wireName, zone.ttl, data⟩, .noError) := by
  have hend : zone.walkEnd q.name = 0 := Zone.walkEnd_eq_zero_iff.mpr halias
  simp only [reference_of_follows h, aliasRecords, endRecords, walkRcode, hend, Zone.walk, halias,
    if_pos, walkOwner, List.range_zero, List.map_nil, List.nil_append]

lemma rotated_eq_rotate {α : Type} (items : List α) (query : UInt64) :
    rotated items query = items.rotate (query.toNat % items.length) := by
  rw [List.rotate_mod, List.rotate_eq_drop_append_take_mod]
  rfl

lemma dataAt_eq_reference (sources : Sources) (zone : Zone) (query : UInt64) (type : RecordType) :
    dataAt sources zone query type = referenceData sources zone query type := by
  funext name
  rw [dataAt, referenceData, rotated_eq_rotate, texts_eq]

lemma issuers_eq_reference (sources : Sources) (name : Text) :
    issuers sources name = referenceIssuers sources name := by
  unfold issuers referenceIssuers
  cases sources.issuers? with
  | none => rfl
  | some known =>
      simp only [Option.map_some]
      cases known name <;> rfl

/-- The resolver answers with the reference list. -/
theorem resolve_eq {resolver : Resolver} {q : Question}
    (hsorted : zone.exchanges.Pairwise fun x y => Zone.exchangeLe x y = true) (d : Draft) :
    let result := resolver.resolve zone query q d
    result.2 = d.addAll (reference resolver.sources zone query q).1 ∧
    result.1 = toldRcode (reference resolver.sources zone query q).2
      result.2.header.truncated := by
  have hapex : zone.isApex q.name = true ↔ q.name = zone.apex := beq_iff_eq
  have hexchanges : zone.exchanges.mergeSort Zone.exchangeLe = zone.exchanges :=
    List.mergeSort_of_pairwise hsorted
  simp only [resolve, reference, hapex, hexchanges, ← rotated_eq_rotate, ← issuers_eq_reference,
    ← dataAt_eq_reference, Draft.addAnswers_eq_addAll]
  split_ifs with hsoa hname hns hmx hcaa hcname
  · exact ⟨rfl, (@toldRcode_of_ne .noError (by decide) _).symm⟩
  · exact ⟨rfl, (@toldRcode_of_ne .nxDomain (by decide) _).symm⟩
  · exact ⟨rfl, (@toldRcode_of_ne .noError (by decide) _).symm⟩
  · exact ⟨rfl, (@toldRcode_of_ne .noError (by decide) _).symm⟩
  · exact ⟨rfl, (@toldRcode_of_ne .noError (by decide) _).symm⟩
  · rw [hcname, chase_cname]
    exact ⟨rfl, (@toldRcode_of_ne .noError (by decide) _).symm⟩
  · exact chase_start hcname d

end Resolver

end Nameserver

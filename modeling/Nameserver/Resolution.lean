import Nameserver.Message.Request
import Nameserver.Message.Response
import Nameserver.Zone.Store

/-!
# Resolution

From a request to the complete response, out of zones and of whatever the dynamic sources hold at
that moment.

**Sources.**  `Sources` is a snapshot of the challenge values, the issuers and the mail keys, each
asked by name.  A source that is missing is switched off.

**Where an answer comes from.**  The start of a zone, its name servers and its mail exchanges are
answered at the apex only.  Issuers come from their source, or issuing is denied.  Everything else
is answered at the end of the chain of aliases, each alias being answered on the way
(`Resolver.chase`): addresses and static texts from the zone, other texts from the challenge values
or the mail keys.

**Turns.**  Addresses and name servers start at the place that the number of the query picks, so
that each gets its turn.

**Response codes.**  Outside of all zones queries are refused.  A chain of aliases that comes back
to a name is a failure, unless the response was full before that.
-/

namespace Nameserver

/-- The label below which challenge values are shown. -/
def challengeLabel : Text := "_acme-challenge".toList

/-- The label between a mail provider and the apex. -/
def mailKeyLabel : Text := "_domainkey".toList

/-- A snapshot of the dynamic sources. -/
structure Sources where
  /-- The challenge values of a domain. -/
  challenges? : Option (Text → List Text) := none
  /-- The authority records of a name. -/
  issuers? : Option (Text → List Caa) := none
  /-- The keys of a mail provider. -/
  mailKeys? : Option (Text → List Text) := none

/-- Zones and a snapshot of the dynamic sources. -/
structure Resolver where
  zones : ZoneStore
  sources : Sources := {}

/-- The items from the place that a query number picks, and then those before it. -/
def rotated {α : Type} (items : List α) (query : UInt64) : List α :=
  let start := query.toNat % items.length
  items.drop start ++ items.take start

/-- Adds an answer for each piece of data, up to the first that does not fit. -/
def Draft.addAnswers (d : Draft) (owner : Bytes) (ttl : UInt32) : List RecordData → Draft
  | [] => d
  | data :: rest =>
    match d.addAnswer ⟨owner, ttl, data⟩ with
    | (true, d) => d.addAnswers owner ttl rest
    | (false, d) => d

namespace Resolver

/-- The seconds of all four timers of a zone. -/
def zoneTimer : UInt32 := 60

/-- The start-of-zone data of a zone. -/
def startOf (zone : Zone) : RecordData :=
  .soa
    { primary := zone.primary
      mailbox := zone.admin
      serial := zone.serial
      refresh := zoneTimer
      retry := zoneTimer
      expire := zoneTimer
      minimum := zoneTimer }

/-- The domain whose challenge values are shown at a name. -/
def challengeDomain? (name : Text) : Option Text :=
  (Text.dropStart? name challengeLabel).bind fun rest => Text.dropStart? rest ['.']

/-- The mail provider whose key is shown at a name of a zone. -/
def mailProvider? (name apex : Text) : Option Text := do
  let rest ← Text.dropEnding? name apex
  let rest ← Text.dropEnding? rest ['.']
  let rest ← Text.dropEnding? rest mailKeyLabel
  let provider ← Text.dropEnding? rest ['.']
  if provider.isEmpty then none else some provider

/-- The text under which a mail key is shown. -/
def mailKeyText (key : Text) : Text := "v=DKIM1;k=rsa;p=".toList ++ key

/-- The mail key shown at a name of a zone. -/
def mailKeyTexts (sources : Sources) (name apex : Text) : List Text :=
  match sources.mailKeys?, mailProvider? name apex with
  | some keys, some provider => (((keys provider).take 1).map mailKeyText)
  | _, _ => []

/-- The texts of a name: those of the zone, else pending challenge values, else a mail key. -/
def texts (sources : Sources) (zone : Zone) (name : Text) : List Text :=
  match zone.textsOf name with
  | [] =>
    match sources.challenges?, challengeDomain? name with
    | some values, some domain => values domain
    | _, _ => mailKeyTexts sources name zone.apex
  | values => values

/-- The authority records of a name; without any, nobody may issue. -/
def issuers (sources : Sources) (name : Text) : List Caa :=
  let records := match sources.issuers? with
    | some issuers => issuers name
    | none => []
  if records.isEmpty then [Caa.denyAll] else records

/-- The data of a type at a name that is no alias. -/
def dataAt (sources : Sources) (zone : Zone) (query : UInt64) (type : RecordType) (name : Text) :
    List RecordData :=
  if type = RecordType.a then (rotated (zone.addressesOf name) query).map .a
  else if type = RecordType.txt then (texts sources zone name).map .txt
  else []

/-- The aliases of a zone that were not followed yet. -/
def unfollowed (zone : Zone) (followed : List Text) : Table Text Text :=
  zone.aliases.filter fun e => e.1 ∉ followed

/-- Following an alias for the first time leaves fewer to follow. -/
theorem length_unfollowed_lt {zone : Zone} {followed : List Text} {name target : Text}
    (h : zone.alias? name = some target) (hn : name ∉ followed) :
    (unfollowed zone (name :: followed)).length < (unfollowed zone followed).length := by
  unfold Zone.alias? at h
  unfold unfollowed
  generalize zone.aliases = t at h
  induction t with
  | nil => simp at h
  | cons e t ih =>
    have step : ∀ t : Table Text Text,
        (t.filter fun e => e.1 ∉ name :: followed).length ≤
          (t.filter fun e => e.1 ∉ followed).length := by
      intro t
      induction t with
      | nil => simp
      | cons e t ih =>
        simp only [List.filter_cons, List.mem_cons]
        by_cases h₁ : e.1 ∈ followed <;> by_cases h₂ : e.1 = name <;> simp_all
        omega
    by_cases he : name = e.1
    · have := step t
      subst he
      simp only [List.filter_cons, List.mem_cons, true_or, not_true_eq_false, decide_false, hn,
        not_false_eq_true, decide_true, List.length_cons, if_true]
      simp only [List.mem_cons] at this
      exact Nat.lt_succ_of_le this
    · rw [Table.get?_cons, if_neg he] at h
      have := ih h
      simp only [List.filter_cons, List.mem_cons] at this ⊢
      by_cases h₁ : e.1 ∈ followed
      · simp_all
      · have h₂ : ¬ e.1 = name := fun h => he h.symm
        simp_all

/-- Follows the aliases from a name, answering each with its record, and answers the type at the
name where the chain ends.  `owner` is the name on the wire, and `followed` holds the aliases
already followed. -/
def chase (sources : Sources) (zone : Zone) (query : UInt64) (type : RecordType)
    (followed : List Text) (name : Text) (owner : Bytes) (d : Draft) : Rcode × Draft :=
  match _isAlias : zone.alias? name with
  | none => (.noError, d.addAnswers owner zone.ttl (dataAt sources zone query type name))
  | some target =>
    if _isNew : name ∈ followed then (.servFail, d)
    else
      match d.addAnswer ⟨owner, zone.ttl, .cname target⟩ with
      | (false, d) => (.noError, d)
      | (true, d) =>
        if type = RecordType.cname then (.noError, d)
        else chase sources zone query type (name :: followed) target (Name.encode target) d
termination_by (unfollowed zone followed).length
decreasing_by exact length_unfollowed_lt _isAlias _isNew

/-- Adds the answers to a question about a name of a zone, and says how it went. -/
def resolve (resolver : Resolver) (zone : Zone) (query : UInt64) (question : Question)
    (d : Draft) : Rcode × Draft :=
  let name := question.name
  let owner := question.wireName
  if question.type = RecordType.soa then
    if zone.isApex name then (.noError, d.addAnswers owner zone.ttl [startOf zone])
    else (.nxDomain, d)
  else if question.type = RecordType.ns ∧ zone.isApex name then
    (.noError, d.addAnswers owner zone.ttl ((rotated zone.nameservers query).map .ns))
  else if question.type = RecordType.mx ∧ zone.isApex name then
    (.noError,
      d.addAnswers owner zone.ttl (zone.exchanges.map fun (host, preference) =>
        .mx preference host))
  else if question.type = RecordType.caa then
    (.noError, d.addAnswers owner zone.ttl ((issuers resolver.sources name).map .caa))
  else chase resolver.sources zone query question.type [] name owner d

/-- Whether a request is about a name of a zone. -/
def isLocal (resolver : Resolver) (request : Request) : Bool :=
  (resolver.zones.find? request.question.name).isSome

/-- The draft of a response before anything is answered: the header, the room for the extension
record and the question. -/
def opening (request : Request) (recursionAvailable : Bool) : Draft :=
  let header := { Header.responseTo request.header with recursionAvailable }
  let d := Draft.empty header request.limit
  let d := if request.payload?.isSome then d.reserve (UInt64.ofNat optSize) else d
  (d.addQuestion request.question).2

/-- The finished response: the extension record is added if the request had one. -/
def closing (request : Request) (rcode : Rcode) (d : Draft) : Bytes :=
  let d := d.withRcode rcode
  let d := if request.payload?.isSome then (d.addOpt (UInt16.ofNat request.limit)).2 else d
  d.finish

/-- The complete response to a request. -/
def respond (resolver : Resolver) (request : Request) (query : UInt64)
    (recursionAvailable : Bool) : Bytes :=
  let d := opening request recursionAvailable
  match resolver.zones.find? request.question.name with
  | none => closing request .refused d
  | some zone =>
    let (rcode, d) := resolver.resolve zone query request.question (d.withAuthoritative true)
    closing request rcode d

end Resolver

end Nameserver

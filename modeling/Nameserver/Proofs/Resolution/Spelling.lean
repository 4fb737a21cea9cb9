import Nameserver.Proofs.Resolution.Layout
import Nameserver.Proofs.Zone.Finding

/-!
# The case of letters in a question

Names are looked up in lower case and echoed as they were sent.  So two queries whose names differ
in the case of letters only are answered by one and the same form, in which the name in question is
left blank and which is filled in with the name that was sent (`Resolver.respond_respelled`).

**From datagrams to requests.**  Lowering the octets of a label and lowering the text that is read
from it come to the same, also where the octets are no text (`Name.lower_dotted`).  A datagram of
other letters therefore is a query as well, and about the same name (`Request.parse_respelled`).

**From requests to forms.**  The records of an answer have the name in question for an owner, or an
owner of their own (`Resolver.exists_records_form`).  Which of them there is room for is a matter of
sizes, and a name has the same size in any case (`RecordForm.fitting_fill`).
-/

namespace Nameserver

/-! ## Labels in another case -/

namespace Name

variable {labels labels' : List Bytes}

/-- A dot is no letter. -/
lemma dot_mem_lowered {label : Bytes} : 46 ∈ label.map Utf8.lowerOctet ↔ 46 ∈ label := by
  rw [List.mem_map]
  constructor
  · rintro ⟨b, hb, hdot⟩
    have hlower := Utf8.toNat_lowerOctet b
    have hvalue : (46 : UInt8).toNat = 46 := rfl
    rw [hdot, hvalue] at hlower
    have hsame : b = 46 := UInt8.toNat_inj.mp (by split_ifs at hlower <;> omega)
    exact hsame ▸ hb
  · exact fun hdot => ⟨46, hdot, rfl⟩

lemma areSized_lowered : AreSized (lowered labels) ↔ AreSized labels := by
  simp [AreSized, lowered]

lemma areDotless_lowered : AreDotless (lowered labels) ↔ AreDotless labels := by
  simp only [AreDotless, lowered, List.forall_mem_map, dot_mem_lowered]

lemma length_wire_lowered (labels : List Bytes) :
    (wire (lowered labels)).length = (wire labels).length := by
  induction labels with
  | nil => rfl
  | cons label labels ih =>
      rw [lowered, List.map_cons, ← lowered, wire_cons, wire_cons]
      simp only [List.length_cons, List.length_append, List.length_map, ih]

/-- Letters may be turned into small ones before a name is put in dotted form or after it. -/
lemma lower_dotted (labels : List Bytes) : (dotted labels).lower = dotted (lowered labels) := by
  rw [dotted, Text.lower_join, dotted, lowered, List.map_map, List.map_map]
  congr 1
  exact List.map_congr_left fun label _ => (Utf8.decodeLossy_lower label).symm

end Name

/-! ## Queries in another case -/

/-- Datagrams that differ in the case of letters in the labels of the first question, and in nothing
else. -/
def AreRespelled (datagram datagram' : Bytes) : Prop :=
  ∃ front labels labels' rest, front.length = headerSize ∧ Name.AreSized labels ∧
    Name.lowered labels = Name.lowered labels' ∧
    datagram = front ++ (Name.wire labels ++ rest) ∧
    datagram' = front ++ (Name.wire labels' ++ rest)

namespace Query

variable {q : Query} {labels' : List Bytes}

/-- The query with other labels for the name. -/
def rename (q : Query) (labels' : List Bytes) : Query := { q with name := labels' }

lemma IsSound.rename (h : q.IsSound) (hlowered : Name.lowered q.name = Name.lowered labels') :
    (q.rename labels').IsSound :=
  { h with
    sized := Name.areSized_lowered.mp (hlowered ▸ Name.areSized_lowered.mpr h.sized)
    dotless := Name.areDotless_lowered.mp (hlowered ▸ Name.areDotless_lowered.mpr h.dotless) }

/-- The request is the same but for the octets of the name. -/
lemma request_rename (hlowered : Name.lowered q.name = Name.lowered labels') :
    (q.rename labels').request =
      { q.request with question := { q.request.question with wireName := Name.wire labels' } } := by
  have hname : (Name.dotted labels').lower = (Name.dotted q.name).lower := by
    rw [Name.lower_dotted, Name.lower_dotted, hlowered]
  simp only [rename, request, hname]

lemma content_eq_append (q : Query) : ∃ behind, ∀ labels',
    (q.rename labels').content = Name.wire labels' ++ behind := by
  refine ⟨encode16 q.type.code ++ (encode16 classInternet ++
    (q.passed.flatMap Entry.encode ++ q.additionals.flatMap Entry.encode)), fun labels' => ?_⟩
  simp only [rename, content, List.append_assoc]

end Query

/-- If one of the datagrams is a query, so is the other one.  The requests differ in the octets of
the name only, which have the same length. -/
lemma Request.parse_respelled {datagram datagram' : Bytes} {request : Request}
    (hparse : parse datagram = .ok request) (hrespelled : AreRespelled datagram datagram') :
    ∃ wireName', wireName'.length = request.question.wireName.length ∧
      request.question.wireName <+: datagram.drop headerSize ∧
      wireName' <+: datagram'.drop headerSize ∧
      parse datagram' =
        .ok { request with question := { request.question with wireName := wireName' } } := by
  obtain ⟨front, labels, labels', rest, hfront, hsized, hlowered, rfl, rfl⟩ := hrespelled
  obtain ⟨q, hsound, ⟨hheader, tail, htail⟩, rfl⟩ := parse_eq_ok.mp hparse
  obtain ⟨behind, hcontent⟩ := q.content_eq_append
  have hown : q.content = Name.wire q.name ++ behind := hcontent q.name
  rw [← hfront, List.take_left] at hheader
  rw [← hfront, List.drop_left, hown, List.append_assoc] at htail
  obtain rfl := Read.wire_append_inj hsound.sized hsized htail
  have hbehind := List.append_cancel_left htail
  have hspells : (q.rename labels').Spells (front ++ (Name.wire labels' ++ rest)) := by
    refine ⟨?_, tail, ?_⟩
    · rw [← hfront, List.take_left]
      exact hheader
    · rw [← hfront, List.drop_left, hcontent, List.append_assoc, hbehind]
  refine ⟨Name.wire labels', ?_, ?_, ?_,
    parse_eq_ok.mpr ⟨_, hsound.rename hlowered, hspells, Query.request_rename hlowered⟩⟩
  · rw [← Name.length_wire_lowered, ← hlowered, Name.length_wire_lowered]
    rfl
  · rw [← hfront, List.drop_left]
    exact List.prefix_append _ _
  · rw [← hfront, List.drop_left]
    exact List.prefix_append _ _

/-! ## Forms -/

/-- A record whose owner may be left blank. -/
structure RecordForm where
  owner? : Option Bytes := none
  ttl : UInt32
  data : RecordData
deriving DecidableEq, Repr

/-- The record with this owner where it is blank. -/
def RecordForm.fill (r : RecordForm) (name : Bytes) : Record := ⟨r.owner?.getD name, r.ttl, r.data⟩

/-- A reply in which the name in question is left blank. -/
structure ReplyForm where
  header : Header
  hasQuestion : Bool
  answers : List RecordForm
  payload? : Option UInt16
deriving DecidableEq, Repr

/-- The reply to a question. -/
def ReplyForm.fill (form : ReplyForm) (q : Question) : Reply where
  header := form.header
  question? := if form.hasQuestion then some q else none
  answers := form.answers.map (·.fill q.wireName)
  payload? := form.payload?

section Sizes

variable {name name' : Bytes}

lemma RecordForm.size_fill (h : name.length = name'.length) (r : RecordForm) :
    (r.fill name).size = (r.fill name').size := by
  obtain ⟨_ | owner, ttl, data⟩ := r
  · simp only [fill, Option.getD_none, Record.size, h]
  · rfl

/-- There is room for as many records under one name as under another of its size. -/
lemma RecordForm.fitting_fill (h : name.length = name'.length) (room : Nat)
    (forms : List RecordForm) :
    ∃ n, Record.fitting room (forms.map (·.fill name)) = (forms.take n).map (·.fill name) ∧
      Record.fitting room (forms.map (·.fill name')) = (forms.take n).map (·.fill name') := by
  induction forms generalizing room with
  | nil => exact ⟨0, rfl, rfl⟩
  | cons r forms ih =>
      obtain ⟨n, hfitting, hfitting'⟩ := ih (room - (r.fill name').size)
      simp only [List.map_cons, Record.fitting, r.size_fill h]
      split_ifs
      · refine ⟨n + 1, ?_, ?_⟩
        · rw [hfitting, List.take_succ_cons, List.map_cons]
        · rw [hfitting', List.take_succ_cons, List.map_cons]
      · exact ⟨0, rfl, rfl⟩

/-- A form takes the same octets under names of the same size. -/
lemma ReplyForm.length_fill (form : ReplyForm) {q q' : Question}
    (h : q.wireName.length = q'.wireName.length) :
    (form.fill q).encode.length = (form.fill q').encode.length := by
  have hquestion : ((form.fill q).question?.toList.flatMap Question.encode).length =
      ((form.fill q').question?.toList.flatMap Question.encode).length := by
    simp only [fill]
    split_ifs
    · simp [Question.encode, h]
    · rfl
  have hanswers : ((form.fill q).answers.flatMap Record.encode).length =
      ((form.fill q').answers.flatMap Record.encode).length := by
    simp only [fill, List.length_flatMap, List.map_map]
    congr 1
    refine List.map_congr_left fun r _ => ?_
    simp only [Function.comp_apply, Record.length_encode, r.size_fill h]
  simp only [Reply.encode, Reply.front, List.length_append, Header.length_encode, hquestion,
    hanswers]
  rfl

end Sizes

namespace Resolver

variable {resolver : Resolver} {request : Request} {query : UInt64} {q : Question}
  {wireName' : Bytes}

/-- The owner of the record of a place on a walk, blank at the start. -/
def walkOwner? (zone : Zone) (name : Text) : Nat → Option Bytes
  | 0 => none
  | i + 1 => some (Name.encode (zone.walk name (i + 1)))

lemma walkOwner_eq (zone : Zone) (name : Text) (wireName : Bytes) (i : Nat) :
    walkOwner zone name wireName i = (walkOwner? zone name i).getD wireName := by
  cases i <;> rfl

/-- The forms of records of one owner. -/
def dataForms (zone : Zone) (owner? : Option Bytes) (data : List RecordData) : List RecordForm :=
  data.map fun data => { owner?, ttl := zone.ttl, data }

lemma map_fill_dataForms (zone : Zone) (owner? : Option Bytes) (data : List RecordData)
    (wireName : Bytes) : (dataForms zone owner? data).map (·.fill wireName) =
      data.map fun data => ⟨owner?.getD wireName, zone.ttl, data⟩ := by
  rw [dataForms, List.map_map]
  rfl

/-- The forms of the records of all aliases on a walk. -/
def aliasForms (zone : Zone) (name : Text) : List RecordForm :=
  (List.range (zone.walkEnd name)).map fun i =>
    { owner? := walkOwner? zone name i, ttl := zone.ttl, data := .cname (zone.walk name (i + 1)) }

lemma map_fill_aliasForms (zone : Zone) (name : Text) (wireName : Bytes) :
    (aliasForms zone name).map (·.fill wireName) = aliasRecords zone name wireName := by
  rw [aliasForms, aliasRecords, List.map_map]
  refine List.map_congr_left fun i _ => ?_
  rw [aliasRecord, walkOwner_eq]
  rfl

lemma exists_endRecords_form (zone : Zone) (name : Text) (data : Text → List RecordData) :
    ∃ forms : List RecordForm, ∀ wireName,
      endRecords zone name wireName data = forms.map (·.fill wireName) := by
  simp only [endRecords, walkOwner_eq]
  split_ifs
  · exact ⟨_, fun wireName => (map_fill_dataForms zone _ _ wireName).symm⟩
  · exact ⟨[], fun _ => rfl⟩

/-- The records of an answer have the name in question for an owner, or one of their own. -/
lemma exists_reference_form (sources : Sources) (zone : Zone) (query : UInt64) (q : Question) :
    ∃ forms : List RecordForm, ∀ wireName,
      (reference sources zone query { q with wireName }).1 = forms.map (·.fill wireName) := by
  have hblank (data : List RecordData) : ∃ forms : List RecordForm, ∀ wireName : Bytes,
      (data.map fun data => ({ owner := wireName, ttl := zone.ttl, data } : Record)) =
        forms.map (·.fill wireName) :=
    ⟨_, fun wireName => (map_fill_dataForms zone none data wireName).symm⟩
  simp only [reference]
  split_ifs
  · exact hblank _
  · exact ⟨[], fun _ => rfl⟩
  · exact hblank _
  · exact hblank _
  · exact hblank _
  · refine ⟨(aliasForms zone q.name).take 1, fun wireName => ?_⟩
    rw [List.map_take, map_fill_aliasForms]
  · obtain ⟨forms, hforms⟩ :=
      exists_endRecords_form zone q.name (referenceData sources zone query q.type)
    refine ⟨aliasForms zone q.name ++ forms, fun wireName => ?_⟩
    rw [List.map_append, map_fill_aliasForms, hforms]

lemma exists_records_form (resolver : Resolver) (query : UInt64) (q : Question) :
    ∃ forms : List RecordForm, ∀ wireName,
      resolver.records query { q with wireName } = forms.map (·.fill wireName) := by
  simp only [records]
  cases resolver.zones.find? q.name with
  | none => exact ⟨[], fun _ => rfl⟩
  | some zone => exact exists_reference_form resolver.sources zone query q

/-- The response code does not depend on the octets of the name. -/
lemma verdict_respelled (resolver : Resolver) (query : UInt64) (q : Question) (wireName' : Bytes) :
    resolver.verdict query { q with wireName := wireName' } = resolver.verdict query q := by
  simp only [verdict]
  cases resolver.zones.find? q.name with
  | none => rfl
  | some zone =>
      simp only [reference]
      split_ifs <;> rfl

/-- The request with other octets for the name. -/
def respelled (request : Request) (wireName' : Bytes) : Request :=
  { request with question := { request.question with wireName := wireName' } }

section Room

variable (hlength : wireName'.length = request.question.wireName.length)
include hlength

lemma length_question_respelled :
    (respelled request wireName').question.encode.length = request.question.encode.length := by
  simp [respelled, Question.encode, hlength]

lemma questionFits_respelled :
    QuestionFits (respelled request wireName') ↔ QuestionFits request := by
  unfold QuestionFits
  rw [length_question_respelled hlength]
  rfl

/-- As many records are shown under one spelling as under another, so both are cut or none is. -/
lemma exists_shown_respelled (forms : List RecordForm) :
    ∃ n, shown request (forms.map (·.fill request.question.wireName)) =
        (forms.take n).map (·.fill request.question.wireName) ∧
      shown (respelled request wireName') (forms.map (·.fill wireName')) =
        (forms.take n).map (·.fill wireName') ∧
      isCut (respelled request wireName') (forms.map (·.fill wireName')) =
        isCut request (forms.map (·.fill request.question.wireName)) := by
  have hroom : answerRoom (respelled request wireName') = answerRoom request := by
    unfold answerRoom
    rw [length_question_respelled hlength]
    rfl
  obtain ⟨n, hshown, hshown'⟩ : ∃ n,
      shown request (forms.map (·.fill request.question.wireName)) =
        (forms.take n).map (·.fill request.question.wireName) ∧
      shown (respelled request wireName') (forms.map (·.fill wireName')) =
        (forms.take n).map (·.fill wireName') := by
    simp only [shown, questionFits_respelled hlength, hroom]
    split_ifs
    · exact RecordForm.fitting_fill hlength.symm _ _
    · exact ⟨0, rfl, rfl⟩
  have hcut (name : Bytes) : (forms.take n).map (·.fill name) ≠ forms.map (·.fill name) ↔
      n < forms.length := by
    rw [List.map_take, Ne, List.take_eq_self_iff, List.length_map, not_le]
  refine ⟨n, hshown, hshown', ?_⟩
  rw [isCut, isCut, hshown, hshown']
  simp only [questionFits_respelled hlength, hcut]

/-- Requests that differ in the octets of the name, and not in their number, have one form. -/
lemma exists_reply_form (resolver : Resolver) (query : UInt64) (recursionAvailable : Bool) :
    ∃ form : ReplyForm,
      resolver.reply request query recursionAvailable = form.fill request.question ∧
      resolver.reply (respelled request wireName') query recursionAvailable =
        form.fill (respelled request wireName').question := by
  obtain ⟨forms, hforms⟩ := resolver.exists_records_form query request.question
  obtain ⟨n, hshown, hshown', hcut⟩ := exists_shown_respelled hlength forms
  have hrecords : resolver.records query request.question =
      forms.map (·.fill request.question.wireName) := hforms _
  have hrecords' : resolver.records query (respelled request wireName').question =
      forms.map (·.fill wireName') := hforms _
  have hverdict : resolver.verdict query (respelled request wireName').question =
      resolver.verdict query request.question := verdict_respelled ..
  refine ⟨{
    header := (resolver.reply request query recursionAvailable).header
    hasQuestion := QuestionFits request
    answers := forms.take n
    payload? := request.payload?.map fun _ => UInt16.ofNat request.limit }, ?_, ?_⟩
  · simp only [reply, ReplyForm.fill, hrecords, hshown, decide_eq_true_eq]
  · simp only [reply, ReplyForm.fill, hrecords, hrecords', hshown', hcut, hverdict,
      questionFits_respelled hlength, decide_eq_true_eq]
    rfl

end Room

/-- **The case of letters makes no difference.**  Of two datagrams that differ in the case of
letters of the name in question, both are queries or none is.  The two replies are one form, in
which the name is left blank where the question is echoed and where it is the owner of a record;
each is filled in with the octets of the name as they stand in the datagram, which are as many in
the one as in the other. -/
theorem respond_respelled {configs : List ZoneConfig} {datagram datagram' : Bytes}
    (hstore : ZoneStore.ofConfigs configs = .ok resolver.zones)
    (hparse : Request.parse datagram = .ok request)
    (hrespelled : AreRespelled datagram datagram') (query : UInt64) (recursionAvailable : Bool) :
    ∃ request', Request.parse datagram' = .ok request' ∧
      request.question.wireName <+: datagram.drop headerSize ∧
      request'.question.wireName <+: datagram'.drop headerSize ∧
      (∃ form : ReplyForm,
        resolver.respond request query recursionAvailable = (form.fill request.question).encode ∧
        resolver.respond request' query recursionAvailable =
          (form.fill request'.question).encode) ∧
      (resolver.respond request query recursionAvailable).length =
        (resolver.respond request' query recursionAvailable).length := by
  obtain ⟨wireName', hlength, hplace, hplace', hparse'⟩ :=
    Request.parse_respelled hparse hrespelled
  obtain ⟨form, hform, hform'⟩ :=
    exists_reply_form hlength resolver query recursionAvailable
  refine ⟨respelled request wireName', hparse', hplace, hplace', ⟨form, ?_, ?_⟩, ?_⟩
  · rw [respond_eq_encode hstore, hform]
  · rw [respond_eq_encode hstore, hform']
  · rw [respond_eq_encode hstore, respond_eq_encode hstore, hform, hform']
    exact form.length_fill hlength.symm

/-- The query about `b.a`, in capitals. -/
def circularQueryCapital : Bytes :=
  [0, 7, 1, 0, 0, 1, 0, 0, 0, 0, 0, 0, 1, 66, 1, 65, 0, 0, 16, 0, 1]

/-- Both spellings are queries, and their replies are of one size. -/
theorem respond_respelled_capital :
    ∃ request request', Request.parse circularQuery = .ok request ∧
      Request.parse circularQueryCapital = .ok request' ∧
      (respond { zones := ⟨[(['a'], circularZone)]⟩ } request 0 false).length =
        (respond { zones := ⟨[(['a'], circularZone)]⟩ } request' 0 false).length := by
  have hstore : ZoneStore.ofConfigs [circularConfig] = .ok ⟨[(['a'], circularZone)]⟩ := rfl
  obtain ⟨request, hparse⟩ : ∃ request, Request.parse circularQuery = .ok request := ⟨_, rfl⟩
  have hrespelled : AreRespelled circularQuery circularQueryCapital := by
    refine ⟨circularQuery.take headerSize, [[98], [97]], [[66], [65]], [0, 16, 0, 1], rfl, ?_,
      rfl, rfl, rfl⟩
    simp [Name.AreSized]
  obtain ⟨request', hparse', -, -, -, hlength⟩ :=
    @respond_respelled { zones := ⟨[(['a'], circularZone)]⟩ } _ _ _ _ hstore hparse hrespelled 0
      false
  exact ⟨request, request', hparse, hparse', hlength⟩

end Resolver

end Nameserver

import Nameserver.Proofs.Resolution.Replies

/-!
# The layout of a reply

A reply that a resolver writes itself is known octet by octet before anything is written.
`Resolver.reply` puts it together part by part from the request and the records that belong into the
answer, without a draft that fills up, and `Resolver.respond_eq_encode` says that this is what the
resolver writes.

**Parts.**  The header, the question if it fits, as many records as there is room for, and the
extension record if the request had one.  Only the number of records, the mark of truncation and
the size in the extension record depend on the size that the request advertises, and what depends on
these: whether the question is there, and the response code.

**Reading.**  A client that reads such a reply finds its parts (`Resolver.read?_reply`).
-/

namespace Nameserver

/-- A reply, part by part. -/
structure Reply where
  /-- The header before anything is counted. -/
  header : Header
  question? : Option Question
  answers : List Record
  /-- The size that the extension record advertises. -/
  payload? : Option UInt16
deriving DecidableEq, Repr

namespace Reply

/-- The header with everything counted. -/
def counted (r : Reply) : Header :=
  { r.header with
    questions := UInt16.ofNat r.question?.toList.length
    answers := UInt16.ofNat r.answers.length
    authorities := 0
    additionals := UInt16.ofNat r.payload?.toList.length }

/-- All that stands in front of the extension record. -/
def front (r : Reply) : Bytes :=
  r.counted.encode ++ r.question?.toList.flatMap Question.encode ++ r.answers.flatMap Record.encode

/-- The octets of the extension record. -/
def option (r : Reply) : Bytes :=
  r.payload?.toList.flatMap fun payload => (Draft.optRecord payload).encode

/-- The octets of a reply. -/
def encode (r : Reply) : Bytes := r.front ++ r.option

/-- What was put to come to the reply. -/
def puts (r : Reply) : List Put :=
  r.question?.toList.map Put.question ++ r.answers.map (Put.record .answer) ++
    r.payload?.toList.map Put.opt

lemma encode_eq_puts (r : Reply) : r.encode = r.counted.encode ++ r.puts.flatMap Put.encode := by
  simp only [encode, front, option, puts, List.flatMap_append, List.flatMap_map, List.append_assoc]
  rfl

lemma drop_encode (r : Reply) :
    r.encode.drop headerSize =
      r.question?.toList.flatMap Question.encode ++
        (r.answers.flatMap Record.encode ++ r.option) := by
  rw [encode, front, List.append_assoc, List.append_assoc, ← r.counted.length_encode,
    List.drop_left]

/-- The header counts what was put, section by section. -/
lemma count_counted (r : Reply) (n : Fin 4) :
    r.counted.count n = UInt16.ofNat (r.puts.filter (·.place = n)).length := by
  fin_cases n <;>
    simp [puts, counted, Header.count, List.filter_map, Function.comp_def, Put.place, Section.place]

end Reply

/-- A message carries some answers to a question under a header. -/
structure Carries (message : Bytes) (question : Question) (h : Header) (answers : List Record) :
    Prop where
  header : Header.decode message = .ok h
  count : h.answers = UInt16.ofNat answers.length
  /-- The answers are behind the question, if that is there, and in front of everything else. -/
  body : ∃ question? rest, (question? = none ∨ question? = some question) ∧
    message.drop headerSize =
      question?.toList.flatMap Question.encode ++ (answers.flatMap Record.encode ++ rest)
  /-- A client that reads the message finds them, if the name in question is well-formed. -/
  read : Name.IsWire question.wireName → ∃ t, Transcript.read? message = some (h, t) ∧
    t.answers = answers.map Record.entry

/-! ## Headers -/

lemma Header.eq_of_uncounted {h h' : Header} (hsame : h.uncounted = h'.uncounted)
    (hmark : h.truncated = h'.truncated) (hcount : ∀ n, h.count n = h'.count n) : h = h' := by
  have h₀ := hcount 0
  have h₁ := hcount 1
  have h₂ := hcount 2
  have h₃ := hcount 3
  cases h
  cases h'
  simp_all [uncounted, count]

namespace IsLongestFitting

variable {fits : List Record → Prop} {records kept kept' : List Record}

lemma prefix_of (h : IsLongestFitting fits records kept)
    (h' : IsLongestFitting fits records kept') : kept <+: kept' := by
  by_cases hnil : kept = []
  · rw [hnil]
    exact List.nil_prefix
  · exact h'.longest kept h.isPrefix (h.fits_kept hnil)

/-- There is only one longest prefix that fits. -/
lemma unique (h : IsLongestFitting fits records kept) (h' : IsLongestFitting fits records kept') :
    kept = kept' :=
  (h.prefix_of h').eq_of_length_le (h'.prefix_of h).length_le

end IsLongestFitting

namespace Resolver

variable {resolver : Resolver} {request : Request} {records : List Record}

/-! ## Putting a reply together -/

/-- The octets that are left for answers next to the question. -/
def answerRoom (request : Request) : Nat :=
  request.limit - room request - (headerSize + request.question.encode.length)

/-- The first of the records, as many as there is room for. -/
def shown (request : Request) (records : List Record) : List Record :=
  if QuestionFits request then Record.fitting (answerRoom request) records else []

/-- Whether something is left out of a reply. -/
def isCut (request : Request) (records : List Record) : Bool :=
  decide (¬ QuestionFits request ∨ shown request records ≠ records)

/-- The reply to a request. -/
def reply (resolver : Resolver) (request : Request) (query : UInt64) (recursionAvailable : Bool) :
    Reply :=
  let records := resolver.records query request.question
  let truncated := isCut request records
  { header :=
      { responseHeader request recursionAvailable with
        authoritative := resolver.isLocal request
        truncated
        rcode := (toldRcode (resolver.verdict query request.question) truncated).code }
    question? := if QuestionFits request then some request.question else none
    answers := shown request records
    payload? := request.payload?.map fun _ => UInt16.ofNat request.limit }

lemma isLongestFitting_shown (request : Request) (records : List Record) :
    IsLongestFitting (fun rs =>
      headerSize + request.question.encode.length + Record.total rs ≤
        request.limit - room request) records (shown request records) := by
  unfold shown
  split_ifs with hfits
  · exact Record.isLongestFitting_fitting hfits records
  · exact Record.isLongestFitting_nil (Nat.lt_of_not_le hfits) records

lemma shown_isPrefix (request : Request) (records : List Record) :
    shown request records <+: records :=
  (isLongestFitting_shown request records).isPrefix

lemma isCut_iff : isCut request records = true ↔
    ¬ QuestionFits request ∨ shown request records ≠ records :=
  decide_eq_true_iff

lemma isCut_eq_false_iff : isCut request records = false ↔
    QuestionFits request ∧ shown request records = records := by
  rw [isCut, decide_eq_false_iff_not, not_or, not_not, not_not]

/-- A reply from which nothing is left out. -/
lemma reply_of_whole {query : UInt64} {recursionAvailable : Bool}
    (hwhole : isCut request (resolver.records query request.question) = false) :
    resolver.reply request query recursionAvailable =
      { header :=
          { responseHeader request recursionAvailable with
            authoritative := resolver.isLocal request
            truncated := false
            rcode := (resolver.verdict query request.question).code }
        question? := some request.question
        answers := resolver.records query request.question
        payload? := request.payload?.map fun _ => UInt16.ofNat request.limit } := by
  obtain ⟨hfits, hall⟩ := isCut_eq_false_iff.mp hwhole
  simp only [reply, hwhole, toldRcode_false, if_pos hfits, hall]

lemma isWire_owner_of_records {query : UInt64} {q : Question} (h : Name.IsWire q.wireName) :
    ∀ r ∈ resolver.records query q, Name.IsWire r.owner := by
  unfold records
  cases resolver.zones.find? q.name with
  | none => simp
  | some zone => exact isWire_owner_of_reference h

/-! ## What is written -/

section Written

variable {kept : List Record} {j : Journal}

lemma Holds.kept_eq (h : Holds request records kept j) : kept = shown request records :=
  h.longest.unique (isLongestFitting_shown request records)

lemma Holds.truncated_eq (h : Holds request records kept j) :
    j.draft.header.truncated = isCut request records := by
  rw [Bool.eq_iff_iff, h.truncated_iff, isCut_iff, h.kept_eq]

end Written

section Stored

variable {configs : List ZoneConfig}

/-- A resolver puts what the reply consists of, and nothing else. -/
lemma exists_journal_reply (hstore : ZoneStore.ofConfigs configs = .ok resolver.zones)
    (request : Request) (query : UInt64) (recursionAvailable : Bool) :
    let r := resolver.reply request query recursionAvailable
    ∃ j, resolver.respond request query recursionAvailable = j.draft.finish ∧
      Holds request (resolver.records query request.question) r.answers j ∧
      j.added = r.puts ∧ j.draft.header = r.counted := by
  intro r
  obtain ⟨j, kept, hrespond, hholds, hheader⟩ :=
    exists_journal_told hstore request query recursionAvailable
  have hadded : j.added = r.puts := by
    rw [hholds.added_eq, hholds.kept_eq, Reply.puts]
    simp only [r, reply]
    congr 1
    · split_ifs <;> rfl
    · cases request.payload? <;> rfl
  have hanswers : r.answers = kept := hholds.kept_eq.symm
  refine ⟨j, hrespond, hanswers ▸ hholds, hadded, ?_⟩
  refine Header.eq_of_uncounted ?_ hholds.truncated_eq fun n => ?_
  · rw [hheader, hholds.truncated_eq]
    rfl
  · rw [hholds.bounded.count_eq, Journal.addedIn, hadded, Reply.count_counted]

/-- A resolver writes the reply that is put together from the request and the records. -/
theorem respond_eq_encode (hstore : ZoneStore.ofConfigs configs = .ok resolver.zones)
    (request : Request) (query : UInt64) (recursionAvailable : Bool) :
    resolver.respond request query recursionAvailable =
      (resolver.reply request query recursionAvailable).encode := by
  obtain ⟨j, hrespond, hholds, hadded, hheader⟩ :=
    exists_journal_reply hstore request query recursionAvailable
  rw [hrespond, hholds.finish_eq, hadded, hheader, Reply.encode_eq_puts]

/-- The response code takes no more than its four bits. -/
lemma rcode_reply (resolver : Resolver) (request : Request) (query : UInt64)
    (recursionAvailable : Bool) :
    let r := resolver.reply request query recursionAvailable
    r.counted.rcode &&& 0x0F = r.counted.rcode := by
  have hcode : ∀ code : Rcode, code.code &&& 0x0F = code.code := by
    intro code
    cases code <;> rfl
  exact hcode _

/-- The header that is read from a reply. -/
def sentHeader (resolver : Resolver) (request : Request) (query : UInt64)
    (recursionAvailable : Bool) : Header :=
  { (resolver.reply request query recursionAvailable).counted with
    opcode := request.header.opcode &&& 0x0F }

lemma rcode_sentHeader (request : Request) (query : UInt64) (recursionAvailable : Bool) :
    let h := resolver.sentHeader request query recursionAvailable
    h.rcode = (toldRcode (resolver.verdict query request.question) h.truncated).code :=
  rfl

/-- A resolver writes a message that carries the answers of the reply. -/
theorem carries_respond (hstore : ZoneStore.ofConfigs configs = .ok resolver.zones)
    (request : Request) (query : UInt64) (recursionAvailable : Bool) :
    Carries (resolver.respond request query recursionAvailable) request.question
      (resolver.sentHeader request query recursionAvailable)
      (shown request (resolver.records query request.question)) := by
  have hsent : ({ (resolver.reply request query recursionAvailable).counted with
      opcode := request.header.opcode &&& 0x0F
      rcode := (resolver.reply request query recursionAvailable).counted.rcode &&& 0x0F } :
        Header) = resolver.sentHeader request query recursionAvailable := by
    rw [rcode_reply, sentHeader]
  have hencode := respond_eq_encode hstore request query recursionAvailable
  constructor
  case header =>
    rw [hencode, Reply.encode_eq_puts, Header.decode_encode]
    exact congrArg Except.ok hsent
  case count => rfl
  case body =>
    refine ⟨_, _, ?_, by rw [hencode, Reply.drop_encode]; rfl⟩
    simp only [reply]
    split_ifs
    · exact .inr rfl
    · exact .inl rfl
  case read =>
    intro hname
    obtain ⟨j, hrespond, hholds, hadded, hheader⟩ :=
      exists_journal_reply hstore request query recursionAvailable
    have howners : ∀ r ∈ shown request (resolver.records query request.question),
        Name.IsWire r.owner := by
      intro r hr
      exact isWire_owner_of_records hname r ((shown_isPrefix _ _).subset hr)
    have hread := read?_of_added hholds.bounded hname howners hholds.added_eq
    rw [hheader, ← hrespond] at hread
    exact ⟨_, hread.trans (congrArg (fun h => some (h, _)) hsent), rfl⟩

/-- A client reads all of the records, unless the mark tells it that something is left out. -/
lemma read_whole (resolver : Resolver) {datagram : Bytes}
    (hstore : ZoneStore.ofConfigs configs = .ok resolver.zones)
    (hparse : Request.parse datagram = .ok request) (query : UInt64) (recursionAvailable : Bool) :
    ∃ t, Transcript.read? (resolver.respond request query recursionAvailable) =
        some (resolver.sentHeader request query recursionAvailable, t) ∧
      ((resolver.sentHeader request query recursionAvailable).truncated = false →
        t.answers = (resolver.records query request.question).map Record.entry) := by
  obtain ⟨t, hread, hanswers⟩ := (carries_respond hstore request query recursionAvailable).read
    (Request.isWire_of_parse hparse)
  refine ⟨t, hread, ?_⟩
  intro hwhole
  rw [hanswers, (isCut_eq_false_iff.mp hwhole).2]

/-- Nothing is left out if there is room for all of the records. -/
lemma isCut_of_room (hroom : headerSize + request.question.encode.length + Record.total records ≤
    request.limit - room request) : isCut request records = false := by
  have hshown : shown request records = records :=
    (shown_isPrefix _ _).eq_of_length_le
      ((isLongestFitting_shown request _).longest _ List.prefix_rfl hroom).length_le
  refine isCut_eq_false_iff.mpr ⟨?_, hshown⟩
  unfold QuestionFits
  omega

/-- A client reads the records of an answer for which there is room, and nothing is missing. -/
lemma read_fitting (resolver : Resolver) (query : UInt64) {datagram : Bytes}
    (hstore : ZoneStore.ofConfigs configs = .ok resolver.zones)
    (hparse : Request.parse datagram = .ok request) (recursionAvailable : Bool)
    (hfits : headerSize + request.question.encode.length +
      Record.total (resolver.records query request.question) ≤ request.limit - room request) :
    ∃ h t, Transcript.read? (resolver.respond request query recursionAvailable) = some (h, t) ∧
      h.truncated = false ∧ h.rcode = (resolver.verdict query request.question).code ∧
      t.answers = (resolver.records query request.question).map Record.entry := by
  have hmark : (resolver.sentHeader request query recursionAvailable).truncated = false :=
    isCut_of_room hfits
  obtain ⟨t, hread, hanswers⟩ := read_whole resolver hstore hparse query recursionAvailable
  refine ⟨_, t, hread, hmark, ?_, hanswers hmark⟩
  rw [rcode_sentHeader, hmark, toldRcode_false]

end Stored

end Resolver

end Nameserver

import Nameserver.Proofs.Message.Entries
import Nameserver.Proofs.Message.Headers

/-!
# The grammar of queries

`Query` is what a query datagram is made of, `Query.IsSound` says when its parts make a query that
is served, and `Query.Spells` lays the parts out.  `Request.parse_grammar` says that the parser
accepts exactly these datagrams, with the request that the parts stand for.

**Why a datagram is refused.**  The conditions on a datagram are listed in the order in which they
are checked (`Rule.order`).  The first one that is broken decides what the sender is told.

**The extension record.**  The advertised size is carried from record to record while they are read.
`Extends` says what the records read so far, and those still to come, make of it.
-/

namespace Nameserver

open Name (wire AreSized AreDotless)

/-! ## Records -/

namespace Entry

/-- The record has a dotted form for its owner, and data whose length can be told. -/
def IsSound (e : Entry) : Prop :=
  e.data.length < 65536 ∧ ∃ labels, AreSized labels ∧ AreDotless labels ∧ e.owner = wire labels

/-- Whether the record belongs to the extension mechanism. -/
def isOption (e : Entry) : Bool := e.type == RecordType.opt

lemma Heads.isSound {e : Entry} {header : RecordHeader} (h : e.Heads header) : e.IsSound := by
  obtain ⟨hdata, labels, hsized, hdotless, howner, -⟩ := h
  exact ⟨hdata, labels, hsized, hdotless, howner⟩

lemma IsSound.exists_heads {e : Entry} (h : e.IsSound) : ∃ header, e.Heads header := by
  obtain ⟨hdata, labels, hsized, hdotless, howner⟩ := h
  exact ⟨_, hdata, labels, hsized, hdotless, howner, rfl⟩

lemma Heads.name_isEmpty {e : Entry} {header : RecordHeader} (h : e.Heads header) :
    header.name.isEmpty = true ↔ e.owner = [0] := by
  obtain ⟨-, labels, hsized, -, howner, rfl⟩ := h
  rw [howner, Name.wire_eq_root, List.isEmpty_iff, Name.lower_eq_nil, Name.dotted_eq_nil hsized]

end Entry

/-- What records make of the advertised size `payload?` that was read before them. -/
def Extends (payload? : Option UInt16) (entries : List Entry) (result? : Option UInt16) : Prop :=
  match payload?, entries.filter Entry.isOption with
  | _, [] => result? = payload?
  | none, [e] => e.owner = [0] ∧ defaultLimit ≤ e.recordClass.toNat ∧ result? = some e.recordClass
  | _, _ => False

namespace Request

variable {payload? result? : Option UInt16} {e : Entry} {entries : List Entry}
  {header : RecordHeader}

/-- One record is taken into account as `Extends` has it. -/
lemma advertise_iff (h : e.Heads header) :
    advertise payload? header = .ok result? ↔ Extends payload? [e] result? := by
  have htype : header.type = e.type := by
    obtain ⟨-, labels, -, -, -, rfl⟩ := h
    rfl
  have hclass : header.recordClass = e.recordClass := by
    obtain ⟨-, labels, -, -, -, rfl⟩ := h
    rfl
  have hname := h.name_isEmpty
  by_cases hoption : e.type = RecordType.opt
  · have hfilter : [e].filter Entry.isOption = [e] := by simp [Entry.isOption, hoption]
    cases payload? with
    | some size => simp [advertise, Extends, hfilter, htype, hoption]
    | none =>
        by_cases howner : e.owner = [0]
        · have hempty := hname.mpr howner
          by_cases hsize : e.recordClass.toNat < defaultLimit
          · simp [advertise, Extends, hfilter, htype, hoption, hclass, hempty, hsize,
              Nat.not_le.mpr hsize]
          · simp [advertise, Extends, hfilter, htype, hoption, hclass, hempty, howner, hsize,
              Nat.not_lt.mp hsize, eq_comm]
        · have hempty : header.name.isEmpty = false := by
            rw [← Bool.not_eq_true, hname]
            exact howner
          simp [advertise, Extends, hfilter, htype, hoption, hempty, howner]
  · have hfilter : [e].filter Entry.isOption = [] := by simp [Entry.isOption, hoption]
    simp [advertise, Extends, hfilter, htype, hoption, eq_comm]

lemma extends_cons :
    Extends payload? (e :: entries) result? ↔
      ∃ later?, Extends payload? [e] later? ∧ Extends later? entries result? := by
  by_cases hoption : e.isOption = true
  · have hone : [e].filter Entry.isOption = [e] := by simp [hoption]
    have hall : (e :: entries).filter Entry.isOption = e :: entries.filter Entry.isOption := by
      simp [hoption]
    cases payload? with
    | some size => simp [Extends, hone, hall]
    | none =>
        simp only [Extends, hone, hall]
        cases entries.filter Entry.isOption with
        | nil => simp [and_assoc]
        | cons e' rest => simp
  · have hone : [e].filter Entry.isOption = [] := by simp [hoption]
    have hall : (e :: entries).filter Entry.isOption = entries.filter Entry.isOption := by
      simp [hoption]
    simp [Extends, hone, hall]

/-- Without an earlier size, it comes from the only extension record, if there is one. -/
lemma extends_none_iff :
    Extends none entries result? ↔
      (entries.filter Entry.isOption).length ≤ 1 ∧
      (∀ e ∈ entries, e.isOption = true → e.owner = [0] ∧ defaultLimit ≤ e.recordClass.toNat) ∧
      result? = (entries.find? Entry.isOption).map Entry.recordClass := by
  have hmem : (∀ e ∈ entries, e.isOption = true →
      e.owner = [0] ∧ defaultLimit ≤ e.recordClass.toNat) ↔
      ∀ e ∈ entries.filter Entry.isOption, e.owner = [0] ∧ defaultLimit ≤ e.recordClass.toNat := by
    simp only [List.mem_filter, and_imp]
  rw [hmem, ← List.head?_filter]
  unfold Extends
  cases entries.filter Entry.isOption with
  | nil => simp
  | cons e rest =>
      cases rest with
      | nil => simp [and_assoc]
      | cons e' rest => simp

/-! ## Lists of records -/

lemma accepts_passRecords (n : Nat) :
    (passRecords n).Accepts fun bytes _ =>
      ∃ entries : List Entry, entries.length = n ∧ (∀ e ∈ entries, e.IsSound) ∧
        bytes = entries.flatMap Entry.encode := by
  induction n with
  | zero =>
      refine (Read.Accepts.pure ()).congr fun bytes u => ?_
      constructor
      · rintro ⟨entries, hlen, -, rfl⟩
        rw [List.length_eq_zero_iff.mp hlen]
        exact ⟨rfl, rfl⟩
      · rintro ⟨rfl, -⟩
        exact ⟨[], rfl, by simp, rfl⟩
  | succ n ih =>
      refine (accepts_passRecord.bind fun _ => ih).congr fun bytes u => ?_
      constructor
      · rintro ⟨entries, hlen, hsound, rfl⟩
        obtain ⟨e, entries, rfl⟩ := List.exists_cons_of_length_eq_add_one hlen
        obtain ⟨he, hentries⟩ := List.forall_mem_cons.mp hsound
        obtain ⟨header, hheads⟩ := he.exists_heads
        exact ⟨header, _, _, ⟨e, hheads, rfl⟩,
          ⟨entries, Nat.succ.inj hlen, hentries, rfl⟩, List.flatMap_cons⟩
      · rintro ⟨header, _, _, ⟨e, hheads, rfl⟩, ⟨entries, rfl, hentries, rfl⟩, rfl⟩
        exact ⟨e :: entries, rfl, List.forall_mem_cons.mpr ⟨hheads.isSound, hentries⟩,
          List.flatMap_cons.symm⟩

lemma strict_passRecords (n : Nat) : (passRecords n).Strict := by
  induction n with
  | zero => exact .pure ()
  | succ n ih => exact strict_passRecord.bind fun _ => ih

lemma readAdditionals_succ (payload? : Option UInt16) (n : Nat) :
    readAdditionals payload? (n + 1) =
      passRecord >>= fun record => Read.known (advertise payload? record) >>= fun later? =>
        readAdditionals later? n := by
  rw [readAdditionals]
  congr 1
  funext record
  cases advertise payload? record <;> rfl

lemma accepts_readAdditionals (payload? : Option UInt16) (n : Nat) :
    (readAdditionals payload? n).Accepts fun bytes result? =>
      ∃ entries : List Entry, entries.length = n ∧ (∀ e ∈ entries, e.IsSound) ∧
        bytes = entries.flatMap Entry.encode ∧ Extends payload? entries result? := by
  induction n generalizing payload? with
  | zero =>
      refine (Read.Accepts.pure payload?).congr fun bytes result? => ?_
      constructor
      · rintro ⟨entries, hlen, -, rfl, hextends⟩
        rw [List.length_eq_zero_iff.mp hlen] at hextends ⊢
        exact ⟨rfl, by simpa [Extends] using hextends⟩
      · rintro ⟨rfl, rfl⟩
        exact ⟨[], rfl, by simp, rfl, by simp [Extends]⟩
  | succ n ih =>
      rw [readAdditionals_succ]
      refine (accepts_passRecord.bind fun _ => (Read.accepts_known _).bind fun _ =>
        ih _).congr fun bytes result? => ?_
      constructor
      · rintro ⟨entries, hlen, hsound, rfl, hextends⟩
        obtain ⟨e, entries, rfl⟩ := List.exists_cons_of_length_eq_add_one hlen
        obtain ⟨he, hentries⟩ := List.forall_mem_cons.mp hsound
        obtain ⟨header, hheads⟩ := he.exists_heads
        obtain ⟨later?, hfirst, hrest⟩ := extends_cons.mp hextends
        exact ⟨header, _, _, ⟨e, hheads, rfl⟩,
          ⟨later?, [], _, ⟨rfl, (advertise_iff hheads).mpr hfirst⟩,
            ⟨entries, Nat.succ.inj hlen, hentries, rfl, hrest⟩, rfl⟩, List.flatMap_cons⟩
      · rintro ⟨header, _, _, ⟨e, hheads, rfl⟩, ⟨later?, _, _, ⟨rfl, hfirst⟩,
          ⟨entries, rfl, hentries, rfl, hrest⟩, rfl⟩, rfl⟩
        exact ⟨e :: entries, rfl, List.forall_mem_cons.mpr ⟨hheads.isSound, hentries⟩,
          List.flatMap_cons.symm,
          extends_cons.mpr ⟨later?, (advertise_iff hheads).mp hfirst, hrest⟩⟩

lemma rcode?_of_advertise {fault : Fault} (h : advertise payload? header = .error fault) :
    fault.rcode? = some .formErr := by
  unfold advertise at h
  split_ifs at h <;> cases h <;> rfl

lemma strict_readAdditionals (payload? : Option UInt16) (n : Nat) :
    (readAdditionals payload? n).Strict := by
  induction n generalizing payload? with
  | zero => exact .pure payload?
  | succ n ih =>
      rw [readAdditionals_succ]
      exact strict_passRecord.bind fun record =>
        (Read.strict_known fun fault h => rcode?_of_advertise h).bind fun later? => ih later?

end Request

/-! ## Queries -/

/-- What a query is made of, apart from what may stand behind it. -/
structure Query where
  header : Header
  /-- The labels of the name in question. -/
  name : List Bytes
  type : RecordType
  /-- The records that are passed over: answers and those about authorities. -/
  passed : List Entry
  additionals : List Entry
deriving DecidableEq, Repr

namespace Query

/-- The parts make a query that is served. -/
structure IsSound (q : Query) : Prop where
  isQuery : q.header.isResponse = false
  isStandard : q.header.opcode = 0
  oneQuestion : q.header.questions = 1
  /-- The labels of its name can be told apart. -/
  sized : AreSized q.name
  /-- They can be put in dotted form. -/
  dotless : AreDotless q.name
  /-- The records passed over are as many as the header promises. -/
  length_passed : q.passed.length = q.header.answers.toNat + q.header.authorities.toNat
  length_additionals : q.additionals.length = q.header.additionals.toNat
  /-- The records can be passed over. -/
  passable : ∀ e ∈ q.passed, e.IsSound
  readable : ∀ e ∈ q.additionals, e.IsSound
  /-- At most one of them belongs to the extension mechanism. -/
  oneOption : (q.additionals.filter Entry.isOption).length ≤ 1
  /-- It belongs to the root and advertises a size that is large enough. -/
  option : ∀ e ∈ q.additionals, e.isOption = true →
    e.owner = [0] ∧ defaultLimit ≤ e.recordClass.toNat

/-- The octets behind the header. -/
def content (q : Query) : Bytes :=
  wire q.name ++ encode16 q.type.code ++ encode16 classInternet ++
    q.passed.flatMap Entry.encode ++ q.additionals.flatMap Entry.encode

/-- The datagram is this query, with or without octets behind it. -/
def Spells (q : Query) (datagram : Bytes) : Prop :=
  q.header.Spells (datagram.take headerSize) ∧ q.content <+: datagram.drop headerSize

/-- The request that the query stands for. -/
def request (q : Query) : Request :=
  { header := q.header
    question :=
      { name := (Name.dotted q.name).lower
        wireName := wire q.name
        type := q.type
        recordClass := classInternet }
    payload? := (q.additionals.find? Entry.isOption).map Entry.recordClass }

end Query

/-- A condition on the datagrams that are served. -/
inductive Rule where
  | header
  /-- It is not that of a response. -/
  | query
  /-- The operation is a standard query. -/
  | opcode
  | questionCount
  | question
  /-- It is about the Internet class. -/
  | questionClass
  /-- The records can be read, and the extension record is as it should be. -/
  | records
deriving DecidableEq, Repr

namespace Rule

/-- The place of a condition in the order in which they are checked. -/
def place : Rule → Nat
  | header => 0
  | query => 1
  | opcode => 2
  | questionCount => 3
  | question => 4
  | questionClass => 5
  | records => 6

/-- Whether a datagram starts with a header of some kind. -/
def StartsWith (datagram : Bytes) (kind : Header → Prop) : Prop :=
  ∃ h : Header, h.Spells (datagram.take headerSize) ∧ kind h

/-- Whether a question of some class stands behind the header. -/
def Asks (datagram : Bytes) (recordClass : UInt16) : Prop :=
  ∃ labels, AreSized labels ∧ AreDotless labels ∧ ∃ type : UInt16,
    wire labels ++ encode16 type ++ encode16 recordClass <+: datagram.drop headerSize

/-- What a condition says, given that those before it hold. -/
def Holds (datagram : Bytes) : Rule → Prop
  | header => StartsWith datagram fun _ => True
  | query => StartsWith datagram fun h => h.isResponse = false
  | opcode => StartsWith datagram fun h => h.opcode = 0
  | questionCount => StartsWith datagram fun h => h.questions = 1
  | question => ∃ recordClass, Asks datagram recordClass
  | questionClass => Asks datagram classInternet
  | records => ∃ q : Query, q.IsSound ∧ q.Spells datagram

/-- The condition is the first one that a datagram breaks. -/
def IsFirstBroken (rule : Rule) (datagram : Bytes) : Prop :=
  ¬ rule.Holds datagram ∧ ∀ earlier : Rule, earlier.place < rule.place → earlier.Holds datagram

/-- What the sender of a datagram is told when a condition is broken. -/
def rcode? (datagram : Bytes) : Rule → Option Rcode
  | header => if datagram.length < 2 then none else some .formErr
  | query => none
  | opcode | questionCount | questionClass => some .notImp
  | question | records => some .formErr

lemma IsFirstBroken.unique {rule rule' : Rule} {datagram : Bytes}
    (h : rule.IsFirstBroken datagram) (h' : rule'.IsFirstBroken datagram) : rule = rule' := by
  rcases Nat.lt_trichotomy rule.place rule'.place with hlt | heq | hgt
  · exact absurd (h'.2 rule hlt) h.1
  · cases rule <;> cases rule' <;> first | rfl | cases heq
  · exact absurd (h.2 rule' hgt) h'.1

end Rule

namespace Request

variable {datagram : Bytes} {header : Header} {fault : Fault}

lemma body_eq_known (header : Header) :
    body header =
      Question.decode >>= fun question =>
        Read.known (if question.recordClass ≠ classInternet
          then .error (.unsupportedClass question.recordClass) else .ok ()) >>= fun _ =>
        passRecords (header.answers.toNat + header.authorities.toNat) >>= fun _ =>
        readAdditionals none header.additionals.toNat >>= fun payload? =>
        pure { header, question, payload? } := by
  unfold body
  congr 1
  funext question
  split_ifs <;> rfl

/-- Behind a header that promises a query, the body reads the rest of one. -/
lemma accepts_body (hquery : header.isResponse = false) (hstandard : header.opcode = 0)
    (hone : header.questions = 1) :
    (body header).Accepts fun bytes request =>
      ∃ q : Query, q.IsSound ∧ q.header = header ∧ bytes = q.content ∧ q.request = request := by
  rw [body_eq_known]
  refine (Question.accepts_decode.bind fun _ => (Read.accepts_known _).bind fun _ =>
    (accepts_passRecords _).bind fun _ => (accepts_readAdditionals _ _).bind fun _ =>
      .pure _).congr fun bytes request => ?_
  constructor
  · rintro ⟨q, hsound, rfl, rfl, rfl⟩
    refine ⟨q.request.question, _, _, ⟨rfl, q.name, hsound.sized, hsound.dotless, rfl, rfl⟩,
      ⟨(), [], _, ⟨rfl, if_neg (not_not.mpr rfl)⟩,
        ⟨(), _, _, ⟨q.passed, hsound.length_passed, hsound.passable, rfl⟩,
          ⟨_, _, [], ⟨q.additionals, hsound.length_additionals, hsound.readable, rfl,
            extends_none_iff.mpr ⟨hsound.oneOption, hsound.option, rfl⟩⟩, ⟨rfl, rfl⟩, rfl⟩, rfl⟩,
          rfl⟩, ?_⟩
    simp [Query.content, Query.request, Question.encode]
  · rintro ⟨question, _, _, ⟨rfl, labels, hsized, hdotless, hwire, hname⟩,
      ⟨_, _, _, ⟨rfl, hclass⟩, ⟨_, _, _, ⟨passed, hpassed, hpassable, rfl⟩,
        ⟨payload?, _, _, ⟨additionals, hadditionals, hreadable, rfl, hextends⟩, ⟨rfl, rfl⟩, rfl⟩,
        rfl⟩, rfl⟩, rfl⟩
    obtain ⟨honeOption, hoption, rfl⟩ := extends_none_iff.mp hextends
    have hinternet : question.recordClass = classInternet := by
      by_contra hne
      rw [if_pos hne] at hclass
      cases hclass
    refine ⟨⟨header, labels, question.type, passed, additionals⟩,
      ⟨hquery, hstandard, hone, hsized, hdotless, hpassed, hadditionals, hpassable, hreadable,
        honeOption, hoption⟩, rfl, ?_, ?_⟩
    · simp [Query.content, Question.encode, hwire, hinternet]
    · simp only [Query.request, ← hname, ← hwire, ← hinternet]

/-- A datagram with a header is parsed by the fields of that header. -/
lemma parse_of_spells (hspells : header.Spells (datagram.take headerSize)) :
    parse datagram =
      if header.isResponse then .error .notAQuery
      else if header.opcode ≠ 0 then .error (.opcode header.opcode)
      else if header.questions ≠ 1 then .error (.questionCount header.questions)
      else (body header).value
        (.between (datagram.take headerSize) (datagram.drop headerSize)) := by
  have hdecode : Header.decode datagram = .ok header := by
    have h : Header.decode (datagram.take headerSize ++ datagram.drop headerSize) = .ok header :=
      (Header.decode_append_iff hspells.length).mpr hspells
    rwa [List.take_append_drop] at h
  have hreader : Reader.between (datagram.take headerSize) (datagram.drop headerSize) =
      { message := datagram, offset := headerSize } := by
    rw [Reader.between, List.take_append_drop, hspells.length]
  rw [parse, hdecode, hreader]

lemma exists_spells (hlen : headerSize ≤ datagram.length) :
    ∃ h : Header, h.Spells (datagram.take headerSize) := by
  obtain ⟨h, -, hspells⟩ := Header.decode_of_length (List.length_take_of_le hlen) []
  exact ⟨h, hspells⟩

lemma value_eq_ok {α : Type} {reading : Read α} {r : Reader} {a : α} :
    reading.value r = .ok a ↔ ∃ r', reading r = .ok a r' := by
  unfold Read.value
  split
  · rename_i heq
    simp [heq, eq_comm]
  · rename_i heq
    simp [heq]

/-- A query is parsed as the request it stands for, and nothing else is parsed. -/
lemma parse_eq_ok {request : Request} :
    parse datagram = .ok request ↔
      ∃ q : Query, q.IsSound ∧ q.Spells datagram ∧ q.request = request := by
  constructor
  · intro h
    by_cases hlen : headerSize ≤ datagram.length
    · obtain ⟨header, hspells⟩ := exists_spells hlen
      rw [parse_of_spells hspells] at h
      split_ifs at h with hresponse hopcode hcount
      have hquery := Bool.eq_false_of_not_eq_true hresponse
      obtain ⟨r, hbody⟩ := value_eq_ok.mp h
      obtain ⟨bytes, rest, ⟨q, hsound, rfl, rfl, hrequest⟩, hrest, -⟩ :=
        (accepts_body hquery (not_not.mp hopcode) (not_not.mp hcount)).sound hbody
      exact ⟨q, hsound, ⟨hspells, rest, hrest.symm⟩, hrequest⟩
    · rw [parse, Header.decode_of_short (Nat.not_le.mp hlen)] at h
      cases h
  · rintro ⟨q, hsound, ⟨hspells, rest, hrest⟩, hrequest⟩
    have hyields := (accepts_body hsound.isQuery hsound.isStandard hsound.oneQuestion).complete
      ⟨q, hsound, rfl, rfl, hrequest⟩ (datagram.take headerSize) rest
    rw [hrest] at hyields
    simp [parse_of_spells hspells, hsound.isQuery, hsound.isStandard, hsound.oneQuestion,
      value_eq_ok, hyields]

/-! ## Faults -/

lemma startsWith_iff {kind : Header → Prop} (hspells : header.Spells (datagram.take headerSize)) :
    Rule.StartsWith datagram kind ↔ kind header := by
  constructor
  · rintro ⟨h, hspells', hkind⟩
    rwa [hspells.unique hspells']
  · intro hkind
    exact ⟨header, hspells, hkind⟩

lemma isFirstBroken_header_iff :
    Rule.header.IsFirstBroken datagram ↔ datagram.length < headerSize := by
  constructor
  · rintro ⟨hbroken, -⟩
    by_contra hlen
    obtain ⟨h, hspells⟩ := exists_spells (Nat.not_lt.mp hlen)
    exact hbroken ⟨h, hspells, trivial⟩
  · intro hlen
    refine ⟨?_, ?_⟩
    · rintro ⟨h, hspells, -⟩
      have htake := hspells.length
      rw [List.length_take] at htake
      omega
    · intro rule hplace
      simp [Rule.place] at hplace

lemma isFirstBroken_query_iff :
    Rule.query.IsFirstBroken datagram ↔
      Rule.StartsWith datagram fun h => h.isResponse = true := by
  constructor
  · rintro ⟨hbroken, hearlier⟩
    obtain ⟨h, hspells, -⟩ := hearlier .header (by decide)
    refine ⟨h, hspells, ?_⟩
    by_contra hresponse
    exact hbroken ⟨h, hspells, Bool.eq_false_of_not_eq_true hresponse⟩
  · rintro ⟨h, hspells, hresponse⟩
    refine ⟨?_, ?_⟩
    · rw [Rule.Holds, startsWith_iff hspells, hresponse]
      decide
    · intro rule hplace
      cases rule with
      | header => exact ⟨h, hspells, trivial⟩
      | _ => simp [Rule.place] at hplace

/-- The question that is asked is the one that is read. -/
lemma asks_iff {recordClass : UInt16} :
    Rule.Asks datagram recordClass ↔
      ∃ q r, Question.decode (.between (datagram.take headerSize) (datagram.drop headerSize)) =
        .ok q r ∧ q.recordClass = recordClass := by
  constructor
  · rintro ⟨labels, hsized, hdotless, type, rest, hrest⟩
    let q : Question :=
      { name := (Name.dotted labels).lower, wireName := wire labels, type := ⟨type⟩, recordClass }
    have hyields := Question.accepts_decode.complete (a := q)
      ⟨rfl, labels, hsized, hdotless, rfl, rfl⟩ (datagram.take headerSize) rest
    rw [← hrest]
    exact ⟨q, _, hyields, rfl⟩
  · rintro ⟨q, r, hdecode, rfl⟩
    obtain ⟨bytes, rest, ⟨rfl, labels, hsized, hdotless, hwire, -⟩, hrest, -⟩ :=
      Question.accepts_decode.sound hdecode
    refine ⟨labels, hsized, hdotless, q.type.code, rest, ?_⟩
    rw [← hwire, hrest]
    rfl

/-- What goes wrong behind a header that promises a query. -/
lemma firstBroken_of_body (hspells : header.Spells (datagram.take headerSize))
    (hquery : header.isResponse = false) (hstandard : header.opcode = 0)
    (hone : header.questions = 1) {r : Reader}
    (h : body header (.between (datagram.take headerSize) (datagram.drop headerSize)) =
      .error fault r) :
    ∃ rule : Rule, rule.IsFirstBroken datagram ∧ fault.rcode? = rule.rcode? datagram := by
  have hearlier : ∀ rule : Rule, rule.place < 4 → rule.Holds datagram := by
    intro rule hplace
    cases rule with
    | header => exact (startsWith_iff hspells).mpr trivial
    | query => exact (startsWith_iff hspells).mpr hquery
    | opcode => exact (startsWith_iff hspells).mpr hstandard
    | questionCount => exact (startsWith_iff hspells).mpr hone
    | question | questionClass | records => simp [Rule.place] at hplace
  have hrecords : ¬ Rule.records.Holds datagram := by
    rintro ⟨q, hsound, hq⟩
    have hok := parse_eq_ok.mpr ⟨q, hsound, hq, rfl⟩
    rw [parse_of_spells hspells] at hok
    simp [hquery, hstandard, hone, value_eq_ok, h] at hok
  rw [body_eq_known] at h
  rcases Read.bind_error h with hquestion | ⟨question, r₁, hquestion, h⟩
  · refine ⟨.question, ⟨?_, hearlier⟩, Question.strict_decode _ _ _ hquestion⟩
    rintro ⟨recordClass, hasks⟩
    obtain ⟨q, r', hdecode, -⟩ := asks_iff.mp hasks
    rw [hquestion] at hdecode
    cases hdecode
  have hasks : Rule.Asks datagram question.recordClass := asks_iff.mpr ⟨_, _, hquestion, rfl⟩
  by_cases hclass : question.recordClass = classInternet
  · refine ⟨.records, ⟨hrecords, ?_⟩, ?_⟩
    · intro rule hplace
      cases rule with
      | question => exact ⟨_, hasks⟩
      | questionClass =>
          rw [hclass] at hasks
          exact hasks
      | header | query | opcode | questionCount => exact hearlier _ (by decide)
      | records => simp at hplace
    · rcases Read.bind_error h with hknown | ⟨_, r₂, -, h⟩
      · rw [if_neg (not_not.mpr hclass)] at hknown
        cases hknown
      · exact (strict_passRecords _).bind (fun _ => (strict_readAdditionals _ _).bind
          fun _ => .pure _) _ _ _ h
  · refine ⟨.questionClass, ⟨?_, ?_⟩, ?_⟩
    · intro hinternet
      obtain ⟨q, r', hdecode, hq⟩ := asks_iff.mp hinternet
      rw [hquestion] at hdecode
      cases hdecode
      exact hclass hq
    · intro rule hplace
      cases rule with
      | question => exact ⟨_, hasks⟩
      | header | query | opcode | questionCount => exact hearlier _ (by decide)
      | questionClass | records => simp [Rule.place] at hplace
    · rw [if_pos hclass] at h
      cases h
      rfl

/-- A datagram that is refused is refused for the first condition that it breaks. -/
lemma firstBroken_of_parse (h : parse datagram = .error fault) :
    ∃ rule : Rule, rule.IsFirstBroken datagram ∧ fault.rcode? = rule.rcode? datagram := by
  by_cases hlen : headerSize ≤ datagram.length
  · obtain ⟨header, hspells⟩ := exists_spells hlen
    have hheader : ∀ kind : Header → Prop, Rule.StartsWith datagram kind ↔ kind header :=
      fun kind => startsWith_iff hspells
    rw [parse_of_spells hspells] at h
    split_ifs at h with hresponse hopcode hcount
    · cases h
      exact ⟨.query, isFirstBroken_query_iff.mpr ⟨header, hspells, hresponse⟩, rfl⟩
    · cases h
      refine ⟨.opcode, ⟨?_, ?_⟩, rfl⟩
      · rw [Rule.Holds, hheader]
        exact hopcode
      · intro rule hplace
        cases rule <;> simp_all [Rule.place, Rule.Holds]
    · cases h
      refine ⟨.questionCount, ⟨?_, ?_⟩, rfl⟩
      · rw [Rule.Holds, hheader]
        exact hcount
      · intro rule hplace
        cases rule <;> simp_all [Rule.place, Rule.Holds]
    · unfold Read.value at h
      split at h
      · cases h
      · rename_i r hbody
        cases h
        exact firstBroken_of_body hspells (Bool.eq_false_of_not_eq_true hresponse)
          (not_not.mp hopcode) (not_not.mp hcount) hbody
  · have hshort := Nat.not_le.mp hlen
    rw [parse, Header.decode_of_short hshort] at h
    cases h
    refine ⟨.header, isFirstBroken_header_iff.mpr hshort, ?_⟩
    rw [Rule.rcode?]
    split_ifs <;> rfl

/-- The datagram has no id, or it has the header of a response. -/
def IsDropped (datagram : Bytes) : Prop :=
  datagram.length < 2 ∨ Rule.StartsWith datagram fun h => h.isResponse = true

/-- The first condition that the datagram breaks is about what the server implements. -/
def IsUnsupported (datagram : Bytes) : Prop :=
  ∃ rule ∈ [Rule.opcode, Rule.questionCount, Rule.questionClass], rule.IsFirstBroken datagram

/-- Nobody is told about a datagram that is dropped. -/
lemma rcode?_eq_none_iff {rule : Rule} (hbroken : rule.IsFirstBroken datagram) :
    rule.rcode? datagram = none ↔ IsDropped datagram := by
  constructor
  · intro hnone
    cases rule with
    | header => exact .inl (by simpa [Rule.rcode?] using hnone)
    | query => exact .inr (isFirstBroken_query_iff.mp hbroken)
    | _ => cases hnone
  · rintro (hlen | hresponse)
    · have hheader : Rule.header.IsFirstBroken datagram :=
        isFirstBroken_header_iff.mpr (hlen.trans (by decide))
      rw [hbroken.unique hheader, Rule.rcode?, if_pos hlen]
    · rw [hbroken.unique (isFirstBroken_query_iff.mpr hresponse)]
      rfl

/-- **The parser accepts the grammar.**  Queries are parsed as the requests they stand for, and
nothing else is.  Of what is refused, nobody is told about datagrams without an id and about
responses, a sender is told that a query is not implemented if that is the first thing wrong with
it, and that it is malformed in all other cases. -/
theorem parse_grammar (datagram : Bytes) :
    (∀ request, parse datagram = .ok request ↔
      ∃ q : Query, q.IsSound ∧ q.Spells datagram ∧ q.request = request) ∧
    ∀ fault, parse datagram = .error fault →
      (fault.rcode? = none ↔ IsDropped datagram) ∧
      (fault.rcode? = some .notImp ↔ IsUnsupported datagram) ∧
      (fault.rcode? = some .formErr ↔ ¬ IsDropped datagram ∧ ¬ IsUnsupported datagram) := by
  refine ⟨fun request => parse_eq_ok, ?_⟩
  intro fault hparse
  obtain ⟨rule, hbroken, hrcode⟩ := firstBroken_of_parse hparse
  have hdropped := rcode?_eq_none_iff hbroken
  have hunsupported : rule.rcode? datagram = some .notImp ↔ IsUnsupported datagram := by
    constructor
    · intro hnotImp
      refine ⟨rule, ?_, hbroken⟩
      cases rule with
      | header =>
          rw [Rule.rcode?] at hnotImp
          split_ifs at hnotImp
          cases hnotImp
      | opcode | questionCount | questionClass => decide
      | query | question | records => cases hnotImp
    · rintro ⟨rule', hmem, hbroken'⟩
      rw [hbroken.unique hbroken']
      cases rule' <;> first | rfl | simp at hmem
  have hothers : rule.rcode? datagram = none ∨ rule.rcode? datagram = some .notImp ∨
      rule.rcode? datagram = some .formErr := by
    cases rule <;> simp [Rule.rcode?]
    omega
  rw [hrcode, ← hdropped, ← hunsupported]
  refine ⟨Iff.rfl, Iff.rfl, ?_⟩
  rcases hothers with h | h | h <;> simp [h]

/-- A query about the root, in a class that is not the Internet's. -/
def chaosQuery : Bytes := [0, 7, 1, 0, 0, 1, 0, 0, 0, 0, 0, 0, 0, 0, 16, 0, 3]

/-- That class is the first thing wrong with it, and the sender is told so. -/
theorem parse_grammar_chaosQuery :
    parse chaosQuery = .error (.unsupportedClass 3) ∧ IsUnsupported chaosQuery := by
  have hparse : parse chaosQuery = .error (.unsupportedClass 3) := rfl
  exact ⟨hparse, ((parse_grammar chaosQuery).2 _ hparse).2.1.mp rfl⟩

end Request

end Nameserver

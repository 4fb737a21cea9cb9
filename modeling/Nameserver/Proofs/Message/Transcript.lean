import Nameserver.Message.Response
import Nameserver.Proofs.Message.Data
import Nameserver.Proofs.Message.Entries
import Nameserver.Proofs.Message.Headers

/-!
# Reading a whole message

A `Transcript` is what a reader with no knowledge of the writer gets out of a message: the counts of
the header tell how many questions and records to read, and the length of the data is told by each
record.  `Transcript.read?` insists that nothing is left at the end.

`Transcript.read?_layout` is the counterpart for a writer: a header whose counts are right, in front
of questions and records whose owners are well-formed, is read as just these.
-/

namespace Nameserver

open Name (wire AreSized)

variable {α : Type}

/-- A question as it stands on the wire. -/
structure Asked where
  wireName : Bytes
  type : RecordType
  recordClass : UInt16
deriving DecidableEq, Repr

/-- The octets of a question. -/
def Asked.encode (q : Asked) : Bytes :=
  q.wireName ++ encode16 q.type.code ++ encode16 q.recordClass

/-- What is written of a question. -/
def Question.asked (q : Question) : Asked := ⟨q.wireName, q.type, q.recordClass⟩

/-- What is written of a record. -/
def Record.entry (r : Record) : Entry := ⟨r.owner, r.data.type, classInternet, r.ttl, r.data.encode⟩

/-- What is written of an extension record. -/
def Entry.option (payload : UInt16) : Entry := ⟨[0], RecordType.opt, payload, 0, []⟩

/-- What stands behind the header of a message. -/
structure Transcript where
  questions : List Asked
  answers : List Entry
  authorities : List Entry
  additionals : List Entry
deriving DecidableEq, Repr

/-! ## Readings -/

namespace Read

/-- Reads a question. -/
def asked : Read Asked := do
  let wireName ← wireName
  let type ← uint16
  let recordClass ← uint16
  return ⟨wireName, ⟨type⟩, recordClass⟩

/-- Reads a record with its data. -/
def entry : Read Entry := do
  let owner ← wireName
  let type ← uint16
  let recordClass ← uint16
  let ttl ← uint32
  let size ← uint16
  let data ← take size.toNat
  return ⟨owner, ⟨type⟩, recordClass, ttl, data⟩

/-- Reads the same so many times. -/
def times (reading : Read α) : Nat → Read (List α)
  | 0 => return []
  | n + 1 => do
    let first ← reading
    let rest ← times reading n
    return first :: rest

/-- What the counts of a header promise. -/
def transcript (h : Header) : Read Transcript := do
  let questions ← times asked h.questions.toNat
  let answers ← times entry h.answers.toNat
  let authorities ← times entry h.authorities.toNat
  let additionals ← times entry h.additionals.toNat
  return { questions, answers, authorities, additionals }

end Read

/-- Reads a message to its last octet. -/
def Transcript.read? (message : Bytes) : Option (Header × Transcript) :=
  match Header.decode message with
  | .error _ => none
  | .ok h =>
    match Read.transcript h { message, offset := headerSize } with
    | .error _ _ => none
    | .ok t r => if r.offset = message.length then some (h, t) else none

/-! ## What is read of what was written -/

/-- The octets are those of a name. -/
def Name.IsWire (octets : Bytes) : Prop := ∃ labels, AreSized labels ∧ octets = wire labels

/-- A record whose parts can be told apart. -/
def Entry.IsFramed (e : Entry) : Prop := Name.IsWire e.owner ∧ e.data.length < 65536

lemma Name.isWire_encode (name : Text) : IsWire (encode name) :=
  ⟨labels name, areSized_labels name, rfl⟩

lemma Name.isWire_root : IsWire [0] := ⟨[], areSized_nil, rfl⟩

namespace Record

/-- Sizes are told in the same way by a record and by what is written of it. -/
lemma encode_eq_entry (r : Record) : r.encode = r.entry.encode := by
  simp [encode, Entry.encode, entry, RecordData.length_encode]

lemma length_encode (r : Record) : r.encode.length = r.size := by
  simp [encode, size, RecordData.length_encode]
  omega

end Record

lemma Question.encode_eq_asked (q : Question) : q.encode = q.asked.encode := rfl

lemma Question.length_encode (q : Question) : q.encode.length = q.size := by
  simp [encode, size]

lemma Draft.encode_optRecord (payload : UInt16) :
    (optRecord payload).encode = (Entry.option payload).encode := rfl

lemma Entry.isFramed_option (payload : UInt16) : (Entry.option payload).IsFramed :=
  ⟨Name.isWire_root, Nat.zero_lt_succ _⟩

namespace Read

lemma yields_asked {q : Asked} (h : Name.IsWire q.wireName) : asked.Yields q.encode q := by
  obtain ⟨labels, hsized, hwire⟩ := h
  have hencode : q.encode =
      wire labels ++ (encode16 q.type.code ++ (encode16 q.recordClass ++ [])) := by
    simp [Asked.encode, hwire]
  have hq : q = ⟨wire labels, ⟨q.type.code⟩, q.recordClass⟩ := by rw [← hwire]
  rw [hencode, hq]
  exact (yields_wireName hsized).bind <| (yields_uint16 _).bind <| (yields_uint16 _).bind <|
    Yields.pure _

lemma yields_take (bytes : Bytes) : (take bytes.length).Yields bytes bytes :=
  (accepts_take bytes.length).complete ⟨rfl, rfl⟩

lemma yields_entry {e : Entry} (h : e.IsFramed) : entry.Yields e.encode e := by
  obtain ⟨⟨labels, hsized, hwire⟩, hdata⟩ := h
  have hencode : e.encode = wire labels ++ (encode16 e.type.code ++ (encode16 e.recordClass ++
      (encode32 e.ttl ++ (encode16 (UInt16.ofNat e.data.length) ++ (e.data ++ []))))) := by
    simp [Entry.encode, hwire]
  have he : e = ⟨wire labels, ⟨e.type.code⟩, e.recordClass, e.ttl, e.data⟩ := by rw [← hwire]
  have htake : (take (UInt16.ofNat e.data.length).toNat).Yields e.data e.data := by
    rw [UInt16.toNat_ofNat_of_lt' hdata]
    exact yields_take e.data
  rw [hencode]
  conv_rhs => rw [he]
  exact (yields_wireName hsized).bind <| (yields_uint16 _).bind <| (yields_uint16 _).bind <|
    (yields_uint32 _).bind <| (yields_uint16 _).bind <| htake.bind <| Yields.pure _

lemma yields_times {reading : Read α} {encode : α → Bytes} {items : List α}
    (h : ∀ a ∈ items, reading.Yields (encode a) a) :
    (times reading items.length).Yields (items.flatMap encode) items := by
  induction items with
  | nil => exact Yields.pure []
  | cons a items ih =>
      obtain ⟨ha, hitems⟩ := List.forall_mem_cons.mp h
      have hencode : (a :: items).flatMap encode = encode a ++ (items.flatMap encode ++ []) := by
        simp
      rw [hencode]
      exact ha.bind <| (ih hitems).bind <| Yields.pure (a :: items)

lemma yields_transcript {h : Header} {t : Transcript}
    (hquestions : h.questions.toNat = t.questions.length)
    (hanswers : h.answers.toNat = t.answers.length)
    (hauthorities : h.authorities.toNat = t.authorities.length)
    (hadditionals : h.additionals.toNat = t.additionals.length)
    (hnames : ∀ q ∈ t.questions, Name.IsWire q.wireName)
    (hframed : ∀ e ∈ t.answers ++ t.authorities ++ t.additionals, e.IsFramed) :
    (transcript h).Yields (t.questions.flatMap Asked.encode ++
      (t.answers ++ t.authorities ++ t.additionals).flatMap Entry.encode) t := by
  simp only [List.mem_append, or_imp, forall_and] at hframed
  obtain ⟨⟨hfirst, hsecond⟩, hthird⟩ := hframed
  have hencode : t.questions.flatMap Asked.encode ++
      (t.answers ++ t.authorities ++ t.additionals).flatMap Entry.encode =
      t.questions.flatMap Asked.encode ++ (t.answers.flatMap Entry.encode ++
        (t.authorities.flatMap Entry.encode ++ (t.additionals.flatMap Entry.encode ++ []))) := by
    simp
  rw [hencode, transcript, hquestions, hanswers, hauthorities, hadditionals]
  exact (yields_times fun q hq => yields_asked (hnames q hq)).bind <|
    (yields_times fun e he => yields_entry (hfirst e he)).bind <|
    (yields_times fun e he => yields_entry (hsecond e he)).bind <|
    (yields_times fun e he => yields_entry (hthird e he)).bind <| Yields.pure _

end Read

/-- A message whose header counts what stands behind it is read to its last octet. -/
theorem Transcript.read?_layout {h : Header} {t : Transcript}
    (hquestions : h.questions.toNat = t.questions.length)
    (hanswers : h.answers.toNat = t.answers.length)
    (hauthorities : h.authorities.toNat = t.authorities.length)
    (hadditionals : h.additionals.toNat = t.additionals.length)
    (hnames : ∀ q ∈ t.questions, Name.IsWire q.wireName)
    (hframed : ∀ e ∈ t.answers ++ t.authorities ++ t.additionals, e.IsFramed) :
    read? (h.encode ++ (t.questions.flatMap Asked.encode ++
      (t.answers ++ t.authorities ++ t.additionals).flatMap Entry.encode)) =
      some ({ h with opcode := h.opcode &&& 0x0F, rcode := h.rcode &&& 0x0F }, t) := by
  let cut : Header := { h with opcode := h.opcode &&& 0x0F, rcode := h.rcode &&& 0x0F }
  have hyields : (Read.transcript cut).Yields _ t :=
    Read.yields_transcript hquestions hanswers hauthorities hadditionals hnames hframed
  generalize t.questions.flatMap Asked.encode ++
    (t.answers ++ t.authorities ++ t.additionals).flatMap Entry.encode = content at hyields ⊢
  have hread : Read.transcript cut { message := h.encode ++ content, offset := headerSize } =
      .ok t (.between (h.encode ++ content) []) := by
    have hfront := hyields h.encode []
    rw [List.append_nil] at hfront
    exact hfront
  simp only [read?, Header.decode_encode]
  rw [hread]
  simp only [Reader.offset_between, if_true]

/-! ## Counts -/

namespace Read

lemma length_of_times {reading : Read α} {n : Nat} {items : List α} {r r' : Reader}
    (h : times reading n r = .ok items r') : items.length = n := by
  induction n generalizing items r with
  | zero =>
      cases h
      rfl
  | succ n ih =>
      obtain ⟨first, r₁, -, h⟩ := bind_ok h
      obtain ⟨rest, r₂, hrest, h⟩ := bind_ok h
      cases h
      rw [List.length_cons, ih hrest]

lemma counts_of_transcript {h : Header} {t : Transcript} {r r' : Reader}
    (hread : transcript h r = .ok t r') :
    h.questions.toNat = t.questions.length ∧ h.answers.toNat = t.answers.length ∧
      h.authorities.toNat = t.authorities.length ∧
        h.additionals.toNat = t.additionals.length := by
  obtain ⟨questions, r₁, hquestions, hread⟩ := bind_ok hread
  obtain ⟨answers, r₂, hanswers, hread⟩ := bind_ok hread
  obtain ⟨authorities, r₃, hauthorities, hread⟩ := bind_ok hread
  obtain ⟨additionals, r₄, hadditionals, hread⟩ := bind_ok hread
  cases hread
  exact ⟨(length_of_times hquestions).symm, (length_of_times hanswers).symm,
    (length_of_times hauthorities).symm, (length_of_times hadditionals).symm⟩

end Read

/-- The counts of a header are those of what is read behind it. -/
theorem Transcript.counts_of_read? {message : Bytes} {h : Header} {t : Transcript}
    (hread : read? message = some (h, t)) :
    h.questions.toNat = t.questions.length ∧ h.answers.toNat = t.answers.length ∧
      h.authorities.toNat = t.authorities.length ∧
        h.additionals.toNat = t.additionals.length := by
  unfold read? at hread
  split at hread
  · cases hread
  · split at hread
    · cases hread
    · rename_i htranscript
      split_ifs at hread
      cases hread
      exact Read.counts_of_transcript htranscript

end Nameserver

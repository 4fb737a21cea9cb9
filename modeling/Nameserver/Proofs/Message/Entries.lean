import Nameserver.Message.Question
import Nameserver.Message.Request
import Nameserver.Proofs.Message.Names

/-!
# Formats of questions and records

A question is the octets of a name, a type and a class.  A record is an `Entry`: it names its owner
by octets and keeps its data as octets, so that nothing of what was on the wire is lost.

A query reader passes over records and keeps their headers only.  `Entry.Heads` ties the two
together, and `Request.accepts_passRecord` says that nothing else is passed over.
-/

namespace Nameserver

open Name (wire AreSized AreDotless)

/-- A record as it stands on the wire. -/
structure Entry where
  owner : Bytes
  type : RecordType
  recordClass : UInt16
  /-- How long the record may be kept, in seconds. -/
  ttl : UInt32
  data : Bytes
deriving DecidableEq, Repr

namespace Entry

/-- The octets of a record. -/
def encode (e : Entry) : Bytes :=
  e.owner ++ encode16 e.type.code ++ encode16 e.recordClass ++ encode32 e.ttl ++
    encode16 (UInt16.ofNat e.data.length) ++ e.data

/-- What a query reader keeps of a record whose owner has a dotted form. -/
def Heads (e : Entry) (header : RecordHeader) : Prop :=
  e.data.length < 65536 ∧ ∃ labels, AreSized labels ∧ AreDotless labels ∧ e.owner = wire labels ∧
    header =
      { name := (Name.dotted labels).lower
        type := e.type
        recordClass := e.recordClass
        ttl := e.ttl
        dataSize := UInt16.ofNat e.data.length }

end Entry

namespace Name

/-! ## The root -/

lemma decodeLossy_ne_nil {bytes : Bytes} (h : bytes ≠ []) : Utf8.decodeLossy bytes ≠ [] := by
  obtain ⟨b, rest, rfl⟩ := List.exists_cons_of_ne_nil h
  simp [Utf8.decodeLossy, Utf8.decodeLossyAfter]

lemma lower_eq_nil {t : Text} : t.lower = [] ↔ t = [] := List.map_eq_nil_iff

lemma dotted_eq_nil {labels : List Bytes} (hsized : AreSized labels) :
    dotted labels = [] ↔ labels = [] := by
  constructor
  · intro h
    cases labels with
    | nil => rfl
    | cons label labels =>
        obtain ⟨hlabel, -⟩ := areSized_cons.mp hsized
        have htext := decodeLossy_ne_nil hlabel.1
        cases labels <;> simp [dotted, Text.join, htext] at h
  · rintro rfl
    rfl

lemma wire_eq_root {labels : List Bytes} : wire labels = [0] ↔ labels = [] := by
  cases labels with
  | nil => simp
  | cons label labels =>
      have hwire : wire labels ≠ [] := by simp [wire]
      simp [hwire]

end Name

namespace Read

variable {α : Type}

/-- A value that was found without reading on, or the fault in its place. -/
def known (e : Except Fault α) : Read α :=
  match e with
  | .ok a => pure a
  | .error fault => throw fault

lemma accepts_known (e : Except Fault α) :
    (known e).Accepts fun bytes a => bytes = [] ∧ e = .ok a := by
  cases e with
  | ok a =>
      refine (Accepts.pure a).congr fun bytes b => ?_
      simp only [Except.ok.injEq, eq_comm]
  | error fault =>
      constructor
      · rintro bytes b ⟨-, h⟩
        cases h
      · intro before rest b r h
        cases h

lemma strict_known {e : Except Fault α}
    (hfault : ∀ fault, e = .error fault → fault.rcode? = some .formErr) : (known e).Strict := by
  intro r fault r' h
  cases e with
  | ok a => cases h
  | error fault' =>
      cases h
      exact hfault fault rfl

lemma rcode?_of_value {reading : Read α} {r : Reader} {fault : Fault} (hstrict : reading.Strict)
    (h : reading.value r = .error fault) : fault.rcode? = some .formErr := by
  unfold value at h
  split at h
  · cases h
  · rename_i hreading
    cases h
    exact hstrict _ _ _ hreading

end Read

namespace Question

/-- The name of a question is read again out of its own octets. -/
lemma value_name_iff {labels : List Bytes} (hsized : AreSized labels) {t : Text} :
    Read.name.value { message := wire labels } = .ok t ↔
      ∃ ls, AreSized ls ∧ AreDotless ls ∧ wire labels = wire ls ∧ t = Name.dotted ls := by
  have hreader : ({ message := wire labels } : Reader) = .between [] (wire labels) := rfl
  rw [hreader, Read.value]
  constructor
  · intro h
    split at h
    · rename_i t' r hname
      cases h
      obtain ⟨bytes, rest, ⟨ls, hls, hdotless, rfl, rfl⟩, hwire, -⟩ := Read.accepts_name.sound hname
      refine ⟨ls, hls, hdotless, ?_, rfl⟩
      have hwhole : wire labels ++ [] = wire ls ++ rest := by rw [List.append_nil, hwire]
      exact ((Read.yields_wireName hsized).unique (Read.yields_wireName hls) hwhole).1
    · cases h
  · rintro ⟨ls, hls, hdotless, heq, rfl⟩
    have hyields := Read.accepts_name.complete ⟨ls, hls, hdotless, rfl, rfl⟩ [] []
    rw [List.append_nil] at hyields
    rw [heq, hyields]

lemma decode_eq_known :
    decode = do
      let wireName ← Read.wireName
      let name ← Read.known (Read.name.value { message := wireName })
      let type ← Read.uint16
      let recordClass ← Read.uint16
      return { name := name.lower, wireName, type := ⟨type⟩, recordClass } := by
  unfold decode
  congr 1
  funext w
  cases Read.name.value { message := w } <;> rfl

/-- A question is a name with a dotted form, a type and a class. -/
theorem accepts_decode :
    decode.Accepts fun bytes q =>
      bytes = q.encode ∧ ∃ labels, AreSized labels ∧ AreDotless labels ∧
        q.wireName = wire labels ∧ q.name = (Name.dotted labels).lower := by
  rw [decode_eq_known]
  refine (Read.accepts_wireName.bind fun _ => (Read.accepts_known _).bind fun _ =>
    Read.accepts_uint16.bind fun _ => Read.accepts_uint16.bind fun _ => .pure _).congr ?_
  intro bytes q
  constructor
  · rintro ⟨rfl, labels, hsized, hdotless, hwire, hname⟩
    refine ⟨q.wireName, q.wireName, _, ⟨rfl, labels, hsized, hwire⟩,
      ⟨Name.dotted labels, [], _, ⟨rfl, ?_⟩,
        ⟨q.type.code, _, _, rfl, ⟨q.recordClass, _, [], rfl, ⟨rfl, ?_⟩, rfl⟩, rfl⟩, rfl⟩, ?_⟩
    · rw [hwire, value_name_iff hsized]
      exact ⟨labels, hsized, hdotless, rfl, rfl⟩
    · rw [← hname]
    · simp [encode]
  · rintro ⟨w, _, _, ⟨rfl, labels, hsized, rfl⟩, ⟨t, _, _, ⟨rfl, hvalue⟩,
      ⟨type, _, _, rfl, ⟨recordClass, _, _, rfl, ⟨rfl, rfl⟩, rfl⟩, rfl⟩, rfl⟩, rfl⟩
    obtain ⟨ls, hls, hdotless, heq, rfl⟩ := (value_name_iff hsized).mp hvalue
    refine ⟨?_, ls, hls, hdotless, heq, rfl⟩
    simp [encode]

lemma strict_decode : decode.Strict := by
  rw [decode_eq_known]
  refine Read.strict_wireName.bind fun w => (Read.strict_known fun fault h => ?_).bind fun _ =>
    Read.strict_uint16.bind fun _ => Read.strict_uint16.bind fun _ => .pure _
  exact Read.rcode?_of_value Read.strict_name h

end Question

namespace RecordHeader

/-- The fixed part of a record is a name with a dotted form and the numbers behind it. -/
theorem accepts_decode :
    decode.Accepts fun bytes r =>
      ∃ labels, AreSized labels ∧ AreDotless labels ∧ r.name = (Name.dotted labels).lower ∧
        bytes = wire labels ++ encode16 r.type.code ++ encode16 r.recordClass ++ encode32 r.ttl ++
          encode16 r.dataSize := by
  refine (Read.accepts_name.bind fun _ => Read.accepts_uint16.bind fun _ =>
    Read.accepts_uint16.bind fun _ => Read.accepts_uint32.bind fun _ =>
      Read.accepts_uint16.bind fun _ => .pure _).congr ?_
  intro bytes r
  constructor
  · rintro ⟨labels, hsized, hdotless, hname, rfl⟩
    refine ⟨Name.dotted labels, wire labels, _, ⟨labels, hsized, hdotless, rfl, rfl⟩,
      ⟨r.type.code, _, _, rfl, ⟨r.recordClass, _, _, rfl, ⟨r.ttl, _, _, rfl,
        ⟨r.dataSize, _, [], rfl, ⟨rfl, ?_⟩, rfl⟩, rfl⟩, rfl⟩, rfl⟩, ?_⟩
    · rw [← hname]
    · simp
  · rintro ⟨_, _, _, ⟨labels, hsized, hdotless, rfl, rfl⟩, ⟨type, _, _, rfl,
      ⟨recordClass, _, _, rfl, ⟨ttl, _, _, rfl, ⟨dataSize, _, _, rfl, ⟨rfl, rfl⟩, rfl⟩, rfl⟩,
        rfl⟩, rfl⟩, rfl⟩
    refine ⟨labels, hsized, hdotless, rfl, ?_⟩
    simp

lemma strict_decode : decode.Strict :=
  Read.strict_name.bind fun _ => Read.strict_uint16.bind fun _ => Read.strict_uint16.bind fun _ =>
    Read.strict_uint32.bind fun _ => Read.strict_uint16.bind fun _ => .pure _

end RecordHeader

namespace Request

/-- What is passed over is a record. -/
theorem accepts_passRecord :
    passRecord.Accepts fun bytes header => ∃ e : Entry, e.Heads header ∧ bytes = e.encode := by
  refine (RecordHeader.accepts_decode.bind fun _ => (Read.accepts_skip _).bind fun _ =>
    .pure _).congr ?_
  intro bytes header
  constructor
  · rintro ⟨e, ⟨hdata, labels, hsized, hdotless, howner, rfl⟩, rfl⟩
    refine ⟨_, _, _, ⟨labels, hsized, hdotless, rfl, rfl⟩, ⟨(), e.data, [], ?_, ⟨rfl, rfl⟩, rfl⟩,
      ?_⟩
    · rw [UInt16.toNat_ofNat_of_lt' hdata]
    · simp [Entry.encode, howner]
  · rintro ⟨_, _, _, ⟨labels, hsized, hdotless, hname, rfl⟩, ⟨_, data, _, hdata, ⟨rfl, rfl⟩, rfl⟩,
      rfl⟩
    refine ⟨⟨wire labels, header.type, header.recordClass, header.ttl, data⟩,
      ⟨?_, labels, hsized, hdotless, rfl, ?_⟩, ?_⟩
    · rw [hdata]
      exact header.dataSize.toNat_lt
    · rw [← hname, hdata, UInt16.ofNat_toNat]
    · simp [Entry.encode, hdata]

lemma strict_passRecord : passRecord.Strict :=
  RecordHeader.strict_decode.bind fun _ => (Read.strict_skip _).bind fun _ => .pure _

end Request

end Nameserver

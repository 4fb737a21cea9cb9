import Nameserver.Proofs.Message.Entries
import Nameserver.Proofs.Message.Headers

/-!
# Headers, questions and record headers there and back

`Read.round_trips` compares three pairs of a reader and a writer.

**Headers.**  What is written is read again, and what is read is written again.  The two directions
differ in what they lose: the first in the width of two fields, the second in the reserved bits.

**Questions.**  A question keeps the octets of its name, so it is written as it stood, in whatever
case and whether or not its labels are text.  The name that it is looked up by plays no part in it.

**Record headers.**  The name is all that is kept of the owner, so only a header whose name is in
lower case and written as it is comes back.
-/

namespace Nameserver

/-- A question was read off the octets that it is written to. -/
lemma Question.encode_of_decode {r r' : Reader} {q : Question} (h : decode r = .ok q r') :
    q.encode = r.passed r' ∧ q.size = (r.passed r').length ∧
      r' = { r with offset := r.offset + q.size } := by
  have hsize : q.size = q.encode.length := by simp [size, encode]
  have hoffset : r.offset ≤ r.message.length := by
    obtain ⟨wireName, r₁, hname, -⟩ := Read.bind_ok h
    exact Read.offset_le_of_wireName hname
  obtain ⟨⟨hpassed, -⟩, hmoved⟩ := accepts_decode.passed hoffset h
  rw [hpassed] at hmoved
  rw [hsize, hpassed]
  exact ⟨rfl, rfl, hmoved⟩

/-- A record header is read from what it is written to, if its owner is named as a reader does. -/
lemma RecordHeader.yields_encode {r : RecordHeader} (hlower : r.name.lower = r.name)
    (hproper : Name.IsProper r.name) : decode.Yields r.encode r := by
  refine accepts_decode.complete ⟨Name.labels r.name, Name.areSized_labels r.name,
    Name.areDotless_labels r.name, ?_, rfl⟩
  rw [Name.dotted_labels hproper, hlower]

namespace Read

/-- **Headers, questions and record headers there and back.** -/
theorem round_trips :
    (∀ h : Header, h.opcode < 16 → h.rcode < 16 →
      ∀ rest, Header.decode (h.encode ++ rest) = .ok h) ∧
    (∀ octets : Bytes, headerSize ≤ octets.length →
      ∃ h, Header.decode octets = .ok h ∧
        h.encode = (octets.take headerSize).modify 3 (· &&& 0x8F)) ∧
    (∀ r r' q, Question.decode r = .ok q r' →
      q.encode = r.passed r' ∧ q.size = (r.passed r').length ∧
        r' = { r with offset := r.offset + q.size }) ∧
    ∀ r : RecordHeader, r.name.lower = r.name → Name.IsProper r.name →
      ∀ before rest, RecordHeader.decode (.between before (r.encode ++ rest)) =
        .ok r (.between (before ++ r.encode) rest) := by
  refine ⟨?header, ?octets, fun r r' q => Question.encode_of_decode,
    fun r hlower hproper => RecordHeader.yields_encode hlower hproper⟩
  case header =>
    intro h hopcode hrcode rest
    rw [Header.decode_encode, Header.and_eq_self_of_lt hopcode, Header.and_eq_self_of_lt hrcode]
  case octets =>
    intro octets hlen
    have hfirst : (octets.take headerSize).length = headerSize := List.length_take_of_le hlen
    obtain ⟨h, hdecode, -⟩ := Header.decode_of_length hfirst (octets.drop headerSize)
    refine ⟨h, ?_, Header.encode_of_decode hfirst hdecode⟩
    rwa [List.take_append_drop] at hdecode

/-- Reserved bits are lost, while a label that is not text and one with a capital letter stay. -/
theorem round_trips_reserved :
    Header.decode (({ id := 7, opcode := 2, rcode := 5, answers := 3 } : Header).encode ++ [9]) =
      .ok { id := 7, opcode := 2, rcode := 5, answers := 3 } ∧
    (∃ h, Header.decode [0x12, 0x34, 0x81, 0xF5, 0, 1, 0, 2, 0, 3, 0, 4, 99] = .ok h ∧
      h.encode = [0x12, 0x34, 0x81, 0x85, 0, 1, 0, 2, 0, 3, 0, 4]) ∧
    (∃ q r, Question.decode ⟨[7, 1, 65, 1, 255, 0, 0, 16, 0, 1, 8], 1⟩ = .ok q r ∧
      q.encode = [1, 65, 1, 255, 0, 0, 16, 0, 1] ∧ q.size = 9 ∧ r.offset = 10) ∧
    RecordHeader.decode (.between [7] ([1, 97, 2, 195, 164, 0, 0, 1, 0, 1, 0, 0, 0, 60, 0, 4] ++
      [1, 2, 3, 4])) =
        .ok ⟨['a', '.', 'ä'], RecordType.a, classInternet, 60, 4⟩
          (.between [7, 1, 97, 2, 195, 164, 0, 0, 1, 0, 1, 0, 0, 0, 60, 0, 4] [1, 2, 3, 4]) := by
  refine ⟨round_trips.1 _ (by decide) (by decide) [9],
    round_trips.2.1 [0x12, 0x34, 0x81, 0xF5, 0, 1, 0, 2, 0, 3, 0, 4, 99] (by decide),
    ⟨_, _, rfl, ?_⟩,
    round_trips.2.2.2 ⟨['a', '.', 'ä'], RecordType.a, classInternet, 60, 4⟩ (by decide)
      (Or.inr (by decide)) [7] [1, 2, 3, 4]⟩
  obtain ⟨hencode, hsize, -⟩ :=
    round_trips.2.2.1 ⟨[7, 1, 65, 1, 255, 0, 0, 16, 0, 1, 8], 1⟩ _ _ rfl
  exact ⟨hencode, hsize, rfl⟩

end Read

end Nameserver

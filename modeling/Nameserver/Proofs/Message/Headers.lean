import Nameserver.Message.Header
import Nameserver.Proofs.Message.Reading

/-!
# The octets of a header

`Header.Spells` says octet by octet and bit by bit what a header stands for, without the operations
that the reader is made of.  Every twelve octets spell one header, and that is the one
`Header.decode` reads off them (`Header.decode_append_iff`).

A header that is written is read again with the operation and the response code cut to four bits
(`Header.decode_encode`).  One that was read is written as it was, without the three reserved bits
(`Header.encode_of_decode`).
-/

namespace Nameserver.Header

/-- What the twelve octets of a header say. -/
structure Spells (h : Header) (octets : Bytes) : Prop where
  /-- There are twelve of them. -/
  length : octets.length = headerSize
  /-- The id comes first. -/
  id : h.id.toNat = decodeNat (octets.take 2)
  /-- The highest bit of the third octet tells a response. -/
  isResponse : h.isResponse = (octets.getD 2 0).toNat.testBit 7
  /-- The operation is in the four bits behind it. -/
  opcode : h.opcode.toNat = (octets.getD 2 0).toNat / 8 % 16
  /-- The three bits left tell what is authoritative, ... -/
  authoritative : h.authoritative = (octets.getD 2 0).toNat.testBit 2
  /-- ... what is cut short, ... -/
  truncated : h.truncated = (octets.getD 2 0).toNat.testBit 1
  /-- ... and whether recursion is desired. -/
  recursionDesired : h.recursionDesired = (octets.getD 2 0).toNat.testBit 0
  /-- The highest bit of the fourth octet tells whether it is available. -/
  recursionAvailable : h.recursionAvailable = (octets.getD 3 0).toNat.testBit 7
  /-- Its four lowest bits are the response code. -/
  rcode : h.rcode.toNat = (octets.getD 3 0).toNat % 16
  /-- Four numbers follow: of questions, ... -/
  questions : h.questions.toNat = decodeNat ((octets.drop 4).take 2)
  /-- ... of answers, ... -/
  answers : h.answers.toNat = decodeNat ((octets.drop 6).take 2)
  /-- ... of records about authorities, ... -/
  authorities : h.authorities.toNat = decodeNat ((octets.drop 8).take 2)
  /-- ... and of further records. -/
  additionals : h.additionals.toNat = decodeNat ((octets.drop 10).take 2)

/-! ## Reading -/

lemma toNat_word (high low : UInt8) : (word high low).toNat = decodeNat [high, low] := by
  have hlow := low.toNat_lt
  have hhigh := high.toNat_lt
  have hor : high.toNat <<< 8 ||| low.toNat = high.toNat * 256 + low.toNat := by
    rw [← Nat.shiftLeft_add_eq_or_of_lt (by omega), Nat.shiftLeft_eq]
  have hmod : high.toNat <<< 8 % 65536 = high.toNat <<< 8 := by
    rw [Nat.shiftLeft_eq]
    omega
  simp [word, decodeNat_two, hmod, hor]

/-- A flag is tested with a mask of one bit. -/
lemma testBit_mask (f : UInt8) (i : Fin 8) :
    (f &&& UInt8.ofNat (2 ^ i.val) != 0) = f.toNat.testBit i := by
  revert f i
  decide +kernel

lemma toNat_rcode (g : UInt8) : (g &&& 0x0F).toNat = g.toNat % 16 := by
  rw [UInt8.toNat_and]
  exact Nat.and_two_pow_sub_one_eq_mod _ 4

lemma toNat_opcode (f : UInt8) : (f >>> 3 &&& 0x0F).toNat = f.toNat / 8 % 16 := by
  rw [toNat_rcode, UInt8.toNat_shiftRight, Nat.shiftRight_eq_div_pow]
  rfl

lemma decode_of_length {octets : Bytes} (hlen : octets.length = headerSize) (rest : Bytes) :
    ∃ h : Header, decode (octets ++ rest) = .ok h ∧ h.Spells octets := by
  match octets, hlen with
  | [_, _, _, _, _, _, _, _, _, _, _, _], _ =>
    refine ⟨_, rfl, ?_⟩
    constructor
    case length => rfl
    case id | questions | answers | authorities | additionals => exact toNat_word _ _
    case opcode => exact toNat_opcode _
    case rcode => exact toNat_rcode _
    case isResponse | recursionAvailable => exact testBit_mask _ 7
    case authoritative => exact testBit_mask _ 2
    case truncated => exact testBit_mask _ 1
    case recursionDesired => exact testBit_mask _ 0

lemma Spells.unique {h h' : Header} {octets : Bytes} (hspells : h.Spells octets)
    (hspells' : h'.Spells octets) : h = h' := by
  cases h
  cases h'
  simp only [Header.mk.injEq, ← UInt16.toNat_inj, ← UInt8.toNat_inj]
  refine ⟨?_, ?_, ?_, ?_, ?_, ?_, ?_, ?_, ?_, ?_, ?_, ?_⟩
  · exact hspells.id.trans hspells'.id.symm
  · exact hspells.isResponse.trans hspells'.isResponse.symm
  · exact hspells.opcode.trans hspells'.opcode.symm
  · exact hspells.authoritative.trans hspells'.authoritative.symm
  · exact hspells.truncated.trans hspells'.truncated.symm
  · exact hspells.recursionDesired.trans hspells'.recursionDesired.symm
  · exact hspells.recursionAvailable.trans hspells'.recursionAvailable.symm
  · exact hspells.rcode.trans hspells'.rcode.symm
  · exact hspells.questions.trans hspells'.questions.symm
  · exact hspells.answers.trans hspells'.answers.symm
  · exact hspells.authorities.trans hspells'.authorities.symm
  · exact hspells.additionals.trans hspells'.additionals.symm

/-- The reader gives what the first twelve octets spell. -/
theorem decode_append_iff {h : Header} {octets rest : Bytes} (hlen : octets.length = headerSize) :
    decode (octets ++ rest) = .ok h ↔ h.Spells octets := by
  obtain ⟨h', hdecode, hspells⟩ := decode_of_length hlen rest
  rw [hdecode]
  constructor
  · intro heq
    cases heq
    exact hspells
  · intro hspells'
    rw [hspells.unique hspells']

lemma decode_of_short {datagram : Bytes} (hlen : datagram.length < headerSize) :
    decode datagram = .error (if datagram.length < 2 then .noId else .shortHeader) := by
  match datagram, hlen with
  | [], _ | [_], _ | [_, _], _ | [_, _, _], _ | [_, _, _, _], _ | [_, _, _, _, _], _
  | [_, _, _, _, _, _], _ | [_, _, _, _, _, _, _], _ | [_, _, _, _, _, _, _, _], _
  | [_, _, _, _, _, _, _, _, _], _ | [_, _, _, _, _, _, _, _, _, _], _
  | [_, _, _, _, _, _, _, _, _, _, _], _ => rfl
  | _ :: _ :: _ :: _ :: _ :: _ :: _ :: _ :: _ :: _ :: _ :: _ :: rest, hlen =>
    simp only [headerSize, List.length_cons] at hlen
    omega

/-! ## Reading what was written -/

lemma word_encode16 (n : UInt16) : word (n >>> 8).toUInt8 n.toUInt8 = n := by
  have h := (encode16_iff (n := n)).mp rfl
  apply UInt16.toNat_inj.mp
  rw [toNat_word]
  show decodeNat (encode16 n) = n.toNat
  conv_rhs => rw [h.2]
  rw [UInt16.toNat_ofNat_of_lt']
  rw [encode16_eq, decodeNat_two]
  have hfirst := (UInt8.ofNat (n.toNat / 256)).toNat_lt
  have hsecond := (UInt8.ofNat n.toNat).toNat_lt
  show _ < 65536
  omega

/-- The flags of the third octet come back. -/
lemma flags_encode (op : UInt8) (isResponse authoritative truncated desired : Bool) :
    let flags := (op &&& 0x0F) <<< 3 ||| bit isResponse 0x80 ||| bit authoritative 0x04 |||
      bit truncated 0x02 ||| bit desired 0x01
    (flags &&& 0x80 != 0) = isResponse ∧ flags >>> 3 &&& 0x0F = op &&& 0x0F ∧
      (flags &&& 0x04 != 0) = authoritative ∧ (flags &&& 0x02 != 0) = truncated ∧
      (flags &&& 0x01 != 0) = desired := by
  obtain ⟨low, hlow⟩ : ∃ low : Fin 16, op &&& 0x0F = UInt8.ofNat low :=
    ⟨⟨(op &&& 0x0F).toNat, by rw [toNat_rcode]; omega⟩, by simp⟩
  rw [hlow]
  clear hlow
  revert low isResponse authoritative truncated desired
  decide +kernel

lemma codes_encode (code : UInt8) (available : Bool) :
    let codes := code &&& 0x0F ||| bit available 0x80
    (codes &&& 0x80 != 0) = available ∧ codes &&& 0x0F = code &&& 0x0F := by
  revert code available
  decide +kernel

/-- A written header is read again, up to the width of two fields. -/
theorem decode_encode (h : Header) (rest : Bytes) :
    decode (h.encode ++ rest) =
      .ok { h with opcode := h.opcode &&& 0x0F, rcode := h.rcode &&& 0x0F } := by
  obtain ⟨hresponse, hopcode, hauthoritative, htruncated, hdesired⟩ := flags_encode h.opcode
    h.isResponse h.authoritative h.truncated h.recursionDesired
  obtain ⟨havailable, hrcode⟩ := codes_encode h.rcode h.recursionAvailable
  simp only [encode, encode16, List.cons_append, List.nil_append, decode, word_encode16,
    hresponse, hopcode, hauthoritative, htruncated, hdesired, havailable, hrcode]

/-- A code that takes no more than its four bits is not cut. -/
lemma and_eq_self_of_lt {code : UInt8} (h : code < 16) : code &&& 0x0F = code := by
  apply UInt8.toNat_inj.mp
  rw [toNat_rcode]
  exact Nat.mod_eq_of_lt (UInt8.lt_iff_toNat_lt.mp h)

/-! ## Writing what was read -/

lemma encode16_word (high low : UInt8) : encode16 (word high low) = [high, low] := by
  refine (encode16_iff.mpr ⟨rfl, ?_⟩).symm
  rw [← toNat_word, UInt16.ofNat_toNat]

lemma flags_decode (f : UInt8) :
    ((f >>> 3 &&& 0x0F) &&& 0x0F) <<< 3 ||| bit (f &&& 0x80 != 0) 0x80 |||
      bit (f &&& 0x04 != 0) 0x04 ||| bit (f &&& 0x02 != 0) 0x02 ||| bit (f &&& 0x01 != 0) 0x01 =
        f := by
  revert f
  decide +kernel

/-- The reserved bits of the fourth octet are lost. -/
lemma codes_decode (g : UInt8) :
    g &&& 0x0F &&& 0x0F ||| bit (g &&& 0x80 != 0) 0x80 = g &&& 0x8F := by
  revert g
  decide +kernel

/-- A header that was read is written as it was, up to the reserved bits. -/
theorem encode_of_decode {h : Header} {octets rest : Bytes} (hlen : octets.length = headerSize)
    (hdecode : decode (octets ++ rest) = .ok h) : h.encode = octets.modify 3 (· &&& 0x8F) := by
  match octets, hlen with
  | [_, _, f, g, _, _, _, _, _, _, _, _], _ =>
    cases hdecode
    simp only [encode, encode16_word, flags_decode, codes_decode]
    rfl

end Nameserver.Header

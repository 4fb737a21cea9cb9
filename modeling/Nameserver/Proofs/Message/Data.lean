import Nameserver.Message.Record
import Nameserver.Proofs.Message.Names

/-!
# Record data and its octets

A response is measured before it is written, so the sizes of the model must be the lengths of what
is written: `RecordData.length_encode` says so for all data whatsoever.

Reading data back (`RecordData.decode?`) needs more.  Its names must not be cut, and the tag of an
authority record must have a length that an octet can tell.  Then nothing is lost
(`RecordData.decode?_encode`).

**Texts.**  A text becomes character strings of up to 255 octets each, which may be cut inside a
character.  It is the octets of all of them, one after the other, that are the text.
-/

namespace Nameserver

variable {α : Type}

/-! ## Character strings -/

/-- The character strings behind their lengths, after passing over `skip` octets. -/
def characterStrings? (skip : Nat) : Bytes → Option (List Bytes)
  | [] => if skip = 0 then some [] else none
  | size :: rest =>
    match skip with
    | skip + 1 => characterStrings? skip rest
    | 0 =>
      if rest.length < size.toNat then none
      else (characterStrings? size.toNat rest).map (rest.take size.toNat :: ·)

lemma characterStrings?_append (skipped rest : Bytes) :
    characterStrings? skipped.length (skipped ++ rest) = characterStrings? 0 rest := by
  induction skipped with
  | nil => rfl
  | cons b skipped ih => exact ih

lemma characterStrings?_flatMap {strings : List Bytes} (h : ∀ s ∈ strings, s.length ≤ 255) :
    characterStrings? 0 (strings.flatMap fun s => UInt8.ofNat s.length :: s) = some strings := by
  induction strings with
  | nil => rfl
  | cons s strings ih =>
      obtain ⟨hs, hstrings⟩ := List.forall_mem_cons.mp h
      have hsize : (UInt8.ofNat s.length).toNat = s.length := Utf8.toNat_ofNat_of_lt (by omega)
      have hlen :
          ¬ (s ++ strings.flatMap fun s => UInt8.ofNat s.length :: s).length < s.length := by
        simp
      rw [List.flatMap_cons, List.cons_append, characterStrings?, hsize, if_neg hlen,
        characterStrings?_append, ih hstrings, List.take_left]
      rfl

namespace RecordData

lemma flatten_stringsAfter (skip : Nat) (bytes : Bytes) :
    (stringsAfter skip bytes).flatten = bytes.drop skip := by
  induction bytes generalizing skip with
  | nil => cases skip <;> rfl
  | cons b rest ih =>
      cases skip with
      | zero => simp [stringsAfter, ih]
      | succ skip => exact ih skip

lemma length_of_mem_stringsAfter {skip : Nat} {bytes s : Bytes} (h : s ∈ stringsAfter skip bytes) :
    s.length ≤ 255 := by
  induction bytes generalizing skip with
  | nil => cases skip <;> cases h
  | cons b rest ih =>
      cases skip with
      | zero =>
          rcases List.mem_cons.mp h with rfl | h
          · rw [List.length_cons, List.length_take, maxString]
            omega
          · exact ih h
      | succ skip => exact ih h

/-- The strings of a text make up the text. -/
theorem flatten_strings (text : Bytes) : (strings text).flatten = text := by
  unfold strings
  split_ifs with h
  · rw [List.isEmpty_iff.mp h]
    rfl
  · exact flatten_stringsAfter 0 text

/-- Their lengths can be told by an octet. -/
theorem length_of_mem_strings {text s : Bytes} (h : s ∈ strings text) : s.length ≤ 255 := by
  unfold strings at h
  split_ifs at h
  · rw [List.mem_singleton.mp h]
    exact Nat.zero_le _
  · exact length_of_mem_stringsAfter h

/-! ## Sizes -/

/-- The size of data is known before it is written. -/
theorem length_encode (data : RecordData) : data.encode.length = data.size := by
  cases data with
  | a address => rfl
  | ns host => exact Name.length_encode host
  | cname target => exact Name.length_encode target
  | soa start =>
      simp [encode, size, Name.length_encode]
      omega
  | mx preference exchange => simp [encode, size, Name.length_encode]
  | txt text =>
      have hflat : ∀ ss : List Bytes,
          (ss.flatMap fun s => UInt8.ofNat s.length :: s).length =
            ss.flatten.length + ss.length := by
        intro ss
        induction ss with
        | nil => rfl
        | cons s ss ih =>
            simp only [List.flatMap_cons, List.flatten_cons, List.length_append,
              List.length_cons, ih]
            omega
      rw [encode, size, hflat, flatten_strings, Utf8.size]
  | caa entry =>
      simp [encode, size, Utf8.size]
      omega

/-! ## Reading data -/

/-- The data can be read back: names are written as they are, and tags are short. -/
def IsSound : RecordData → Prop
  | .ns name | .cname name | .mx _ name => Name.IsProper name
  | .soa start => Name.IsProper start.primary ∧ Name.IsProper start.mailbox
  | .caa entry => Utf8.size entry.tag ≤ 255
  | .a _ | .txt _ => True

end RecordData

/-- The value of a reading that takes all of the data. -/
def Read.whole? (reading : Read α) (data : Bytes) : Option α :=
  match reading { message := data } with
  | .ok a r => if r.offset = data.length then some a else none
  | .error _ _ => none

lemma Read.Yields.whole? {reading : Read α} {data : Bytes} {a : α} (h : reading.Yields data a) :
    reading.whole? data = some a := by
  have hvalue : reading { message := data } = .ok a { message := data, offset := data.length } := by
    simpa [Reader.between] using h [] []
  simp [Read.whole?, hvalue]

/-- Reads the two names and the five numbers of the start of a zone. -/
def Soa.reading : Read Soa := do
  let primary ← Read.name
  let mailbox ← Read.name
  let serial ← Read.uint32
  let refresh ← Read.uint32
  let retry ← Read.uint32
  let expire ← Read.uint32
  let minimum ← Read.uint32
  return { primary, mailbox, serial, refresh, retry, expire, minimum }

lemma Soa.yields_reading {start : Soa} (hprimary : Name.IsProper start.primary)
    (hmailbox : Name.IsProper start.mailbox) :
    Soa.reading.Yields (RecordData.soa start).encode start := by
  have hencode : (RecordData.soa start).encode =
      Name.encode start.primary ++ (Name.encode start.mailbox ++ (encode32 start.serial ++
        (encode32 start.refresh ++ (encode32 start.retry ++ (encode32 start.expire ++
          (encode32 start.minimum ++ [])))))) := by
    simp [RecordData.encode]
  rw [hencode]
  exact (Read.yields_name hprimary).bind <| (Read.yields_name hmailbox).bind <|
    (Read.yields_uint32 start.serial).bind <| (Read.yields_uint32 start.refresh).bind <|
    (Read.yields_uint32 start.retry).bind <| (Read.yields_uint32 start.expire).bind <|
    (Read.yields_uint32 start.minimum).bind <| Read.Yields.pure start

/-- Reads a preference and the name of an exchange. -/
def RecordData.exchange : Read RecordData := do
  let preference ← Read.uint16
  let exchange ← Read.name
  return .mx preference exchange

/-- Reads flags, a tag behind its size, and a value that takes up the rest. -/
def Caa.decode? : Bytes → Option Caa
  | flags :: size :: rest =>
    if rest.length < size.toNat then none
    else do
      let tag ← Utf8.decode? (rest.take size.toNat)
      let value ← Utf8.decode? (rest.drop size.toNat)
      return { flags, tag, value }
  | _ => none

/-- Reads the four octets of an address. -/
def Ipv4Address.decode? : Bytes → Option Ipv4Address
  | [w, x, y, z] => some (.ofOctets w x y z)
  | _ => none

lemma Ipv4Address.decode?_octets (ip : Ipv4Address) : decode? ip.octets = some ip := by
  obtain ⟨bits⟩ := ip
  simp only [decode?, octets, ofOctets, Option.some.injEq, Ipv4Address.mk.injEq]
  apply BitVec.eq_of_getLsbD_eq
  intro i hi
  simp only [BitVec.getLsbD_append, BitVec.getLsbD_extractLsb']
  split_ifs <;> simp <;> grind

namespace RecordData

/-- What the data of a record of some type stands for. -/
def decode? (type : RecordType) (data : Bytes) : Option RecordData :=
  if type = RecordType.a then (Ipv4Address.decode? data).map .a
  else if type = RecordType.ns then (Read.name.whole? data).map .ns
  else if type = RecordType.cname then (Read.name.whole? data).map .cname
  else if type = RecordType.soa then (Soa.reading.whole? data).map .soa
  else if type = RecordType.mx then exchange.whole? data
  else if type = RecordType.txt then
    ((characterStrings? 0 data).bind fun strings => Utf8.decode? strings.flatten).map .txt
  else if type = RecordType.caa then (Caa.decode? data).map .caa
  else none

/-- Data is read back as it was written. -/
theorem decode?_encode {data : RecordData} (h : data.IsSound) :
    decode? data.type data.encode = some data := by
  cases data with
  | a address =>
      show (Ipv4Address.decode? address.octets).map RecordData.a = _
      rw [Ipv4Address.decode?_octets]
      rfl
  | ns host =>
      show (Read.name.whole? (Name.encode host)).map RecordData.ns = _
      rw [(Read.yields_name h).whole?]
      rfl
  | cname target =>
      show (Read.name.whole? (Name.encode target)).map RecordData.cname = _
      rw [(Read.yields_name h).whole?]
      rfl
  | soa start =>
      show (Soa.reading.whole? (RecordData.soa start).encode).map RecordData.soa = _
      rw [(Soa.yields_reading h.1 h.2).whole?]
      rfl
  | mx preference host =>
      have hyields : exchange.Yields (encode16 preference ++ (Name.encode host ++ []))
          (RecordData.mx preference host) :=
        (Read.yields_uint16 preference).bind <| (Read.yields_name h).bind <| Read.Yields.pure _
      rw [List.append_nil] at hyields
      exact hyields.whole?
  | txt text =>
      show ((characterStrings? 0 _).bind fun strings => Utf8.decode? strings.flatten).map
        RecordData.txt = _
      rw [encode, characterStrings?_flatMap fun s => length_of_mem_strings]
      show (Utf8.decode? (strings (Utf8.encode text)).flatten).map RecordData.txt = _
      rw [flatten_strings, Utf8.decode?_encode]
      rfl
  | caa entry =>
      have htag : (Utf8.encode entry.tag).length ≤ 255 := h
      have hsize : (UInt8.ofNat (Utf8.size entry.tag)).toNat = (Utf8.encode entry.tag).length :=
        Utf8.toNat_ofNat_of_lt (Nat.lt_succ_of_le htag)
      have hlen : ¬ (Utf8.encode entry.tag ++ Utf8.encode entry.value).length <
          (Utf8.encode entry.tag).length := by
        simp
      show (Caa.decode? _).map RecordData.caa = _
      rw [encode, Caa.decode?, hsize, if_neg hlen, List.take_left, List.drop_left,
        Utf8.decode?_encode, Utf8.decode?_encode]
      rfl

end RecordData

end Nameserver

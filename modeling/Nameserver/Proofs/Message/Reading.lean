import Mathlib
import Nameserver.Message.Reader

/-!
# Formats of readings

What a reading accepts is said by a format, a relation between octets and what they stand for.
`Read.Accepts reading format` has two halves: the reading takes exactly the octets of a value
wherever they stand (`Read.Yields`), and whatever it takes are octets of the value it gives.

**Place.**  A reader that has not run past the end is behind some octets and in front of others
(`Reader.between`).  Formats speak of the octets in front only, so a reading never depends on what
it is behind.

**Octets passed over.**  `Reader.passed` are the octets between two places of a message.  What lies
between the places before and after a reading is of its format (`Read.Accepts.passed`).

**Faults.**  A reading that is `Read.Strict` reports a malformed query whenever it fails.
-/

namespace Nameserver

variable {α β : Type}

/-- The reader behind some octets of a message and in front of the others. -/
def Reader.between (before rest : Bytes) : Reader :=
  { message := before ++ rest, offset := before.length }

namespace Reader

variable {before rest : Bytes}

@[simp] lemma offset_between : (between before rest).offset = before.length := rfl

@[simp] lemma length_between :
    (between before rest).message.length = before.length + rest.length :=
  List.length_append

@[simp] lemma drop_between :
    (between before rest).message.drop before.length = rest :=
  List.drop_left

lemma between_append {bytes : Bytes} :
    { between before (bytes ++ rest) with offset := before.length + bytes.length } =
      between (before ++ bytes) rest := by
  simp [between]

/-- A reader that has not run past the end is behind some octets and in front of others. -/
lemma exists_between {r : Reader} (h : r.offset ≤ r.message.length) :
    ∃ before rest, r = between before rest := by
  refine ⟨r.message.take r.offset, r.message.drop r.offset, ?_⟩
  rw [between, List.take_append_drop, List.length_take_of_le h]

/-- The octets from the place of one reader to that of another. -/
def passed (r r' : Reader) : Bytes := (r.message.drop r.offset).take (r'.offset - r.offset)

lemma passed_between {bytes : Bytes} :
    (between before (bytes ++ rest)).passed (between (before ++ bytes) rest) = bytes := by
  simp [passed]

end Reader

namespace Read

/-- The reading takes these octets for this value, wherever they stand. -/
def Yields (reading : Read α) (bytes : Bytes) (a : α) : Prop :=
  ∀ before rest, reading (.between before (bytes ++ rest)) = .ok a (.between (before ++ bytes) rest)

/-- The reading takes exactly the octets that a format allows, for the values it gives them. -/
structure Accepts (reading : Read α) (format : Bytes → α → Prop) : Prop where
  /-- All octets of the format are taken. -/
  complete : ∀ {bytes a}, format bytes a → reading.Yields bytes a
  /-- Only octets of the format are taken. -/
  sound : ∀ {before rest a r}, reading (.between before rest) = .ok a r →
    ∃ bytes rest', format bytes a ∧ rest = bytes ++ rest' ∧ r = .between (before ++ bytes) rest'

/-- Every fault of the reading means that the query is malformed. -/
def Strict (reading : Read α) : Prop :=
  ∀ r fault r', reading r = .error fault r' → fault.rcode? = some .formErr

variable {reading : Read α} {next : α → Read β} {bytes bytes' : Bytes} {a a' : α} {b : β}
  {format : Bytes → α → Prop} {formats : α → Bytes → β → Prop}

/-! ## Sequences -/

lemma pure_apply (a : α) (r : Reader) : (pure a : Read α) r = .ok a r := rfl

lemma bind_apply (reading : Read α) (next : α → Read β) (r : Reader) :
    (reading >>= next) r = match reading r with
      | .ok a r => next a r
      | .error fault r => .error fault r := by
  show EStateM.bind reading next r = _
  unfold EStateM.bind
  cases reading r <;> rfl

lemma bind_ok {r r' : Reader} (h : (reading >>= next) r = .ok b r') :
    ∃ a r₁, reading r = .ok a r₁ ∧ next a r₁ = .ok b r' := by
  rw [bind_apply] at h
  split at h
  · rename_i a r₁ hfirst
    exact ⟨a, r₁, hfirst, h⟩
  · cases h

lemma bind_error {r r' : Reader} {fault : Fault} (h : (reading >>= next) r = .error fault r') :
    reading r = .error fault r' ∨ ∃ a r₁, reading r = .ok a r₁ ∧ next a r₁ = .error fault r' := by
  rw [bind_apply] at h
  split at h
  · rename_i a r₁ hfirst
    exact .inr ⟨a, r₁, hfirst, h⟩
  · rename_i hfirst
    cases h
    exact .inl hfirst

lemma Yields.pure (a : α) : Yields (pure a) [] a := by
  intro before rest
  rw [pure_apply, List.nil_append, List.append_nil]

lemma Yields.bind (hfirst : reading.Yields bytes a) (hnext : (next a).Yields bytes' b) :
    (reading >>= next).Yields (bytes ++ bytes') b := by
  intro before rest
  rw [bind_apply, List.append_assoc, hfirst]
  show next a _ = _
  rw [hnext, List.append_assoc]

lemma Strict.bind (hfirst : reading.Strict) (hnext : ∀ a, (next a).Strict) :
    (reading >>= next).Strict := by
  intro r fault r' h
  rcases bind_error h with h | ⟨a, r₁, -, h⟩
  · exact hfirst r fault r' h
  · exact hnext a r₁ fault r' h

lemma Strict.pure (a : α) : (pure a : Read α).Strict := by
  intro r fault r' h
  cases h

lemma Accepts.pure (a : α) : Accepts (pure a) fun bytes b => bytes = [] ∧ b = a where
  complete := by
    rintro bytes b ⟨rfl, rfl⟩
    exact Yields.pure _
  sound := by
    intro before rest b r h
    cases h
    exact ⟨[], rest, ⟨rfl, rfl⟩, rfl, by rw [List.append_nil]⟩

lemma Accepts.bind (hfirst : reading.Accepts format) (hnext : ∀ a, (next a).Accepts (formats a)) :
    (reading >>= next).Accepts fun bytes b =>
      ∃ a first second, format first a ∧ formats a second b ∧ bytes = first ++ second where
  complete := by
    rintro bytes b ⟨a, first, second, h₁, h₂, rfl⟩
    exact (hfirst.complete h₁).bind ((hnext a).complete h₂)
  sound := by
    intro before rest b r h
    obtain ⟨a, r₁, h₁, h₂⟩ := bind_ok h
    obtain ⟨first, rest₁, hformat₁, rfl, rfl⟩ := hfirst.sound h₁
    obtain ⟨second, rest₂, hformat₂, rfl, rfl⟩ := (hnext a).sound h₂
    refine ⟨first ++ second, rest₂, ⟨a, first, second, hformat₁, hformat₂, rfl⟩, ?_, ?_⟩
    · rw [List.append_assoc]
    · rw [List.append_assoc]

/-- What a reading passes over is of its format, and nothing else is moved. -/
lemma Accepts.passed {r r' : Reader} (h : reading.Accepts format)
    (hoffset : r.offset ≤ r.message.length) (hread : reading r = .ok a r') :
    format (r.passed r') a ∧ r' = { r with offset := r.offset + (r.passed r').length } := by
  obtain ⟨before, rest, rfl⟩ := Reader.exists_between hoffset
  obtain ⟨bytes, rest', hformat, rfl, rfl⟩ := h.sound hread
  rw [Reader.passed_between]
  exact ⟨hformat, Reader.between_append.symm⟩

lemma Accepts.congr {format' : Bytes → α → Prop} (h : reading.Accepts format)
    (hiff : ∀ bytes a, format' bytes a ↔ format bytes a) : reading.Accepts format' := by
  have heq : format' = format := by
    funext bytes a
    exact propext (hiff bytes a)
  rw [heq]
  exact h

lemma Yields.unique {rest rest' : Bytes} (h : reading.Yields bytes a)
    (h' : reading.Yields bytes' a') (heq : bytes ++ rest = bytes' ++ rest') :
    bytes = bytes' ∧ rest = rest' ∧ a = a' := by
  have hfirst := h [] rest
  rw [heq, h' [] rest'] at hfirst
  simp only [List.nil_append, EStateM.Result.ok.injEq, Reader.between, Reader.mk.injEq] at hfirst
  obtain ⟨ha, hmessage, hlength⟩ := hfirst
  obtain ⟨hbytes, hrest⟩ := List.append_inj hmessage hlength
  exact ⟨hbytes.symm, hrest.symm, ha.symm⟩

/-! ## Octets and numbers -/

lemma accepts_take (n : Nat) : (take n).Accepts fun bytes a => a.length = n ∧ bytes = a where
  complete := by
    rintro bytes a ⟨rfl, rfl⟩
    intro before rest
    have hlen : before.length + bytes.length ≤ before.length + (bytes ++ rest).length := by simp
    simp only [take, Reader.offset_between, Reader.length_between, Reader.drop_between, if_pos hlen,
      List.take_left, Reader.between_append]
  sound := by
    intro before rest a r h
    simp only [take, Reader.offset_between, Reader.length_between, Reader.drop_between] at h
    split at h
    · rename_i hlen
      cases h
      have hn : (rest.take n).length = n := by
        rw [List.length_take]
        omega
      refine ⟨rest.take n, rest.drop n, ⟨hn, rfl⟩, (List.take_append_drop n rest).symm, ?_⟩
      rw [← Reader.between_append, hn, List.take_append_drop]
    · cases h

lemma strict_take (n : Nat) : (take n).Strict := by
  intro r fault r' h
  unfold take at h
  split at h
  · cases h
  · cases h
    rfl

lemma accepts_skip (n : Nat) : (skip n).Accepts fun bytes _ => bytes.length = n :=
  ((accepts_take n).bind fun _ => .pure ()).congr fun bytes u => by simp

lemma strict_skip (n : Nat) : (skip n).Strict := (strict_take n).bind fun _ => .pure ()

end Read

/-! ### Numbers -/

lemma encode16_eq (n : UInt16) :
    encode16 n = [UInt8.ofNat (n.toNat / 256), UInt8.ofNat n.toNat] := by
  simp only [encode16, List.cons.injEq, and_true]
  constructor
  · apply UInt8.toNat_inj.mp
    simp [Nat.shiftRight_eq_div_pow]
  · apply UInt8.toNat_inj.mp
    simp

lemma encode32_eq (n : UInt32) :
    encode32 n = [UInt8.ofNat (n.toNat / 16777216), UInt8.ofNat (n.toNat / 65536),
      UInt8.ofNat (n.toNat / 256), UInt8.ofNat n.toNat] := by
  simp only [encode32, List.cons.injEq, and_true]
  refine ⟨?_, ?_, ?_, ?_⟩ <;> apply UInt8.toNat_inj.mp <;> simp [Nat.shiftRight_eq_div_pow]

@[simp] lemma length_encode16 (n : UInt16) : (encode16 n).length = 2 := by
  simp [encode16]

@[simp] lemma length_encode32 (n : UInt32) : (encode32 n).length = 4 := by
  simp [encode32]

lemma decodeNat_two (x y : UInt8) : decodeNat [x, y] = x.toNat * 256 + y.toNat := by
  simp [decodeNat]

lemma decodeNat_four (x y z w : UInt8) :
    decodeNat [x, y, z, w] =
      ((x.toNat * 256 + y.toNat) * 256 + z.toNat) * 256 + w.toNat := by
  simp [decodeNat]

lemma encode16_iff {bytes : Bytes} {n : UInt16} :
    bytes = encode16 n ↔ bytes.length = 2 ∧ n = UInt16.ofNat (decodeNat bytes) := by
  constructor
  · rintro rfl
    refine ⟨rfl, ?_⟩
    have hn := n.toNat_lt
    apply UInt16.toNat_inj.mp
    rw [encode16_eq, decodeNat_two]
    simp only [UInt8.toNat_ofNat', UInt16.toNat_ofNat']
    omega
  · rintro ⟨hlen, rfl⟩
    obtain ⟨x, y, rfl⟩ := List.length_eq_two.mp hlen
    have hx := x.toNat_lt
    have hy := y.toNat_lt
    have hxy : (UInt16.ofNat (x.toNat * 256 + y.toNat)).toNat = x.toNat * 256 + y.toNat :=
      UInt16.toNat_ofNat_of_lt' (by show _ < 65536; omega)
    rw [encode16_eq, decodeNat_two, hxy]
    simp only [List.cons.injEq, and_true, ← UInt8.toNat_inj, UInt8.toNat_ofNat']
    omega

lemma encode32_iff {bytes : Bytes} {n : UInt32} :
    bytes = encode32 n ↔ bytes.length = 4 ∧ n = UInt32.ofNat (decodeNat bytes) := by
  constructor
  · rintro rfl
    refine ⟨rfl, ?_⟩
    have hn := n.toNat_lt
    apply UInt32.toNat_inj.mp
    rw [encode32_eq, decodeNat_four]
    simp only [UInt8.toNat_ofNat', UInt32.toNat_ofNat']
    omega
  · rintro ⟨hlen, rfl⟩
    match bytes, hlen with
    | [x, y, z, w], _ =>
      have hx := x.toNat_lt
      have hy := y.toNat_lt
      have hz := z.toNat_lt
      have hw := w.toNat_lt
      have hall : (UInt32.ofNat (((x.toNat * 256 + y.toNat) * 256 + z.toNat) * 256 +
          w.toNat)).toNat = ((x.toNat * 256 + y.toNat) * 256 + z.toNat) * 256 + w.toNat :=
        UInt32.toNat_ofNat_of_lt' (by show _ < 4294967296; omega)
      rw [encode32_eq, decodeNat_four, hall]
      simp only [List.cons.injEq, and_true, ← UInt8.toNat_inj, UInt8.toNat_ofNat']
      omega

namespace Read

lemma accepts_uint16 : uint16.Accepts fun bytes n => bytes = encode16 n :=
  ((accepts_take 2).bind fun _ => .pure _).congr fun bytes n => by
    rw [encode16_iff]
    simp

lemma accepts_uint32 : uint32.Accepts fun bytes n => bytes = encode32 n :=
  ((accepts_take 4).bind fun _ => .pure _).congr fun bytes n => by
    rw [encode32_iff]
    simp

lemma yields_uint16 (n : UInt16) : uint16.Yields (encode16 n) n := accepts_uint16.complete rfl

lemma yields_uint32 (n : UInt32) : uint32.Yields (encode32 n) n := accepts_uint32.complete rfl

lemma strict_uint16 : uint16.Strict := (strict_take 2).bind fun _ => .pure _

lemma strict_uint32 : uint32.Strict := (strict_take 4).bind fun _ => .pure _

end Read

end Nameserver

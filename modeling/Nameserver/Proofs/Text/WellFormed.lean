import Mathlib
import Nameserver.Proofs.Text.Parts
import Nameserver.Proofs.Text.Utf8

/-!
# What is read as a character

The other direction of reading UTF-8: if one step over some octets gives a character, then what it
passed over are the octets of that character (`Utf8.encodeChar_of_step`).

**Nothing replaced.**  Ill-formed octets are read as `U+FFFD`, and as nothing else.  So a text
without this character was read from its own octets, whatever they were
(`Utf8.encode_of_decodeLossy`).  A text with it is read from other octets as well (`Utf8.damaged`).

**Letters and dots.**  The octets below `80` stand for themselves in any sequence, well-formed or
not.  A dot is read only where its octet stands, and the letters `A` to `Z` may be turned into small
ones before reading as well as after it (`Utf8.decodeLossy_lower`).
-/

namespace Nameserver.Utf8

variable {b : UInt8} {low high : UInt8} {more n : Nat} {rest bytes : Bytes} {c : Char} {t : Text}

/-! ## The octets of a code point -/

lemma exists_offset {start : Nat} (hstart : start ≤ b.toNat) :
    ∃ n, b.toNat = start + n ∧ b = UInt8.ofNat (start + n) := by
  refine ⟨b.toNat - start, by omega, ?_⟩
  rw [Nat.add_sub_of_le hstart, UInt8.ofNat_toNat]

lemma encodeChar_ofNat (h : n.isValidChar) : encodeChar (Char.ofNat n) = encodePoint n := by
  rw [encodeChar, Char.toNat_ofNat, if_pos h]

variable {b₁ b₂ b₃ : UInt8}

/-- The octet continues a sequence, and carries six bits. -/
def IsTail (b : UInt8) : Prop := 0x80 ≤ b.toNat ∧ b.toNat ≤ 0xBF

lemma IsTail.exists_offset (h : IsTail b) :
    ∃ n < 64, b.toNat = 0x80 + n ∧ b = UInt8.ofNat (0x80 + n) := by
  obtain ⟨n, hn, hb⟩ := Utf8.exists_offset h.1
  have hlast := h.2
  exact ⟨n, by omega, hn, hb⟩

lemma encodeChar_two (hb : 0xC2 ≤ b.toNat) (hb' : b.toNat ≤ 0xDF) (h₁ : IsTail b₁) :
    encodeChar (Char.ofNat (b.toNat % 32 * 64 + b₁.toNat % 64)) = [b, b₁] := by
  have hstart : 0xC0 ≤ b.toNat := by omega
  obtain ⟨x, hx, heq⟩ := exists_offset hstart
  obtain ⟨y, hylt, hy, heq₁⟩ := h₁.exists_offset
  have hn : b.toNat % 32 * 64 + b₁.toNat % 64 = x * 64 + y := by omega
  have hhigh : (x * 64 + y) / 64 = x := by omega
  have hlow : (x * 64 + y) % 64 = y := by omega
  rw [hn, encodeChar_ofNat (.inl (by omega)), encodePoint, if_neg (by omega), if_pos (by omega),
    hhigh, hlow, ← heq, ← heq₁]

lemma encodeChar_three (hb : 0xE0 ≤ b.toNat) (hb' : b.toNat ≤ 0xEF) (h₁ : IsTail b₁)
    (h₂ : IsTail b₂) (hlong : b.toNat = 0xE0 → 0xA0 ≤ b₁.toNat)
    (hhalf : b.toNat = 0xED → b₁.toNat ≤ 0x9F) :
    encodeChar (Char.ofNat ((b.toNat % 16 * 64 + b₁.toNat % 64) * 64 + b₂.toNat % 64)) =
      [b, b₁, b₂] := by
  obtain ⟨x, hx, heq⟩ := exists_offset hb
  obtain ⟨y, hylt, hy, heq₁⟩ := h₁.exists_offset
  obtain ⟨z, hzlt, hz, heq₂⟩ := h₂.exists_offset
  have hn : (b.toNat % 16 * 64 + b₁.toNat % 64) * 64 + b₂.toNat % 64 = (x * 64 + y) * 64 + z := by
    omega
  have hhigh : ((x * 64 + y) * 64 + z) / 4096 = x := by omega
  have hmid : ((x * 64 + y) * 64 + z) / 64 % 64 = y := by omega
  have hlow : ((x * 64 + y) * 64 + z) % 64 = z := by omega
  have hvalid : ((x * 64 + y) * 64 + z).isValidChar := by
    unfold Nat.isValidChar
    omega
  rw [hn, encodeChar_ofNat hvalid, encodePoint, if_neg (by omega), if_neg (by omega),
    if_pos (by omega), hhigh, hmid, hlow, ← heq, ← heq₁, ← heq₂]

lemma encodeChar_four (hb : 0xF0 ≤ b.toNat) (hb' : b.toNat ≤ 0xF4) (h₁ : IsTail b₁)
    (h₂ : IsTail b₂) (h₃ : IsTail b₃) (hlong : b.toNat = 0xF0 → 0x90 ≤ b₁.toNat)
    (hlarge : b.toNat = 0xF4 → b₁.toNat ≤ 0x8F) :
    encodeChar (Char.ofNat
        (((b.toNat % 8 * 64 + b₁.toNat % 64) * 64 + b₂.toNat % 64) * 64 + b₃.toNat % 64)) =
      [b, b₁, b₂, b₃] := by
  obtain ⟨x, hx, heq⟩ := exists_offset hb
  obtain ⟨y, hylt, hy, heq₁⟩ := h₁.exists_offset
  obtain ⟨z, hzlt, hz, heq₂⟩ := h₂.exists_offset
  obtain ⟨w, hwlt, hw, heq₃⟩ := h₃.exists_offset
  have hn : ((b.toNat % 8 * 64 + b₁.toNat % 64) * 64 + b₂.toNat % 64) * 64 + b₃.toNat % 64 =
      ((x * 64 + y) * 64 + z) * 64 + w := by
    omega
  have hhigh : (((x * 64 + y) * 64 + z) * 64 + w) / 262144 = x := by omega
  have hupper : (((x * 64 + y) * 64 + z) * 64 + w) / 4096 % 64 = y := by omega
  have hmid : (((x * 64 + y) * 64 + z) * 64 + w) / 64 % 64 = z := by omega
  have hlow : (((x * 64 + y) * 64 + z) * 64 + w) % 64 = w := by omega
  have hvalid : (((x * 64 + y) * 64 + z) * 64 + w).isValidChar := by
    unfold Nat.isValidChar
    omega
  rw [hn, encodeChar_ofNat hvalid, encodePoint, if_neg (by omega), if_neg (by omega),
    if_neg (by omega), hhigh, hupper, hmid, hlow, ← heq, ← heq₁, ← heq₂, ← heq₃]

/-! ## One step -/

/-- What a first octet asks for leaves out overlong forms, halves of surrogate pairs, and code
points that are too large. -/
lemma range_of_lead? (h : lead? b = some (more, low, high)) :
    (more = 1 ∧ 0xC2 ≤ b.toNat ∧ b.toNat ≤ 0xDF ∧ low.toNat = 0x80 ∧ high.toNat = 0xBF) ∨
    (more = 2 ∧ 0xE0 ≤ b.toNat ∧ b.toNat ≤ 0xEF ∧ 0x80 ≤ low.toNat ∧ high.toNat ≤ 0xBF ∧
      (b.toNat = 0xE0 → 0xA0 ≤ low.toNat) ∧ (b.toNat = 0xED → high.toNat ≤ 0x9F)) ∨
    (more = 3 ∧ 0xF0 ≤ b.toNat ∧ b.toNat ≤ 0xF4 ∧ 0x80 ≤ low.toNat ∧ high.toNat ≤ 0xBF ∧
      (b.toNat = 0xF0 → 0x90 ≤ low.toNat) ∧ (b.toNat = 0xF4 → high.toNat ≤ 0x8F)) := by
  simp only [lead?, Bool.and_eq_true, decide_eq_true_eq, UInt8.le_iff_toNat_le, beq_iff_eq,
    ← UInt8.toNat_inj] at h
  split_ifs at h <;> cases h <;> simp_all [UInt8.toNat_ofNat] <;> omega

lemma continuation_eq_cons (h : (continuation (more + 1) low high rest).length = more + 1) :
    ∃ c rest', rest = c :: rest' ∧ low.toNat ≤ c.toNat ∧ c.toNat ≤ high.toNat ∧
      continuation (more + 1) low high rest = c :: continuation more 0x80 0xBF rest' ∧
      (continuation more 0x80 0xBF rest').length = more := by
  cases rest with
  | nil => simp [continuation] at h
  | cons c rest =>
      rw [continuation] at h
      split_ifs at h with hrange
      · simp only [Bool.and_eq_true, decide_eq_true_eq, UInt8.le_iff_toNat_le] at hrange
        refine ⟨c, rest, rfl, hrange.1, hrange.2, continuation_cons hrange.1 hrange.2, ?_⟩
        simpa using h

/-- The octets after a first octet that asks for them make a character together with it. -/
lemma encodeChar_continuation (hlead : lead? b = some (more, low, high))
    (hlength : (continuation more low high rest).length = more) :
    encodeChar (Char.ofNat ((continuation more low high rest).foldl
        (fun n c => n * 64 + c.toNat % 64) (leadBits more b))) = b :: rest.take more := by
  rcases range_of_lead? hlead with ⟨rfl, hb, hb', hlow, hhigh⟩ |
    ⟨rfl, hb, hb', hlow, hhigh, hlong, hhalf⟩ | ⟨rfl, hb, hb', hlow, hhigh, hlong, hlarge⟩
  · obtain ⟨b₁, rest, rfl, h₁, h₁', htail, -⟩ := continuation_eq_cons hlength
    rw [htail]
    exact encodeChar_two hb hb' ⟨by omega, by omega⟩
  · obtain ⟨b₁, rest, rfl, h₁, h₁', htail, hlength⟩ := continuation_eq_cons hlength
    obtain ⟨b₂, rest, rfl, h₂, h₂', htail₂, -⟩ := continuation_eq_cons hlength
    rw [htail, htail₂]
    exact encodeChar_three hb hb' ⟨by omega, by omega⟩ ⟨h₂, h₂'⟩ (by omega) (by omega)
  · obtain ⟨b₁, rest, rfl, h₁, h₁', htail, hlength⟩ := continuation_eq_cons hlength
    obtain ⟨b₂, rest, rfl, h₂, h₂', htail₂, hlength⟩ := continuation_eq_cons hlength
    obtain ⟨b₃, rest, rfl, h₃, h₃', htail₃, -⟩ := continuation_eq_cons hlength
    rw [htail, htail₂, htail₃]
    exact encodeChar_four hb hb' ⟨by omega, by omega⟩ ⟨h₂, h₂'⟩ ⟨h₃, h₃'⟩ (by omega) (by omega)

/-- What a step gives as a character are its octets. -/
theorem encodeChar_of_step (h : step b rest = (some c, n)) : encodeChar c = b :: rest.take n := by
  unfold step at h
  split_ifs at h with hascii
  · cases h
    have hlt : b.toNat < 0x80 := by simpa [UInt8.lt_iff_toNat_lt] using hascii
    rw [encodeChar_ofNat (.inl (by omega)), encodePoint, if_pos hlt, UInt8.ofNat_toNat]
    rfl
  · split at h
    · cases h
    · rename_i more low high hlead
      by_cases hlength : (continuation more low high rest).length = more
      · simp only [hlength, if_true, Prod.mk.injEq, Option.some.injEq] at h
        obtain ⟨rfl, rfl⟩ := h
        exact encodeChar_continuation hlead hlength
      · simp [hlength] at h

/-! ## Whole texts -/

/-- A text without a replacement character was read from its own octets. -/
theorem encode_of_decodeLossy (h : decodeLossy bytes = t) (hreplaced : '\uFFFD' ∉ t) :
    encode t = bytes := by
  induction hn : bytes.length using Nat.strong_induction_on generalizing bytes t with
  | _ n ih =>
    cases bytes with
    | nil =>
        subst h
        rfl
    | cons b rest =>
        rw [decodeLossy_cons] at h
        subst h
        rw [List.mem_cons, not_or] at hreplaced
        rcases hstep : step b rest with ⟨c?, n⟩
        rw [hstep] at hreplaced
        cases c? with
        | none => exact absurd rfl hreplaced.1
        | some c =>
            have hrest : encode (decodeLossy (rest.drop n)) = rest.drop n :=
              ih _ (by rw [← hn, List.length_drop, List.length_cons]; omega) rfl hreplaced.2 rfl
            rw [encode_cons, Option.getD_some, hrest, encodeChar_of_step hstep, List.cons_append,
              List.take_append_drop]

/-- Octets that a text is read from as well: those of its characters, but for each `U+FFFD` an octet
that starts no character. -/
def damaged (t : Text) : Bytes :=
  t.flatMap fun c => if c = '\uFFFD' then [0xFF] else encodeChar c

lemma damaged_cons (c : Char) (t : Text) :
    damaged (c :: t) = (if c = '\uFFFD' then [0xFF] else encodeChar c) ++ damaged t := rfl

lemma decodeLossy_damaged (t : Text) : decodeLossy (damaged t) = t := by
  induction t with
  | nil => rfl
  | cons c t ih =>
      rw [damaged_cons]
      split_ifs with hc
      · have hstep : step 0xFF (damaged t) = (none, 0) := rfl
        rw [List.singleton_append, decodeLossy_cons, hstep, List.drop_zero, ih, hc]
        rfl
      · rw [decodeLossy_encodeChar_append, ih]

lemma damaged_ne_nil (h : t ≠ []) : damaged t ≠ [] := by
  intro hnil
  apply h
  rw [← decodeLossy_damaged t, hnil]
  rfl

/-- Every `U+FFFD` would have taken three octets. -/
lemma length_damaged (t : Text) :
    (damaged t).length + 2 * t.count '\uFFFD' = (encode t).length := by
  induction t with
  | nil => rfl
  | cons c t ih =>
      rw [damaged_cons, encode_cons, List.length_append, List.length_append, List.count_cons, ← ih]
      by_cases hc : c = '\uFFFD'
      · have hoctets : (encodeChar c).length = 3 := by rw [hc]; rfl
        rw [if_pos hc, if_pos (by rw [hc]; rfl), hoctets, List.length_singleton]
        omega
      · rw [if_neg hc, if_neg (by simpa using hc)]
        omega

lemma mem_encode_of_mem_damaged (h : b ∈ damaged t) (hb : b ≠ 0xFF) : b ∈ encode t := by
  obtain ⟨c, hc, hmem⟩ := List.mem_flatMap.mp h
  split_ifs at hmem
  · exact absurd (List.mem_singleton.mp hmem) hb
  · exact List.mem_flatMap.mpr ⟨c, hc, hmem⟩

/-- A text was read from its own octets. -/
theorem encode_of_decode? (h : decode? bytes = some t) : encode t = bytes := by
  induction hn : bytes.length using Nat.strong_induction_on generalizing bytes t with
  | _ n ih =>
    cases bytes with
    | nil =>
        cases h
        rfl
    | cons b rest =>
        rcases hstep : step b rest with ⟨c?, n⟩
        rw [decode?, decodeAfter?, hstep] at h
        cases c? with
        | none => cases h
        | some c =>
            obtain ⟨t', ht', rfl⟩ := Option.map_eq_some_iff.mp h
            rw [decodeAfter?_eq_drop] at ht'
            have hrest : encode t' = rest.drop n :=
              ih _ (by rw [← hn, List.length_drop, List.length_cons]; omega) ht' rfl
            rw [encode_cons, hrest, encodeChar_of_step hstep, List.cons_append,
              List.take_append_drop]

lemma encode_injective : Function.Injective encode :=
  Function.LeftInverse.injective decodeLossy_encode

/-- Octets below `80` are each the octet of one character. -/
lemma encode_map_ofNat (h : ∀ b ∈ bytes, b.toNat < 0x80) :
    encode (bytes.map fun b => Char.ofNat b.toNat) = bytes := by
  induction bytes with
  | nil => rfl
  | cons b bytes ih =>
      obtain ⟨hb, hbytes⟩ := List.forall_mem_cons.mp h
      have hchar : encodeChar (Char.ofNat b.toNat) = [b] := by
        rw [encodeChar_ofNat (.inl (by omega)), encodePoint, if_pos hb, UInt8.ofNat_toNat]
      rw [List.map_cons, encode_cons, ih hbytes, hchar, List.singleton_append]

lemma length_encode_of_ascii (h : ∀ b ∈ encode t, b.toNat < 0x80) :
    (encode t).length = t.length := by
  have heq : (encode t).map (fun b => Char.ofNat b.toNat) = t :=
    encode_injective (encode_map_ofNat h)
  rw [← List.length_map, heq]

/-- A dot is read only where its octet stands. -/
lemma dot_not_mem_decodeLossy (h : 46 ∉ bytes) : '.' ∉ decodeLossy bytes := by
  induction hn : bytes.length using Nat.strong_induction_on generalizing bytes with
  | _ n ih =>
    cases bytes with
    | nil => simp [decodeLossy, decodeLossyAfter]
    | cons b rest =>
        rw [decodeLossy_cons, List.mem_cons, not_or]
        constructor
        · rcases hstep : step b rest with ⟨c?, n⟩
          cases c? with
          | none =>
              have hother : '.' ≠ '\uFFFD' := by decide
              exact hother
          | some c =>
              rintro rfl
              have hmem : (46 : UInt8) ∈ encodeChar '.' := by decide
              rw [encodeChar_of_step hstep] at hmem
              rcases List.mem_cons.mp hmem with heq | hmem
              · exact h (List.mem_cons.mpr (.inl heq))
              · exact h (List.mem_cons_of_mem _ (List.mem_of_mem_take hmem))
        · refine ih _ (by rw [← hn, List.length_drop, List.length_cons]; omega) ?_ rfl
          intro hdot
          exact h (List.mem_cons_of_mem _ (List.mem_of_mem_drop hdot))

/-! ## Lower case -/

/-- The octet with the letters `A` to `Z` turned into small ones. -/
def lowerOctet (b : UInt8) : UInt8 := if 65 ≤ b.toNat ∧ b.toNat ≤ 90 then b + 32 else b

lemma toNat_lowerOctet (b : UInt8) :
    (lowerOctet b).toNat = if 65 ≤ b.toNat ∧ b.toNat ≤ 90 then b.toNat + 32 else b.toNat := by
  unfold lowerOctet
  split_ifs with h
  · have hsum : (b + 32).toNat = (b.toNat + 32) % 2 ^ 8 := UInt8.toNat_add b 32
    omega
  · rfl

lemma lowerOctet_of_le (h : 0x80 ≤ b.toNat) : lowerOctet b = b := by
  rw [lowerOctet, if_neg (by omega)]

lemma toLower_of_le (h : 0x80 ≤ c.toNat) : c.toLower = c := by
  rw [← Char.toNat_inj, Text.toNat_toLower, if_neg (by omega)]

lemma toLower_ofNat (h : n < 0x80) :
    (Char.ofNat n).toLower.toNat = if 65 ≤ n ∧ n ≤ 90 then n + 32 else n := by
  have hvalid : n.isValidChar := .inl (by omega)
  rw [Text.toNat_toLower, Char.toNat_ofNat, if_pos hvalid]

lemma encodeChar_toLower (c : Char) : encodeChar c.toLower = (encodeChar c).map lowerOctet := by
  by_cases hc : c.toNat < 0x80
  · have hlower := Text.toNat_toLower c
    have hlt : c.toLower.toNat < 0x80 := by
      split_ifs at hlower <;> omega
    have hb : (UInt8.ofNat c.toNat).toNat = c.toNat := toNat_ofNat_of_lt (by omega)
    rw [encodeChar, encodeChar, encodePoint, encodePoint, if_pos hc, if_pos hlt, List.map_singleton,
      List.singleton_inj, ← UInt8.toNat_inj, toNat_lowerOctet, hb, toNat_ofNat_of_lt (by omega),
      hlower]
  · have hvalid : c.toNat < 0xD800 ∨ (0xDFFF < c.toNat ∧ c.toNat < 0x110000) := c.valid
    rw [toLower_of_le (Nat.not_lt.mp hc)]
    refine ((List.map_congr_left fun b hb => ?_).trans (List.map_id _)).symm
    exact lowerOctet_of_le (le_toNat_of_mem_encodePoint (Nat.not_lt.mp hc) (by omega) hb)

/-- Letters may be turned into small ones before writing or after it. -/
lemma encode_lower (t : Text) : encode t.lower = (encode t).map lowerOctet := by
  induction t with
  | nil => rfl
  | cons c t ih =>
      rw [encode_cons, List.map_append, ← ih, ← encodeChar_toLower]
      rfl

lemma continuation_lower (hlow : 0x80 ≤ low.toNat) :
    continuation more low high (rest.map lowerOctet) = continuation more low high rest := by
  induction rest generalizing more low high with
  | nil => rfl
  | cons b rest ih =>
      cases more with
      | zero => rfl
      | succ more =>
          rw [List.map_cons, continuation, continuation, ih (by decide)]
          by_cases hb : 0x80 ≤ b.toNat
          · rw [lowerOctet_of_le hb]
          · have hlower := toNat_lowerOctet b
            have hout : ¬ low.toNat ≤ b.toNat := by omega
            have hout' : ¬ low.toNat ≤ (lowerOctet b).toNat := by
              split_ifs at hlower <;> omega
            simp [UInt8.le_iff_toNat_le, hout, hout']

lemma step_lower (b : UInt8) (rest : Bytes) :
    step (lowerOctet b) (rest.map lowerOctet) =
      ((step b rest).1.map Char.toLower, (step b rest).2) := by
  by_cases hb : b.toNat < 0x80
  · have hlower := toNat_lowerOctet b
    have hlt : (lowerOctet b).toNat < 0x80 := by
      split_ifs at hlower <;> omega
    have hascii : b < 0x80 := UInt8.lt_iff_toNat_lt.mpr hb
    have hascii' : lowerOctet b < 0x80 := UInt8.lt_iff_toNat_lt.mpr hlt
    rw [step, step, if_pos hascii, if_pos hascii', Option.map_some, Prod.mk.injEq,
      Option.some.injEq, ← Char.toNat_inj, toLower_ofNat hb, Char.toNat_ofNat,
      if_pos (.inl (by omega)), hlower]
    exact ⟨rfl, rfl⟩
  · have hle := Nat.not_lt.mp hb
    have hsame : step b (rest.map lowerOctet) = step b rest := by
      simp only [step]
      cases hlead : lead? b with
      | none => rfl
      | some asked =>
          obtain ⟨more, low, high⟩ := asked
          have hlow : 0x80 ≤ low.toNat := by
            rcases range_of_lead? hlead with h | h | h <;> omega
          simp only [continuation_lower hlow]
    rw [lowerOctet_of_le hle, hsame]
    rcases hstep : step b rest with ⟨c?, n⟩
    cases c? with
    | none => rfl
    | some c =>
        have hc : 0x80 ≤ c.toNat := by
          by_contra hlt
          have hb' : (UInt8.ofNat c.toNat).toNat = c.toNat := toNat_ofNat_of_lt (by omega)
          have hoctets := encodeChar_of_step hstep
          rw [encodeChar, encodePoint, if_pos (by omega), List.cons.injEq] at hoctets
          rw [← hoctets.1, hb'] at hle
          exact hlt hle
        rw [Option.map_some, toLower_of_le hc]

/-- Letters may be turned into small ones before reading or after it. -/
theorem decodeLossy_lower (bytes : Bytes) :
    decodeLossy (bytes.map lowerOctet) = (decodeLossy bytes).lower := by
  induction hn : bytes.length using Nat.strong_induction_on generalizing bytes with
  | _ n ih =>
    cases bytes with
    | nil => rfl
    | cons b rest =>
        have hrest := ih _ (by rw [← hn, List.length_drop, List.length_cons]; omega)
          (rest.drop (step b rest).2) rfl
        rw [List.map_cons, decodeLossy_cons, step_lower, decodeLossy_cons, ← List.map_drop, hrest]
        cases (step b rest).1 with
        | none => rfl
        | some c => rfl

end Nameserver.Utf8

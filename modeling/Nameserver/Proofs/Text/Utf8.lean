import Mathlib
import Nameserver.Text.Utf8

/-!
# Reading back what was written as UTF-8

Every text comes back from its octets, by the reader that replaces as well as by the strict one
(`Utf8.decodeLossy_encode`, `Utf8.decode?_encode`).  Both follow from `Utf8.step_encodeChar`: one
step over the octets of a character gives that character and passes over all of its octets.

**Narrow ranges.**  A first octet of `E0`, `ED`, `F0` or `F4` leaves only a part of the continuation
octets for the second place.  The code points of characters stay inside these parts, since they are
not overlong, no halves of surrogate pairs, and at most `U+10FFFF`.
-/

namespace Nameserver.Utf8

variable {b : UInt8} {low high : UInt8} {more n : Nat} {rest : Bytes}

/-! ## One step -/

lemma toNat_ofNat_of_lt (h : n < 256) : (UInt8.ofNat n).toNat = n := UInt8.toNat_ofNat_of_lt' h

lemma continuation_cons (hlow : low.toNat ≤ b.toNat) (hhigh : b.toNat ≤ high.toNat) :
    continuation (more + 1) low high (b :: rest) = b :: continuation more 0x80 0xBF rest := by
  have hrange : (decide (low ≤ b) && decide (b ≤ high)) = true := by
    simp [UInt8.le_iff_toNat_le, hlow, hhigh]
  rw [continuation, if_pos hrange]

lemma continuation_tail (h : n < 64) :
    continuation (more + 1) 0x80 0xBF (UInt8.ofNat (0x80 + n) :: rest) =
      UInt8.ofNat (0x80 + n) :: continuation more 0x80 0xBF rest := by
  have hb : (UInt8.ofNat (0x80 + n)).toNat = 0x80 + n := toNat_ofNat_of_lt (by omega)
  apply continuation_cons
  · rw [hb]
    exact Nat.le_add_right _ _
  · rw [hb]
    show 0x80 + n ≤ 0xBF
    omega

/-- What is passed over after a first octet that asks for `tail`. -/
lemma step_of_lead? {tail : Bytes} (hb : 0x80 ≤ b.toNat)
    (hlead : lead? b = some (tail.length, low, high))
    (htail : continuation tail.length low high (tail ++ rest) = tail) :
    step b (tail ++ rest) =
      (some (Char.ofNat (tail.foldl (fun n c => n * 64 + c.toNat % 64) (leadBits tail.length b))),
        tail.length) := by
  have hnot : ¬ b < 0x80 := by
    rw [UInt8.lt_iff_toNat_lt]
    exact Nat.not_lt.mpr hb
  simp only [step, if_neg hnot, hlead, htail, if_true]

lemma lead?_two (h : n < 32) (hn : 2 ≤ n) :
    lead? (UInt8.ofNat (0xC0 + n)) = some (1, 0x80, 0xBF) := by
  interval_cases n <;> rfl

lemma lead?_three (h : n < 16) {k : Nat} (hk : k < 64) (hlong : n = 0 → 32 ≤ k)
    (hhalf : n = 13 → k < 32) :
    ∃ low high, lead? (UInt8.ofNat (0xE0 + n)) = some (2, low, high) ∧
      low.toNat ≤ 0x80 + k ∧ 0x80 + k ≤ high.toNat := by
  by_cases h₀ : n = 0
  · refine ⟨0xA0, 0xBF, by rw [h₀]; rfl, ?_, ?_⟩
    · show 0xA0 ≤ 0x80 + k
      have := hlong h₀
      omega
    · show 0x80 + k ≤ 0xBF
      omega
  · by_cases h₁₃ : n = 13
    · refine ⟨0x80, 0x9F, by rw [h₁₃]; rfl, Nat.le_add_right _ _, ?_⟩
      show 0x80 + k ≤ 0x9F
      have := hhalf h₁₃
      omega
    · refine ⟨0x80, 0xBF, ?_, Nat.le_add_right _ _, ?_⟩
      · interval_cases n <;> first | rfl | contradiction
      · show 0x80 + k ≤ 0xBF
        omega

lemma lead?_four (h : n < 5) {k : Nat} (hk : k < 64) (hlong : n = 0 → 16 ≤ k)
    (hlast : n = 4 → k < 16) :
    ∃ low high, lead? (UInt8.ofNat (0xF0 + n)) = some (3, low, high) ∧
      low.toNat ≤ 0x80 + k ∧ 0x80 + k ≤ high.toNat := by
  by_cases h₀ : n = 0
  · refine ⟨0x90, 0xBF, by rw [h₀]; rfl, ?_, ?_⟩
    · show 0x90 ≤ 0x80 + k
      have := hlong h₀
      omega
    · show 0x80 + k ≤ 0xBF
      omega
  · by_cases h₄ : n = 4
    · refine ⟨0x80, 0x8F, by rw [h₄]; rfl, Nat.le_add_right _ _, ?_⟩
      show 0x80 + k ≤ 0x8F
      have := hlast h₄
      omega
    · refine ⟨0x80, 0xBF, ?_, Nat.le_add_right _ _, ?_⟩
      · interval_cases n <;> first | rfl | contradiction
      · show 0x80 + k ≤ 0xBF
        omega

/-- The octets of a character are read in one step. -/
theorem step_encodeChar (c : Char) (rest : Bytes) :
    ∃ b tail, encodeChar c = b :: tail ∧ step b (tail ++ rest) = (some c, tail.length) := by
  have hvalid : c.toNat < 0xD800 ∨ (0xDFFF < c.toNat ∧ c.toNat < 0x110000) := c.valid
  have hchar : Char.ofNat c.toNat = c := Char.ofNat_toNat c
  unfold encodeChar
  generalize c.toNat = n at hvalid hchar
  unfold encodePoint
  split_ifs with h₁ h₂ h₃
  case pos =>
    have hn : (UInt8.ofNat n).toNat = n := toNat_ofNat_of_lt (by omega)
    have hlt : UInt8.ofNat n < 0x80 := by
      rw [UInt8.lt_iff_toNat_lt, hn]
      exact h₁
    refine ⟨_, [], rfl, ?_⟩
    simp [step, hlt, hn, hchar]
  case pos =>
    have hb : (UInt8.ofNat (0xC0 + n / 64)).toNat = 0xC0 + n / 64 := toNat_ofNat_of_lt (by omega)
    refine ⟨_, [UInt8.ofNat (0x80 + n % 64)], rfl, ?_⟩
    rw [step_of_lead? (by omega) (lead?_two (by omega) (by omega))]
    · have hc : (UInt8.ofNat (0x80 + n % 64)).toNat = 0x80 + n % 64 := toNat_ofNat_of_lt (by omega)
      have hsum : (0xC0 + n / 64) % 32 * 64 + (0x80 + n % 64) % 64 = n := by omega
      simp only [List.foldl_cons, List.foldl_nil, List.length_singleton, leadBits, hb, hc, hsum,
        hchar]
    · exact continuation_tail (by omega)
  case pos =>
    have hb : (UInt8.ofNat (0xE0 + n / 4096)).toNat = 0xE0 + n / 4096 :=
      toNat_ofNat_of_lt (by omega)
    have hc : (UInt8.ofNat (0x80 + n / 64 % 64)).toNat = 0x80 + n / 64 % 64 :=
      toNat_ofNat_of_lt (by omega)
    have hd : (UInt8.ofNat (0x80 + n % 64)).toNat = 0x80 + n % 64 := toNat_ofNat_of_lt (by omega)
    obtain ⟨low, high, hlead, hlow, hhigh⟩ :=
      lead?_three (n := n / 4096) (k := n / 64 % 64) (by omega) (by omega) (by omega) (by omega)
    refine ⟨_, [UInt8.ofNat (0x80 + n / 64 % 64), UInt8.ofNat (0x80 + n % 64)], rfl, ?_⟩
    rw [step_of_lead? (by omega) hlead]
    · have hsum : ((0xE0 + n / 4096) % 16 * 64 + (0x80 + n / 64 % 64) % 64) * 64 +
          (0x80 + n % 64) % 64 = n := by omega
      simp only [List.foldl_cons, List.foldl_nil, List.length_cons, List.length_nil, leadBits, hb,
        hc, hd, hsum, hchar]
    · exact (continuation_cons (by omega) (by omega)).trans
        (congrArg _ (continuation_tail (by omega)))
  case neg =>
    have hb : (UInt8.ofNat (0xF0 + n / 262144)).toNat = 0xF0 + n / 262144 :=
      toNat_ofNat_of_lt (by omega)
    have hc : (UInt8.ofNat (0x80 + n / 4096 % 64)).toNat = 0x80 + n / 4096 % 64 :=
      toNat_ofNat_of_lt (by omega)
    have hd : (UInt8.ofNat (0x80 + n / 64 % 64)).toNat = 0x80 + n / 64 % 64 :=
      toNat_ofNat_of_lt (by omega)
    have he : (UInt8.ofNat (0x80 + n % 64)).toNat = 0x80 + n % 64 := toNat_ofNat_of_lt (by omega)
    obtain ⟨low, high, hlead, hlow, hhigh⟩ :=
      lead?_four (n := n / 262144) (k := n / 4096 % 64) (by omega) (by omega) (by omega) (by omega)
    refine ⟨_, [UInt8.ofNat (0x80 + n / 4096 % 64), UInt8.ofNat (0x80 + n / 64 % 64),
      UInt8.ofNat (0x80 + n % 64)], rfl, ?_⟩
    rw [step_of_lead? (by omega) hlead]
    · have hsum : (((0xF0 + n / 262144) % 8 * 64 + (0x80 + n / 4096 % 64) % 64) * 64 +
          (0x80 + n / 64 % 64) % 64) * 64 + (0x80 + n % 64) % 64 = n := by omega
      simp only [List.foldl_cons, List.foldl_nil, List.length_cons, List.length_nil, leadBits, hb,
        hc, hd, he, hsum, hchar]
    · rw [List.length_cons, List.length_cons, List.cons_append,
        continuation_cons (by omega) (by omega), List.length_singleton, List.cons_append,
        continuation_tail (by omega), List.singleton_append, continuation_tail (by omega)]
      rfl

/-- The octets of a code point above `7F` are above it themselves. -/
lemma le_toNat_of_mem_encodePoint (hn : 0x80 ≤ n) (hlt : n < 0x110000) (h : b ∈ encodePoint n) :
    0x80 ≤ b.toNat := by
  have hoctet : ∀ k, k < 0x80 → b = UInt8.ofNat (0x80 + k) → 0x80 ≤ b.toNat := by
    intro k hk heq
    rw [heq, toNat_ofNat_of_lt (by omega)]
    exact Nat.le_add_right _ _
  unfold encodePoint at h
  split_ifs at h with h₁ h₂ h₃
  · omega
  · simp only [List.mem_cons, List.not_mem_nil, or_false] at h
    rcases h with h | h
    · exact hoctet (0x40 + n / 64) (by omega) (by rw [h, ← Nat.add_assoc])
    · exact hoctet _ (by omega) h
  · simp only [List.mem_cons, List.not_mem_nil, or_false] at h
    rcases h with h | h | h
    · exact hoctet (0x60 + n / 4096) (by omega) (by rw [h, ← Nat.add_assoc])
    · exact hoctet _ (by omega) h
    · exact hoctet _ (by omega) h
  · simp only [List.mem_cons, List.not_mem_nil, or_false] at h
    rcases h with h | h | h | h
    · exact hoctet (0x70 + n / 262144) (by omega) (by rw [h, ← Nat.add_assoc])
    · exact hoctet _ (by omega) h
    · exact hoctet _ (by omega) h
    · exact hoctet _ (by omega) h

/-- An octet below `80` stands for itself, and for nothing else. -/
lemma mem_encodeChar_iff {c : Char} (hb : b.toNat < 0x80) :
    b ∈ encodeChar c ↔ c.toNat = b.toNat := by
  have hvalid : c.toNat < 0xD800 ∨ (0xDFFF < c.toNat ∧ c.toNat < 0x110000) := c.valid
  unfold encodeChar
  by_cases hc : c.toNat < 0x80
  · rw [encodePoint, if_pos hc, List.mem_singleton, ← UInt8.toNat_inj,
      toNat_ofNat_of_lt (by omega), eq_comm]
  · constructor
    · intro hmem
      have hle := le_toNat_of_mem_encodePoint (Nat.not_lt.mp hc) (by omega) hmem
      omega
    · intro heq
      omega

/-! ## Whole texts -/

@[simp] lemma encode_nil : encode [] = [] := rfl

@[simp] lemma encode_cons (c : Char) (t : Text) : encode (c :: t) = encodeChar c ++ encode t := rfl

/-- A dot is written as the octet of a dot, and as no part of anything else. -/
lemma dot_mem_encode_iff {t : Text} : 46 ∈ encode t ↔ '.' ∈ t := by
  induction t with
  | nil => simp
  | cons c t ih =>
      have hc : 46 ∈ encodeChar c ↔ '.' = c := by
        rw [mem_encodeChar_iff (by decide)]
        constructor
        · intro h
          exact Char.ext (UInt32.toNat_inj.mp h.symm)
        · rintro rfl
          rfl
      rw [encode_cons, List.mem_append, hc, ih, List.mem_cons]

lemma encode_eq_nil {t : Text} : encode t = [] ↔ t = [] := by
  cases t with
  | nil => simp
  | cons c t =>
      obtain ⟨b, tail, hc, -⟩ := step_encodeChar c []
      simp [hc]

@[simp] lemma encode_append (t u : Text) : encode (t ++ u) = encode t ++ encode u :=
  List.flatMap_append

lemma decodeAfter?_eq_drop (skip : Nat) (bytes : Bytes) :
    decodeAfter? skip bytes = decode? (bytes.drop skip) := by
  induction bytes generalizing skip with
  | nil => cases skip <;> rfl
  | cons b rest ih =>
      cases skip with
      | zero => rfl
      | succ skip => simpa [decodeAfter?] using ih skip

lemma decodeLossy_cons (b : UInt8) (rest : Bytes) :
    decodeLossy (b :: rest) =
      (step b rest).1.getD '\uFFFD' :: decodeLossy (rest.drop (step b rest).2) := by
  rw [decodeLossy, decodeLossyAfter, decodeLossyAfter_eq_drop]

/-- A character is read from its octets, whatever follows. -/
lemma decodeLossy_encodeChar_append (c : Char) (rest : Bytes) :
    decodeLossy (encodeChar c ++ rest) = c :: decodeLossy rest := by
  obtain ⟨b, tail, hc, hstep⟩ := step_encodeChar c rest
  rw [hc, List.cons_append, decodeLossy_cons, hstep, Option.getD_some, List.drop_left]

/-- A text comes back from its octets. -/
theorem decodeLossy_encode (t : Text) : decodeLossy (encode t) = t := by
  induction t with
  | nil => rfl
  | cons c t ih => rw [encode_cons, decodeLossy_encodeChar_append, ih]

/-- A text comes back from its octets, by the strict reader too. -/
theorem decode?_encode (t : Text) : decode? (encode t) = some t := by
  induction t with
  | nil => rfl
  | cons c t ih =>
      obtain ⟨b, tail, hc, hstep⟩ := step_encodeChar c (encode t)
      rw [encode_cons, hc, List.cons_append, decode?, decodeAfter?, hstep]
      show (decodeAfter? tail.length (tail ++ encode t)).map (c :: ·) = some (c :: t)
      rw [decodeAfter?_eq_drop, List.drop_left, ih]
      rfl

end Nameserver.Utf8

import Mathlib
import Nameserver.Proofs.Text.WellFormed
import Nameserver.Text.Base64

/-!
# Spellings in base64

What a base64 text is can be said without groups of characters: they stand for the bits of the
octets, six bits each, and the last of them may be followed by zeros (`Base64.Spells`).  The codec
works on groups of three octets.  `Base64.decode?_eq_some_iff` says that it reads the spellings and
nothing else, for every alphabet whose characters can be told apart (`Variant.IsClear`).

**Digits.**  The four digits of a group are the 24 bits of its octets, regrouped (`bits_append`).
A last group of one or two octets is short of bits, and the reader insists that those it makes up
are zeros.

**One spelling for each value.**  The zeros at the end are as few as complete the last digit, so the
octets alone decide on the text (`Spells.text_unique`).
-/

namespace Nameserver.Base64

variable {v : Variant} {text text' octets octets' : Bytes} {m n width : Nat}

/-! ## Bits -/

/-- The lowest bits of a number, as many as `width`, with the highest of them in front. -/
def bits : (width n : Nat) → List Bool
  | 0, _ => []
  | width + 1, n => n.testBit width :: bits width n

@[simp] lemma length_bits (width n : Nat) : (bits width n).length = width := by
  induction width with
  | zero => rfl
  | succ width ih => rw [bits, List.length_cons, ih]

lemma bits_eq_bits_iff :
    bits width m = bits width n ↔ ∀ i < width, m.testBit i = n.testBit i := by
  induction width with
  | zero => simp [bits]
  | succ width ih => rw [bits, bits, List.cons.injEq, ih, Nat.forall_lt_succ_right, and_comm]

lemma eq_of_bits_eq (hm : m < 2 ^ width) (hn : n < 2 ^ width) (h : bits width m = bits width n) :
    m = n := by
  apply Nat.eq_of_testBit_eq
  intro i
  by_cases hi : i < width
  · exact bits_eq_bits_iff.mp h i hi
  · have hle : 2 ^ width ≤ 2 ^ i := Nat.pow_le_pow_right (by decide) (Nat.not_lt.mp hi)
    rw [Nat.testBit_lt_two_pow (hm.trans_le hle), Nat.testBit_lt_two_pow (hn.trans_le hle)]

/-- The bits of a number are those of its upper part and of its lower part. -/
lemma bits_append (width more m : Nat) (hn : n < 2 ^ more) :
    bits (width + more) (m * 2 ^ more + n) = bits width m ++ bits more n := by
  rw [Nat.mul_comm m]
  induction width with
  | zero =>
      rw [Nat.zero_add, bits, List.nil_append, bits_eq_bits_iff]
      intro i hi
      rw [Nat.testBit_two_pow_mul_add m hn, if_pos hi]
  | succ width ih =>
      have hbit : (2 ^ more * m + n).testBit (width + more) = m.testBit width := by
        rw [Nat.testBit_two_pow_mul_add m hn, if_neg (by omega), Nat.add_sub_cancel]
      rw [Nat.succ_add, bits, bits, hbit, ih, List.cons_append]

/-- Digits of six bits can be told from their bits. -/
lemma eq_of_flatMap_bits_eq {digits digits' : List Nat} (h₁ : ∀ d ∈ digits, d < 64)
    (h₂ : ∀ d ∈ digits', d < 64) (h : digits.flatMap (bits 6) = digits'.flatMap (bits 6)) :
    digits = digits' := by
  induction digits generalizing digits' with
  | nil =>
      cases digits' with
      | nil => rfl
      | cons d' digits' => simp [bits] at h
  | cons d digits ih =>
      obtain ⟨hd, h₁⟩ := List.forall_mem_cons.mp h₁
      cases digits' with
      | nil => simp [bits] at h
      | cons d' digits' =>
          obtain ⟨hd', h₂⟩ := List.forall_mem_cons.mp h₂
          rw [List.flatMap_cons, List.flatMap_cons] at h
          obtain ⟨hfirst, hrest⟩ := List.append_inj h (by simp)
          rw [eq_of_bits_eq hd hd' hfirst, ih h₁ h₂ hrest]

lemma length_flatMap_bits {α : Type} (width : Nat) (number : α → Nat) (items : List α) :
    (items.flatMap fun a => bits width (number a)).length = width * items.length := by
  simp [List.length_flatMap, Nat.mul_comm]

/-! ## What a text spells -/

/-- The characters that all variants have in common. -/
def letters : Bytes :=
  Utf8.encode "ABCDEFGHIJKLMNOPQRSTUVWXYZabcdefghijklmnopqrstuvwxyz0123456789".toList

/-- The characters in the order of the numbers that they stand for. -/
def alphabet (v : Variant) : Bytes := letters ++ [v.last.1, v.last.2]

/-- How many fillers stand behind a number of characters. -/
def Variant.fill (v : Variant) (n : Nat) : Nat := if v.padded then (4 - n % 4) % 4 else 0

/-- The characters of the text stand for the bits of the octets, and for as many zeros behind them
as complete the last character. -/
def Spells (v : Variant) (text octets : Bytes) : Prop :=
  ∃ digits : List Nat, (∀ d ∈ digits, d < 64) ∧
    (∃ zeros < 6, digits.flatMap (bits 6) =
      octets.flatMap (fun b => bits 8 b.toNat) ++ List.replicate zeros false) ∧
    text = digits.map (fun d => (alphabet v)[d]?.getD 0) ++
      List.replicate (v.fill digits.length) pad

lemma length_of_bits_eq {digits : List Nat} {zeros : Nat}
    (h : digits.flatMap (bits 6) =
      octets.flatMap (fun b => bits 8 b.toNat) ++ List.replicate zeros false) :
    6 * digits.length = 8 * octets.length + zeros := by
  have hlen := congrArg List.length h
  rwa [List.length_append, List.length_replicate, length_flatMap_bits, length_flatMap_bits] at hlen

/-- The octets decide on the text. -/
lemma Spells.text_unique (h : Spells v text octets) (h' : Spells v text' octets) :
    text = text' := by
  obtain ⟨digits, hdigits, ⟨zeros, hzeros, hbits⟩, rfl⟩ := h
  obtain ⟨digits', hdigits', ⟨zeros', hzeros', hbits'⟩, rfl⟩ := h'
  have hsame : zeros = zeros' := by
    have hlen := length_of_bits_eq hbits
    have hlen' := length_of_bits_eq hbits'
    omega
  rw [eq_of_flatMap_bits_eq hdigits hdigits' (by rw [hbits, hbits', hsame])]

/-! ## Characters -/

/-- The characters can be told apart, and none of them is the filler. -/
structure Variant.IsClear (v : Variant) : Prop where
  digit?_character : ∀ n < 64, digit? v (character v n) = some n
  digit?_pad : digit? v pad = none
  /-- The characters that a variant chooses are ASCII, as all others are. -/
  ascii : v.last.1 < 0x80 ∧ v.last.2 < 0x80

lemma isClear_standard : standard.IsClear where
  digit?_character := by decide
  digit?_pad := by decide
  ascii := by decide

lemma isClear_urlSafe : urlSafe.IsClear where
  digit?_character := by decide
  digit?_pad := by decide
  ascii := by decide

lemma Variant.IsClear.character_ne_pad (hv : v.IsClear) (hn : n < 64) : character v n ≠ pad := by
  intro h
  have hdigit := hv.digit?_character n hn
  rw [h, hv.digit?_pad] at hdigit
  cases hdigit

/-- What is read as a digit is the character of that digit. -/
lemma character_of_digit? {b : UInt8} (h : digit? v b = some n) : n < 64 ∧ character v n = b := by
  simp only [digit?, Bool.and_eq_true, decide_eq_true_eq, UInt8.le_iff_toNat_le, beq_iff_eq] at h
  split_ifs at h with hupper hlower hfigure hfirst hsecond
  case pos =>
    have hle : 65 ≤ b.toNat := hupper.1
    have hge : b.toNat ≤ 90 := hupper.2
    cases h
    refine ⟨by omega, ?_⟩
    rw [character, if_pos (by omega), Nat.sub_add_cancel hle, UInt8.ofNat_toNat]
  case pos =>
    have hle : 97 ≤ b.toNat := hlower.1
    have hge : b.toNat ≤ 122 := hlower.2
    cases h
    refine ⟨by omega, ?_⟩
    rw [character, if_neg (by omega), if_pos (by omega), Nat.sub_add_cancel (by omega),
      UInt8.ofNat_toNat]
  case pos =>
    have hle : 48 ≤ b.toNat := hfigure.1
    have hge : b.toNat ≤ 57 := hfigure.2
    cases h
    refine ⟨by omega, ?_⟩
    rw [character, if_neg (by omega), if_neg (by omega), if_pos (by omega), Nat.add_sub_cancel,
      UInt8.ofNat_toNat]
  case pos =>
    cases h
    exact ⟨by decide, hfirst.symm⟩
  case pos =>
    cases h
    exact ⟨by decide, hsecond.symm⟩

lemma getD_alphabet (v : Variant) (hn : n < 64) : (alphabet v)[n]?.getD 0 = character v n := by
  interval_cases n <;> rfl

/-! ## Reading and writing groups -/

lemma encode_of_lastOne? {p q : UInt8} (h : lastOne? v p q = some octets) :
    encode v octets = [p, q] ++ if v.padded then [pad, pad] else [] := by
  simp only [lastOne?, Option.bind_eq_bind, Option.bind_eq_some_iff, Option.ite_none_right_eq_some,
    Option.some.injEq] at h
  obtain ⟨x, hx, y, hy, hzeros, rfl⟩ := h
  obtain ⟨hxlt, rfl⟩ := character_of_digit? hx
  obtain ⟨hylt, rfl⟩ := character_of_digit? hy
  have ha : (UInt8.ofNat ((x * 64 + y) / 16)).toNat = (x * 64 + y) / 16 :=
    Utf8.toNat_ofNat_of_lt (by omega)
  have hfirst : (x * 64 + y) / 16 * 16 / 64 = x := by omega
  have hsecond : (x * 64 + y) / 16 * 16 % 64 = y := by omega
  simp only [encode, ha, hfirst, hsecond]

lemma encode_of_lastTwo? {p q r : UInt8} (h : lastTwo? v p q r = some octets) :
    encode v octets = [p, q, r] ++ if v.padded then [pad] else [] := by
  simp only [lastTwo?, Option.bind_eq_bind, Option.bind_eq_some_iff, Option.ite_none_right_eq_some,
    Option.some.injEq] at h
  obtain ⟨x, hx, y, hy, z, hz, hzeros, rfl⟩ := h
  obtain ⟨hxlt, rfl⟩ := character_of_digit? hx
  obtain ⟨hylt, rfl⟩ := character_of_digit? hy
  obtain ⟨hzlt, rfl⟩ := character_of_digit? hz
  have ha : (UInt8.ofNat (((x * 64 + y) * 64 + z) / 1024)).toNat = ((x * 64 + y) * 64 + z) / 1024 :=
    Utf8.toNat_ofNat_of_lt (by omega)
  have hb : (UInt8.ofNat (((x * 64 + y) * 64 + z) / 4)).toNat =
      ((x * 64 + y) * 64 + z) / 4 % 256 := UInt8.toNat_ofNat'
  have hwhole : (((x * 64 + y) * 64 + z) / 1024 * 256 + ((x * 64 + y) * 64 + z) / 4 % 256) * 4 =
      (x * 64 + y) * 64 + z := by omega
  have hfirst : ((x * 64 + y) * 64 + z) / 4096 = x := by omega
  have hsecond : ((x * 64 + y) * 64 + z) / 64 % 64 = y := by omega
  have hthird : ((x * 64 + y) * 64 + z) % 64 = z := by omega
  simp only [encode, ha, hb, hwhole, hfirst, hsecond, hthird]

/-- Three octets are written as the four digits that they were read from. -/
lemma encode_of_digits {w x y z : Nat} (hw : w < 64) (hx : x < 64) (hy : y < 64) (hz : z < 64)
    (octets : Bytes) :
    let n := ((w * 64 + x) * 64 + y) * 64 + z
    encode v (UInt8.ofNat (n / 65536) :: UInt8.ofNat (n / 256) :: UInt8.ofNat n :: octets) =
      character v w :: character v x :: character v y :: character v z :: encode v octets := by
  intro n
  have ha : (UInt8.ofNat (n / 65536)).toNat = n / 65536 := Utf8.toNat_ofNat_of_lt (by omega)
  have hb : (UInt8.ofNat (n / 256)).toNat = n / 256 % 256 := UInt8.toNat_ofNat'
  have hc : (UInt8.ofNat n).toNat = n % 256 := UInt8.toNat_ofNat'
  have hwhole : (n / 65536 * 256 + n / 256 % 256) * 256 + n % 256 = n := by omega
  have hfirst : n / 262144 = w := by omega
  have hsecond : n / 4096 % 64 = x := by omega
  have hthird : n / 64 % 64 = y := by omega
  have hfourth : n % 64 = z := by omega
  simp only [encode, ha, hb, hc, hwhole, hfirst, hsecond, hthird, hfourth]

/-- What is read is written again as it was. -/
theorem eq_encode_of_decode? (h : decode? v text = some octets) : text = encode v octets := by
  fun_induction decode? v text generalizing octets with
  | case1 =>
      cases h
      rfl
  | case2 | case3 | case5 => cases h
  | case4 p q hpadded =>
      rw [encode_of_lastOne? h, if_neg hpadded, List.append_nil]
  | case6 p q r hpadded =>
      rw [encode_of_lastTwo? h, if_neg hpadded, List.append_nil]
  | case7 p q r s rest hlast hone =>
      simp only [Bool.and_eq_true, beq_iff_eq, List.isEmpty_iff] at hlast hone
      obtain ⟨⟨hpadded, rfl⟩, rfl⟩ := hlast
      rw [encode_of_lastOne? h, if_pos hpadded, hone]
      rfl
  | case8 p q r s rest hlast hone =>
      simp only [Bool.and_eq_true, beq_iff_eq, List.isEmpty_iff] at hlast
      obtain ⟨⟨hpadded, rfl⟩, rfl⟩ := hlast
      rw [encode_of_lastTwo? h, if_pos hpadded]
      rfl
  | case9 p q r s rest hlast ih =>
      simp only [Option.bind_eq_bind, Option.bind_eq_some_iff, Option.some.injEq] at h
      obtain ⟨w, hw, x, hx, y, hy, z, hz, tail, htail, rfl⟩ := h
      obtain ⟨hwlt, rfl⟩ := character_of_digit? hw
      obtain ⟨hxlt, rfl⟩ := character_of_digit? hx
      obtain ⟨hylt, rfl⟩ := character_of_digit? hy
      obtain ⟨hzlt, rfl⟩ := character_of_digit? hz
      rw [encode_of_digits hwlt hxlt hylt hzlt, ih htail]

lemma lastOne?_character (hv : v.IsClear) (a : UInt8) :
    let n := a.toNat * 16
    lastOne? v (character v (n / 64)) (character v (n % 64)) = some [a] := by
  intro n
  have hlt := a.toNat_lt
  have hwhole : n / 64 * 64 + n % 64 = n := by omega
  have hzeros : n % 16 = 0 := by omega
  have ha : n / 16 = a.toNat := by omega
  simp [lastOne?, hv.digit?_character (n / 64) (by omega), hv.digit?_character (n % 64) (by omega),
    hwhole, hzeros, ha]

lemma lastTwo?_character (hv : v.IsClear) (a b : UInt8) :
    let n := (a.toNat * 256 + b.toNat) * 4
    lastTwo? v (character v (n / 4096)) (character v (n / 64 % 64)) (character v (n % 64)) =
      some [a, b] := by
  intro n
  have hlt := a.toNat_lt
  have hlt' := b.toNat_lt
  have hwhole : (n / 4096 * 64 + n / 64 % 64) * 64 + n % 64 = n := by omega
  have hzeros : n % 4 = 0 := by omega
  have ha : UInt8.ofNat (n / 1024) = a := by
    rw [← UInt8.toNat_inj, UInt8.toNat_ofNat']
    omega
  have hb : UInt8.ofNat (n / 4) = b := by
    rw [← UInt8.toNat_inj, UInt8.toNat_ofNat']
    omega
  simp [lastTwo?, hv.digit?_character (n / 4096) (by omega),
    hv.digit?_character (n / 64 % 64) (by omega), hv.digit?_character (n % 64) (by omega), hwhole,
    hzeros, ha, hb]

/-- What is written is read again as it was. -/
theorem decode?_encode (hv : v.IsClear) (octets : Bytes) :
    decode? v (encode v octets) = some octets := by
  fun_induction encode v octets with
  | case1 => rfl
  | case2 a n =>
      have hread : lastOne? v (character v (n / 64)) (character v (n % 64)) = some [a] :=
        lastOne?_character hv a
      cases hpadded : v.padded <;> simp [decode?, hpadded, hread]
  | case3 a b n =>
      have hread : lastTwo? v (character v (n / 4096)) (character v (n / 64 % 64))
          (character v (n % 64)) = some [a, b] := lastTwo?_character hv a b
      have hne := hv.character_ne_pad (n := n % 64) (by omega)
      cases hpadded : v.padded <;> simp [decode?, hpadded, hread, hne]
  | case4 a b c rest n ih =>
      have hlt := a.toNat_lt
      have hlt' := b.toNat_lt
      have hlt'' := c.toNat_lt
      have hne := hv.character_ne_pad (n := n % 64) (by omega)
      have hwhole : ((n / 262144 * 64 + n / 4096 % 64) * 64 + n / 64 % 64) * 64 + n % 64 = n := by
        omega
      have ha : UInt8.ofNat (n / 65536) = a := by
        rw [← UInt8.toNat_inj, UInt8.toNat_ofNat']
        omega
      have hb : UInt8.ofNat (n / 256) = b := by
        rw [← UInt8.toNat_inj, UInt8.toNat_ofNat']
        omega
      have hc : UInt8.ofNat n = c := by
        rw [← UInt8.toNat_inj, UInt8.toNat_ofNat']
        omega
      have hinner :
          (v.padded && character v (n % 64) == pad && (encode v rest).isEmpty) ≠ true := by
        simp [hne]
      rw [decode?, if_neg hinner]
      simp only [hv.digit?_character (n / 262144) (by omega),
        hv.digit?_character (n / 4096 % 64) (by omega),
        hv.digit?_character (n / 64 % 64) (by omega), hv.digit?_character (n % 64) (by omega),
        Option.bind_eq_bind, Option.bind_some, hwhole, ha, hb, hc, ih]

/-! ## Reading spellings -/

lemma bits_two_digits {x y : Nat} (hy : y < 64) :
    bits 12 (x * 64 + y) = bits 6 x ++ bits 6 y := bits_append 6 6 x hy

lemma bits_three_digits {x y z : Nat} (hy : y < 64) (hz : z < 64) :
    bits 18 ((x * 64 + y) * 64 + z) = bits 6 x ++ bits 6 y ++ bits 6 z := by
  rw [← bits_two_digits hy]
  exact bits_append 12 6 (x * 64 + y) hz

lemma bits_four_digits {w x y z : Nat} (hx : x < 64) (hy : y < 64) (hz : z < 64) :
    bits 24 (((w * 64 + x) * 64 + y) * 64 + z) = bits 6 w ++ bits 6 x ++ bits 6 y ++ bits 6 z := by
  rw [← bits_three_digits hx hy]
  exact bits_append 18 6 ((w * 64 + x) * 64 + y) hz

lemma bits_two_octets (a b : UInt8) :
    bits 16 (a.toNat * 256 + b.toNat) = bits 8 a.toNat ++ bits 8 b.toNat :=
  bits_append 8 8 a.toNat b.toNat_lt

lemma bits_three_octets (a b c : UInt8) :
    bits 24 ((a.toNat * 256 + b.toNat) * 256 + c.toNat) =
      bits 8 a.toNat ++ bits 8 b.toNat ++ bits 8 c.toNat := by
  rw [← bits_two_octets]
  exact bits_append 16 8 (a.toNat * 256 + b.toNat) c.toNat_lt

/-- What is written is a spelling. -/
theorem spells_encode (v : Variant) (octets : Bytes) : Spells v (encode v octets) octets := by
  fun_induction encode v octets with
  | case1 => exact ⟨[], by simp, ⟨0, by decide, rfl⟩, by simp [Variant.fill]⟩
  | case2 a n =>
      have hlt := a.toNat_lt
      have hfirst : n / 64 < 64 := by omega
      have hsecond : n % 64 < 64 := by omega
      have hzeros : bits 12 n = bits 8 a.toNat ++ List.replicate 4 false :=
        bits_append 8 4 a.toNat (n := 0) (by decide)
      have hbits : bits 6 (n / 64) ++ bits 6 (n % 64) =
          bits 8 a.toNat ++ List.replicate 4 false := by
        rw [← hzeros, ← bits_two_digits hsecond]
        congr 1
        omega
      refine ⟨[n / 64, n % 64], by simp [hfirst, hsecond], ⟨4, by decide, ?_⟩, ?_⟩
      · simpa using hbits
      · cases hpadded : v.padded <;>
          simp [Variant.fill, hpadded, getD_alphabet v hfirst, getD_alphabet v hsecond]
  | case3 a b n =>
      have hlt := a.toNat_lt
      have hlt' := b.toNat_lt
      have hfirst : n / 4096 < 64 := by omega
      have hsecond : n / 64 % 64 < 64 := by omega
      have hthird : n % 64 < 64 := by omega
      have hzeros : bits 18 n = bits 16 (a.toNat * 256 + b.toNat) ++
          List.replicate 2 false :=
        bits_append 16 2 (a.toNat * 256 + b.toNat) (n := 0) (by decide)
      have hbits : bits 6 (n / 4096) ++ bits 6 (n / 64 % 64) ++ bits 6 (n % 64) =
          bits 8 a.toNat ++ bits 8 b.toNat ++ List.replicate 2 false := by
        rw [← bits_two_octets, ← hzeros, ← bits_three_digits hsecond hthird]
        congr 1
        omega
      refine ⟨[n / 4096, n / 64 % 64, n % 64], by simp [hfirst, hsecond, hthird],
        ⟨2, by decide, ?_⟩, ?_⟩
      · simpa using hbits
      · cases hpadded : v.padded <;>
          simp [Variant.fill, hpadded, getD_alphabet v hfirst, getD_alphabet v hsecond,
            getD_alphabet v hthird]
  | case4 a b c rest n ih =>
      obtain ⟨digits, hdigits, ⟨zeros, hzeros, hrest⟩, htext⟩ := ih
      have hlt := a.toNat_lt
      have hlt' := b.toNat_lt
      have hlt'' := c.toNat_lt
      have hfirst : n / 262144 < 64 := by omega
      have hsecond : n / 4096 % 64 < 64 := by omega
      have hthird : n / 64 % 64 < 64 := by omega
      have hfourth : n % 64 < 64 := by omega
      have hbits : bits 6 (n / 262144) ++ bits 6 (n / 4096 % 64) ++ bits 6 (n / 64 % 64) ++
          bits 6 (n % 64) = bits 8 a.toNat ++ bits 8 b.toNat ++ bits 8 c.toNat := by
        rw [← bits_three_octets, ← bits_four_digits hsecond hthird hfourth]
        congr 1
        omega
      refine ⟨n / 262144 :: n / 4096 % 64 :: n / 64 % 64 :: n % 64 :: digits,
        by simpa [hfirst, hsecond, hthird, hfourth] using hdigits, ⟨zeros, hzeros, ?_⟩, ?_⟩
      · simp only [List.flatMap_cons, hrest, ← List.append_assoc, hbits]
      · have hfill : v.fill (digits.length + 4) = v.fill digits.length := by
          simp [Variant.fill]
        simp [htext, hfill, getD_alphabet v hfirst, getD_alphabet v hsecond,
          getD_alphabet v hthird, getD_alphabet v hfourth]

/-- The spellings are read as what they spell, and nothing else is read. -/
theorem decode?_eq_some_iff (hv : v.IsClear) :
    decode? v text = some octets ↔ Spells v text octets := by
  constructor
  · intro h
    rw [eq_encode_of_decode? h]
    exact spells_encode v octets
  · intro h
    rw [h.text_unique (spells_encode v octets)]
    exact decode?_encode hv octets

/-- There is no other reading of a spelling. -/
lemma Spells.octets_unique (hv : v.IsClear) (h : Spells v text octets)
    (h' : Spells v text octets') : octets = octets' := by
  rw [← decode?_eq_some_iff hv] at h h'
  exact Option.some.inj (h.symm.trans h')

/-! ## Spellings as texts -/

/-- The size of a spelling without fillers. -/
lemma Spells.length_text (h : Spells v text octets) (hpadded : v.padded = false) :
    text.length = (8 * octets.length + 5) / 6 := by
  obtain ⟨digits, -, ⟨zeros, hzeros, hbits⟩, rfl⟩ := h
  have hlen := length_of_bits_eq hbits
  have hfill : v.fill digits.length = 0 := by simp [Variant.fill, hpadded]
  rw [List.length_append, List.length_map, List.length_replicate, hfill]
  omega

lemma Spells.lt_of_mem (hv : v.IsClear) (h : Spells v text octets) :
    ∀ b ∈ text, b.toNat < 0x80 := by
  obtain ⟨digits, -, -, rfl⟩ := h
  have hletters : ∀ b ∈ letters, b.toNat < 0x80 := by
    have hall : letters.all (fun b => b.toNat < 0x80) = true := rfl
    simpa using hall
  have halphabet : ∀ b ∈ alphabet v, b.toNat < 0x80 := by
    intro b hb
    rcases List.mem_append.mp hb with hb | hb
    · exact hletters b hb
    · simp only [List.mem_cons, List.not_mem_nil, or_false] at hb
      rcases hb with rfl | rfl
      · exact UInt8.lt_iff_toNat_lt.mp hv.ascii.1
      · exact UInt8.lt_iff_toNat_lt.mp hv.ascii.2
  intro b hb
  rcases List.mem_append.mp hb with hb | hb
  · obtain ⟨d, -, rfl⟩ := List.mem_map.mp hb
    cases hd : (alphabet v)[d]? with
    | none => decide
    | some b => exact halphabet b (List.mem_of_getElem? hd)
  · rw [List.eq_of_mem_replicate hb]
    decide

/-- Octets have one spelling, which is a text. -/
lemma existsUnique_spells (hv : v.IsClear) (octets : Bytes) :
    ∃! t : Text, Spells v (Utf8.encode t) octets := by
  have hspells := spells_encode v octets
  refine ⟨(encode v octets).map fun b => Char.ofNat b.toNat, ?_, ?_⟩
  · show Spells v (Utf8.encode _) octets
    rw [Utf8.encode_map_ofNat (hspells.lt_of_mem hv)]
    exact hspells
  · intro t ht
    apply Utf8.encode_injective
    rw [Utf8.encode_map_ofNat (hspells.lt_of_mem hv), ht.text_unique hspells]

end Nameserver.Base64

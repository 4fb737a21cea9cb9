import Mathlib
import Nameserver.Json.Decode
import Nameserver.Json.Printer
import Nameserver.Proofs.Text.WellFormed

/-!
# Printing what was read

**`Json.length_print_le`** — a value that was read prints to no more octets than the document had.
The printer writes no blanks, and its form of a string is the shortest that the reader takes.

* Strings (`Json.length_quoted_le`): no octet of a string is escaped at greater length than it was
  read from.
* Tokens (`Json.Token.sum_size_le`): each is no longer than the octets it was read from.
* Values (`Json.length_ofTokens?_le`): what is part way through has a printed size too, and no token
  adds more to it than its own.
-/

namespace Nameserver.Json

variable {bytes rest document : Bytes} {b : UInt8} {n : Nat} {j : Json}

/-! ## Strings -/

lemma length_escaped_le (b : UInt8) : (escaped b).length ≤ 6 := by
  unfold escaped
  split_ifs <;> simp

lemma escaped_of_plain (hle : 32 ≤ b.toNat) (hquote : b ≠ 34) (hslash : b ≠ 92) :
    escaped b = [b] := by
  have hne : ∀ k : UInt8, k.toNat < 32 → b ≠ k := by
    rintro k hk rfl
    omega
  have hlt : ¬ b < 32 := by
    rw [UInt8.lt_iff_toNat_lt]
    exact Nat.not_lt.mpr hle
  simp [escaped, hquote, hslash, hlt, hne 8 (by decide), hne 9 (by decide), hne 10 (by decide),
    hne 12 (by decide), hne 13 (by decide)]

/-- An octet beyond ASCII is written as it is. -/
lemma flatMap_escaped_of_le (h : ∀ b ∈ bytes, 0x80 ≤ b.toNat) :
    bytes.flatMap escaped = bytes := by
  induction bytes with
  | nil => rfl
  | cons b bytes ih =>
      rw [List.forall_mem_cons] at h
      have hne : ∀ k : UInt8, k.toNat < 0x80 → b ≠ k := by
        rintro k hk rfl
        omega
      rw [List.flatMap_cons, ih h.2,
        escaped_of_plain (by omega) (hne 34 (by decide)) (hne 92 (by decide))]
      rfl

lemma length_escaped_encodePoint_le (hn : n < 0x110000) :
    ((Utf8.encodePoint n).flatMap escaped).length ≤ 6 := by
  by_cases hascii : n < 0x80
  · rw [Utf8.encodePoint, if_pos hascii, List.flatMap_singleton]
    exact length_escaped_le _
  · have hlarge : ∀ b ∈ Utf8.encodePoint n, 0x80 ≤ b.toNat := fun b hb =>
      Utf8.le_toNat_of_mem_encodePoint (Nat.not_lt.mp hascii) hn hb
    rw [flatMap_escaped_of_le hlarge, Utf8.encodePoint]
    split_ifs <;> simp

/-- The octets that a piece of a string is written with, at most. -/
def Piece.size : Piece → Nat
  | .octet b => (escaped b).length
  | .unit _ => 6

/-- A unit has 16 bits. -/
def Piece.IsSmall : Piece → Prop
  | .octet _ => True
  | .unit n => n < 0x10000

lemma length_assemble_le {pieces : List Piece} (h : ∀ piece ∈ pieces, piece.IsSmall) :
    ((Piece.assemble pieces).flatMap escaped).length ≤ (pieces.map Piece.size).sum := by
  induction pieces using Piece.assemble.induct with
  | case1 => simp [Piece.assemble]
  | case2 b pieces ih =>
      rw [List.forall_mem_cons] at h
      simpa [Piece.assemble, Piece.size] using ih h.2
  | case3 high low pieces hpair ih =>
      simp only [List.forall_mem_cons] at h
      have hpoint : 0x10000 + (high - 0xD800) * 1024 + (low - 0xDC00) < 0x110000 := by
        simp only [Piece.isHigh, Piece.isLow, Bool.and_eq_true, decide_eq_true_eq] at hpair
        omega
      have hchar := length_escaped_encodePoint_le hpoint
      have hmore := ih h.2.2
      rw [Piece.assemble, if_pos hpair, List.flatMap_append, List.length_append]
      simp only [List.map_cons, List.sum_cons, Piece.size]
      omega
  | case4 high low pieces hpair ih =>
      have hsmall : high < 0x10000 := h (.unit high) List.mem_cons_self
      have hchar := length_escaped_encodePoint_le (Nat.lt_trans hsmall (by decide))
      have hmore := ih fun piece hpiece => h piece (List.mem_cons_of_mem _ hpiece)
      rw [Piece.assemble, if_neg hpair, List.flatMap_append, List.length_append, List.map_cons,
        List.sum_cons]
      exact Nat.add_le_add hchar hmore
  | case5 n pieces hnext ih =>
      have hsmall : n < 0x10000 := h (.unit n) List.mem_cons_self
      have hchar := length_escaped_encodePoint_le (Nat.lt_trans hsmall (by decide))
      have hmore := ih fun piece hpiece => h piece (List.mem_cons_of_mem _ hpiece)
      rw [Piece.assemble, List.flatMap_append, List.length_append, List.map_cons, List.sum_cons]
      · exact Nat.add_le_add hchar hmore
      · exact hnext

lemma unit?_lt {p q r s : UInt8} (h : unit? p q r s = some n) : n < 0x10000 := by
  have hdigit : ∀ {b : UInt8} {d : Nat}, hexDigit? b = some d → d < 16 := by
    intro b d hd
    simp only [hexDigit?, Bool.and_eq_true, decide_eq_true_eq, UInt8.le_iff_toNat_le] at hd
    split_ifs at hd with hdecimal hlower hupper
    · have h57 : (57 : UInt8).toNat = 57 := rfl
      cases hd
      omega
    · have h102 : (102 : UInt8).toNat = 102 := rfl
      cases hd
      omega
    · have h70 : (70 : UInt8).toNat = 70 := rfl
      cases hd
      omega
  simp only [unit?, Option.bind_eq_bind, Option.bind_eq_some_iff] at h
  obtain ⟨p', hp, q', hq, r', hr, s', hs, heq⟩ := h
  have := hdigit hp
  have := hdigit hq
  have := hdigit hr
  have := hdigit hs
  cases heq
  omega

lemma length_escaped_of_escape? {letter c : UInt8} (h : escape? letter = some c) :
    (escaped c).length ≤ 2 := by
  simp only [escape?] at h
  split_ifs at h with hsame hb hf hn hr ht
  · cases h
    rcases hsame with rfl | rfl | rfl <;> decide
  all_goals
    cases h
    decide

/-- The pieces of a string are written with no more octets than they were read from. -/
lemma sum_size_of_stringBody {pieces : List Piece} {taken : Nat}
    (h : stringBody bytes = some (pieces, taken)) :
    taken ≤ bytes.length ∧ (pieces.map Piece.size).sum + 1 ≤ taken ∧
      ∀ piece ∈ pieces, piece.IsSmall := by
  fun_induction stringBody bytes generalizing pieces taken with
  | case1 => cases h
  | case2 rest =>
      cases h
      simp
  | case3 b rest => cases h
  | case4 p q r s rest n ps count hbody hunit hquote hcontrol ih =>
      cases h
      obtain ⟨htaken, hsum, hsmall⟩ := ih hbody
      simp only [List.map_cons, List.sum_cons, Piece.size, List.length_cons, List.forall_mem_cons]
      exact ⟨by omega, by omega, unit?_lt hunit, hsmall⟩
  | case5 p q r s rest => cases h
  | case6 letter rest hnot c ps count hbody hescape hquote hcontrol ih =>
      cases h
      obtain ⟨htaken, hsum, hsmall⟩ := ih hbody
      have hletter := length_escaped_of_escape? hescape
      simp only [List.map_cons, List.sum_cons, Piece.size, List.length_cons, List.forall_mem_cons]
      exact ⟨by omega, by omega, trivial, hsmall⟩
  | case7 letter rest => cases h
  | case8 => cases h
  | case9 b rest hquote hcontrol hslash ps count hbody ih =>
      cases h
      obtain ⟨htaken, hsum, hsmall⟩ := ih hbody
      have hplain : escaped b = [b] :=
        escaped_of_plain (by rwa [UInt8.lt_iff_toNat_lt, Nat.not_lt] at hcontrol) hquote hslash
      simp only [List.map_cons, List.sum_cons, Piece.size, List.length_cons, List.forall_mem_cons,
        hplain, List.length_nil]
      exact ⟨by omega, by omega, trivial, hsmall⟩
  | case10 b rest => cases h

/-- A string is written with no more octets than it was read from, its closing quote included. -/
lemma length_quoted_le {pieces : List Piece} {taken : Nat}
    (h : stringBody bytes = some (pieces, taken)) :
    taken ≤ bytes.length ∧ (quoted (Piece.assemble pieces)).length ≤ taken + 1 := by
  obtain ⟨htaken, hsum, hsmall⟩ := sum_size_of_stringBody h
  have hwritten := length_assemble_le hsmall
  refine ⟨htaken, ?_⟩
  simp only [quoted, List.length_append, List.length_cons, List.length_nil]
  omega

/-! ## Numbers -/

lemma length_digits?_le {literal : Bytes} (h : digits? bytes = some literal) :
    literal.length ≤ bytes.length := by
  simp only [digits?] at h
  split_ifs at h
  cases h
  exact (List.takeWhile_prefix _).length_le

lemma length_wholePart?_le {literal : Bytes} (h : wholePart? bytes = some literal) :
    literal.length ≤ bytes.length := by
  unfold wholePart? at h
  split at h
  · cases h
    simp
  · exact length_digits?_le h

lemma length_fraction?_le {literal : Bytes} (h : fraction? bytes = some literal) :
    literal.length ≤ bytes.length := by
  unfold fraction? at h
  split at h
  · obtain ⟨digits, hdigits, rfl⟩ := Option.map_eq_some_iff.mp h
    exact Nat.succ_le_succ (length_digits?_le hdigits)
  · cases h
    exact Nat.zero_le _

lemma length_exponent?_le {literal : Bytes} (h : exponent? bytes = some literal) :
    literal.length ≤ bytes.length := by
  unfold exponent? at h
  split at h
  · split_ifs at h
    · split at h
      · split_ifs at h
        · obtain ⟨digits, hdigits, rfl⟩ := Option.map_eq_some_iff.mp h
          exact Nat.succ_le_succ (Nat.succ_le_succ (length_digits?_le hdigits))
        · obtain ⟨digits, hdigits, rfl⟩ := Option.map_eq_some_iff.mp h
          exact Nat.succ_le_succ (length_digits?_le hdigits)
      · cases h
    · cases h
      exact Nat.zero_le _
  · cases h
    exact Nat.zero_le _

lemma length_magnitude?_le {literal : Bytes} (h : magnitude? bytes = some literal) :
    literal.length ≤ bytes.length := by
  simp only [magnitude?, Option.bind_eq_bind, Option.bind_eq_some_iff] at h
  obtain ⟨whole, hwhole, fraction, hfraction, exponent, hexponent, heq⟩ := h
  cases heq
  have hwhole' := length_wholePart?_le hwhole
  have hfraction' := length_fraction?_le hfraction
  have hexponent' := length_exponent?_le hexponent
  simp only [List.length_append, List.length_drop] at *
  omega

lemma length_number?_le {literal : Bytes} (h : number? bytes = some literal) :
    literal.length ≤ bytes.length := by
  unfold number? at h
  split at h
  · obtain ⟨digits, hdigits, rfl⟩ := Option.map_eq_some_iff.mp h
    exact Nat.succ_le_succ (length_magnitude?_le hdigits)
  · exact length_magnitude?_le h

/-! ## Tokens -/

namespace Token

/-- The octets that a token is written with. -/
def size : Token → Nat
  | scalar value => (print value).length
  | string bytes => (quoted bytes).length
  | _ => 1

lemma size_le_of_first? {token : Token} {taken : Nat} (h : first? b rest = some (token, taken)) :
    token.size ≤ taken + 1 ∧ taken ≤ rest.length := by
  have htake : ∀ {k : Nat} {word : Bytes}, rest.take k = word → word.length = k →
      k ≤ rest.length := by
    rintro k word rfl hk
    rw [List.length_take] at hk
    omega
  revert h
  fun_cases first? b rest with
  | case1 | case2 | case3 | case4 | case5 | case6 =>
      rintro ⟨⟩
      exact ⟨le_rfl, Nat.zero_le _⟩
  | case7 =>
      intro h
      obtain ⟨⟨pieces, count⟩, hbody, heq⟩ := Option.map_eq_some_iff.mp h
      cases heq
      obtain ⟨htaken, hwritten⟩ := length_quoted_le hbody
      exact ⟨hwritten, htaken⟩
  | case8 | case10 | case12 =>
      rename_i hword
      rintro ⟨⟩
      exact ⟨le_rfl, htake hword rfl⟩
  | case9 | case11 | case13 =>
      rintro ⟨⟩
  | case14 =>
      intro h
      obtain ⟨literal, hnumber, heq⟩ := Option.map_eq_some_iff.mp h
      cases heq
      have hlength := length_number?_le hnumber
      rw [List.length_cons] at hlength
      simp only [size, print]
      omega

lemma sum_size_le_of_scanAfter {skip : Nat} {tokens : List Token}
    (h : scanAfter skip bytes = some tokens) :
    (tokens.map size).sum ≤ bytes.length - skip := by
  induction bytes generalizing skip tokens with
  | nil =>
      cases skip <;> cases h <;> simp
  | cons b rest ih =>
      cases skip with
      | succ skip =>
          rw [List.length_cons, Nat.add_sub_add_right]
          exact ih h
      | zero =>
          rw [scanAfter] at h
          split_ifs at h with hblank
          · have hmore := ih h
            simp only [List.length_cons]
            omega
          · cases hfirst : first? b rest with
            | none =>
                rw [hfirst] at h
                cases h
            | some first =>
                obtain ⟨token, taken⟩ := first
                rw [hfirst] at h
                obtain ⟨others, hothers, rfl⟩ := Option.map_eq_some_iff.mp h
                obtain ⟨hsize, htaken⟩ := size_le_of_first? hfirst
                have hmore := ih hothers
                simp only [List.map_cons, List.sum_cons, List.length_cons]
                omega

/-- The tokens of a document are written with no more octets than it has. -/
lemma sum_size_le {tokens : List Token} (h : scan document = some tokens) :
    (tokens.map size).sum ≤ document.length :=
  sum_size_le_of_scanAfter h

end Token

/-! ## Values -/

/-- The octets of items with a comma behind each. -/
def itemsSize (items : List Json) : Nat := (items.map fun item => (print item).length + 1).sum

/-- The octets of fields with a comma behind each. -/
def fieldsSize (fields : List (Bytes × Json)) : Nat :=
  (fields.map fun field => (quoted field.1).length + 1 + (print field.2).length + 1).sum

lemma length_printItems {items : List Json} (h : items ≠ []) :
    (printItems items).length + 1 = itemsSize items := by
  induction items with
  | nil => exact absurd rfl h
  | cons item items ih =>
      cases items with
      | nil => simp [printItems, itemsSize]
      | cons next items =>
          have hmore := ih (by simp)
          rw [printItems]
          simp only [itemsSize, List.map_cons, List.sum_cons, List.length_append,
            List.length_cons] at hmore ⊢
          omega
          simp

lemma length_printFields {fields : List (Bytes × Json)} (h : fields ≠ []) :
    (printFields fields).length + 1 = fieldsSize fields := by
  induction fields with
  | nil => exact absurd rfl h
  | cons field fields ih =>
      obtain ⟨key, value⟩ := field
      cases fields with
      | nil =>
          simp only [printFields, fieldsSize, List.map_cons, List.map_nil, List.sum_cons,
            List.sum_nil, List.length_append, List.length_cons]
          omega
      | cons next fields =>
          have hmore := ih (by simp)
          rw [printFields]
          simp only [fieldsSize, List.map_cons, List.sum_cons, List.length_append,
            List.length_cons] at hmore ⊢
          omega
          simp

/-- The octets of the parts of a container that has not ended. -/
def Frame.size : Frame → Nat
  | .array done => 1 + itemsSize done
  | .object done key => 1 + fieldsSize done + (quoted key).length + 1

/-- The octets of what was read since the innermost container was put off. -/
def Expect.size : Expect → Nat
  | .value => 0
  | .item => 0
  | .field => 1
  | .key done => 1 + fieldsSize done
  | .colon done name => 1 + fieldsSize done + (quoted name).length
  | .next v => (print v).length

lemma Frame.one_le_size (frame : Frame) : 1 ≤ frame.size := by
  cases frame with
  | array done => exact Nat.le_add_right _ _
  | object done key => exact Nat.le_add_left _ _

/-- The octets of everything that was read. -/
def readSize (frames : List Frame) (expect : Expect) : Nat :=
  (frames.map Frame.size).sum + expect.size

/-- The first item of an array is read inside of it. -/
def IsInside (frames : List Frame) (expect : Expect) : Prop := expect = .item → frames ≠ []

lemma print_str (bytes : Bytes) : print (.str bytes) = quoted bytes := by rw [print]

lemma length_print_nil_arr : (print (.arr [])).length = 2 := rfl

lemma length_print_nil_obj : (print (.obj [])).length = 2 := rfl

lemma length_print_arr {items : List Json} (h : items ≠ []) :
    (print (.arr items)).length = itemsSize items + 1 := by
  have hitems := length_printItems h
  simp only [print, List.cons_append, List.length_cons, List.length_append, List.length_nil]
  omega

lemma length_print_obj {fields : List (Bytes × Json)} (h : fields ≠ []) :
    (print (.obj fields)).length = fieldsSize fields + 1 := by
  have hfields := length_printFields h
  simp only [print, List.cons_append, List.length_cons, List.length_append, List.length_nil]
  omega

lemma itemsSize_cons (item : Json) (items : List Json) :
    itemsSize (item :: items) = (print item).length + 1 + itemsSize items := rfl

lemma fieldsSize_cons (key : Bytes) (value : Json) (fields : List (Bytes × Json)) :
    fieldsSize ((key, value) :: fields) =
      (quoted key).length + 1 + (print value).length + 1 + fieldsSize fields := rfl

lemma itemsSize_reverse (items : List Json) : itemsSize items.reverse = itemsSize items := by
  rw [itemsSize, List.map_reverse, List.sum_reverse, itemsSize]

lemma fieldsSize_reverse (fields : List (Bytes × Json)) :
    fieldsSize fields.reverse = fieldsSize fields := by
  rw [fieldsSize, List.map_reverse, List.sum_reverse, fieldsSize]

/-- A token adds no more than its own octets. -/
lemma readSize_advance? {frames frames' : List Frame} {expect expect' : Expect} {token : Token}
    (h : advance? frames expect token = some (frames', expect'))
    (hinside : IsInside frames expect) :
    readSize frames' expect' ≤ readSize frames expect + token.size ∧
      IsInside frames' expect' := by
  revert h hinside
  fun_cases advance? frames expect token with
  | case1 | case2 | case3 | case4 | case5 | case6 | case7 | case8 | case10 | case11 | case12 |
      case13 | case14 | case16 =>
      rintro ⟨⟩ -
      refine ⟨?_, by simp [IsInside]⟩
      simp only [readSize, List.map_cons, List.sum_cons, Frame.size, Expect.size, Token.size,
        itemsSize, fieldsSize, List.map_nil, List.sum_nil, print_str, length_print_nil_obj]
      omega
  | case9 frames =>
      rintro ⟨⟩ hinside
      obtain ⟨frame, frames, rfl⟩ := List.exists_cons_of_ne_nil (hinside rfl)
      have hframe := frame.one_le_size
      refine ⟨?_, by simp [IsInside]⟩
      simp only [readSize, List.drop_succ_cons, List.drop_zero, List.map_cons, List.sum_cons,
        Expect.size, Token.size, length_print_nil_arr]
      omega
  | case15 v done frames =>
      rintro ⟨⟩ -
      refine ⟨?_, by simp [IsInside]⟩
      have hitems : (v :: done).reverse ≠ [] := by simp
      rw [readSize, Expect.size, length_print_arr hitems, itemsSize_reverse, itemsSize_cons]
      simp only [readSize, List.map_cons, List.sum_cons, Frame.size, Expect.size, Token.size]
      omega
  | case17 v done key frames =>
      rintro ⟨⟩ -
      refine ⟨?_, by simp [IsInside]⟩
      have hfields : ((key, v) :: done).reverse ≠ [] := by simp
      rw [readSize, Expect.size, length_print_obj hfields, fieldsSize_reverse, fieldsSize_cons]
      simp only [readSize, List.map_cons, List.sum_cons, Frame.size, Expect.size, Token.size]
      omega
  | case18 | case19 =>
      rintro ⟨⟩

/-- What is read from tokens is no larger than they are. -/
lemma length_ofTokens?_le {frames : List Frame} {expect : Expect} {tokens : List Token}
    (h : ofTokens? frames expect tokens = some j) (hinside : IsInside frames expect) :
    (print j).length ≤ readSize frames expect + (tokens.map Token.size).sum := by
  induction tokens generalizing frames expect with
  | nil =>
      unfold ofTokens? at h
      split at h
      · cases h
        exact Nat.le_add_left _ _
      · cases h
  | cons token tokens ih =>
      rw [ofTokens?] at h
      split at h
      · rename_i frames' expect' hadvance
        obtain ⟨hsize, hinside'⟩ := readSize_advance? hadvance hinside
        have hmore := ih h hinside'
        rw [List.map_cons, List.sum_cons]
        omega
      · cases h

/-- **Printing what was read** takes no more octets than it was read from. -/
theorem length_print_le (h : parse? document = some j) : (print j).length ≤ document.length := by
  obtain ⟨tokens, hscan, hread⟩ := Option.bind_eq_some_iff.mp h
  have hsize := length_ofTokens?_le hread (by simp [IsInside])
  have htokens := Token.sum_size_le hscan
  simp only [readSize, List.map_nil, List.sum_nil, Expect.size] at hsize
  omega

/-! ## Parts of a value -/

lemma length_item_le {items : List Json} {item : Json} (h : item ∈ items) :
    (print item).length + 2 ≤ (print (.arr items)).length := by
  have hitem : (print item).length + 1 ≤ itemsSize items :=
    List.single_le_sum (by simp) _ (List.mem_map_of_mem h)
  rw [length_print_arr (List.ne_nil_of_mem h)]
  omega

lemma length_field_le {fields : List (Bytes × Json)} {key : Bytes} {value : Json}
    (h : (key, value) ∈ fields) :
    (print value).length + 2 ≤ (print (.obj fields)).length := by
  have hfield : (quoted key).length + 1 + (print value).length + 1 ≤ fieldsSize fields :=
    List.single_le_sum (by simp) _ (List.mem_map_of_mem h)
  rw [length_print_obj (List.ne_nil_of_mem h)]
  omega

section Steps

variable {α β : Type}

lemma exists_of_mem_mapM_option {f : α → Option β} {as : List α} {bs : List β} {b : β}
    (h : as.mapM f = some bs) (hb : b ∈ bs) : ∃ a ∈ as, f a = some b := by
  induction as generalizing bs with
  | nil =>
      cases h
      cases hb
  | cons a as ih =>
      rw [List.mapM_cons] at h
      obtain ⟨first, hfirst, h⟩ := Option.bind_eq_some_iff.mp h
      obtain ⟨others, hothers, h⟩ := Option.bind_eq_some_iff.mp h
      cases h
      rcases List.mem_cons.mp hb with rfl | hb
      · exact ⟨a, List.mem_cons_self, hfirst⟩
      · obtain ⟨a', hmem, ha'⟩ := ih hothers hb
        exact ⟨a', List.mem_cons_of_mem _ hmem, ha'⟩

end Steps

/-- A field of a record is a part of it. -/
lemma length_of_record? {names : List String} {values : List (Option Json)} {value : Json}
    (h : record? names j = some values) (hvalue : some value ∈ values) :
    (print value).length + 2 ≤ (print j).length := by
  unfold record? at h
  split at h
  · rename_i items
    split_ifs at h
    cases h
    rw [List.mem_append, List.mem_map] at hvalue
    rcases hvalue with ⟨item, hitem, heq⟩ | hnone
    · cases heq
      exact length_item_le hitem
    · cases List.eq_of_mem_replicate hnone
  · rename_i fields
    split_ifs at h
    obtain ⟨name, -, hname⟩ := exists_of_mem_mapM_option h hvalue
    split at hname
    · cases hname
    · rename_i key found hfound
      cases hname
      have hmem : (key, value) ∈ fields :=
        List.mem_of_mem_filter (hfound ▸ List.mem_singleton_self _)
      exact length_field_le hmem
    · cases hname
  · cases h

lemma length_of_list? {α : Type} {item : Json → Option α} {xs : List α} {x : α}
    (h : list? item j = some xs) (hx : x ∈ xs) :
    ∃ part, item part = some x ∧ (print part).length + 2 ≤ (print j).length := by
  unfold list? at h
  split at h
  · obtain ⟨part, hpart, hitem⟩ := exists_of_mem_mapM_option h hx
    exact ⟨part, hitem, length_item_le hpart⟩
  · cases h

end Nameserver.Json

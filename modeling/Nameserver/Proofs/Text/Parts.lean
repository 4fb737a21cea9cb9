import Mathlib
import Nameserver.Text.Basic

/-!
# Texts and their parts

Names are compared as texts, but what counts is their parts, the labels.  Here the one is turned
into the other.

**Splitting and joining.**  `Text.parts` and `Text.join` are the library's `List.splitOn` and
`List.intercalate` for a dot, so parts without dots are the parts of what they are joined to
(`Text.parts_join`).

**Below.**  A name is a parent or below it if the parts of the parent are the last ones of the name
(`Text.isSameOrBelow_iff_parts`).  A text that merely ends in the same letters is not below.  In
terms of labels (`Text.labels`) the root stands apart: it has one part, which is empty, and no
label (`Text.isSameOrBelow_iff_labels`).

**Normal form.**  A normalized text is in lower case and has no dot at its end, and that is all:
`Text.normalize_eq_self`.
-/

namespace Nameserver.Text

variable {t name parent rest : Text} {ps qs : List Text}

/-! ## Front and end -/

lemma dropStart?_eq_some_iff {t start rest : Text} :
    dropStart? t start = some rest ↔ t = start ++ rest := by
  rw [dropStart?, Option.ite_none_right_eq_some, List.isPrefixOf_iff_prefix]
  constructor
  · rintro ⟨⟨rest', rfl⟩, h⟩
    rw [List.drop_left, Option.some.injEq] at h
    rw [h]
  · rintro rfl
    exact ⟨List.prefix_append _ _, by rw [List.drop_left]⟩

lemma dropEnding?_eq_some_iff {t ending rest : Text} :
    dropEnding? t ending = some rest ↔ t = rest ++ ending := by
  rw [dropEnding?, Option.ite_none_right_eq_some, List.isSuffixOf_iff_suffix]
  constructor
  · rintro ⟨⟨rest', rfl⟩, h⟩
    rw [List.length_append, Nat.add_sub_cancel, List.take_left, Option.some.injEq] at h
    rw [h]
  · rintro rfl
    refine ⟨List.suffix_append _ _, ?_⟩
    rw [List.length_append, Nat.add_sub_cancel, List.take_left]

/-- A name below a parent ends in a dot and the parent. -/
theorem isSameOrBelow_iff :
    isSameOrBelow name parent = true ↔ name = parent ∨ '.' :: parent <:+ name := by
  simp only [isSameOrBelow, Bool.or_eq_true, beq_iff_eq]
  refine or_congr_right ?_
  constructor
  · intro h
    split at h
    · rename_i rest hrest
      rw [dropEnding?_eq_some_iff] at hrest
      obtain ⟨front, rfl⟩ := List.getLast?_eq_some_iff.mp (beq_iff_eq.mp h)
      exact ⟨front, by simp [hrest]⟩
    · cases h
  · rintro ⟨front, rfl⟩
    have hdrop : dropEnding? (front ++ '.' :: parent) parent = some (front ++ ['.']) :=
      dropEnding?_eq_some_iff.mpr (by simp)
    simp [hdrop]

/-! ## Splitting and joining -/

lemma parts_eq_splitOn (t : Text) : parts t = t.splitOn '.' := by
  induction t with
  | nil => rfl
  | cons c t ih =>
      rw [List.splitOn, List.splitOnP_cons_eq_if_modifyHead, ← List.splitOn, ← ih, parts]
      simp only [beq_iff_eq]
      split_ifs
      · rfl
      · obtain ⟨p, ps, hp⟩ := List.exists_cons_of_ne_nil (parts_ne_nil t)
        rw [hp]
        rfl

lemma join_eq_intercalate (ps : List Text) : join ps = ['.'].intercalate ps := by
  induction ps with
  | nil => rfl
  | cons p ps ih =>
      cases ps with
      | nil => simp [join, List.intercalate]
      | cons q ps => rw [join, ih, List.intercalate_cons_cons, List.append_assoc]; rfl

/-- Parts without dots are found again. -/
lemma parts_join (hne : ps ≠ []) (hdot : ∀ p ∈ ps, '.' ∉ p) : parts (join ps) = ps := by
  rw [parts_eq_splitOn, join_eq_intercalate, List.splitOn_intercalate _ hdot hne]

lemma parts_injective : Function.Injective parts := by
  intro t u h
  rw [← join_parts t, h, join_parts]

lemma parts_dot (front t : Text) : parts (front ++ '.' :: t) = parts front ++ parts t := by
  simp only [parts_eq_splitOn, List.splitOn]
  exact List.splitOnP_append_cons _ _ rfl

lemma join_append (hps : ps ≠ []) (hqs : qs ≠ []) :
    join (ps ++ qs) = join ps ++ '.' :: join qs := by
  induction ps with
  | nil => exact absurd rfl hps
  | cons p ps ih =>
      cases ps with
      | nil =>
          obtain ⟨q, qs, rfl⟩ := List.exists_cons_of_ne_nil hqs
          rfl
      | cons p' ps =>
          rw [List.cons_append, List.cons_append, join, join, ← List.cons_append, ih (by simp),
            List.append_assoc, List.cons_append]

/-- A name is below a parent if it has more parts in front of those of the parent. -/
theorem isSameOrBelow_iff_parts :
    isSameOrBelow name parent = true ↔ parts parent <:+ parts name := by
  rw [isSameOrBelow_iff]
  constructor
  · rintro (rfl | ⟨front, rfl⟩)
    · exact List.suffix_rfl
    · exact ⟨parts front, (parts_dot front parent).symm⟩
  · rintro ⟨front, hfront⟩
    cases hcase : front with
    | nil =>
        rw [hcase, List.nil_append] at hfront
        exact .inl (parts_injective hfront.symm)
    | cons p ps =>
        refine .inr ⟨join front, ?_⟩
        rw [← join_parts name, ← hfront, join_append (by simp [hcase]) (parts_ne_nil parent),
          join_parts]

lemma dot_not_mem_of_mem_parts {part : Text} (h : part ∈ parts t) : '.' ∉ part := by
  induction t generalizing part with
  | nil =>
      rw [parts, List.mem_singleton] at h
      simp [h]
  | cons c t ih =>
      unfold parts at h
      split_ifs at h with hc
      · rcases List.mem_cons.mp h with rfl | h
        · simp
        · exact ih h
      · split at h
        · rw [List.mem_singleton] at h
          simp [h, Ne.symm hc]
        · rename_i p ps hparts
          rw [hparts] at ih
          rcases List.mem_cons.mp h with rfl | h
          · simp only [List.mem_cons, not_or]
            exact ⟨Ne.symm hc, ih List.mem_cons_self⟩
          · exact ih (List.mem_cons_of_mem _ h)

lemma exists_mem_of_mem_join {c : Char} (hc : c ∈ join ps) (hdot : c ≠ '.') :
    ∃ p ∈ ps, c ∈ p := by
  fun_induction join ps with
  | case1 => cases hc
  | case2 p => exact ⟨p, List.mem_singleton_self p, hc⟩
  | case3 p q ps ih =>
      rcases List.mem_append.mp hc with hp | hrest
      · exact ⟨p, List.mem_cons_self, hp⟩
      · obtain ⟨p', hp', hmem⟩ := ih ((List.mem_cons.mp hrest).resolve_left hdot)
        exact ⟨p', List.mem_cons_of_mem p hp', hmem⟩

/-- What is no dot stands in a part. -/
lemma exists_part_of_mem {c : Char} (hc : c ∈ t) (hdot : c ≠ '.') : ∃ part ∈ parts t, c ∈ part :=
  exists_mem_of_mem_join (by rwa [join_parts]) hdot

lemma mem_of_mem_parts {c : Char} {part : Text} (hpart : part ∈ parts t) (hc : c ∈ part) :
    c ∈ t := by
  induction t generalizing part with
  | nil =>
      rw [parts, List.mem_singleton] at hpart
      simp [hpart] at hc
  | cons d t ih =>
      obtain ⟨p, ps, hp⟩ := List.exists_cons_of_ne_nil (parts_ne_nil t)
      rw [parts, hp] at hpart
      rw [hp] at ih
      split_ifs at hpart
      · rcases List.mem_cons.mp hpart with rfl | hpart
        · cases hc
        · exact List.mem_cons_of_mem _ (ih hpart hc)
      · rcases List.mem_cons.mp hpart with rfl | hpart
        · rcases List.mem_cons.mp hc with rfl | hc
          · exact List.mem_cons_self
          · exact List.mem_cons_of_mem _ (ih List.mem_cons_self hc)
        · exact List.mem_cons_of_mem _ (ih (List.mem_cons_of_mem _ hpart) hc)

/-! ## Labels -/

/-- The labels of a name: its parts, and none for the root. -/
def labels (t : Text) : List Text := if t = [] then [] else parts t

@[simp] lemma labels_nil : labels [] = [] := rfl

lemma labels_of_ne_nil (h : t ≠ []) : labels t = parts t := if_neg h

/-- A name whose labels end in those of a parent is the parent or below it.  The root has no label
to compare, and only the root itself is below it. -/
theorem isSameOrBelow_iff_labels (hlast : name.getLast? ≠ some '.') :
    isSameOrBelow name parent = true ↔
      labels parent <:+ labels name ∧ (parent = [] → name = []) := by
  by_cases hparent : parent = []
  · subst hparent
    rw [isSameOrBelow_iff]
    have hnot : ¬ ['.'] <:+ name := by
      rintro ⟨front, rfl⟩
      exact hlast (by simp)
    simp [hnot]
  · by_cases hname : name = []
    · subst hname
      rw [isSameOrBelow_iff, labels_of_ne_nil hparent]
      simp [hparent, Ne.symm hparent, parts_ne_nil]
    · rw [isSameOrBelow_iff_parts, labels_of_ne_nil hparent, labels_of_ne_nil hname]
      simp [hparent]

/-! ## Lower case -/

lemma toNat_toLower (c : Char) :
    c.toLower.toNat = if 65 ≤ c.toNat ∧ c.toNat ≤ 90 then c.toNat + 32 else c.toNat := by
  have hle : ('A'.val ≤ c.val ∧ c.val ≤ 'Z'.val) ↔ 65 ≤ c.toNat ∧ c.toNat ≤ 90 := by
    simp only [UInt32.le_iff_toNat_le]
    rfl
  simp only [Char.toLower, ge_iff_le, hle]
  split_ifs with h
  · have hsum : (c.val + 32).toNat = (c.val.toNat + 32) % 2 ^ 32 := UInt32.toNat_add c.val 32
    have hlast : c.val.toNat ≤ 90 := h.2
    show (c.val + 32).toNat = c.val.toNat + 32
    omega
  · rfl

/-- A character that is no small letter has nothing but itself turned into it. -/
lemma toLower_eq_iff {c d : Char} (hd : d.toNat < 97 ∨ 122 < d.toNat)
    (hlower : d.toLower = d) : c.toLower = d ↔ c = d := by
  constructor
  · intro h
    rw [← Char.toNat_inj, toNat_toLower] at h
    split_ifs at h
    · omega
    · exact Char.toNat_inj.mp h
  · rintro rfl
    exact hlower

@[simp] lemma lower_lower (t : Text) : t.lower.lower = t.lower := by
  simp [lower]

@[simp] lemma lower_append (t u : Text) : (t ++ u).lower = t.lower ++ u.lower := List.map_append

lemma dot_mem_lower : '.' ∈ t.lower ↔ '.' ∈ t := by
  simp only [lower, List.mem_map, toLower_eq_iff (d := '.') (by decide) rfl, exists_eq_right]

lemma lower_join (ps : List Text) : (join ps).lower = join (ps.map lower) := by
  induction ps with
  | nil => rfl
  | cons p ps ih =>
      cases ps with
      | nil => rfl
      | cons q ps =>
          rw [List.map_cons, List.map_cons, join, join, lower_append, ← List.map_cons, ← ih]
          rfl

lemma parts_lower (t : Text) : parts t.lower = (parts t).map lower := by
  rw [← join_parts t, lower_join, join_parts, parts_join]
  · simpa using parts_ne_nil t
  · intro _ hlower
    obtain ⟨part, hpart, rfl⟩ := List.mem_map.mp hlower
    rw [dot_mem_lower]
    exact dot_not_mem_of_mem_parts hpart

/-! ## Normal form -/

/-- The text is in lower case, and has no dot at its end. -/
structure IsNormal (t : Text) : Prop where
  lower : t.lower = t
  last : t.getLast? ≠ some '.'

lemma dropTrailingDots_eq_self (h : t.getLast? ≠ some '.') : dropTrailingDots t = t := by
  rw [dropTrailingDots, ← List.rdropWhile, List.rdropWhile_eq_self_iff]
  intro hne hdot
  exact h (by rw [List.getLast?_eq_getLast_of_ne_nil hne, beq_iff_eq.mp hdot])

lemma dropTrailingDots_append_dots (t : Text) (n : Nat) :
    dropTrailingDots (t ++ List.replicate n '.') = dropTrailingDots t := by
  simp only [dropTrailingDots, List.reverse_append, List.reverse_replicate]
  rw [List.dropWhile_append_of_pos]
  intro c hc
  exact beq_iff_eq.mpr (List.eq_of_mem_replicate hc)

lemma getLast?_dropTrailingDots (t : Text) : (dropTrailingDots t).getLast? ≠ some '.' := by
  intro hdot
  rw [dropTrailingDots, ← List.rdropWhile] at hdot
  have hne : List.rdropWhile (· == '.') t ≠ [] := by
    rintro hnil
    rw [hnil] at hdot
    cases hdot
  have hnot := List.rdropWhile_last_not (· == '.') t hne
  rw [List.getLast?_eq_getLast_of_ne_nil hne, Option.some.injEq] at hdot
  simp [hdot] at hnot

lemma getLast?_lower_eq_dot : t.lower.getLast? = some '.' ↔ t.getLast? = some '.' := by
  simp only [lower, List.getLast?_map, Option.map_eq_some_iff,
    toLower_eq_iff (d := '.') (by decide) rfl, exists_eq_right]

lemma isNormal_normalize (t : Text) : IsNormal (normalize t) where
  lower := lower_lower _
  last := fun hdot => getLast?_dropTrailingDots t (getLast?_lower_eq_dot.mp hdot)

/-- Any case of letters and any dots at the end come to the same. -/
lemma IsNormal.normalize_spelling {spelling : Text} (h : IsNormal t) (hlower : spelling.lower = t)
    (n : Nat) : normalize (spelling ++ List.replicate n '.') = t := by
  have hlast : spelling.getLast? ≠ some '.' := by
    rw [← getLast?_lower_eq_dot.ne, hlower]
    exact h.last
  rw [normalize, dropTrailingDots_append_dots, dropTrailingDots_eq_self hlast, hlower]

/-- A text in normal form stays as it is. -/
lemma IsNormal.normalize_eq (h : IsNormal t) : normalize t = t := by
  rw [normalize, dropTrailingDots_eq_self h.last, h.lower]

/-- What is behind a dot of a text in normal form is in normal form. -/
lemma IsNormal.of_dot {front : Text} (h : IsNormal (front ++ '.' :: t)) : IsNormal t where
  lower := by
    have hlower := h.lower
    rw [lower_append] at hlower
    exact (List.cons.inj (List.append_inj hlower (List.length_map _)).2).2
  last := by
    intro hdot
    obtain ⟨start, rfl⟩ := List.getLast?_eq_some_iff.mp hdot
    refine h.last (List.getLast?_eq_some_iff.mpr ⟨front ++ '.' :: start, ?_⟩)
    simp

end Nameserver.Text

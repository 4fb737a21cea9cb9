import Nameserver.Proofs.Message.Entries
import Nameserver.Proofs.Text.WellFormed

/-!
# Dotted names and names on the wire

A name has two forms, a text with dots between its labels and octets with a length in front of each
label.  `Name.codes_both_ways` says how far each of them gives the other back.

**From a text.**  Empty parts are dropped when a name is written, so a text comes back with single
dots between its other parts, as long as none of them has to be cut.

**From octets.**  No label that is read has a dot inside, and none is empty.  The dots of the text
are therefore where labels end, and nothing is lost with the lengths: the labels of the text
(`Text.labels`) are those that were read, if these are well-formed text.  Labels that are not become
`U+FFFD`, and may become the same.
-/

namespace Nameserver.Name

variable {ls ls' : List Bytes} {text : Text}

/-- Every label is well-formed text. -/
def AreTexts (labels : List Bytes) : Prop := ∀ label ∈ labels, ∃ t, Utf8.encode t = label

lemma AreTexts.encode_decodeLossy {label : Bytes} (h : AreTexts ls) (hlabel : label ∈ ls) :
    Utf8.encode (Utf8.decodeLossy label) = label := by
  obtain ⟨t, rfl⟩ := h label hlabel
  rw [Utf8.decodeLossy_encode]

lemma AreTexts.map_encode (h : AreTexts ls) :
    (ls.map Utf8.decodeLossy).map Utf8.encode = ls := by
  rw [List.map_map]
  exact (List.map_congr_left fun label hlabel => h.encode_decodeLossy hlabel).trans (List.map_id ls)

/-- What is read of a name without long parts. -/
lemma dotted_labels_eq_join {name : Text}
    (h : ∀ part ∈ Text.parts name, Utf8.size part ≤ maxLabel) :
    dotted (labels name) =
      Text.join ((Text.parts name).filter fun part => !part.isEmpty) := by
  rw [labels_eq_filter h, dotted_map_encode]

/-- The dots of a text that was read are where labels end. -/
lemma parts_dotted (hne : ls ≠ []) (hdotless : AreDotless ls) :
    Text.parts (dotted ls) = ls.map Utf8.decodeLossy := by
  refine Text.parts_join (by simpa using hne) fun part hpart => ?_
  obtain ⟨label, hlabel, rfl⟩ := List.mem_map.mp hpart
  exact Utf8.dot_not_mem_decodeLossy (hdotless label hlabel)

/-- A text that was read has as labels what was read. -/
lemma labels_dotted (hsized : AreSized ls) (hdotless : AreDotless ls) :
    Text.labels (dotted ls) = ls.map Utf8.decodeLossy := by
  by_cases hroot : ls = []
  · rw [hroot]
    rfl
  · have hne : dotted ls ≠ [] := by rwa [Ne, dotted_eq_nil hsized]
    rw [Text.labels_of_ne_nil hne, parts_dotted hroot hdotless]

/-- A name with short labels is written again as it was read. -/
lemma encode_dotted (hsized : AreSized ls) (hdotless : AreDotless ls) (htexts : AreTexts ls)
    (hshort : ∀ label ∈ ls, label.length ≤ maxLabel) : encode (dotted ls) = wire ls := by
  by_cases hroot : ls = []
  · rw [hroot]
    rfl
  · have hparts := parts_dotted hroot hdotless
    have hkept : ∀ part ∈ Text.parts (dotted ls), part ≠ [] ∧ Utf8.size part ≤ maxLabel := by
      intro part hpart
      rw [hparts] at hpart
      obtain ⟨label, hlabel, rfl⟩ := List.mem_map.mp hpart
      rw [Utf8.size, htexts.encode_decodeLossy hlabel]
      exact ⟨decodeLossy_ne_nil (hsized label hlabel).1, hshort label hlabel⟩
    show wire (labels (dotted ls)) = wire ls
    rw [labels_eq_map hkept, hparts, htexts.map_encode]

/-- A text is read off the octets of a name, somewhere in a message. -/
def IsRead (octets : Bytes) (text : Text) : Prop :=
  ∃ r r', Read.name r = .ok text r' ∧ r.passed r' = octets

lemma IsRead.eq_dotted (h : IsRead (wire ls) text) (hsized : AreSized ls) :
    AreDotless ls ∧ text = dotted ls := by
  obtain ⟨r, r', hread, hpassed⟩ := h
  obtain ⟨⟨ls', hsized', hdotless, hwire, rfl⟩, -⟩ :=
    Read.accepts_name.passed (Read.offset_le_of_name hread) hread
  rw [hpassed] at hwire
  have hbehind : wire ls ++ [] = wire ls' ++ [] := by rw [hwire]
  obtain rfl := Read.wire_append_inj hsized hsized' hbehind
  exact ⟨hdotless, rfl⟩

/-- **Names are coded faithfully both ways.**  What was written is read up to empty parts, whatever
follows.  The labels of a text that was read are those on the wire, so that other names are read as
other texts, and short ones are written back as they were. -/
theorem codes_both_ways :
    (∀ name before rest, (∀ part ∈ Text.parts name, Utf8.size part ≤ maxLabel) →
      Read.name (.between before (encode name ++ rest)) =
        .ok (Text.join ((Text.parts name).filter fun part => !part.isEmpty))
          (.between (before ++ encode name) rest)) ∧
    (∀ labels text, AreSized labels → AreTexts labels → IsRead (wire labels) text →
      (Text.labels text).map Utf8.encode = labels ∧
      ((∀ label ∈ labels, label.length ≤ maxLabel) → encode text = wire labels)) ∧
    ∀ labels labels' text text', AreSized labels → AreTexts labels → IsRead (wire labels) text →
      AreSized labels' → AreTexts labels' → IsRead (wire labels') text' →
      labels ≠ labels' → text ≠ text' := by
  have hback : ∀ labels text, AreSized labels → AreTexts labels → IsRead (wire labels) text →
      (Text.labels text).map Utf8.encode = labels := by
    intro labels text hsized htexts hread
    obtain ⟨hdotless, rfl⟩ := hread.eq_dotted hsized
    rw [labels_dotted hsized hdotless, htexts.map_encode]
  refine ⟨?writing, ?reading, ?distinct⟩
  case writing =>
    intro name before rest hshort
    rw [← dotted_labels_eq_join hshort]
    exact Read.accepts_name.complete
      ⟨labels name, areSized_labels name, areDotless_labels name, rfl, rfl⟩ before rest
  case reading =>
    intro labels text hsized htexts hread
    refine ⟨hback labels text hsized htexts hread, fun hshort => ?_⟩
    obtain ⟨hdotless, rfl⟩ := hread.eq_dotted hsized
    exact encode_dotted hsized hdotless htexts hshort
  case distinct =>
    intro labels labels' text text' hsized htexts hread hsized' htexts' hread' hne hsame
    apply hne
    rw [← hback labels text hsized htexts hread, hsame, hback labels' text' hsized' htexts' hread']

/-- Empty parts do not come back, and characters of several octets do. -/
theorem codes_both_ways_umlaut :
    Read.name (.between [7] (encode ['a', '.', '.', 'ä', '.'] ++ [9])) =
        .ok ['a', '.', 'ä'] (.between [7, 1, 97, 2, 195, 164, 0] [9]) ∧
      (Text.labels ['ä', '.', 'b']).map Utf8.encode = [[195, 164], [98]] ∧
      encode ['ä', '.', 'b'] = wire [[195, 164], [98]] ∧
      ['ä', '.', 'b'] ≠ ['a'] := by
  have hsized : AreSized [[195, 164], [98]] := by simp [AreSized]
  have htexts : AreTexts [[195, 164], [98]] := by
    simp only [AreTexts, List.forall_mem_cons]
    exact ⟨⟨['ä'], rfl⟩, ⟨['b'], rfl⟩, fun label h => by cases h⟩
  have hread : IsRead (wire [[195, 164], [98]]) ['ä', '.', 'b'] :=
    ⟨.between [] (wire [[195, 164], [98]]), _, rfl, rfl⟩
  have hsized' : AreSized [[97]] := by simp [AreSized]
  have htexts' : AreTexts [[97]] := by
    simp only [AreTexts, List.forall_mem_cons]
    exact ⟨⟨['a'], rfl⟩, fun label h => by cases h⟩
  have hread' : IsRead (wire [[97]]) ['a'] := ⟨.between [] (wire [[97]]), _, rfl, rfl⟩
  obtain ⟨hlabels, hencode⟩ := codes_both_ways.2.1 _ _ hsized htexts hread
  exact ⟨codes_both_ways.1 ['a', '.', '.', 'ä', '.'] [7] [9] (by decide), hlabels,
    hencode (by decide),
    codes_both_ways.2.2 _ _ _ _ hsized htexts hread hsized' htexts' hread' (by decide)⟩

end Nameserver.Name

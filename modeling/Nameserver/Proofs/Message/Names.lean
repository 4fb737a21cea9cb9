import Nameserver.Name
import Nameserver.Proofs.Message.Reading
import Nameserver.Proofs.Text.Parts
import Nameserver.Proofs.Text.Utf8

/-!
# Names and their octets

A name on the wire is a list of labels (`Name.wire`).  A label has 1 to 255 octets, as far as the
readings are concerned, and those that give the dotted form refuse a label with a dot inside.

`Read.accepts_wireName` and `Read.accepts_name` say that these are the only conditions.  Both
readings count down the octets of a label on the way to the next one, which is the same as dropping
them (`Read.nameEnd_eq_drop`, `Read.labels_eq_drop`), so that facts about them follow label by label
(`Read.walk_induction`).

**Names from texts.**  Writing a text drops its empty parts, so only the root and texts without
empty parts come back as they are (`Name.dotted_labels`), and only if no part has to be cut.
-/

namespace Nameserver

namespace Name

/-- The octets of a name: each label behind its length, and a zero at the end. -/
def wire (labels : List Bytes) : Bytes := labels.flatMap encodeLabel ++ [0]

/-- Every label has a length that an octet can tell, and is not the end of the name. -/
def AreSized (labels : List Bytes) : Prop := ∀ label ∈ labels, label ≠ [] ∧ label.length ≤ 255

/-- No label has a dot inside. -/
def AreDotless (labels : List Bytes) : Prop := ∀ label ∈ labels, 46 ∉ label

/-- The text of a name: the labels as they are read, with dots in between. -/
def dotted (labels : List Bytes) : Text := Text.join (labels.map Utf8.decodeLossy)

@[simp] lemma wire_nil : wire [] = [0] := rfl

@[simp] lemma wire_cons (label : Bytes) (labels : List Bytes) :
    wire (label :: labels) = UInt8.ofNat label.length :: (label ++ wire labels) := by
  simp [wire, encodeLabel]

lemma wire_cons_append (label : Bytes) (labels : List Bytes) (rest : Bytes) :
    wire (label :: labels) ++ rest = encodeLabel label ++ (wire labels ++ rest) := by
  simp [encodeLabel]

lemma areSized_nil : AreSized [] := by
  intro label h
  cases h

lemma areDotless_nil : AreDotless [] := by
  intro label h
  cases h

lemma areSized_cons {label : Bytes} {labels : List Bytes} :
    AreSized (label :: labels) ↔ (label ≠ [] ∧ label.length ≤ 255) ∧ AreSized labels :=
  List.forall_mem_cons

lemma areDotless_cons {label : Bytes} {labels : List Bytes} :
    AreDotless (label :: labels) ↔ 46 ∉ label ∧ AreDotless labels :=
  List.forall_mem_cons

end Name

namespace Read

open Name (wire AreSized AreDotless areSized_cons areDotless_cons)

variable {offset stop : Nat} {bytes rest : Bytes} {ls : List Bytes}

/-! ## Walking over labels -/

lemma nameEnd_eq_drop (offset skip : Nat) (bytes : Bytes) :
    nameEnd offset skip bytes = nameEnd offset 0 (bytes.drop skip) := by
  induction bytes generalizing skip with
  | nil => simp [nameEnd]
  | cons size rest ih =>
      cases skip with
      | zero => rfl
      | succ skip => exact ih skip

lemma labels_eq_drop (offset skip : Nat) (bytes : Bytes) :
    labels offset skip bytes = labels offset 0 (bytes.drop skip) := by
  induction bytes generalizing skip with
  | nil => simp [labels]
  | cons size rest ih =>
      cases skip with
      | zero => rfl
      | succ skip => exact ih skip

lemma toNat_size {label : Bytes} (h : label ≠ [] ∧ label.length ≤ 255) :
    (UInt8.ofNat label.length).toNat = label.length ∧ UInt8.ofNat label.length ≠ 0 := by
  have hpos := List.length_pos_iff.mpr h.1
  have hsize : (UInt8.ofNat label.length).toNat = label.length :=
    Utf8.toNat_ofNat_of_lt (by omega)
  refine ⟨hsize, ?_⟩
  intro hzero
  rw [hzero] at hsize
  have : (0 : Nat) = label.length := hsize
  omega

/-- The octets in front are a label behind its length. -/
lemma cons_eq_label {size : UInt8} (hlen : size.toNat ≤ rest.length) :
    size :: rest =
      UInt8.ofNat (rest.take size.toNat).length ::
        (rest.take size.toNat ++ rest.drop size.toNat) := by
  rw [List.take_append_drop, List.length_take, Nat.min_eq_left hlen, UInt8.ofNat_toNat]

lemma label_sized {size : UInt8} (hsize : size ≠ 0) (hlen : size.toNat ≤ rest.length) :
    rest.take size.toNat ≠ [] ∧ (rest.take size.toNat).length ≤ 255 := by
  have hlt := size.toNat_lt
  have hpos : size.toNat ≠ 0 := by
    intro h
    exact hsize (UInt8.toNat_inj.mp h)
  have htake : (rest.take size.toNat).length = size.toNat := by
    rw [List.length_take]
    omega
  constructor
  · intro hnil
    rw [hnil, List.length_nil] at htake
    exact hpos htake.symm
  · omega

/-- Octets from some offset on are walked over label by label.  The walk ends where there are none,
at a zero, or at a length that is too large. -/
theorem walk_induction {motive : Nat → Bytes → Prop} (nil : ∀ offset, motive offset [])
    (root : ∀ offset rest, motive offset (0 :: rest))
    (short : ∀ offset size rest, size ≠ 0 → rest.length < size.toNat → motive offset (size :: rest))
    (label : ∀ offset label rest, label ≠ [] ∧ label.length ≤ 255 →
      motive (offset + 1 + label.length) rest → motive offset (Name.encodeLabel label ++ rest))
    (offset : Nat) (bytes : Bytes) : motive offset bytes := by
  induction hn : bytes.length using Nat.strong_induction_on generalizing offset bytes with
  | _ n ih =>
    cases bytes with
    | nil => exact nil offset
    | cons size tail =>
        by_cases hzero : size = 0
        · rw [hzero]
          exact root offset tail
        by_cases hshort : tail.length < size.toNat
        · exact short offset size tail hzero hshort
        · have hlen := Nat.not_lt.mp hshort
          rw [cons_eq_label hlen]
          refine label offset _ _ (label_sized hzero hlen) (ih _ ?_ _ _ rfl)
          rw [← hn, List.length_drop, List.length_cons]
          omega

lemma labels_short {size : UInt8} (hzero : size ≠ 0) (hshort : rest.length < size.toNat) :
    labels offset 0 (size :: rest) = (.error (.unexpectedEnd (offset + 1)), offset + 1) := by
  rw [labels, if_neg hzero, if_pos hshort]

lemma labels_label {label : Bytes} (hlabel : label ≠ [] ∧ label.length ≤ 255) :
    labels offset 0 (Name.encodeLabel label ++ rest) =
      if label.contains 46 then
        (.error (.dotInLabel (offset + 1)), offset + 1 + label.length)
      else
        ((labels (offset + 1 + label.length) 0 rest).1.map (label :: ·),
          (labels (offset + 1 + label.length) 0 rest).2) := by
  obtain ⟨hsize, hzero⟩ := toNat_size hlabel
  have hlen : ¬ (label ++ rest).length < label.length := by simp
  rw [Name.encodeLabel, List.cons_append, labels, if_neg hzero, hsize, if_neg hlen,
    List.take_left, labels_eq_drop, List.drop_left]

lemma nameEnd_short {size : UInt8} (hzero : size ≠ 0) (hshort : rest.length < size.toNat) :
    nameEnd offset 0 (size :: rest) = .error (offset + 1) := by
  rw [nameEnd, if_neg hzero, if_pos hshort]

lemma nameEnd_label {label : Bytes} (hlabel : label ≠ [] ∧ label.length ≤ 255) :
    nameEnd offset 0 (Name.encodeLabel label ++ rest) =
      nameEnd (offset + 1 + label.length) 0 rest := by
  obtain ⟨hsize, hzero⟩ := toNat_size hlabel
  have hlen : ¬ (label ++ rest).length < label.length := by simp
  rw [Name.encodeLabel, List.cons_append, nameEnd, if_neg hzero, hsize, if_neg hlen,
    nameEnd_eq_drop, List.drop_left]

/-- The octets of a name can be taken apart in one way only. -/
lemma wire_append_inj {ls' : List Bytes} {rest' : Bytes} (hsized : AreSized ls)
    (hsized' : AreSized ls') (h : wire ls ++ rest = wire ls' ++ rest') : ls = ls' := by
  induction ls generalizing ls' with
  | nil =>
      cases ls' with
      | nil => rfl
      | cons label' ls' =>
          simp only [Name.wire_nil, Name.wire_cons, List.cons_append, List.cons.injEq] at h
          exact absurd h.1.symm (toNat_size (areSized_cons.mp hsized').1).2
  | cons label ls ih =>
      obtain ⟨hlabel, hsized⟩ := areSized_cons.mp hsized
      cases ls' with
      | nil =>
          simp only [Name.wire_nil, Name.wire_cons, List.cons_append, List.cons.injEq] at h
          exact absurd h.1 (toNat_size hlabel).2
      | cons label' ls' =>
          obtain ⟨hlabel', htail'⟩ := areSized_cons.mp hsized'
          simp only [Name.wire_cons, List.cons_append, List.append_assoc, List.cons.injEq] at h
          have hlength : label.length = label'.length := by
            rw [← (toNat_size hlabel).1, h.1, (toNat_size hlabel').1]
          obtain ⟨rfl, hrest⟩ := List.append_inj h.2 hlength
          rw [ih hsized htail' hrest]

lemma nameEnd_wire (hsized : AreSized ls) (offset : Nat) (rest : Bytes) :
    nameEnd offset 0 (wire ls ++ rest) = .ok (offset + (wire ls).length) := by
  induction ls generalizing offset with
  | nil => rfl
  | cons label ls ih =>
      obtain ⟨hlabel, hsized⟩ := areSized_cons.mp hsized
      rw [Name.wire_cons_append, nameEnd_label hlabel, ih hsized, Name.wire_cons,
        List.length_cons, List.length_append]
      congr 1
      omega

/-- The end of a name is found behind the octets of some labels. -/
lemma wire_of_nameEnd (h : nameEnd offset 0 bytes = .ok stop) :
    ∃ ls rest, AreSized ls ∧ bytes = wire ls ++ rest ∧ stop = offset + (wire ls).length := by
  induction offset, bytes using walk_induction with
  | nil offset => cases h
  | root offset rest =>
      cases h
      exact ⟨[], rest, Name.areSized_nil, rfl, rfl⟩
  | short offset size rest hzero hshort =>
      rw [nameEnd_short hzero hshort] at h
      cases h
  | label offset label rest hlabel ih =>
      rw [nameEnd_label hlabel] at h
      obtain ⟨ls, rest', hsized, rfl, rfl⟩ := ih h
      refine ⟨label :: ls, rest', areSized_cons.mpr ⟨hlabel, hsized⟩,
        (Name.wire_cons_append _ _ _).symm, ?_⟩
      rw [Name.wire_cons, List.length_cons, List.length_append]
      omega

lemma labels_wire (hsized : AreSized ls) (hdotless : AreDotless ls) (offset : Nat) (rest : Bytes) :
    labels offset 0 (wire ls ++ rest) = (.ok ls, offset + (wire ls).length) := by
  induction ls generalizing offset with
  | nil => rfl
  | cons label ls ih =>
      obtain ⟨hlabel, hsized⟩ := areSized_cons.mp hsized
      obtain ⟨hdot, hdotless⟩ := areDotless_cons.mp hdotless
      have hcontains : ¬ label.contains 46 = true := by simpa using hdot
      rw [Name.wire_cons_append, labels_label hlabel, if_neg hcontains, ih hsized hdotless,
        Name.wire_cons, List.length_cons, List.length_append]
      show (Except.ok (label :: ls), _) = _
      congr 1
      omega

lemma wire_of_labels (h : labels offset 0 bytes = (.ok ls, stop)) :
    ∃ rest, AreSized ls ∧ AreDotless ls ∧ bytes = wire ls ++ rest ∧
      stop = offset + (wire ls).length := by
  induction offset, bytes using walk_induction generalizing ls stop with
  | nil offset => cases h
  | root offset rest =>
      cases h
      exact ⟨rest, Name.areSized_nil, Name.areDotless_nil, rfl, rfl⟩
  | short offset size rest hzero hshort =>
      rw [labels_short hzero hshort] at h
      cases h
  | label offset label rest hlabel ih =>
      rw [labels_label hlabel] at h
      split_ifs at h with hdot
      · cases h
      · rcases hrest : labels (offset + 1 + label.length) 0 rest with ⟨fault | ls', stop'⟩
        · rw [hrest] at h
          cases h
        · rw [hrest] at h
          cases h
          obtain ⟨rest', hsized, hdotless, rfl, rfl⟩ := ih hrest
          refine ⟨rest', areSized_cons.mpr ⟨hlabel, hsized⟩,
            areDotless_cons.mpr ⟨by simpa using hdot, hdotless⟩,
            (Name.wire_cons_append _ _ _).symm, ?_⟩
          rw [Name.wire_cons, List.length_cons, List.length_append]
          omega

/-- A name that cannot be read is malformed. -/
lemma rcode?_of_labels {fault : Fault} (h : labels offset 0 bytes = (.error fault, stop)) :
    fault.rcode? = some .formErr := by
  induction offset, bytes using walk_induction generalizing stop with
  | nil offset =>
      cases h
      rfl
  | root offset rest => cases h
  | short offset size rest hzero hshort =>
      rw [labels_short hzero hshort] at h
      cases h
      rfl
  | label offset label rest hlabel ih =>
      rw [labels_label hlabel] at h
      split_ifs at h with hdot
      · cases h
        rfl
      · rcases hrest : labels (offset + 1 + label.length) 0 rest with ⟨fault' | ls', stop'⟩
        · rw [hrest] at h
          cases h
          exact ih hrest
        · rw [hrest] at h
          cases h

/-! ## The two readings of a name -/

/-- The octets of a name are read as they are, whether its labels have dots inside or not. -/
theorem accepts_wireName :
    wireName.Accepts fun bytes a => a = bytes ∧ ∃ ls, AreSized ls ∧ bytes = wire ls where
  complete := by
    rintro bytes a ⟨rfl, ls, hsized, rfl⟩
    intro before rest
    simp only [wireName, Reader.offset_between, Reader.drop_between, nameEnd_wire hsized,
      Nat.add_sub_cancel_left, List.take_left, Reader.between_append]
  sound := by
    intro before rest a r h
    simp only [wireName, Reader.offset_between, Reader.drop_between] at h
    split at h
    · rename_i stop hend
      obtain ⟨ls, rest', hsized, rfl, rfl⟩ := wire_of_nameEnd hend
      cases h
      refine ⟨wire ls, rest', ⟨?_, ls, hsized, rfl⟩, rfl, Reader.between_append⟩
      rw [Nat.add_sub_cancel_left, List.take_left]
    · cases h

/-- A name in dotted form comes from labels without a dot inside. -/
theorem accepts_name :
    name.Accepts fun bytes a =>
      ∃ ls, AreSized ls ∧ AreDotless ls ∧ bytes = wire ls ∧ a = Name.dotted ls where
  complete := by
    rintro bytes a ⟨ls, hsized, hdotless, rfl, rfl⟩
    intro before rest
    simp only [name, Reader.offset_between, Reader.drop_between, labels_wire hsized hdotless,
      Reader.between_append]
    rfl
  sound := by
    intro before rest a r h
    simp only [name, Reader.offset_between, Reader.drop_between] at h
    split at h
    · rename_i ls stop hlabels
      obtain ⟨rest', hsized, hdotless, rfl, rfl⟩ := wire_of_labels hlabels
      cases h
      exact ⟨wire ls, rest', ⟨ls, hsized, hdotless, rfl, rfl⟩, rfl, Reader.between_append⟩
    · cases h

/-- There is no name behind the end of a message. -/
lemma offset_le_of_wireName {r r' : Reader} {octets : Bytes} (h : wireName r = .ok octets r') :
    r.offset ≤ r.message.length := by
  by_contra hbehind
  have hdrop : r.message.drop r.offset = [] := List.drop_eq_nil_of_le (by omega)
  rw [wireName, hdrop] at h
  cases h

lemma offset_le_of_name {r r' : Reader} {text : Text} (h : name r = .ok text r') :
    r.offset ≤ r.message.length := by
  by_contra hbehind
  have hdrop : r.message.drop r.offset = [] := List.drop_eq_nil_of_le (by omega)
  rw [name, hdrop] at h
  cases h

lemma strict_wireName : wireName.Strict := by
  intro r fault r' h
  unfold wireName at h
  split at h
  · cases h
  · cases h
    rfl

lemma strict_name : name.Strict := by
  intro r fault r' h
  unfold name at h
  split at h
  · cases h
  · rename_i hlabels
    cases h
    exact rcode?_of_labels hlabels

lemma yields_wireName (hsized : AreSized ls) : wireName.Yields (wire ls) (wire ls) :=
  accepts_wireName.complete ⟨rfl, ls, hsized, rfl⟩

end Read

/-! ## Names from texts -/

namespace Name

/-- A name that is written as it is: the root, or labels of 1 to 63 octets. -/
def IsProper (name : Text) : Prop :=
  name = [] ∨ ∀ part ∈ Text.parts name, part ≠ [] ∧ Utf8.size part ≤ maxLabel

lemma areSized_labels (name : Text) : AreSized (labels name) := by
  intro label h
  obtain ⟨part, hpart, rfl⟩ := List.mem_map.mp h
  have hne : part ≠ [] := by simpa using (List.mem_filter.mp hpart).2
  constructor
  · intro hnil
    rw [List.take_eq_nil_iff] at hnil
    rcases hnil with hzero | hnil
    · exact absurd hzero (by decide)
    · exact hne (Utf8.encode_eq_nil.mp hnil)
  · rw [List.length_take]
    exact (Nat.min_le_left _ _).trans (by decide)

lemma areDotless_labels (name : Text) : AreDotless (labels name) := by
  intro label h
  obtain ⟨part, hpart, rfl⟩ := List.mem_map.mp h
  intro hdot
  have hmem := Utf8.dot_mem_encode_iff.mp (List.mem_of_mem_take hdot)
  exact Text.dot_not_mem_of_mem_parts (List.mem_filter.mp hpart).1 hmem

/-- Of a name without long parts, all that is dropped are the empty ones. -/
lemma labels_eq_filter {name : Text} (h : ∀ part ∈ Text.parts name, Utf8.size part ≤ maxLabel) :
    labels name = ((Text.parts name).filter fun part => !part.isEmpty).map Utf8.encode :=
  List.map_congr_left fun part hpart =>
    List.take_of_length_le (h part (List.mem_of_mem_filter hpart))

/-- A name without empty parts and long ones is written as it is. -/
lemma labels_eq_map {name : Text}
    (h : ∀ part ∈ Text.parts name, part ≠ [] ∧ Utf8.size part ≤ maxLabel) :
    labels name = (Text.parts name).map Utf8.encode := by
  have hfilter : (Text.parts name).filter (fun part => !part.isEmpty) = Text.parts name := by
    rw [List.filter_eq_self]
    intro part hpart
    simpa using (h part hpart).1
  rw [labels_eq_filter fun part hpart => (h part hpart).2, hfilter]

/-- Parts that were written as labels are read as they were. -/
lemma map_decodeLossy_encode (parts : List Text) :
    (parts.map Utf8.encode).map Utf8.decodeLossy = parts := by
  rw [List.map_map]
  exact (List.map_congr_left fun part _ => Utf8.decodeLossy_encode part).trans (List.map_id _)

lemma dotted_map_encode (parts : List Text) : dotted (parts.map Utf8.encode) = Text.join parts := by
  rw [dotted, map_decodeLossy_encode]

/-- A proper name comes back from its labels. -/
theorem dotted_labels {name : Text} (h : IsProper name) : dotted (labels name) = name := by
  rcases h with rfl | h
  · rfl
  · rw [labels_eq_map h, dotted_map_encode, Text.join_parts]

lemma length_wire (labels : List Bytes) :
    (wire labels).length = labels.foldr (fun label n => label.length + 1 + n) 1 := by
  induction labels with
  | nil => rfl
  | cons label labels ih =>
      rw [wire_cons, List.length_cons, List.length_append, ih, List.foldr_cons]
      omega

/-- The size of a name is known before it is written. -/
theorem length_encode (name : Text) : (encode name).length = size name := length_wire (labels name)

end Name

lemma Read.yields_name {text : Text} (h : Name.IsProper text) :
    Read.name.Yields (Name.encode text) text :=
  Read.accepts_name.complete ⟨Name.labels text, Name.areSized_labels text,
    Name.areDotless_labels text, rfl, (Name.dotted_labels h).symm⟩

end Nameserver

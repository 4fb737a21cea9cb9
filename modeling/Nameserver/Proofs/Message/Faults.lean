import Nameserver.Proofs.Message.Grammar

/-!
# Places of faults

Two kinds of faults tell where in a message they are: octets that are asked for and are not there,
and a label with a dot inside.  `Flaw` is what is wrong without the place.  A reading
`Read.Locates` its flaws if a fault stands behind octets that lead up to it, so that the place can
be found by reading the message and not by looking at the reader.  Sequences of readings are put
together from their parts (`Read.Locates.bind`), and places are added up there once and for all.

**The name of a question** is read twice, once for its octets and once, out of these, for its
dotted form.  The second reading counts from the start of the name.  `Request.locates_faults` says
that a dot in the name of a question is reported `headerSize` octets before its place in the
datagram, and that all other places are those in the datagram.
-/

namespace Nameserver

open Name (wire encodeLabel AreSized AreDotless areSized_cons areDotless_cons)

variable {α β : Type}

/-- What is wrong at a place. -/
inductive Flaw where
  /-- So many octets are asked for, and are not all there. -/
  | short (n : Nat)
  | dotted (label : Bytes)
  /-- A fault that does not tell its place. -/
  | unplaced (fault : Fault)

namespace Flaw

/-- The fault that is reported of a flaw at a place. -/
def fault : Flaw → (place : Nat) → Fault
  | short _, place => .unexpectedEnd place
  | dotted _, place => .dotInLabel place
  | unplaced fault, _ => fault

/-- The octets from the place on have the flaw. -/
def Shows : Flaw → Bytes → Prop
  | short n, rest => rest.length < n
  | dotted label, rest => label <+: rest ∧ 46 ∈ label
  | unplaced _, _ => True

end Flaw

/-- The fault does not tell a place. -/
def Fault.IsUnplaced : Fault → Prop
  | .unexpectedEnd _ | .dotInLabel _ => False
  | _ => True

/-- The flaw has a fault that does not tell a place. -/
def Flaw.IsUnplaced : Flaw → Prop
  | .unplaced fault => fault.IsUnplaced
  | _ => False

/-! ## Flaws of names and records -/

/-- What can be wrong with a name behind some of its labels. -/
inductive Name.Flaws (labels : List Bytes) : (front : Bytes) → Flaw → Prop
  /-- The length of the next label is missing. -/
  | size : Flaws labels (labels.flatMap encodeLabel) (.short 1)
  /-- The next label has fewer octets than its length says. -/
  | octets (size : UInt8) (positive : size ≠ 0) :
      Flaws labels (labels.flatMap encodeLabel ++ [size]) (.short size.toNat)
  /-- It has a dot inside. -/
  | dot (label : Bytes) (sized : label ≠ [] ∧ label.length ≤ 255) :
      Flaws labels (labels.flatMap encodeLabel ++ [UInt8.ofNat label.length]) (.dotted label)

/-- What can be wrong with a question. -/
inductive Question.Flaws : (front : Bytes) → Flaw → Prop
  /-- Its name is not all there. -/
  | name {labels : List Bytes} {front : Bytes} {n : Nat} (sized : AreSized labels)
      (flaws : Name.Flaws labels front (.short n)) : Flaws front (.short n)
  /-- Its name is all there and has a dot inside a label. -/
  | dot {labels : List Bytes} {front label : Bytes} (sized : AreSized labels)
      (dotless : AreDotless labels) (flaws : Name.Flaws labels front (.dotted label)) :
      Flaws front (.dotted label)
  | type {labels : List Bytes} (sized : AreSized labels) (dotless : AreDotless labels) :
      Flaws (wire labels) (.short 2)
  | recordClass {labels : List Bytes} (sized : AreSized labels) (dotless : AreDotless labels)
      (type : UInt16) : Flaws (wire labels ++ encode16 type) (.short 2)

/-- What can be wrong with a record. -/
inductive Entry.Flaws : (front : Bytes) → Flaw → Prop
  | owner {labels : List Bytes} {front : Bytes} {flaw : Flaw} (sized : AreSized labels)
      (dotless : AreDotless labels) (flaws : Name.Flaws labels front flaw) : Flaws front flaw
  | type {labels : List Bytes} (sized : AreSized labels) (dotless : AreDotless labels) :
      Flaws (wire labels) (.short 2)
  | recordClass {labels : List Bytes} (sized : AreSized labels) (dotless : AreDotless labels)
      (type : UInt16) : Flaws (wire labels ++ encode16 type) (.short 2)
  | ttl {labels : List Bytes} (sized : AreSized labels) (dotless : AreDotless labels)
      (type recordClass : UInt16) :
      Flaws (wire labels ++ encode16 type ++ encode16 recordClass) (.short 4)
  | dataSize {labels : List Bytes} (sized : AreSized labels) (dotless : AreDotless labels)
      (type recordClass : UInt16) (ttl : UInt32) :
      Flaws (wire labels ++ encode16 type ++ encode16 recordClass ++ encode32 ttl) (.short 2)
  /-- There are fewer octets of data than the record says. -/
  | data {labels : List Bytes} (sized : AreSized labels) (dotless : AreDotless labels)
      (type recordClass : UInt16) (ttl : UInt32) (size : UInt16) :
      Flaws (wire labels ++ encode16 type ++ encode16 recordClass ++ encode32 ttl ++ encode16 size)
        (.short size.toNat)

namespace Read

variable {reading : Read α} {next : α → Read β} {format : Bytes → α → Prop}
  {flaws flaws' : Bytes → Flaw → Prop} {flawsNext : α → Bytes → Flaw → Prop}

/-- Every fault stands behind octets that lead up to its flaw. -/
def Locates (reading : Read α) (flaws : Bytes → Flaw → Prop) : Prop :=
  ∀ ⦃before rest fault r⦄, reading (.between before rest) = .error fault r →
    ∃ front rest' flaw, flaws front flaw ∧ rest = front ++ rest' ∧ flaw.Shows rest' ∧
      fault = flaw.fault (before.length + front.length)

/-! ## Sequences -/

lemma Locates.mono (h : reading.Locates flaws) (hflaws : ∀ front flaw, flaws front flaw →
    flaws' front flaw) : reading.Locates flaws' := by
  intro before rest fault r hread
  obtain ⟨front, rest', flaw, hflaw, hrest⟩ := h hread
  exact ⟨front, rest', flaw, hflaws front flaw hflaw, hrest⟩

lemma Locates.pure (a : α) : (pure a : Read α).Locates fun _ _ => False := by
  intro before rest fault r h
  cases h

/-- The flaws of a sequence are those of its first part, and behind that those of the others. -/
lemma Locates.bind (haccepts : reading.Accepts format) (hfirst : reading.Locates flaws)
    (hnext : ∀ a, (next a).Locates (flawsNext a)) :
    (reading >>= next).Locates fun front flaw => flaws front flaw ∨
      ∃ a first second, format first a ∧ flawsNext a second flaw ∧ front = first ++ second := by
  intro before rest fault r h
  rcases bind_error h with h | ⟨a, r₁, hread, h⟩
  · exact hfirst.mono (fun _ _ => .inl) h
  · obtain ⟨first, rest₁, hformat, rfl, rfl⟩ := haccepts.sound hread
    obtain ⟨second, rest₂, flaw, hflaw, rfl, hshows, rfl⟩ := hnext a h
    refine ⟨first ++ second, rest₂, flaw, .inr ⟨a, first, second, hformat, hflaw, rfl⟩,
      (List.append_assoc _ _ _).symm, hshows, ?_⟩
    rw [List.length_append, List.length_append, Nat.add_assoc]

lemma locates_take (n : Nat) :
    (take n).Locates fun front flaw => front = [] ∧ flaw = .short n := by
  intro before rest fault r h
  simp only [take, Reader.offset_between, Reader.length_between, Reader.drop_between] at h
  split at h
  · cases h
  · rename_i hshort
    cases h
    refine ⟨[], rest, .short n, ⟨rfl, rfl⟩, rfl, ?_, rfl⟩
    show rest.length < n
    omega

lemma locates_skip (n : Nat) :
    (skip n).Locates fun front flaw => front = [] ∧ flaw = .short n :=
  (Locates.bind (accepts_take n) (locates_take n) fun _ => .pure ()).mono fun _ _ h => by
    simpa using h

lemma locates_uint16 : uint16.Locates fun front flaw => front = [] ∧ flaw = .short 2 :=
  (Locates.bind (accepts_take 2) (locates_take 2) fun _ => .pure _).mono fun _ _ h => by
    simpa using h

lemma locates_uint32 : uint32.Locates fun front flaw => front = [] ∧ flaw = .short 4 :=
  (Locates.bind (accepts_take 4) (locates_take 4) fun _ => .pure _).mono fun _ _ h => by
    simpa using h

lemma locates_known (e : Except Fault α) :
    (known e).Locates fun front flaw =>
      front = [] ∧ ∃ fault, e = .error fault ∧ flaw = .unplaced fault := by
  intro before rest fault r hread
  cases e with
  | ok a => cases hread
  | error fault' =>
      cases hread
      exact ⟨[], rest, .unplaced fault, ⟨rfl, fault, rfl, rfl⟩, rfl, trivial, rfl⟩

/-! ## Names -/

/-- A flaw behind some labels is one behind those and another label in front. -/
lemma flaws_cons {label front : Bytes} {labels : List Bytes} {flaw : Flaw}
    (h : Name.Flaws labels front flaw) :
    Name.Flaws (label :: labels) (encodeLabel label ++ front) flaw := by
  cases h with
  | size => exact .size
  | octets size positive =>
      rw [← List.append_assoc, ← List.flatMap_cons]
      exact .octets size positive
  | dot label' sized =>
      rw [← List.append_assoc, ← List.flatMap_cons]
      exact .dot label' sized

lemma length_encodeLabel_append (label front : Bytes) :
    (encodeLabel label ++ front).length = 1 + (label.length + front.length) := by
  rw [encodeLabel, List.length_append, List.length_cons, Nat.add_assoc, Nat.add_comm,
    Nat.add_assoc, Nat.add_comm front.length]

lemma flaws_of_labels {offset stop : Nat} {bytes : Bytes} {fault : Fault}
    (h : labels offset 0 bytes = (.error fault, stop)) :
    ∃ ls front rest flaw, AreSized ls ∧ AreDotless ls ∧ Name.Flaws ls front flaw ∧
      bytes = front ++ rest ∧ flaw.Shows rest ∧ fault = flaw.fault (offset + front.length) := by
  induction offset, bytes using walk_induction generalizing stop with
  | nil offset =>
      cases h
      exact ⟨[], [], [], .short 1, Name.areSized_nil, Name.areDotless_nil, .size, rfl,
        Nat.zero_lt_one, rfl⟩
  | root offset rest => cases h
  | short offset size rest hzero hshort =>
      rw [labels_short hzero hshort] at h
      cases h
      exact ⟨[], [size], rest, .short size.toNat, Name.areSized_nil, Name.areDotless_nil,
        .octets size hzero, rfl, hshort, rfl⟩
  | label offset label rest hlabel ih =>
      rw [labels_label hlabel] at h
      split_ifs at h with hdot
      · cases h
        exact ⟨[], [UInt8.ofNat label.length], label ++ rest, .dotted label, Name.areSized_nil,
          Name.areDotless_nil, .dot label hlabel, rfl,
          ⟨List.prefix_append _ _, by simpa using hdot⟩, rfl⟩
      · rcases hrest : labels (offset + 1 + label.length) 0 rest with ⟨fault' | ls, stop'⟩
        · rw [hrest] at h
          cases h
          obtain ⟨ls, front, rest', flaw, hsized, hdotless, hflaws, rfl, hshows, rfl⟩ := ih hrest
          refine ⟨label :: ls, encodeLabel label ++ front, rest', flaw,
            areSized_cons.mpr ⟨hlabel, hsized⟩,
            areDotless_cons.mpr ⟨by simpa using hdot, hdotless⟩, flaws_cons hflaws,
            (List.append_assoc _ _ _).symm, hshows, ?_⟩
          rw [length_encodeLabel_append, Nat.add_assoc, Nat.add_assoc]
        · rw [hrest] at h
          cases h

lemma flaws_of_nameEnd {offset stop : Nat} {bytes : Bytes}
    (h : nameEnd offset 0 bytes = .error stop) :
    ∃ ls front rest n, AreSized ls ∧ Name.Flaws ls front (.short n) ∧ bytes = front ++ rest ∧
      rest.length < n ∧ stop = offset + front.length := by
  induction offset, bytes using walk_induction with
  | nil offset =>
      cases h
      exact ⟨[], [], [], 1, Name.areSized_nil, .size, rfl, Nat.zero_lt_one, rfl⟩
  | root offset rest => cases h
  | short offset size rest hzero hshort =>
      rw [nameEnd_short hzero hshort] at h
      cases h
      exact ⟨[], [size], rest, size.toNat, Name.areSized_nil, .octets size hzero, rfl, hshort,
        rfl⟩
  | label offset label rest hlabel ih =>
      rw [nameEnd_label hlabel] at h
      obtain ⟨ls, front, rest', n, hsized, hflaws, rfl, hshort, rfl⟩ := ih h
      refine ⟨label :: ls, encodeLabel label ++ front, rest', n,
        areSized_cons.mpr ⟨hlabel, hsized⟩, flaws_cons hflaws, (List.append_assoc _ _ _).symm,
        hshort, ?_⟩
      rw [length_encodeLabel_append, Nat.add_assoc, Nat.add_assoc]

lemma locates_name :
    name.Locates fun front flaw =>
      ∃ ls, AreSized ls ∧ AreDotless ls ∧ Name.Flaws ls front flaw := by
  intro before rest fault r h
  simp only [name, Reader.offset_between, Reader.drop_between] at h
  split at h
  · cases h
  · rename_i fault' stop hlabels
    cases h
    obtain ⟨ls, front, rest', flaw, hsized, hdotless, hflaws, hrest⟩ := flaws_of_labels hlabels
    exact ⟨front, rest', flaw, ⟨ls, hsized, hdotless, hflaws⟩, hrest⟩

lemma locates_wireName :
    wireName.Locates fun front flaw =>
      ∃ ls n, flaw = .short n ∧ AreSized ls ∧ Name.Flaws ls front (.short n) := by
  intro before rest fault r h
  simp only [wireName, Reader.offset_between, Reader.drop_between] at h
  split at h
  · cases h
  · rename_i stop hend
    cases h
    obtain ⟨ls, front, rest', n, hsized, hflaws, rfl, hshort, rfl⟩ := flaws_of_nameEnd hend
    exact ⟨front, rest', .short n, ⟨ls, n, rfl, hsized, hflaws⟩, rfl, hshort, rfl⟩

/-- Out of the octets of a name, nothing is missing.  Only a dot can be found there. -/
lemma dot_of_labels_wire {ls : List Bytes} {offset stop : Nat} {fault : Fault}
    (hsized : AreSized ls) (h : labels offset 0 (wire ls) = (.error fault, stop)) :
    ∃ before label later, ls = before ++ label :: later ∧ AreDotless before ∧ 46 ∈ label ∧
      fault = .dotInLabel (offset + (before.flatMap encodeLabel).length + 1) := by
  induction ls generalizing offset stop with
  | nil => cases h
  | cons label ls ih =>
      obtain ⟨hlabel, hsized⟩ := areSized_cons.mp hsized
      rw [Name.wire_cons, ← List.cons_append, ← encodeLabel, labels_label hlabel] at h
      split_ifs at h with hdot
      · cases h
        exact ⟨[], label, ls, rfl, Name.areDotless_nil, by simpa using hdot, rfl⟩
      · rcases hrest : labels (offset + 1 + label.length) 0 (wire ls) with ⟨fault' | ls', stop'⟩
        · rw [hrest] at h
          cases h
          obtain ⟨before, label', later, rfl, hdotless, hmem, hfault⟩ := ih hsized hrest
          refine ⟨label :: before, label', later, rfl,
            areDotless_cons.mpr ⟨by simpa using hdot, hdotless⟩, hmem, ?_⟩
          rw [hfault, List.flatMap_cons, length_encodeLabel_append]
          congr 1
          omega
        · rw [hrest] at h
          cases h

lemma dot_of_value_name {ls : List Bytes} {fault : Fault} (hsized : AreSized ls)
    (h : name.value { message := wire ls } = .error fault) :
    ∃ before front label rest, AreSized before ∧ AreDotless before ∧
      Name.Flaws before front (.dotted label) ∧ wire ls = front ++ rest ∧
      (Flaw.dotted label).Shows rest ∧ fault = .dotInLabel front.length := by
  have hlabels : ∃ stop, labels 0 0 (wire ls) = (.error fault, stop) := by
    simp only [value, name, List.drop_zero] at h
    rcases hresult : labels 0 0 (wire ls) with ⟨ls' | fault', stop⟩
    · rw [hresult] at h
      cases h
      exact ⟨stop, rfl⟩
    · rw [hresult] at h
      cases h
  obtain ⟨stop, hlabels⟩ := hlabels
  obtain ⟨before, label, later, rfl, hdotless, hdot, hfault⟩ := dot_of_labels_wire hsized hlabels
  obtain ⟨hbefore, hlabel⟩ := List.forall_mem_append.mp hsized
  refine ⟨before, before.flatMap encodeLabel ++ [UInt8.ofNat label.length], label,
    label ++ wire later, hbefore, hdotless, .dot label (areSized_cons.mp hlabel).1, ?_,
    ⟨List.prefix_append _ _, hdot⟩, ?_⟩
  · simp [wire, encodeLabel]
  · rw [hfault, Nat.zero_add, List.length_append]
    rfl

end Read

/-! ## Questions and records -/

/-- What can be wrong with the numbers of a question, behind its name. -/
lemma Question.locates_numbers (name : Text) (wireName : Bytes) :
    (do
      let type ← Read.uint16
      let recordClass ← Read.uint16
      return { name, wireName, type := ⟨type⟩, recordClass } : Read Question).Locates
      fun front flaw => flaw = .short 2 ∧ (front = [] ∨ ∃ type, front = encode16 type) :=
  (Read.Locates.bind Read.accepts_uint16 Read.locates_uint16 fun _ =>
    Read.Locates.bind Read.accepts_uint16 Read.locates_uint16 fun _ => .pure _).mono <| by
  rintro front flaw (⟨rfl, rfl⟩ | ⟨type, _, _, rfl, ⟨rfl, rfl⟩ | ⟨_, _, _, _, h, _⟩, rfl⟩)
  · exact ⟨rfl, .inl rfl⟩
  · exact ⟨rfl, .inr ⟨type, List.append_nil _⟩⟩
  · cases h

/-- A question that cannot be read ends too soon, which is reported at the place where it is, or
it has a dot in its name, which is reported at its place in the name. -/
lemma Question.flaws_of_decode {before rest : Bytes} {fault : Fault} {r : Reader}
    (h : decode (.between before rest) = .error fault r) :
    ∃ front rest', rest = front ++ rest' ∧
      ((∃ n, Flaws front (.short n) ∧ rest'.length < n ∧
        fault = .unexpectedEnd (before.length + front.length)) ∨
      ∃ label, Flaws front (.dotted label) ∧ (label <+: rest' ∧ 46 ∈ label) ∧
        fault = .dotInLabel front.length) := by
  rw [decode_eq_known] at h
  rcases Read.bind_error h with h | ⟨w, r₁, hwire, h⟩
  · obtain ⟨front, rest', _, ⟨labels, n, rfl, hsized, hflaws⟩, hrest, hshows, hfault⟩ :=
      Read.locates_wireName h
    exact ⟨front, rest', hrest, .inl ⟨n, .name hsized hflaws, hshows, hfault⟩⟩
  · obtain ⟨_, rest₁, ⟨rfl, labels, hsized, rfl⟩, rfl, rfl⟩ := Read.accepts_wireName.sound hwire
    rcases Read.bind_error h with h | ⟨t, r₂, hname, h⟩
    -- The second reading starts at the front of the name, and so does its count.
    · obtain ⟨-, -, -, ⟨-, fault', hvalue, rfl⟩, -, -, rfl⟩ := Read.locates_known _ h
      obtain ⟨ls, front, label, rest', hls, hdotless, hflaws, hwire', hshows, rfl⟩ :=
        Read.dot_of_value_name hsized hvalue
      refine ⟨front, rest' ++ rest₁, by rw [hwire', List.append_assoc],
        .inr ⟨label, .dot hls hdotless hflaws, ⟨?_, hshows.2⟩, rfl⟩⟩
      exact hshows.1.trans (List.prefix_append _ _)
    · obtain ⟨_, rest₂, ⟨rfl, hvalue⟩, rfl, rfl⟩ := (Read.accepts_known _).sound hname
      obtain ⟨ls, hls, hdotless, hsame, rfl⟩ := (value_name_iff hsized).mp hvalue
      obtain ⟨front, rest', flaw, ⟨rfl, hfront⟩, hrest, hshows, hfault⟩ := locates_numbers _ _ h
      have hflaws : Flaws (wire labels ++ front) (.short 2) := by
        rw [hsame]
        rcases hfront with rfl | ⟨type, rfl⟩
        · rw [List.append_nil]
          exact .type hls hdotless
        · exact .recordClass hls hdotless type
      refine ⟨wire labels ++ front, rest', ?_, .inl ⟨2, hflaws, hshows, ?_⟩⟩
      · rw [List.append_assoc, ← hrest]
      · rw [hfault, List.append_nil, List.length_append, List.length_append, Nat.add_assoc]
        rfl

lemma RecordHeader.locates_decode : decode.Locates Entry.Flaws := by
  refine (Read.Locates.bind Read.accepts_name Read.locates_name fun _ =>
    Read.Locates.bind Read.accepts_uint16 Read.locates_uint16 fun _ =>
    Read.Locates.bind Read.accepts_uint16 Read.locates_uint16 fun _ =>
    Read.Locates.bind Read.accepts_uint32 Read.locates_uint32 fun _ =>
    Read.Locates.bind Read.accepts_uint16 Read.locates_uint16 fun _ => .pure _).mono ?_
  rintro front flaw (⟨ls, hsized, hdotless, hflaws⟩ |
    ⟨_, _, _, ⟨ls, hsized, hdotless, rfl, rfl⟩, ⟨rfl, rfl⟩ |
      ⟨type, _, _, rfl, ⟨rfl, rfl⟩ | ⟨recordClass, _, _, rfl, ⟨rfl, rfl⟩ |
        ⟨ttl, _, _, rfl, ⟨rfl, rfl⟩ | ⟨_, _, _, _, h, _⟩, rfl⟩, rfl⟩, rfl⟩, rfl⟩)
  · exact .owner hsized hdotless hflaws
  · simpa using Entry.Flaws.type hsized hdotless
  · simpa using Entry.Flaws.recordClass hsized hdotless type
  · simpa using Entry.Flaws.ttl hsized hdotless type recordClass
  · simpa using Entry.Flaws.dataSize hsized hdotless type recordClass ttl
  · cases h

namespace Request

lemma locates_passRecord : passRecord.Locates Entry.Flaws := by
  refine (Read.Locates.bind RecordHeader.accepts_decode RecordHeader.locates_decode fun _ =>
    Read.Locates.bind (Read.accepts_skip _) (Read.locates_skip _) fun _ => .pure _).mono ?_
  rintro front flaw (hflaws |
    ⟨header, _, _, ⟨ls, hsized, hdotless, -, rfl⟩, ⟨rfl, rfl⟩ | ⟨_, _, _, _, h, _⟩, rfl⟩)
  · exact hflaws
  · rw [List.append_nil]
    exact .data hsized hdotless _ _ _ _
  · cases h

/-- What can be wrong with one of `n` records. -/
def RecordsFlaws (n : Nat) (front : Bytes) (flaw : Flaw) : Prop :=
  ∃ (entries : List Entry) (last : Bytes), entries.length < n ∧ (∀ e ∈ entries, e.IsSound) ∧
    Entry.Flaws last flaw ∧ front = entries.flatMap Entry.encode ++ last

lemma recordsFlaws_of_first {n : Nat} {front : Bytes} {flaw : Flaw} (h : Entry.Flaws front flaw) :
    RecordsFlaws (n + 1) front flaw :=
  ⟨[], front, Nat.zero_lt_succ n, by simp, h, rfl⟩

lemma RecordsFlaws.behind {m n : Nat} {front : Bytes} {flaw : Flaw} {entries : List Entry}
    (hlen : entries.length = m) (hsound : ∀ e ∈ entries, e.IsSound)
    (h : RecordsFlaws n front flaw) :
    RecordsFlaws (m + n) (entries.flatMap Entry.encode ++ front) flaw := by
  obtain ⟨entries', last, hlen', hsound', hflaws, rfl⟩ := h
  refine ⟨entries ++ entries', last, ?_, List.forall_mem_append.mpr ⟨hsound, hsound'⟩, hflaws, ?_⟩
  · rw [List.length_append]
    omega
  · rw [List.flatMap_append, List.append_assoc]

lemma RecordsFlaws.behind_one {n : Nat} {front : Bytes} {flaw : Flaw} {e : Entry}
    (hsound : e.IsSound) (h : RecordsFlaws n front flaw) :
    RecordsFlaws (n + 1) (e.encode ++ front) flaw := by
  have hbehind : RecordsFlaws (1 + n) ([e].flatMap Entry.encode ++ front) flaw :=
    h.behind rfl (List.forall_mem_singleton.mpr hsound)
  rwa [List.flatMap_singleton, Nat.add_comm] at hbehind

lemma RecordsFlaws.mono {m n : Nat} {front : Bytes} {flaw : Flaw} (hle : m ≤ n)
    (h : RecordsFlaws m front flaw) : RecordsFlaws n front flaw := by
  obtain ⟨entries, last, hlen, h⟩ := h
  exact ⟨entries, last, hlen.trans_le hle, h⟩

lemma locates_passRecords (n : Nat) : (passRecords n).Locates (RecordsFlaws n) := by
  induction n with
  | zero => exact (Read.Locates.pure ()).mono fun _ _ => False.elim
  | succ n ih =>
      refine (Read.Locates.bind accepts_passRecord locates_passRecord fun _ => ih).mono ?_
      rintro front flaw (hflaws | ⟨header, _, _, ⟨e, hheads, rfl⟩, hflaws, rfl⟩)
      · exact recordsFlaws_of_first hflaws
      · exact hflaws.behind_one hheads.isSound

lemma isUnplaced_of_advertise {payload? : Option UInt16} {record : RecordHeader} {fault : Fault}
    (h : advertise payload? record = .error fault) : fault.IsUnplaced := by
  unfold advertise at h
  split_ifs at h <;> cases h <;> trivial

lemma locates_readAdditionals (payload? : Option UInt16) (n : Nat) :
    (readAdditionals payload? n).Locates fun front flaw =>
      RecordsFlaws n front flaw ∨ flaw.IsUnplaced := by
  induction n generalizing payload? with
  | zero => exact (Read.Locates.pure payload?).mono fun _ _ => False.elim
  | succ n ih =>
      rw [readAdditionals_succ]
      refine (Read.Locates.bind accepts_passRecord locates_passRecord fun _ =>
        Read.Locates.bind (Read.accepts_known _) (Read.locates_known _) fun _ => ih _).mono ?_
      rintro front flaw (hflaws | ⟨header, _, _, ⟨e, hheads, rfl⟩, ⟨rfl, fault, hfault, rfl⟩ |
        ⟨later?, _, _, ⟨rfl, -⟩, hflaws | hother, rfl⟩, rfl⟩)
      · exact .inl (recordsFlaws_of_first hflaws)
      · exact .inr (isUnplaced_of_advertise hfault)
      · exact .inl (hflaws.behind_one hheads.isSound)
      · exact .inr hother

/-- What can be wrong behind the question of a query. -/
lemma locates_records (header : Header) (question : Question) :
    (Read.known (if question.recordClass ≠ classInternet
        then .error (.unsupportedClass question.recordClass) else .ok ()) >>= fun _ =>
      passRecords (header.answers.toNat + header.authorities.toNat) >>= fun _ =>
      readAdditionals none header.additionals.toNat >>= fun payload? =>
      (pure { header, question, payload? } : Read Request)).Locates fun front flaw =>
        question.recordClass = classInternet ∧ RecordsFlaws (header.answers.toNat +
          header.authorities.toNat + header.additionals.toNat) front flaw ∨ flaw.IsUnplaced := by
  refine (Read.Locates.bind (Read.accepts_known _) (Read.locates_known _) fun _ =>
    Read.Locates.bind (accepts_passRecords _) (locates_passRecords _) fun _ =>
    Read.Locates.bind (accepts_readAdditionals _ _) (locates_readAdditionals _ _) fun _ =>
      .pure _).mono ?_
  rintro front flaw (⟨rfl, fault, hfault, rfl⟩ | ⟨_, _, _, ⟨rfl, hclass⟩, hrest, rfl⟩)
  · split_ifs at hfault
    cases hfault
    exact .inr trivial
  have hinternet : question.recordClass = classInternet := by
    by_contra hne
    rw [if_pos hne] at hclass
    cases hclass
  rcases hrest with hflaws | ⟨_, _, _, ⟨entries, hlen, hsound, rfl⟩,
    (hflaws | hother) | ⟨_, _, _, _, h, _⟩, rfl⟩
  · exact .inl ⟨hinternet, hflaws.mono (Nat.le_add_right _ _)⟩
  · exact .inl ⟨hinternet, hflaws.behind hlen hsound⟩
  · exact .inr hother
  · cases h

/-! ## Queries -/

/-- The octets are a header that promises a query. -/
structure Promises (octets : Bytes) (header : Header) : Prop where
  spells : header.Spells octets
  isQuery : header.isResponse = false
  isStandard : header.opcode = 0
  oneQuestion : header.questions = 1

/-- What can be wrong with the question of a query. -/
inductive QuestionFlaws : (front : Bytes) → Flaw → Prop
  | behind {octets front : Bytes} {header : Header} {flaw : Flaw}
      (promises : Promises octets header) (flaws : Question.Flaws front flaw) :
      QuestionFlaws (octets ++ front) flaw

/-- What can be wrong with the records of a query, given that nothing is with its question. -/
inductive RecordFlaws : (front : Bytes) → Flaw → Prop
  | behind {octets front : Bytes} {header : Header} {labels : List Bytes} {flaw : Flaw}
      (promises : Promises octets header) (sized : AreSized labels) (dotless : AreDotless labels)
      (type : UInt16) (flaws : RecordsFlaws (header.answers.toNat + header.authorities.toNat +
        header.additionals.toNat) front flaw) :
      RecordFlaws (octets ++ (wire labels ++ encode16 type ++ encode16 classInternet ++ front)) flaw

end Request

/-! ## Places -/

/-- A label starts at a place, right behind its length. -/
def Name.LabelAt (octets : Bytes) (place : Nat) (label : Bytes) : Prop :=
  ∃ before rest, octets = before ++ encodeLabel label ++ rest ∧ place = before.length + 1 ∧
    label ≠ [] ∧ label.length ≤ 255

lemma Name.LabelAt.behind {octets label : Bytes} {place : Nat} (before : Bytes)
    (h : LabelAt octets place label) :
    LabelAt (before ++ octets) (before.length + place) label := by
  obtain ⟨before', rest, rfl, rfl, hsized⟩ := h
  refine ⟨before ++ before', rest, ?_, ?_, hsized⟩
  · simp only [List.append_assoc]
  · rw [List.length_append, Nat.add_assoc]

lemma Name.Flaws.labelAt {labels : List Bytes} {front rest label : Bytes}
    (h : Name.Flaws labels front (.dotted label)) (hlabel : label <+: rest) :
    LabelAt (front ++ rest) front.length label := by
  obtain ⟨rest', rfl⟩ := hlabel
  cases h with
  | dot label sized =>
      refine ⟨labels.flatMap encodeLabel, rest', ?_, List.length_append, sized⟩
      simp [encodeLabel]

namespace Request

variable {datagram front rest label : Bytes} {fault : Fault}

lemma QuestionFlaws.labelAt (h : QuestionFlaws front (.dotted label)) (hlabel : label <+: rest) :
    Name.LabelAt (front ++ rest) front.length label := by
  obtain ⟨-, _ | ⟨-, -, hflaws⟩⟩ := h
  rw [List.append_assoc, List.length_append]
  exact (hflaws.labelAt hlabel).behind _

lemma RecordFlaws.labelAt (h : RecordFlaws front (.dotted label)) (hlabel : label <+: rest) :
    Name.LabelAt (front ++ rest) front.length label := by
  obtain ⟨-, -, -, type, entries, last, -, -, ⟨-, -, hflaws⟩, rfl⟩ := h
  simp only [← List.append_assoc]
  rw [List.append_assoc, List.length_append]
  exact (hflaws.labelAt hlabel).behind _

/-- What a fault tells about the datagram that it was found in. -/
def Tells (datagram : Bytes) : Fault → Prop
  -- Fewer octets are left than what stands in front asks for.
  | .unexpectedEnd place =>
    place ≤ datagram.length ∧ ∃ n, datagram.length < place + n ∧
      (QuestionFlaws (datagram.take place) (.short n) ∨
        RecordFlaws (datagram.take place) (.short n))
  -- In the name of the question, the place is that in the name.
  | .dotInLabel place =>
    ∃ label, 46 ∈ label ∧
      (Name.LabelAt datagram place label ∧ RecordFlaws (datagram.take place) (.dotted label) ∨
        Name.LabelAt datagram (headerSize + place) label ∧
          QuestionFlaws (datagram.take (headerSize + place)) (.dotted label))
  | _ => True

lemma tells_of_isUnplaced (h : fault.IsUnplaced) : Tells datagram fault := by
  cases fault with
  | unexpectedEnd place => cases h
  | dotInLabel place => cases h
  | _ => trivial

lemma tells_of_short {n : Nat}
    (hflaws : QuestionFlaws front (.short n) ∨ RecordFlaws front (.short n))
    (hshort : rest.length < n) : Tells (front ++ rest) (.unexpectedEnd front.length) := by
  refine ⟨?_, n, ?_, ?_⟩
  · simp
  · rw [List.length_append]
    omega
  · rwa [List.take_left]

lemma tells_of_body {octets : Bytes} {header : Header} {r : Reader}
    (hpromises : Promises octets header) (h : body header (.between octets rest) = .error fault r) :
    Tells (octets ++ rest) fault := by
  rw [body_eq_known] at h
  rcases Read.bind_error h with h | ⟨question, r₁, hquestion, h⟩
  · obtain ⟨front, rest, rfl, ⟨n, hflaws, hshort, rfl⟩ | ⟨label, hflaws, ⟨hlabel, hdot⟩, rfl⟩⟩ :=
      Question.flaws_of_decode h
    · rw [← List.append_assoc, ← List.length_append]
      exact tells_of_short (.inl ⟨hpromises, hflaws⟩) hshort
    · have hquestionFlaws : QuestionFlaws (octets ++ front) (.dotted label) := ⟨hpromises, hflaws⟩
      have hplace : headerSize + front.length = (octets ++ front).length := by
        rw [List.length_append, hpromises.spells.length]
      refine ⟨label, hdot, .inr ?_⟩
      rw [hplace, ← List.append_assoc, List.take_left]
      exact ⟨hquestionFlaws.labelAt hlabel, hquestionFlaws⟩
  · obtain ⟨_, rest₁, ⟨rfl, labels, hsized, hdotless, hwire, -⟩, rfl, rfl⟩ :=
      Question.accepts_decode.sound hquestion
    obtain ⟨last, rest₂, flaw, ⟨hinternet, hflaws⟩ | hunplaced, rfl, hshows, rfl⟩ :=
      locates_records header question h
    · have hrecordFlaws : RecordFlaws (octets ++ question.encode ++ last) flaw := by
        rw [Question.encode, hwire, hinternet, List.append_assoc]
        exact .behind hpromises hsized hdotless _ hflaws
      rw [← List.append_assoc, ← List.append_assoc, ← List.length_append]
      cases flaw with
      | short n => exact tells_of_short (.inr hrecordFlaws) hshows
      | dotted label =>
          refine ⟨label, hshows.2, .inl ⟨hrecordFlaws.labelAt hshows.1, ?_⟩⟩
          rwa [List.take_left]
      | unplaced fault =>
          obtain ⟨entries, last', -, -, ⟨-, -, hname⟩, -⟩ := hflaws
          cases hname
    · cases flaw with
      | short n => cases hunplaced
      | dotted label => cases hunplaced
      | unplaced fault => exact tells_of_isUnplaced hunplaced

/-- **Faults tell where they are.**  Whatever is wrong with a datagram, octets that are missing are
reported at the place from which they were asked for, and a dot in a label at the place where the
label starts, which is counted from the start of the name if that is the name of the question. -/
theorem locates_faults (h : parse datagram = .error fault) : Tells datagram fault := by
  by_cases hlen : headerSize ≤ datagram.length
  · obtain ⟨header, hspells⟩ := exists_spells hlen
    rw [parse_of_spells hspells] at h
    split_ifs at h with hresponse hopcode hcount
    · cases h
      trivial
    · cases h
      trivial
    · cases h
      trivial
    · unfold Read.value at h
      split at h
      · cases h
      · rename_i hbody
        cases h
        rw [← List.take_append_drop headerSize datagram]
        exact tells_of_body ⟨hspells, Bool.eq_false_of_not_eq_true hresponse, not_not.mp hopcode,
          not_not.mp hcount⟩ hbody
  · rw [parse, Header.decode_of_short (Nat.not_le.mp hlen)] at h
    cases h
    split_ifs <;> trivial

/-- A query about a name whose only label has a dot inside. -/
def dottedQuery : Bytes :=
  [0, 7, 1, 0, 0, 1, 0, 0, 0, 0, 0, 0, 3, 97, 46, 98, 0, 0, 1, 0, 1]

/-- A query about the root with a record behind it that belongs to such a name. -/
def dottedRecord : Bytes :=
  [0, 7, 1, 0, 0, 1, 0, 1, 0, 0, 0, 0, 0, 0, 1, 0, 1, 3, 97, 46, 98, 0]

/-- A query that ends inside the only label of its name. -/
def cutQuery : Bytes := [0, 7, 1, 0, 0, 1, 0, 0, 0, 0, 0, 0, 3, 97, 46]

/-- In the datagram, the first label starts at 13 and the second at 18.  The octets of the third are
missing from 13 on. -/
theorem locates_faults_dotted :
    (parse dottedQuery = .error (.dotInLabel 1) ∧ Tells dottedQuery (.dotInLabel 1)) ∧
    (parse dottedRecord = .error (.dotInLabel 18) ∧ Tells dottedRecord (.dotInLabel 18)) ∧
    parse cutQuery = .error (.unexpectedEnd 13) ∧ Tells cutQuery (.unexpectedEnd 13) := by
  have hquery : parse dottedQuery = .error (.dotInLabel 1) := rfl
  have hrecord : parse dottedRecord = .error (.dotInLabel 18) := rfl
  have hcut : parse cutQuery = .error (.unexpectedEnd 13) := rfl
  exact ⟨⟨hquery, locates_faults hquery⟩, ⟨hrecord, locates_faults hrecord⟩,
    hcut, locates_faults hcut⟩

end Request

end Nameserver

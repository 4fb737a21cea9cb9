import Nameserver.Proofs.Message.Names

/-!
# Places of a reader

A caller may read in any order and go on after a failure.  `Reader.trace` is what happens to a
reader that is used in such a way, step by step, and `Reader.Step.IsOrderly` is what holds of every
step: the place only moves forward, it never moves past the end, and a reading of octets or of a
number that fails leaves it alone and reports it.

**Two readings of a name.**  `Read.name` and `Read.wireName` walk over the same labels in two loops
of their own.  `Read.name_eq_ok_iff` says that they agree: one of them succeeds if the other one
does and no label has a dot, at the same place, and with the same name.
-/

namespace Nameserver

open Name (wire AreSized AreDotless)

variable {α β : Type}

/-- A reader that was moved on within its message. -/
structure Reader.Reaches (r r' : Reader) : Prop where
  message : r'.message = r.message
  forward : r.offset ≤ r'.offset
  /-- It is not past the end, unless it was so before. -/
  within : r.offset ≤ r.message.length → r'.offset ≤ r.message.length

namespace Reader.Reaches

lemma refl (r : Reader) : r.Reaches r := ⟨rfl, le_rfl, id⟩

lemma trans {r r' r'' : Reader} (h : r.Reaches r') (h' : r'.Reaches r'') : r.Reaches r'' where
  message := h'.message.trans h.message
  forward := h.forward.trans h'.forward
  within hoffset := by
    have hwithin := h'.within
    rw [h.message] at hwithin
    exact hwithin (h.within hoffset)

end Reader.Reaches

namespace Read

variable {reading : Read α} {next : α → Read β}

/-! ## Moving on -/

/-- The reading moves the reader on within its message, whether it succeeds or not. -/
structure Advances (reading : Read α) : Prop where
  ok : ∀ {r a r'}, reading r = .ok a r' → r.Reaches r'
  error : ∀ {r fault r'}, reading r = .error fault r' → r.Reaches r'

lemma Advances.pure (a : α) : (pure a : Read α).Advances where
  ok := by
    intro r b r' h
    cases h
    exact .refl r
  error := by
    intro r fault r' h
    cases h

lemma Advances.bind (hfirst : reading.Advances) (hnext : ∀ a, (next a).Advances) :
    (reading >>= next).Advances where
  ok := by
    intro r b r' h
    obtain ⟨a, r₁, hread, h⟩ := bind_ok h
    exact (hfirst.ok hread).trans ((hnext a).ok h)
  error := by
    intro r fault r' h
    rcases bind_error h with h | ⟨a, r₁, hread, h⟩
    · exact hfirst.error h
    · exact (hfirst.ok hread).trans ((hnext a).error h)

lemma advances_take (n : Nat) : (take n).Advances where
  ok := by
    intro r bytes r' h
    unfold take at h
    split at h
    · rename_i hlen
      cases h
      exact ⟨rfl, Nat.le_add_right _ _, fun _ => hlen⟩
    · cases h
  error := by
    intro r fault r' h
    unfold take at h
    split at h
    · cases h
    · cases h
      exact .refl r

lemma advances_skip (n : Nat) : (skip n).Advances := (advances_take n).bind fun _ => .pure ()

lemma advances_uint8 : uint8.Advances := (advances_take 1).bind fun _ => .pure _

lemma advances_uint16 : uint16.Advances := (advances_take 2).bind fun _ => .pure _

lemma advances_uint32 : uint32.Advances := (advances_take 4).bind fun _ => .pure _

/-- However far the labels of a name can be read, that is not behind the last octet. -/
lemma stop_of_labels (offset : Nat) (bytes : Bytes) :
    offset ≤ (labels offset 0 bytes).2 ∧ (labels offset 0 bytes).2 ≤ offset + bytes.length := by
  induction offset, bytes using walk_induction with
  | nil offset => exact ⟨le_rfl, le_rfl⟩
  | root offset rest => exact ⟨Nat.le_succ _, Nat.add_le_add_left (Nat.succ_pos _) _⟩
  | short offset size rest hzero hshort =>
      rw [labels_short hzero hshort]
      exact ⟨Nat.le_succ _, Nat.add_le_add_left (Nat.succ_pos _) _⟩
  | label offset label rest hlabel ih =>
      rw [labels_label hlabel, Name.encodeLabel, List.length_append, List.length_cons]
      split_ifs <;> simp only <;> omega

lemma stop_of_nameEnd {offset stop : Nat} {bytes : Bytes}
    (h : nameEnd offset 0 bytes = .ok stop ∨ nameEnd offset 0 bytes = .error stop) :
    offset ≤ stop ∧ stop ≤ offset + bytes.length := by
  induction offset, bytes using walk_induction with
  | nil offset =>
      obtain h | h := h <;> cases h
      exact ⟨le_rfl, le_rfl⟩
  | root offset rest =>
      obtain h | h := h <;> cases h
      exact ⟨Nat.le_succ _, Nat.add_le_add_left (Nat.succ_pos _) _⟩
  | short offset size rest hzero hshort =>
      rw [nameEnd_short hzero hshort] at h
      obtain h | h := h <;> cases h
      exact ⟨Nat.le_succ _, Nat.add_le_add_left (Nat.succ_pos _) _⟩
  | label offset label rest hlabel ih =>
      rw [nameEnd_label hlabel] at h
      have hstop := ih h
      rw [Name.encodeLabel, List.length_append, List.length_cons]
      omega

lemma reaches_of_stop {r : Reader} {stop : Nat}
    (h : r.offset ≤ stop ∧ stop ≤ r.offset + (r.message.drop r.offset).length) :
    r.Reaches { r with offset := stop } := by
  rw [List.length_drop] at h
  refine ⟨rfl, h.1, fun hoffset => ?_⟩
  show stop ≤ r.message.length
  omega

lemma advances_name : name.Advances := by
  have hreaches : ∀ r : Reader,
      r.Reaches { r with offset := (labels r.offset 0 (r.message.drop r.offset)).2 } := fun r =>
    reaches_of_stop (stop_of_labels r.offset _)
  constructor
  · intro r text r' h
    have hstop := hreaches r
    unfold name at h
    split at h
    · rename_i hlabels
      cases h
      rwa [hlabels] at hstop
    · cases h
  · intro r fault r' h
    have hstop := hreaches r
    unfold name at h
    split at h
    · cases h
    · rename_i hlabels
      cases h
      rwa [hlabels] at hstop

lemma advances_wireName : wireName.Advances := by
  constructor
  · intro r text r' h
    unfold wireName at h
    split at h
    · rename_i hend
      cases h
      exact reaches_of_stop (stop_of_nameEnd (.inl hend))
    · cases h
  · intro r fault r' h
    unfold wireName at h
    split at h
    · cases h
    · rename_i hend
      cases h
      exact reaches_of_stop (stop_of_nameEnd (.inr hend))

/-! ## Staying -/

/-- A reading that fails leaves the reader where it was, and reports that place. -/
def Stays (reading : Read α) : Prop :=
  ∀ ⦃r fault r'⦄, reading r = .error fault r' → r' = r ∧ fault = .unexpectedEnd r.offset

lemma stays_take (n : Nat) : (take n).Stays := by
  intro r fault r' h
  unfold take at h
  split at h
  · cases h
  · cases h
    exact ⟨rfl, rfl⟩

lemma Stays.bind_pure (h : reading.Stays) (f : α → β) :
    (reading >>= fun a => pure (f a)).Stays := by
  intro r fault r' herror
  rcases bind_error herror with herror | ⟨a, r₁, -, herror⟩
  · exact h herror
  · cases herror

/-! ## Two readings of a name -/

/-- **The two readings of a name agree.** -/
theorem name_eq_ok_iff {r r' : Reader} {text : Text} :
    name r = .ok text r' ↔ ∃ labels, AreSized labels ∧ AreDotless labels ∧
      wireName r = .ok (wire labels) r' ∧
      name { message := wire labels } =
        .ok text { message := wire labels, offset := (wire labels).length } := by
  have hwhole : ∀ {labels : List Bytes}, AreSized labels → AreDotless labels →
      name { message := wire labels } =
        .ok (Name.dotted labels) { message := wire labels, offset := (wire labels).length } := by
    intro labels hsized hdotless
    simpa [Reader.between] using
      accepts_name.complete ⟨labels, hsized, hdotless, rfl, rfl⟩ [] []
  constructor
  · intro h
    obtain ⟨before, rest, rfl⟩ := Reader.exists_between (offset_le_of_name h)
    obtain ⟨_, rest', ⟨labels, hsized, hdotless, rfl, rfl⟩, rfl, rfl⟩ := accepts_name.sound h
    exact ⟨labels, hsized, hdotless, yields_wireName hsized before rest', hwhole hsized hdotless⟩
  · rintro ⟨labels, hsized, hdotless, hwire, hname⟩
    obtain ⟨before, rest, rfl⟩ := Reader.exists_between (offset_le_of_wireName hwire)
    obtain ⟨_, rest', ⟨rfl, -⟩, rfl, rfl⟩ := accepts_wireName.sound hwire
    rw [hwhole hsized hdotless] at hname
    cases hname
    exact accepts_name.complete ⟨labels, hsized, hdotless, rfl, rfl⟩ before rest'

/-- What is read as the octets of a name is one list of labels. -/
lemma existsUnique_labels {r r' : Reader} {octets : Bytes} (h : wireName r = .ok octets r') :
    ∃! labels, AreSized labels ∧ octets = wire labels := by
  obtain ⟨before, rest, rfl⟩ := Reader.exists_between (offset_le_of_wireName h)
  obtain ⟨_, rest', ⟨rfl, labels, hsized, rfl⟩, rfl, rfl⟩ := accepts_wireName.sound h
  refine ⟨labels, ⟨hsized, rfl⟩, ?_⟩
  rintro labels' ⟨hsized', heq⟩
  have hwhole : wire labels' ++ [] = wire labels ++ [] := by rw [heq]
  exact wire_append_inj hsized' hsized hwhole

end Read

/-- A name is read in the same way in both forms from where the reader is. -/
structure Reader.NamesAgree (r : Reader) : Prop where
  /-- The octets of a name are those of labels, which they tell. -/
  labels : ∀ octets r', Read.wireName r = .ok octets r' →
    ∃! labels, AreSized labels ∧ octets = wire labels
  /-- The name is read if these have no dot, out of the message and out of the octets. -/
  name : ∀ text r', Read.name r = .ok text r' ↔ ∃ labels, AreSized labels ∧ AreDotless labels ∧
    Read.wireName r = .ok (wire labels) r' ∧
    Read.name { message := wire labels } =
      .ok text { message := wire labels, offset := (wire labels).length }

lemma Reader.namesAgree (r : Reader) : r.NamesAgree where
  labels _ _ := Read.existsUnique_labels
  name _ _ := Read.name_eq_ok_iff

/-! ## Runs -/

namespace Reader

/-- What a reading gives. -/
inductive Value where
  | nothing
  | octets (bytes : Bytes)
  | number (n : Nat)
  | text (t : Text)
deriving DecidableEq, Repr

/-- One of the readings, with the numbers that a caller may give it. -/
inductive Operation where
  | bytes (n : UInt64)
  /-- Octets that nobody looks at. -/
  | skip (n : UInt64)
  | uint8
  | uint16
  | uint32
  | name
  /-- The octets of a name. -/
  | wireName
deriving DecidableEq, Repr

namespace Operation

/-- The reading that an operation stands for. -/
def read : Operation → Read Value
  | bytes n => return .octets (← Read.take n.toNat)
  | skip n => do
    Read.skip n.toNat
    return .nothing
  | uint8 => return .number (← Read.uint8).toNat
  | uint16 => return .number (← Read.uint16).toNat
  | uint32 => return .number (← Read.uint32).toNat
  | name => return .text (← Read.name)
  | wireName => return .octets (← Read.wireName)

/-- It reads octets or a number, and no name. -/
def IsPlain : Operation → Prop
  | name | wireName => False
  | _ => True

lemma advances_read (operation : Operation) : operation.read.Advances := by
  cases operation with
  | bytes n => exact (Read.advances_take _).bind fun _ => .pure _
  | skip n => exact (Read.advances_skip _).bind fun _ => .pure _
  | uint8 => exact Read.advances_uint8.bind fun _ => .pure _
  | uint16 => exact Read.advances_uint16.bind fun _ => .pure _
  | uint32 => exact Read.advances_uint32.bind fun _ => .pure _
  | name => exact Read.advances_name.bind fun _ => .pure _
  | wireName => exact Read.advances_wireName.bind fun _ => .pure _

lemma stays_read {operation : Operation} (h : operation.IsPlain) : operation.read.Stays := by
  cases operation with
  | bytes n => exact (Read.stays_take _).bind_pure _
  | skip n => exact ((Read.stays_take _).bind_pure _).bind_pure _
  | uint8 => exact ((Read.stays_take 1).bind_pure _).bind_pure _
  | uint16 => exact ((Read.stays_take 2).bind_pure _).bind_pure _
  | uint32 => exact ((Read.stays_take 4).bind_pure _).bind_pure _
  | name | wireName => cases h

end Operation

/-- One reading of a run, with the reader before and after it. -/
structure Step (σ : Type) where
  operation : Operation
  before : σ
  result : Except Fault Value
  after : σ

/-- The same step of a reader of another kind. -/
def Step.map {σ τ : Type} (f : σ → τ) (step : Step σ) : Step τ :=
  { operation := step.operation, before := f step.before, result := step.result,
    after := f step.after }

/-- What happens when a reader is used, whether readings succeed or not. -/
def trace : List Operation → Reader → List (Step Reader)
  | [], _ => []
  | operation :: operations, r =>
    match operation.read r with
    | .ok value after => ⟨operation, r, .ok value, after⟩ :: trace operations after
    | .error fault after => ⟨operation, r, .error fault, after⟩ :: trace operations after

/-- The reader stays in its message, and a plain reading that fails reports its place. -/
structure Step.IsOrderly (step : Step Reader) : Prop where
  reaches : step.before.Reaches step.after
  stays : step.operation.IsPlain → ∀ fault, step.result = .error fault →
    step.after = step.before ∧ fault = .unexpectedEnd step.before.offset

lemma isOrderly_of_ok {operation : Operation} {r r' : Reader} {value : Value}
    (h : operation.read r = .ok value r') : Step.IsOrderly ⟨operation, r, .ok value, r'⟩ where
  reaches := operation.advances_read.ok h
  stays _ fault hfault := by cases hfault

lemma isOrderly_of_error {operation : Operation} {r r' : Reader} {fault : Fault}
    (h : operation.read r = .error fault r') :
    Step.IsOrderly ⟨operation, r, .error fault, r'⟩ where
  reaches := operation.advances_read.error h
  stays hplain fault' hfault := by
    cases hfault
    exact Operation.stays_read hplain h

/-- Every step of a run is orderly, and it happens where the run has come to. -/
lemma isOrderly_of_mem_trace {operations : List Operation} {r : Reader} {step : Step Reader}
    (h : step ∈ trace operations r) : r.Reaches step.before ∧ step.IsOrderly := by
  induction operations generalizing r with
  | nil => cases h
  | cons operation operations ih =>
      rw [trace] at h
      split at h
      · rename_i value after hread
        have horderly := isOrderly_of_ok hread
        rcases List.mem_cons.mp h with rfl | h
        · exact ⟨.refl r, horderly⟩
        · exact (ih h).imp_left horderly.reaches.trans
      · rename_i fault after hread
        have horderly := isOrderly_of_error hread
        rcases List.mem_cons.mp h with rfl | h
        · exact ⟨.refl r, horderly⟩
        · exact (ih h).imp_left horderly.reaches.trans

end Reader

end Nameserver

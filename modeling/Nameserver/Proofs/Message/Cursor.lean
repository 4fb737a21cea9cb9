import Nameserver.Proofs.Message.Entries
import Nameserver.Proofs.Message.Positions

/-!
# Reading with numbers of 64 bits

The readings of the model count in natural numbers and take octets from lists, so that nothing in
them can go wrong.  A `Cursor` is a reader as a machine has it: its place is a number of 64 bits,
and octets are found by their index.  `Scan.slice` and `Scan.index` stop with `Halt.trap` if an
index is outside of what they look into, and the loops over labels do so if they run on for more
rounds than there are octets.

A scan `Scan.Follows` a reading if it does the same and does not trap.  This holds of all of them,
from any place, with any numbers (`Reader.Operation.follows`), so `Cursor.reads_safely` can say
that no run traps and that the places of a run are those of the model.

**Sums.**  The only sum is that of a place and the number of octets to read.  It is checked
(`checkedAdd?`), and one that is too large is the end of the message, as it is for natural numbers,
because the length of a buffer has 64 bits as well.
-/

namespace Nameserver

open Name (wire AreSized AreDotless areSized_cons)

variable {α β : Type}

/-- The sum, unless it is too large for 64 bits. -/
def checkedAdd? (m n : UInt64) : Option UInt64 :=
  if m.toNat + n.toNat < UInt64.size then some (m + n) else none

/-- A place in a buffer. -/
structure Cursor where
  buffer : Bytes
  position : UInt64
  /-- The length of a buffer has 64 bits. -/
  fits : buffer.length < UInt64.size

/-- The reader that is at the same place of the same message. -/
def Cursor.reader (c : Cursor) : Reader := { message := c.buffer, offset := c.position.toNat }

/-- Why a scan stops. -/
inductive Halt where
  /-- An index is outside of what is looked into, or a loop does not end. -/
  | trap
  | fault (fault : Fault)

/-- A reading with numbers of 64 bits, which may look outside of what there is. -/
abbrev Scan (α : Type) := EStateM Halt Cursor α

namespace Scan

/-- Ends the scan because of an error in the program. -/
def trap : Scan α := throw .trap

/-- Ends the scan because of a fault in the message. -/
def fail (fault : Fault) : Scan α := throw (.fault fault)

/-- The octets from one index up to another. -/
def slice (start stop : UInt64) : Scan Bytes := fun c =>
  if start ≤ stop ∧ stop.toNat ≤ c.buffer.length then
    .ok ((c.buffer.drop start.toNat).take (stop.toNat - start.toNat)) c
  else .error .trap c

/-- One of some octets. -/
def index (octets : Bytes) (i : Nat) : Scan UInt8 :=
  match octets[i]? with
  | some b => return b
  | none => trap

/-- Where the cursor is. -/
def place : Scan UInt64 := fun c => .ok c.position c

/-- Moves the cursor, without looking whether the buffer is that long. -/
def moveTo (position : UInt64) : Scan Unit := fun c => .ok () { c with position }

/-- The length of the buffer. -/
def length : Scan Nat := fun c => .ok c.buffer.length c

/-- The next `n` octets.  The end may be too far away for a number of 64 bits. -/
def bytes (n : UInt64) : Scan Bytes := do
  let start ← place
  match checkedAdd? start n with
  | none => fail (.unexpectedEnd start.toNat)
  | some stop =>
    if stop.toNat ≤ (← length) then
      let octets ← slice start stop
      moveTo stop
      return octets
    else fail (.unexpectedEnd start.toNat)

/-- Passes over `n` octets. -/
def skip (n : UInt64) : Scan Unit := do
  let _ ← bytes n

/-- A number of one octet, which is looked up among the octets that were read. -/
def uint8 : Scan UInt8 := do
  index (← bytes 1) 0

/-- A number of two octets. -/
def uint16 : Scan UInt16 := do
  let octets ← bytes 2
  let high ← index octets 0
  let low ← index octets 1
  return UInt16.ofNat (decodeNat [high, low])

/-- A number of four octets. -/
def uint32 : Scan UInt32 := do
  let octets ← bytes 4
  let first ← index octets 0
  let second ← index octets 1
  let third ← index octets 2
  let fourth ← index octets 3
  return UInt32.ofNat (decodeNat [first, second, third, fourth])

/-- A name with one more label at its end. -/
def pushLabel (name : Text) (label : Bytes) : Text :=
  (if name.isEmpty then name else name ++ ['.']) ++ Utf8.decodeLossy label

/-- The rest of a name in dotted form, in so many rounds. -/
def nameLoop : (rounds : Nat) → Text → Scan Text
  | 0, _ => trap
  | rounds + 1, name => do
    let size ← uint8
    if size = 0 then return name else
    let start ← place
    let label ← bytes size.toUInt64
    if label.contains 46 then fail (.dotInLabel start.toNat)
    else nameLoop rounds (pushLabel name label)

/-- A name in dotted form. -/
def name : Scan Text := do
  nameLoop ((← length) + 1) []

/-- The octets of a name that starts at `start`, in so many rounds. -/
def wireNameLoop (start : UInt64) : (rounds : Nat) → Scan Bytes
  | 0 => trap
  | rounds + 1 => do
    let size ← uint8
    if size = 0 then slice start (← place)
    else
      skip size.toUInt64
      wireNameLoop start rounds

/-- The octets of a name, its terminator included. -/
def wireName : Scan Bytes := do
  let start ← place
  wireNameLoop start ((← length) + 1)

/-! ## Following a reading -/

variable {scan : Scan α} {next : α → Scan β} {reading : Read α} {nextReading : α → Read β}
  {c : Cursor}

/-- The scan does what the reading does. -/
def Follows (scan : Scan α) (reading : Read α) (c : Cursor) : Prop :=
  match reading c.reader with
  | .ok a r => ∃ c', scan c = .ok a c' ∧ c'.reader = r
  | .error fault r => ∃ c', scan c = .error (.fault fault) c' ∧ c'.reader = r

lemma bind_apply (scan : Scan α) (next : α → Scan β) (c : Cursor) :
    (scan >>= next) c = match scan c with
      | .ok a c => next a c
      | .error halt c => .error halt c := by
  show EStateM.bind scan next c = _
  unfold EStateM.bind
  cases scan c <;> rfl

lemma follows_pure (a : α) (c : Cursor) : Follows (pure a) (pure a) c := ⟨c, rfl, rfl⟩

lemma follows_fail (fault : Fault) (c : Cursor) :
    Follows (fail fault : Scan α) (throw fault) c := ⟨c, rfl, rfl⟩

lemma Follows.bind (h : Follows scan reading c)
    (hnext : ∀ a c', reading c.reader = .ok a c'.reader → Follows (next a) (nextReading a) c') :
    Follows (scan >>= next) (reading >>= nextReading) c := by
  unfold Follows at h ⊢
  rw [Read.bind_apply, bind_apply]
  rcases hread : reading c.reader with ⟨a, r⟩ | ⟨fault, r⟩
  · rw [hread] at h
    obtain ⟨c', hscan, rfl⟩ := h
    rw [hscan]
    exact hnext a c' hread
  · rw [hread] at h
    obtain ⟨c', hscan, rfl⟩ := h
    rw [hscan]
    exact ⟨c', rfl, rfl⟩

/-- A sum that does not have 64 bits is past the end of every buffer. -/
lemma toNat_add_of_le {c : Cursor} {n : UInt64}
    (h : c.position.toNat + n.toNat ≤ c.buffer.length) :
    checkedAdd? c.position n = some (c.position + n) ∧
      (c.position + n).toNat = c.position.toNat + n.toNat := by
  have hsum : c.position.toNat + n.toNat < UInt64.size := h.trans_lt c.fits
  refine ⟨if_pos hsum, ?_⟩
  rw [UInt64.toNat_add]
  exact Nat.mod_eq_of_lt hsum

lemma slice_of_le {start stop : UInt64} (hstart : start ≤ stop)
    (hstop : stop.toNat ≤ c.buffer.length) :
    slice start stop c =
      .ok ((c.buffer.drop start.toNat).take (stop.toNat - start.toNat)) c :=
  if_pos ⟨hstart, hstop⟩

lemma bytes_of_le {n : UInt64} (h : c.position.toNat + n.toNat ≤ c.buffer.length) :
    bytes n c = .ok ((c.buffer.drop c.position.toNat).take n.toNat)
      { c with position := c.position + n } := by
  obtain ⟨hsum, hstop⟩ := toNat_add_of_le h
  have hslice : slice c.position (c.position + n) c =
      .ok ((c.buffer.drop c.position.toNat).take n.toNat) c := by
    rw [slice_of_le, hstop, Nat.add_sub_cancel_left]
    · rw [UInt64.le_iff_toNat_le, hstop]
      exact Nat.le_add_right _ _
    · rwa [hstop]
  simp only [bytes, bind_apply, place, hsum, length, hstop, if_pos h, hslice, moveTo]
  rfl

lemma bytes_of_lt {n : UInt64} (h : c.buffer.length < c.position.toNat + n.toNat) :
    bytes n c = .error (.fault (.unexpectedEnd c.position.toNat)) c := by
  simp only [bytes, bind_apply, place]
  -- The octets are missing in both cases, but only in the first there is a place behind them.
  by_cases hsum : c.position.toNat + n.toNat < UInt64.size
  · have hstop : (c.position + n).toNat = c.position.toNat + n.toNat := by
      rw [UInt64.toNat_add]
      exact Nat.mod_eq_of_lt hsum
    rw [checkedAdd?, if_pos hsum]
    simp only [bind_apply, length, hstop, if_neg (Nat.not_le.mpr h)]
    rfl
  · rw [checkedAdd?, if_neg hsum]
    rfl

lemma follows_bytes (n : UInt64) (c : Cursor) : Follows (bytes n) (Read.take n.toNat) c := by
  by_cases hlen : c.position.toNat + n.toNat ≤ c.buffer.length
  · have hread : Read.take n.toNat c.reader = .ok ((c.buffer.drop c.position.toNat).take n.toNat)
        { c.reader with offset := c.position.toNat + n.toNat } := if_pos hlen
    rw [Follows, hread]
    refine ⟨_, bytes_of_le hlen, ?_⟩
    rw [Cursor.reader, (toNat_add_of_le hlen).2]
    rfl
  · have hread : Read.take n.toNat c.reader =
        .error (.unexpectedEnd c.position.toNat) c.reader := if_neg hlen
    rw [Follows, hread]
    exact ⟨c, bytes_of_lt (Nat.not_le.mp hlen), rfl⟩

lemma follows_skip (n : UInt64) (c : Cursor) : Follows (skip n) (Read.skip n.toNat) c :=
  (follows_bytes n c).bind fun _ c' _ => follows_pure () c'

lemma length_of_take {n : Nat} {octets : Bytes} {r r' : Reader}
    (h : Read.take n r = .ok octets r') : octets.length = n := by
  unfold Read.take at h
  split at h
  · cases h
    rw [List.length_take, List.length_drop]
    omega
  · cases h

lemma follows_uint8 (c : Cursor) : Follows uint8 Read.uint8 c := by
  refine (follows_bytes 1 c).bind fun octets c' hread => ?_
  obtain ⟨b, rfl⟩ := List.length_eq_one_iff.mp (length_of_take hread)
  have hb : UInt8.ofNat (decodeNat [b]) = b := by simp [decodeNat]
  rw [hb]
  exact follows_pure b c'

lemma follows_uint16 (c : Cursor) : Follows uint16 Read.uint16 c := by
  refine (follows_bytes 2 c).bind fun octets c' hread => ?_
  obtain ⟨high, low, rfl⟩ := List.length_eq_two.mp (length_of_take hread)
  exact follows_pure _ c'

lemma follows_uint32 (c : Cursor) : Follows uint32 Read.uint32 c := by
  refine (follows_bytes 4 c).bind fun octets c' hread => ?_
  match octets, length_of_take hread with
  | [first, second, third, fourth], _ => exact follows_pure _ c'

end Scan

/-! ## Loops over labels -/

namespace Read

/-- Where the reader is. -/
def offset : Read Nat := fun r => .ok r.offset r

/-- The octets from some offset up to where the reader is. -/
def octetsSince (start : Nat) : Read Bytes := fun r =>
  .ok ((r.message.drop start).take (r.offset - start)) r

/-- The labels of a name, put behind a part of it that was read before. -/
def labelsOnto (name : Text) : Read Text := fun r =>
  match labels r.offset 0 (r.message.drop r.offset) with
  | (.ok ls, stop) => .ok (ls.foldl Scan.pushLabel name) { r with offset := stop }
  | (.error fault, stop) => .error fault { r with offset := stop }

/-- The octets from some offset to the end of the name that the reader is in. -/
def octetsToEnd (start : Nat) : Read Bytes := fun r =>
  match nameEnd r.offset 0 (r.message.drop r.offset) with
  | .ok stop => .ok ((r.message.drop start).take (stop - start)) { r with offset := stop }
  | .error stop => .error (.unexpectedEnd stop) { r with offset := stop }

lemma uint8_of_nil {r : Reader} (h : r.message.drop r.offset = []) :
    uint8 r = .error (.unexpectedEnd r.offset) r := by
  have hlen : ¬ r.offset + 1 ≤ r.message.length := by
    rw [List.drop_eq_nil_iff] at h
    omega
  simp only [uint8, bind_apply, take, if_neg hlen]

lemma offset_of_uint8 {r r' : Reader} {b : UInt8} (h : uint8 r = .ok b r') :
    r'.message = r.message ∧ r'.offset = r.offset + 1 ∧ r.offset < r.message.length := by
  obtain ⟨bytes, r₁, htake, hpure⟩ := bind_ok h
  cases hpure
  unfold take at htake
  split at htake
  · rename_i hlen
    cases htake
    exact ⟨rfl, rfl, hlen⟩
  · cases htake

lemma uint8_of_cons {r : Reader} {size : UInt8} {rest : Bytes}
    (h : r.message.drop r.offset = size :: rest) :
    uint8 r = .ok size { r with offset := r.offset + 1 } := by
  have hlen : r.offset + 1 ≤ r.message.length := by
    have hdrop := congrArg List.length h
    rw [List.length_drop, List.length_cons] at hdrop
    omega
  simp only [uint8, bind_apply, take, if_pos hlen, h]
  simp [pure_apply, decodeNat]

/-- Behind the length of a label, its octets are taken if they are there. -/
lemma take_behind {r : Reader} {size : UInt8} {rest : Bytes}
    (h : r.message.drop r.offset = size :: rest) (n : Nat) :
    take n { r with offset := r.offset + 1 } =
      if rest.length < n then
        .error (.unexpectedEnd (r.offset + 1)) { r with offset := r.offset + 1 }
      else .ok (rest.take n) { r with offset := r.offset + 1 + n } := by
  have hdrop : r.message.drop (r.offset + 1) = rest := by
    rw [← List.drop_drop, h]
    rfl
  have hlen := congrArg List.length h
  rw [List.length_drop, List.length_cons] at hlen
  by_cases hshort : rest.length < n
  · have hend : ¬ r.offset + 1 + n ≤ r.message.length := by omega
    rw [take, if_neg hend, if_pos hshort]
  · have hend : r.offset + 1 + n ≤ r.message.length := by omega
    rw [take, if_pos hend, if_neg hshort, hdrop]

lemma drop_behind {r : Reader} {size : UInt8} {rest : Bytes}
    (h : r.message.drop r.offset = size :: rest) (n : Nat) :
    r.message.drop (r.offset + 1 + n) = rest.drop n := by
  rw [← List.drop_drop, ← List.drop_drop, h]
  rfl

/-- The labels of a name are read one by one. -/
lemma labelsOnto_eq (name : Text) :
    labelsOnto name = uint8 >>= fun size =>
      if size = 0 then pure name
      else offset >>= fun start => take size.toNat >>= fun label =>
        if label.contains 46 then throw (.dotInLabel start)
        else labelsOnto (Scan.pushLabel name label) := by
  funext r
  rcases hdrop : r.message.drop r.offset with _ | ⟨size, rest⟩
  · rw [bind_apply, uint8_of_nil hdrop, labelsOnto, hdrop]
    rfl
  · rw [bind_apply, uint8_of_cons hdrop, labelsOnto, hdrop, labels]
    by_cases hzero : size = 0
    · simp only [if_pos hzero]
      rfl
    by_cases hshort : rest.length < size.toNat
    · simp only [if_neg hzero, if_pos hshort, bind_apply, offset, take_behind hdrop]
    by_cases hdot : (rest.take size.toNat).contains 46 = true
    · simp only [if_neg hzero, if_neg hshort, if_pos hdot, bind_apply, offset, take_behind hdrop]
      rfl
    · simp only [if_neg hzero, if_neg hshort, if_neg hdot, bind_apply, offset, take_behind hdrop,
        labelsOnto, drop_behind hdrop]
      rw [labels_eq_drop]
      rcases labels (r.offset + 1 + size.toNat) 0 (rest.drop size.toNat) with ⟨_ | ls, stop⟩ <;> rfl

lemma octetsToEnd_eq (start : Nat) :
    octetsToEnd start = uint8 >>= fun size =>
      if size = 0 then octetsSince start
      else skip size.toNat >>= fun _ => octetsToEnd start := by
  funext r
  rcases hdrop : r.message.drop r.offset with _ | ⟨size, rest⟩
  · rw [bind_apply, uint8_of_nil hdrop, octetsToEnd, hdrop]
    rfl
  · rw [bind_apply, uint8_of_cons hdrop, octetsToEnd, hdrop, nameEnd]
    by_cases hzero : size = 0
    · simp only [if_pos hzero]
      rfl
    by_cases hshort : rest.length < size.toNat
    · simp only [if_neg hzero, if_pos hshort, skip, bind_apply, take_behind hdrop]
    · simp only [if_neg hzero, if_neg hshort, skip, bind_apply, take_behind hdrop, pure_apply,
        octetsToEnd, drop_behind hdrop]
      rw [nameEnd_eq_drop]

lemma join_append (p q : Text) (ps : List Text) :
    Text.join ((p ++ q) :: ps) = p ++ Text.join (q :: ps) := by
  cases ps with
  | nil => rfl
  | cons p' ps => exact List.append_assoc _ _ _

/-- Labels behind a part of a name are put there with a dot in front of each. -/
lemma foldl_pushLabel {name : Text} (hname : name ≠ []) (ls : List Bytes) :
    ls.foldl Scan.pushLabel name = Text.join (name :: ls.map Utf8.decodeLossy) := by
  induction ls generalizing name with
  | nil => rfl
  | cons label ls ih =>
      have hpush : Scan.pushLabel name label = name ++ '.' :: Utf8.decodeLossy label := by
        simp [Scan.pushLabel, hname]
      rw [List.foldl_cons, hpush, ih (by simp), List.map_cons, join_append, Text.join]
      congr 1
      exact join_append ['.'] _ _

/-- No dot stands in front of a name because none of its labels is empty. -/
lemma foldl_pushLabel_nil {ls : List Bytes} (hsized : AreSized ls) :
    ls.foldl Scan.pushLabel [] = Name.dotted ls := by
  cases ls with
  | nil => rfl
  | cons label ls =>
      obtain ⟨hlabel, -⟩ := areSized_cons.mp hsized
      exact foldl_pushLabel (Name.decodeLossy_ne_nil hlabel.1) ls

lemma name_eq_labelsOnto : name = labelsOnto [] := by
  funext r
  unfold name labelsOnto
  rcases hlabels : labels r.offset 0 (r.message.drop r.offset) with ⟨_ | ls, stop⟩
  · rfl
  · obtain ⟨rest, hsized, -⟩ := wire_of_labels hlabels
    simp only [foldl_pushLabel_nil hsized]
    rfl

lemma wireName_eq_octetsToEnd : wireName = offset >>= octetsToEnd := rfl

end Read

namespace Scan

variable {c c₁ c₂ : Cursor} {rounds : Nat}

/-- With a label, at least one octet is used up. -/
lemma rounds_left {size : UInt8} (h : c.buffer.length - c.position.toNat < rounds + 1)
    (hsize : Read.uint8 c.reader = .ok size c₁.reader) (hreaches : c₁.reader.Reaches c₂.reader) :
    c₂.buffer.length - c₂.position.toNat < rounds := by
  obtain ⟨hmessage, hoffset, hlen⟩ := Read.offset_of_uint8 hsize
  have hmessage₂ := hreaches.message
  have hforward := hreaches.forward
  simp only [Cursor.reader] at hmessage hoffset hlen hmessage₂ hforward
  rw [hmessage₂, hmessage]
  omega

lemma follows_nameLoop (name : Text) (h : c.buffer.length - c.position.toNat < rounds) :
    Follows (nameLoop rounds name) (Read.labelsOnto name) c := by
  induction rounds generalizing c name with
  | zero => cases h
  | succ rounds ih =>
      rw [Read.labelsOnto_eq, nameLoop]
      refine (follows_uint8 c).bind fun size c₁ hsize => ?_
      split_ifs with hzero
      · exact follows_pure name c₁
      -- Both sides keep the place of the label, one as a number of 64 bits.
      · show Follows (bytes size.toUInt64 >>= _) (Read.take size.toNat >>= _) c₁
        refine (follows_bytes _ c₁).bind fun label c₂ hlabel => ?_
        split_ifs with hdot
        · exact follows_fail _ c₂
        · exact ih _ (rounds_left h hsize ((Read.advances_take _).ok hlabel))

lemma follows_name (c : Cursor) : Follows name Read.name c := by
  rw [Read.name_eq_labelsOnto]
  exact follows_nameLoop [] (Nat.lt_succ_of_le (Nat.sub_le _ _))

lemma follows_slice {start : UInt64} (hstart : start ≤ c.position)
    (hposition : c.position.toNat ≤ c.buffer.length) :
    Follows (slice start c.position) (Read.octetsSince start.toNat) c :=
  ⟨c, slice_of_le hstart hposition, rfl⟩

lemma follows_wireNameLoop {start : UInt64} (hstart : start ≤ c.position)
    (h : c.buffer.length - c.position.toNat < rounds) :
    Follows (wireNameLoop start rounds) (Read.octetsToEnd start.toNat) c := by
  induction rounds generalizing c with
  | zero => cases h
  | succ rounds ih =>
      rw [Read.octetsToEnd_eq, wireNameLoop]
      refine (follows_uint8 c).bind fun size c₁ hsize => ?_
      obtain ⟨hmessage, hoffset, hlen⟩ := Read.offset_of_uint8 hsize
      simp only [Cursor.reader] at hmessage hoffset hlen
      have hstart₁ : start ≤ c₁.position := by
        rw [UInt64.le_iff_toNat_le] at hstart ⊢
        omega
      split_ifs with hzero
      · refine follows_slice hstart₁ ?_
        rw [hmessage, hoffset]
        exact hlen
      · refine (follows_skip _ c₁).bind fun _ c₂ hskip => ?_
        have hreaches := (Read.advances_skip _).ok hskip
        refine ih ?_ (rounds_left h hsize hreaches)
        exact UInt64.le_trans hstart₁ (UInt64.le_iff_toNat_le.mpr hreaches.forward)

lemma follows_wireName (c : Cursor) : Follows wireName Read.wireName c := by
  rw [Read.wireName_eq_octetsToEnd]
  exact follows_wireNameLoop (UInt64.le_refl _) (Nat.lt_succ_of_le (Nat.sub_le _ _))

end Scan

/-! ## Runs -/

namespace Reader.Operation

/-- The scan that an operation stands for. -/
def scan : Operation → Scan Value
  | bytes n => return .octets (← Scan.bytes n)
  | skip n => do
    Scan.skip n
    return .nothing
  | uint8 => return .number (← Scan.uint8).toNat
  | uint16 => return .number (← Scan.uint16).toNat
  | uint32 => return .number (← Scan.uint32).toNat
  | name => return .text (← Scan.name)
  | wireName => return .octets (← Scan.wireName)

/-- Every operation follows its reading, from every place. -/
lemma follows (operation : Operation) (c : Cursor) :
    Scan.Follows operation.scan operation.read c := by
  cases operation with
  | bytes n => exact (Scan.follows_bytes n c).bind fun _ c' _ => Scan.follows_pure _ c'
  | skip n => exact (Scan.follows_skip n c).bind fun _ c' _ => Scan.follows_pure _ c'
  | uint8 => exact (Scan.follows_uint8 c).bind fun _ c' _ => Scan.follows_pure _ c'
  | uint16 => exact (Scan.follows_uint16 c).bind fun _ c' _ => Scan.follows_pure _ c'
  | uint32 => exact (Scan.follows_uint32 c).bind fun _ c' _ => Scan.follows_pure _ c'
  | name => exact (Scan.follows_name c).bind fun _ c' _ => Scan.follows_pure _ c'
  | wireName => exact (Scan.follows_wireName c).bind fun _ c' _ => Scan.follows_pure _ c'

end Reader.Operation

namespace Cursor

open Reader (Operation Step)

/-- What happens when a cursor is used, or `none` if that traps. -/
def trace? : List Operation → Cursor → Option (List (Step Cursor))
  | [], _ => some []
  | operation :: operations, c =>
    match operation.scan c with
    | .ok value after => (trace? operations after).map (⟨operation, c, .ok value, after⟩ :: ·)
    | .error (.fault fault) after =>
      (trace? operations after).map (⟨operation, c, .error fault, after⟩ :: ·)
    | .error .trap _ => none

/-- No run traps, and the steps of a run are those of the reader at the same place. -/
lemma exists_trace (operations : List Operation) (c : Cursor) :
    ∃ steps, trace? operations c = some steps ∧
      steps.map (Step.map reader) = c.reader.trace operations := by
  induction operations generalizing c with
  | nil => exact ⟨[], rfl, rfl⟩
  | cons operation operations ih =>
      have hfollows := operation.follows c
      unfold Scan.Follows at hfollows
      rw [trace?, Reader.trace]
      split at hfollows
      · rename_i value r hread
        obtain ⟨after, hscan, rfl⟩ := hfollows
        obtain ⟨steps, htrace, hsteps⟩ := ih after
        refine ⟨⟨operation, c, .ok value, after⟩ :: steps, ?_, ?_⟩
        · simp only [hscan, htrace, Option.map_some]
        · simp only [hread, List.map_cons, hsteps, Step.map]
      · rename_i fault r hread
        obtain ⟨after, hscan, rfl⟩ := hfollows
        obtain ⟨steps, htrace, hsteps⟩ := ih after
        refine ⟨⟨operation, c, .error fault, after⟩ :: steps, ?_, ?_⟩
        · simp only [hscan, htrace, Option.map_some]
        · simp only [hread, List.map_cons, hsteps, Step.map]

/-- **Reading is safe.**  From any place of any buffer, with any numbers, no run looks outside of
the buffer, whatever is read and whatever fails.  The places and results are those of the model, so
a run never goes back or past the end, a plain reading that fails stays where it was, and the two
readings of a name agree from everywhere. -/
theorem reads_safely (c : Cursor) (operations : List Operation) :
    (∃ steps, trace? operations c = some steps ∧
      steps.map (Step.map reader) = c.reader.trace operations) ∧
    (∀ step ∈ c.reader.trace operations, c.reader.Reaches step.before ∧ step.IsOrderly) ∧
    ∀ r : Reader, r.NamesAgree :=
  ⟨exists_trace operations c, fun _ => Reader.isOrderly_of_mem_trace, Reader.namesAgree⟩

/-- A cursor behind a name whose only label has a dot inside. -/
def behindDot : Cursor := { buffer := [3, 97, 46, 98, 0], position := 5, fits := by decide }

/-- The largest number of octets is asked for from there. -/
def largeStep : Step Reader :=
  { operation := .bytes 18446744073709551615
    before := behindDot.reader
    result := .error (.unexpectedEnd 5)
    after := behindDot.reader }

/-- Its sum with the place does not have 64 bits, which is the end of the message and not a trap.
The name in front has labels, although it has no dotted form. -/
theorem reads_safely_largeStep :
    checkedAdd? behindDot.position 18446744073709551615 = none ∧
    (largeStep ∈ behindDot.reader.trace [largeStep.operation] ∧ largeStep.IsOrderly) ∧
    ∃! labels, AreSized labels ∧ behindDot.buffer = wire labels := by
  have hmem : largeStep ∈ behindDot.reader.trace [largeStep.operation] :=
    List.mem_singleton.mpr rfl
  have hwire : Read.wireName { message := behindDot.buffer } =
      .ok behindDot.buffer { message := behindDot.buffer, offset := 5 } := rfl
  obtain ⟨-, hsteps, hnames⟩ := reads_safely behindDot [largeStep.operation]
  exact ⟨rfl, ⟨hmem, (hsteps _ hmem).2⟩, (hnames _).labels _ _ hwire⟩

end Cursor

end Nameserver

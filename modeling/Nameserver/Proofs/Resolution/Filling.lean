import Nameserver.Proofs.Message.Journal
import Nameserver.Resolution

/-!
# Filling a response

A response is filled with answers from the front.  The resolver stops at the first one that does not
fit; since truncation sticks, trying all the others as well would change nothing
(`Draft.addAnswers_eq_addAll`).  So the draft after a list of answers is that of a plain fold, and
it holds the longest prefix of the list that fits (`IsLongestFitting`).
-/

namespace Nameserver

/-! ## Prefixes that fit -/

/-- A list is the longest of the prefixes that fit, or empty if there are none. -/
structure IsLongestFitting (fits : List Record → Prop) (records kept : List Record) : Prop where
  /-- It is a prefix. -/
  isPrefix : kept <+: records
  /-- It fits. -/
  fits_kept : kept ≠ [] → fits kept
  /-- All others that fit are shorter. -/
  longest : ∀ other, other <+: records → fits other → other <+: kept

/-- The octets that records take together. -/
def Record.total (records : List Record) : Nat := (records.flatMap Record.encode).length

/-- The records that fit into some room, up to the first that does not. -/
def Record.fitting (room : Nat) : List Record → List Record
  | [] => []
  | r :: rs => if r.size ≤ room then r :: fitting (room - r.size) rs else []

namespace Record

variable {room : Nat} {r : Record} {rs : List Record}

@[simp] lemma total_nil : total [] = 0 := rfl

@[simp] lemma total_cons : total (r :: rs) = r.size + total rs := by
  simp [total, length_encode]

lemma fitting_isPrefix (room : Nat) (rs : List Record) : fitting room rs <+: rs := by
  induction rs generalizing room with
  | nil => exact List.prefix_refl []
  | cons r rs ih =>
      unfold fitting
      split_ifs
      · exact List.cons_prefix_cons.mpr ⟨rfl, ih _⟩
      · exact List.nil_prefix

lemma total_fitting_le (room : Nat) (rs : List Record) : total (fitting room rs) ≤ room := by
  induction rs generalizing room with
  | nil => exact Nat.zero_le _
  | cons r rs ih =>
      unfold fitting
      split_ifs with hr
      · have hrest := ih (room - r.size)
        rw [total_cons]
        omega
      · exact Nat.zero_le _

lemma isPrefix_fitting {other : List Record} (hfront : other <+: rs)
    (htotal : total other ≤ room) : other <+: fitting room rs := by
  induction rs generalizing room other with
  | nil =>
      rw [List.prefix_nil.mp hfront]
      exact List.nil_prefix
  | cons r rs ih =>
      cases other with
      | nil => exact List.nil_prefix
      | cons r' other =>
          obtain ⟨rfl, hrest⟩ := List.cons_prefix_cons.mp hfront
          rw [total_cons] at htotal
          have hr : r'.size ≤ room := by omega
          rw [fitting, if_pos hr]
          exact List.cons_prefix_cons.mpr ⟨rfl, ih hrest (by omega)⟩

/-- What fits into the room behind some octets is the longest prefix that fits with them. -/
lemma isLongestFitting_fitting {used limit : Nat} (hused : used ≤ limit) (rs : List Record) :
    IsLongestFitting (fun kept => used + total kept ≤ limit) rs (fitting (limit - used) rs) where
  isPrefix := fitting_isPrefix _ _
  fits_kept := by
    intro _
    have htotal := total_fitting_le (limit - used) rs
    omega
  longest := by
    intro other hfront hfits
    exact isPrefix_fitting hfront (by omega)

/-- If even nothing is too much, the longest prefix is empty. -/
lemma isLongestFitting_nil {used limit : Nat} (hused : limit < used) (rs : List Record) :
    IsLongestFitting (fun kept => used + total kept ≤ limit) rs [] where
  isPrefix := List.nil_prefix
  fits_kept := by
    intro h
    exact absurd rfl h
  longest := by
    intro other _ hfits
    omega

end Record

/-! ## Adding answers -/

namespace Draft

variable {d : Draft} {r : Record} {rs : List Record}

/-- Tries to add some answers, all of them. -/
def addAll (d : Draft) (rs : List Record) : Draft := rs.foldl (fun d r => (d.addAnswer r).2) d

@[simp] lemma addAll_nil : d.addAll [] = d := rfl

@[simp] lemma addAll_cons : d.addAll (r :: rs) = (d.addAnswer r).2.addAll rs := rfl

lemma addAnswer_of_fits (h : d.fits r.size = true) :
    d.addAnswer r = (true,
      { d with
        header := { d.header with answers := d.header.answers + 1 }
        body := d.body ++ r.encode }) :=
  add_of_fits h

lemma addAnswer_of_not_fits (h : ¬ d.fits r.size = true) : d.addAnswer r = (false, d.truncate) :=
  add_of_not_fits h

lemma truncated_of_refused (h : (d.addAnswer r).1 = false) :
    (d.addAnswer r).2.header.truncated = true := by
  have hfits : ¬ d.fits r.size = true := by
    intro hfits
    rw [addAnswer_of_fits hfits] at h
    cases h
  rw [addAnswer_of_not_fits hfits]
  rfl

lemma truncated_of_added (h : (d.addAnswer r).1 = true) :
    (d.addAnswer r).2.header.truncated = false := by
  by_cases hfits : d.fits r.size = true
  · rw [addAnswer_of_fits hfits]
    exact (fits_iff.mp hfits).1
  · rw [addAnswer_of_not_fits hfits] at h
    cases h

lemma addAll_of_truncated (h : d.header.truncated = true) (rs : List Record) :
    d.addAll rs = d := by
  induction rs with
  | nil => rfl
  | cons r rs ih =>
      have hfits : ¬ d.fits r.size = true := by simp [fits, h]
      have htruncate : d.truncate = d := by rw [truncate, ← h]
      rw [addAll_cons, addAnswer_of_not_fits hfits, htruncate, ih]

/-- Stopping at the first answer that does not fit is as good as trying all. -/
lemma addAll_of_refused (h : (d.addAnswer r).1 = false) (rs : List Record) :
    d.addAll (r :: rs) = (d.addAnswer r).2 := by
  rw [addAll_cons]
  exact addAll_of_truncated (truncated_of_refused h) rs

lemma addAnswers_eq_addAll (d : Draft) (owner : Bytes) (ttl : UInt32) (data : List RecordData) :
    d.addAnswers owner ttl data = d.addAll (data.map fun data => ⟨owner, ttl, data⟩) := by
  induction data generalizing d with
  | nil => rfl
  | cons first data ih =>
      rw [addAnswers, List.map_cons]
      split
      · rename_i d' h
        rw [ih, addAll_cons, h]
      · rename_i d' h
        rw [addAll_of_refused (by rw [h]), h]

end Draft

namespace Journal

variable {j : Journal}

/-- Trying a record as an answer. -/
def answerCall (r : Record) : Call := .put (.record .answer r)

lemma play_append (j : Journal) (calls calls' : List Call) :
    j.play (calls ++ calls') = (j.play calls).play calls' :=
  List.foldl_append

lemma draft_play_answers (j : Journal) (rs : List Record) :
    (j.play (rs.map answerCall)).draft = j.draft.addAll rs := by
  induction rs generalizing j with
  | nil => rfl
  | cons r rs ih => exact ih (j.perform (answerCall r))

lemma added_play_of_truncated (h : j.draft.header.truncated = true) (rs : List Record) :
    (j.play (rs.map answerCall)).added = j.added := by
  induction rs generalizing j with
  | nil => rfl
  | cons r rs ih =>
      have hroom : ¬ j.draft.HasRoom (.record .answer r) := by
        rw [Draft.hasRoom_iff rfl, h]
        simp
      have hput := Draft.put_of_not_hasRoom hroom
      have hfirst : (j.perform (answerCall r)).added = j.added := by
        rw [answerCall, added_put, hput]
        rfl
      have hstill : (j.perform (answerCall r)).draft.header.truncated = true := by
        rw [answerCall, draft_put, hput]
      exact (ih hstill).trans hfirst

/-- Of the answers that are tried one after the other, those that fit are added. -/
theorem play_answers (htruncated : j.draft.header.truncated = false)
    (hsize : j.draft.size ≤ j.draft.limit - j.draft.reserved.toNat) (rs : List Record) :
    let kept := Record.fitting (j.draft.limit - j.draft.reserved.toNat - j.draft.size) rs
    let j' := j.play (rs.map answerCall)
    j'.added = j.added ++ kept.map (Put.record .answer) ∧
      j'.draft.limit = j.draft.limit ∧ j'.draft.reserved = j.draft.reserved ∧
      j'.draft.size ≤ j.draft.limit - j.draft.reserved.toNat ∧
      (j'.draft.header.truncated = true ↔ kept ≠ rs) := by
  induction rs generalizing j with
  | nil => simp [play, Record.fitting, htruncated, hsize]
  | cons r rs ih =>
      intro kept j'
      have hplay : j' = (j.perform (answerCall r)).play (rs.map answerCall) := rfl
      by_cases hr : r.size ≤ j.draft.limit - j.draft.reserved.toNat - j.draft.size
      · have hroom : j.draft.HasRoom (.record .answer r) := by
          rw [Draft.hasRoom_iff rfl, Put.size]
          exact ⟨htruncated, by omega⟩
        have hput := Draft.put_of_hasRoom hroom
        have hadded : (j.perform (answerCall r)).added = j.added ++ [.record .answer r] := by
          rw [answerCall, added_put, hput, if_pos rfl]
        have hlimit : (j.perform (answerCall r)).draft.limit = j.draft.limit := by
          rw [answerCall, draft_put, hput]
        have hreserved : (j.perform (answerCall r)).draft.reserved = j.draft.reserved := by
          rw [answerCall, draft_put, hput]
          rfl
        have hmark : (j.perform (answerCall r)).draft.header.truncated = false := by
          rw [answerCall, draft_put, hput]
          exact htruncated
        have hgrown : (j.perform (answerCall r)).draft.size = j.draft.size + r.size := by
          rw [answerCall, draft_put, hput, Draft.size, Draft.size, List.length_append,
            Put.length_encode, Nat.add_assoc]
          rfl
        have hkept : kept = r :: Record.fitting
            (j.draft.limit - j.draft.reserved.toNat - j.draft.size - r.size) rs := if_pos hr
        have hrest := ih hmark (by rw [hlimit, hreserved, hgrown]; omega)
        rw [hlimit, hreserved, hgrown, hadded, Nat.sub_add_eq] at hrest
        rw [hkept, hplay]
        simpa using hrest
      · have hroom : ¬ j.draft.HasRoom (.record .answer r) := by
          rw [Draft.hasRoom_iff rfl, Put.size]
          omega
        have hput := Draft.put_of_not_hasRoom hroom
        have hadded : (j.perform (answerCall r)).added = j.added := by
          rw [answerCall, added_put, hput]
          rfl
        have hmark : (j.perform (answerCall r)).draft.header.truncated = true := by
          rw [answerCall, draft_put, hput]
        have hkept : kept = [] := if_neg hr
        rw [hkept, hplay, added_play_of_truncated hmark, draft_play_answers,
          Draft.addAll_of_truncated hmark, hadded, answerCall, draft_put, hput]
        simpa [Draft.reservedAfter, Put.isBound, Draft.size] using hsize

end Journal

end Nameserver

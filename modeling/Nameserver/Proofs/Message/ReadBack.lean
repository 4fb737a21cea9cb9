import Nameserver.Proofs.Message.Journal

/-!
# Responses read back as what was put into them

`Journal.reads_back` is about a response from its first call to its last octet.  Whatever is tried
in the order of the sections, the response observes its limit, its counts are right, its last octet
ends its last record, and a reader finds what was added, down to the names, texts and numbers inside
the data.  The mark of truncation tells exactly whether something was left out.

**Leaving out.**  A put that is refused touches neither the body nor the counts.  From then on
questions and records are refused, while the extension record still goes in if the limit allows it.
-/

namespace Nameserver

namespace Put

/-- What is put can be told apart and read back. -/
def IsSound : Put → Prop
  | question q => Name.IsWire q.wireName
  | record _ r => Name.IsWire r.owner ∧ r.data.IsSound
  | opt _ => True

/-- The question that is read is the one that was put. -/
def Asks : Put → Asked → Prop
  | question q, asked =>
    asked.wireName = q.wireName ∧ asked.type = q.type ∧ asked.recordClass = q.recordClass
  | _, _ => False

/-- The record that is read is the one that was put, and its data stands for the same. -/
def Shows : Put → Entry → Prop
  | record _ r, e =>
    e.owner = r.owner ∧ e.type = r.data.type ∧ e.recordClass = classInternet ∧ e.ttl = r.ttl ∧
      RecordData.decode? e.type e.data = some r.data
  | opt payload, e =>
    e.owner = [0] ∧ e.type = RecordType.opt ∧ e.recordClass = payload ∧ e.ttl = 0 ∧ e.data = []
  | question _, _ => False

lemma IsSound.isFramed {p : Put} (h : p.IsSound) : p.IsFramed := by
  cases p with
  | question q => exact h
  | record s r => exact h.1
  | opt payload => trivial

lemma forall₂_asks {ps : List Put} (hplace : ∀ p ∈ ps, p.place = 0) :
    List.Forall₂ Asks ps (ps.filterMap asked?) := by
  induction ps with
  | nil => exact .nil
  | cons p ps ih =>
      obtain ⟨hp, hps⟩ := List.forall_mem_cons.mp hplace
      cases p with
      | question q => exact .cons ⟨rfl, rfl, rfl⟩ (ih hps)
      | record s r => cases s <;> cases hp
      | opt payload => cases hp

lemma forall₂_shows {ps : List Put} (hplace : ∀ p ∈ ps, p.place ≠ 0)
    (hsound : ∀ p ∈ ps, p.IsSound) : List.Forall₂ Shows ps (ps.filterMap entry?) := by
  induction ps with
  | nil => exact .nil
  | cons p ps ih =>
      obtain ⟨hp, hps⟩ := List.forall_mem_cons.mp hplace
      obtain ⟨hfirst, hrest⟩ := List.forall_mem_cons.mp hsound
      cases p with
      | question q => exact absurd rfl hp
      | record s r =>
          exact .cons ⟨rfl, rfl, rfl, rfl, RecordData.decode?_encode hfirst.2⟩ (ih hps hrest)
      | opt payload => exact .cons ⟨rfl, rfl, rfl, rfl, rfl⟩ (ih hps hrest)

end Put

namespace Draft

variable {d : Draft} {p : Put}

/-- A put that is refused changes neither the body nor a count. -/
lemma put_refused (h : (d.put p).1 = false) :
    (d.put p).2.body = d.body ∧ ∀ n, (d.put p).2.header.count n = d.header.count n := by
  have hroom : ¬ d.HasRoom p := by
    rw [← put_fst_iff, h]
    decide
  rw [put_of_not_hasRoom hroom]
  refine ⟨rfl, ?_⟩
  intro n
  fin_cases n <;> rfl

lemma put_of_truncated (htruncated : d.header.truncated = true) (hbound : p.isBound = true) :
    (d.put p).1 = false := by
  rw [← Bool.not_eq_true, put_fst_iff, hasRoom_iff hbound, htruncated]
  simp

end Draft

namespace Journal

/-- **Responses read back as what was put into them.** -/
theorem reads_back (header : Header) (limit : Nat) (calls : List Call)
    (hmin : headerSize ≤ limit) (hmax : limit ≤ 65535)
    (hsound : ∀ p ∈ Call.puts calls, p.IsSound)
    (horder : (Call.puts calls).Pairwise fun p q => p.place ≤ q.place) :
    let j := (start header limit).play calls
    j.log.map (·.1) = Call.puts calls ∧
    j.draft.finish.length ≤ limit ∧
    (∃ h t, Transcript.read? j.draft.finish = some (h, t) ∧
      (∀ n, (h.count n).toNat = (j.addedIn n).length) ∧
      List.Forall₂ Put.Asks (j.addedIn 0) t.questions ∧
      List.Forall₂ Put.Shows (j.addedIn 1) t.answers ∧
      List.Forall₂ Put.Shows (j.addedIn 2) t.authorities ∧
      List.Forall₂ Put.Shows (j.addedIn 3) t.additionals ∧
      (h.truncated = true ↔ ∃ e ∈ j.log, e.2 = false)) ∧
    (∀ p, (j.draft.put p).1 = false →
      (j.draft.put p).2.body = j.draft.body ∧
      ∀ n, (j.draft.put p).2.header.count n = j.draft.header.count n) ∧
    ((∃ e ∈ j.log, e.2 = false) → ∀ p, p.isBound = true → (j.draft.put p).1 = false) ∧
    ∀ payload, (j.draft.put (.opt payload)).1 = true ↔
      j.draft.finish.length + optSize ≤ limit := by
  intro j
  have hkept : j.Kept limit := kept_play hmin calls
  have hsublist : j.added.Sublist (Call.puts calls) := added_sublist header limit calls
  have hadded : ∀ p ∈ j.added, p.IsSound := fun p hp => hsound p (hsublist.subset hp)
  have hsize : j.draft.finish.length = j.draft.size := by
    rw [Draft.finish, List.length_append, Header.length_encode, Draft.size]
  have hread := hkept.read?_finish hmax (fun p hp => (hadded p hp).isFramed)
    (horder.sublist hsublist)
  have hshows : ∀ n ≠ 0,
      List.Forall₂ Put.Shows (j.addedIn n) ((j.addedIn n).filterMap Put.entry?) := by
    intro n hn
    refine Put.forall₂_shows ?_ fun p hp => hadded p (mem_added_of_mem_addedIn hp)
    intro p hp
    rw [place_of_mem_addedIn hp]
    exact hn
  refine ⟨map_log_play _ calls, ?_, ⟨_, _, hread, ?_, ?_, ?_, ?_, ?_, ?_⟩, ?_, ?_, ?_⟩
  · rw [hsize]
    exact hkept.size_le
  · intro n
    rw [← hkept.toNat_count hmax n]
    fin_cases n <;> rfl
  · exact Put.forall₂_asks fun p hp => place_of_mem_addedIn hp
  · exact hshows 1 (by decide)
  · exact hshows 2 (by decide)
  · exact hshows 3 (by decide)
  · exact hkept.truncated_iff
  · exact fun p => Draft.put_refused
  · intro hrefused p hbound
    exact Draft.put_of_truncated (hkept.truncated_iff.mpr hrefused) hbound
  · intro payload
    rw [Draft.put_fst_iff, hsize, ← hkept.limit_eq]
    rfl

/-- A question about the root and two answers, of which the second is too long for 60 octets. -/
def tightCalls : List Call :=
  [.reserve 11, .put (.question ⟨[], [0], RecordType.txt, classInternet⟩),
    .put (.record .answer ⟨[0], 60, .txt "ab".toList⟩),
    .put (.record .answer ⟨[0], 60, .cname "a-name-of-some-length".toList⟩),
    .rcode .noError, .put (.opt 512)]

/-- The second answer is left out and the response marked, and the extension record goes in. -/
theorem reads_back_tightCalls :
    ((start {} 60).play tightCalls).draft.finish.length ≤ 60 ∧
      ∃ h t, Transcript.read? ((start {} 60).play tightCalls).draft.finish = some (h, t) ∧
        h.truncated = true ∧ (h.count 1).toNat = 1 ∧ (h.count 3).toNat = 1 := by
  have hsound : ∀ p ∈ Call.puts tightCalls, p.IsSound := by
    simp only [tightCalls, Call.puts, Call.put?, List.filterMap_cons, List.filterMap_nil,
      List.forall_mem_cons]
    exact ⟨Name.isWire_root, ⟨Name.isWire_root, trivial⟩,
      ⟨Name.isWire_root, .inr (by decide)⟩, trivial, by simp⟩
  obtain ⟨-, hlength, ⟨h, t, hread, hcount, -, -, -, -, htruncated⟩, -, -, -⟩ :=
    reads_back {} 60 tightCalls (by decide) (by decide) hsound (by decide)
  refine ⟨hlength, h, t, hread, htruncated.mpr (by decide), ?_, ?_⟩
  · rw [hcount 1]
    decide
  · rw [hcount 3]
    decide

end Journal

end Nameserver

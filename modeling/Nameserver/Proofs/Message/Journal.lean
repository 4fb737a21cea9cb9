import Nameserver.Proofs.Message.Transcript

/-!
# Drafts and what was put into them

A `Journal` is a draft together with every `Put` that was tried on it and its outcome.  It is played
by a list of calls in any order (`Journal.play`).

**The account.**  `Journal.Kept` says how a draft looks after any play: its body is made of what
was put with success, its counts are the numbers of these, and it is marked as truncated exactly if
some put was refused.  Every call keeps the account (`Kept.perform`), so every play does
(`Journal.kept_play`).

**Reading back.**  The sections of a message have to stand in their order.  If puts are tried in
that order, those with success are in order too, and the message reads back as what they put
(`Journal.read?_play`).
-/

namespace Nameserver

/-- Something that may be put into a response. -/
inductive Put where
  | question (q : Question)
  | record (s : Section) (r : Record)
  /-- The extension record that advertises a size. -/
  | opt (payload : UInt16)
deriving DecidableEq, Repr

/-- The place of a section among all of them, of which the first is that of the questions. -/
def Section.place : Section → Fin 4
  | .answer => 1
  | .authority => 2
  | .additional => 3

/-- The number of questions or records in a place. -/
def Header.count (h : Header) : Fin 4 → UInt16
  | 0 => h.questions
  | 1 => h.answers
  | 2 => h.authorities
  | 3 => h.additionals

namespace Put

/-- Where something is put: with the questions, or in one of the sections. -/
def place : Put → Fin 4
  | question _ => 0
  | record s _ => s.place
  | opt _ => 3

/-- The octets that are added for it. -/
def encode : Put → Bytes
  | question q => q.encode
  | record _ r => r.encode
  | opt payload => (Draft.optRecord payload).encode

/-- The room that is asked for before it is added. -/
def size : Put → Nat
  | question q => q.size
  | record _ r => r.size
  | opt _ => optSize

/-- The header with one more question or record counted. -/
def countIn (p : Put) (h : Header) : Header :=
  match p with
  | question _ => { h with questions := h.questions + 1 }
  | record s _ => s.countIn h
  | opt _ => Section.additional.countIn h

/-- Whether truncation and reserved room stop it.  The extension record ignores both. -/
def isBound : Put → Bool
  | opt _ => false
  | _ => true

/-- The question that is read where this was put. -/
def asked? : Put → Option Asked
  | question q => some q.asked
  | _ => none

/-- The record that is read where this was put. -/
def entry? : Put → Option Entry
  | question _ => none
  | record _ r => some r.entry
  | opt payload => some (.option payload)

/-- The names at the front of what is put are well-formed. -/
def IsFramed : Put → Prop
  | question q => Name.IsWire q.wireName
  | record _ r => Name.IsWire r.owner
  | opt _ => True

lemma length_encode (p : Put) : p.encode.length = p.size := by
  cases p with
  | question q => exact q.length_encode
  | record s r => exact r.length_encode
  | opt payload => rfl

lemma size_pos (p : Put) : 0 < p.size := by
  cases p <;> simp [size, Question.size, Record.size, optSize]

lemma count_countIn (p : Put) (h : Header) (n : Fin 4) :
    (p.countIn h).count n = if p.place = n then h.count n + 1 else h.count n := by
  cases p with
  | question q => fin_cases n <;> rfl
  | record s r => cases s <;> fin_cases n <;> rfl
  | opt payload => fin_cases n <;> rfl

lemma truncated_countIn (p : Put) (h : Header) : (p.countIn h).truncated = h.truncated := by
  cases p with
  | question q => rfl
  | record s r => cases s <;> rfl
  | opt payload => rfl

end Put

namespace Draft

/-- Tries to put something into a draft, and says whether it was added. -/
def put (d : Draft) : Put → Bool × Draft
  | .question q => d.addQuestion q
  | .record s r => d.addRecord s r
  | .opt payload => d.addOpt payload

/-- Whether what is put has room, and may have it. -/
def HasRoom (d : Draft) (p : Put) : Prop :=
  if p.isBound then d.header.truncated = false ∧ d.size + p.size ≤ d.limit - d.reserved.toNat
  else d.size + p.size ≤ d.limit

lemma hasRoom_iff {d : Draft} {p : Put} (h : p.isBound = true) :
    d.HasRoom p ↔
      d.header.truncated = false ∧ d.size + p.size ≤ d.limit - d.reserved.toNat := by
  rw [HasRoom, if_pos h]

/-- The octets that stay reserved when something is put. -/
def reservedAfter (d : Draft) (p : Put) : UInt64 :=
  if p.isBound then d.reserved else UInt64.ofNat (d.reserved.toNat - optSize)

lemma fits_iff {d : Draft} {n : Nat} :
    d.fits n = true ↔ d.header.truncated = false ∧ d.size + n ≤ d.limit - d.reserved.toNat := by
  simp [fits]

lemma add_of_fits {d : Draft} {n : Nat} {octets : Bytes} {count : Header → Header}
    (h : d.fits n = true) :
    d.add n octets count =
      (true, { d with header := count d.header, body := d.body ++ octets }) := by
  rw [add, if_pos h]

lemma add_of_not_fits {d : Draft} {n : Nat} {octets : Bytes} {count : Header → Header}
    (h : ¬ d.fits n = true) : d.add n octets count = (false, d.truncate) := by
  rw [add, if_neg h]

/-- What has room is added and counted. -/
lemma put_of_hasRoom {d : Draft} {p : Put} (h : d.HasRoom p) :
    d.put p = (true,
      { d with
        header := p.countIn d.header
        body := d.body ++ p.encode
        reserved := d.reservedAfter p }) := by
  cases p with
  | question q =>
      have hfits : d.fits q.size = true := fits_iff.mpr h
      rw [put, addQuestion, add_of_fits hfits]
      rfl
  | record s r => exact add_of_fits (fits_iff.mpr h)
  | opt payload =>
      have hroom : ¬ d.limit < d.size + optSize := Nat.not_lt.mpr h
      exact if_neg hroom

/-- What has no room is left out, and the draft is marked. -/
lemma put_of_not_hasRoom {d : Draft} {p : Put} (h : ¬ d.HasRoom p) :
    d.put p = (false,
      { d with
        header := { d.header with truncated := true }
        reserved := d.reservedAfter p }) := by
  cases p with
  | question q =>
      have hfits : ¬ d.fits q.size = true := fun hfits => h (fits_iff.mp hfits)
      rw [put, addQuestion, add_of_not_fits hfits]
      rfl
  | record s r => exact add_of_not_fits fun hfits => h (fits_iff.mp hfits)
  | opt payload =>
      have hroom : d.limit < d.size + optSize := Nat.lt_of_not_le h
      exact if_pos hroom

lemma put_fst_iff {d : Draft} {p : Put} : (d.put p).1 = true ↔ d.HasRoom p := by
  by_cases h : d.HasRoom p
  · simp [put_of_hasRoom h, h]
  · simp [put_of_not_hasRoom h, h]

lemma HasRoom.le_limit {d : Draft} {p : Put} (h : d.HasRoom p) : d.size + p.size ≤ d.limit := by
  unfold HasRoom at h
  split_ifs at h
  · exact h.2.trans (Nat.sub_le _ _)
  · exact h

end Draft

/-- Something that is done with a draft. -/
inductive Call where
  | reserve (n : UInt64)
  | rcode (r : Rcode)
  /-- The response is marked as authoritative, or not. -/
  | authoritative (b : Bool)
  | put (p : Put)
deriving DecidableEq, Repr

/-- What a call tries to put, if it does. -/
def Call.put? : Call → Option Put
  | .put p => some p
  | _ => none

/-- All that calls try to put, in their order. -/
def Call.puts (calls : List Call) : List Put := calls.filterMap Call.put?

/-- A draft, and all that was tried to put into it, with the outcomes. -/
structure Journal where
  draft : Draft
  /-- What was tried, and whether it was added. -/
  log : List (Put × Bool) := []
deriving DecidableEq, Repr

namespace Journal

/-- The journal of a response that was only begun. -/
def start (header : Header) (limit : Nat) : Journal := { draft := .empty header limit }

/-- The journal after a call, with an entry if something was to be put. -/
def perform (j : Journal) : Call → Journal
  | .reserve n => { j with draft := j.draft.reserve n }
  | .rcode r => { j with draft := j.draft.withRcode r }
  | .authoritative b => { j with draft := j.draft.withAuthoritative b }
  | .put p => { draft := (j.draft.put p).2, log := j.log ++ [(p, (j.draft.put p).1)] }

/-- The journal after calls. -/
def play (j : Journal) (calls : List Call) : Journal := calls.foldl perform j

/-- What was added, in its order. -/
def added (j : Journal) : List Put := (j.log.filter (·.2)).map (·.1)

/-- What was added in one place. -/
def addedIn (j : Journal) (n : Fin 4) : List Put := j.added.filter (·.place = n)

variable {header : Header} {limit : Nat} {j : Journal} {calls : List Call}

@[simp] lemma added_start : (start header limit).added = [] := rfl

@[simp] lemma draft_put (p : Put) : (j.perform (.put p)).draft = (j.draft.put p).2 := rfl

lemma added_put (p : Put) :
    (j.perform (.put p)).added = if (j.draft.put p).1 then j.added ++ [p] else j.added := by
  cases h : (j.draft.put p).1 <;> simp [added, perform, List.filter_append, h]

lemma map_log_play (j : Journal) (calls : List Call) :
    (j.play calls).log.map (·.1) = j.log.map (·.1) ++ Call.puts calls := by
  induction calls generalizing j with
  | nil => simp [play, Call.puts]
  | cons call calls ih =>
      have hplay : j.play (call :: calls) = (j.perform call).play calls := rfl
      rw [hplay, ih]
      cases call with
      | put p => simp [perform, Call.puts, Call.put?]
      | reserve n | rcode r | authoritative b => rfl

lemma added_sublist (header : Header) (limit : Nat) (calls : List Call) :
    ((start header limit).play calls).added.Sublist (Call.puts calls) := by
  have hlog : ((start header limit).play calls).log.map (·.1) = Call.puts calls :=
    map_log_play (start header limit) calls
  rw [← hlog]
  exact List.filter_sublist.map _

/-! ## The account -/

/-- How a draft looks after any play. -/
structure Kept (limit : Nat) (j : Journal) : Prop where
  limit_eq : j.draft.limit = limit
  size_le : j.draft.size ≤ limit
  /-- The body is made of what was added. -/
  body_eq : j.draft.body = j.added.flatMap Put.encode
  /-- The counts of the header are the numbers of what was added. -/
  count_eq : ∀ n, j.draft.header.count n = UInt16.ofNat (j.addedIn n).length
  /-- The draft is marked exactly if something was left out. -/
  truncated_iff : j.draft.header.truncated = true ↔ ∃ e ∈ j.log, e.2 = false

lemma kept_start (hlimit : headerSize ≤ limit) : (start header limit).Kept limit where
  limit_eq := rfl
  size_le := hlimit
  body_eq := rfl
  count_eq := by
    intro n
    fin_cases n <;> rfl
  truncated_iff := by simp [start, Draft.empty]

lemma Kept.put (h : j.Kept limit) (p : Put) : (j.perform (.put p)).Kept limit := by
  have hsize : j.draft.size = headerSize + j.draft.body.length := rfl
  by_cases hroom : j.draft.HasRoom p
  · have hput := Draft.put_of_hasRoom hroom
    have hadded : (j.perform (.put p)).added = j.added ++ [p] := by rw [added_put, hput, if_pos rfl]
    constructor
    case limit_eq => simp only [draft_put, hput, h.limit_eq]
    case size_le =>
      have hle := hroom.le_limit
      rw [h.limit_eq] at hle
      simp only [draft_put, hput, Draft.size, List.length_append, p.length_encode]
      omega
    case body_eq => simp [hadded, hput, h.body_eq]
    case count_eq =>
      intro n
      have hcount :
          (j.perform (.put p)).draft.header.count n = (p.countIn j.draft.header).count n := by
        rw [draft_put, hput]
      rw [hcount, p.count_countIn, h.count_eq, addedIn, addedIn, hadded, List.filter_append]
      by_cases hn : p.place = n <;> simp [hn]
    case truncated_iff =>
      simp [perform, hput, p.truncated_countIn, h.truncated_iff, or_and_right, exists_or]
  · have hput := Draft.put_of_not_hasRoom hroom
    have hadded : (j.perform (.put p)).added = j.added := by
      rw [added_put, hput]
      rfl
    constructor
    case limit_eq => simp only [draft_put, hput, h.limit_eq]
    case size_le =>
      have hle := h.size_le
      simpa only [draft_put, hput, Draft.size] using hle
    case body_eq => simp only [hadded, draft_put, hput, h.body_eq]
    case count_eq =>
      intro n
      have hcount : (j.perform (.put p)).draft.header.count n = j.draft.header.count n := by
        rw [draft_put, hput]
        fin_cases n <;> rfl
      rw [hcount, h.count_eq, addedIn, addedIn, hadded]
    case truncated_iff => simp [perform, hput]

lemma Kept.perform (h : j.Kept limit) (call : Call) :
    (j.perform call).Kept limit := by
  cases call with
  | put p => exact h.put p
  | reserve n | rcode r | authoritative b =>
      exact ⟨h.limit_eq, h.size_le, h.body_eq, fun n => by
        have := h.count_eq n
        fin_cases n <;> exact this, h.truncated_iff⟩

lemma Kept.play (h : j.Kept limit) (calls : List Call) :
    (j.play calls).Kept limit := by
  induction calls generalizing j with
  | nil => exact h
  | cons call calls ih => exact ih (h.perform call)

/-- A journal keeps its promises from the start, whatever the calls are. -/
theorem kept_play (hlimit : headerSize ≤ limit) (calls : List Call) :
    ((start header limit).play calls).Kept limit :=
  (kept_start hlimit).play calls

/-! ## Reading back -/

/-- What stands in the body, place by place. -/
def transcript (j : Journal) : Transcript where
  questions := (j.addedIn 0).filterMap Put.asked?
  answers := (j.addedIn 1).filterMap Put.entry?
  authorities := (j.addedIn 2).filterMap Put.entry?
  additionals := (j.addedIn 3).filterMap Put.entry?

/-- What is in order falls into the four places. -/
lemma eq_filter_places {ps : List Put} (horder : ps.Pairwise fun p q => p.place ≤ q.place) :
    ps = ps.filter (·.place = 0) ++ (ps.filter (·.place = 1) ++
      (ps.filter (·.place = 2) ++ ps.filter (·.place = 3))) := by
  induction ps with
  | nil => rfl
  | cons p ps ih =>
      obtain ⟨hfirst, horder⟩ := List.pairwise_cons.mp horder
      -- Nothing behind `p` belongs before it.
      have hnone : ∀ n < p.place, ps.filter (·.place = n) = [] := by
        intro n hn
        rw [List.filter_eq_nil_iff]
        intro q hq
        simpa using (lt_of_lt_of_le hn (hfirst q hq)).ne'
      have hplace : p.place = 0 ∨ p.place = 1 ∨ p.place = 2 ∨ p.place = 3 := by omega
      refine (congrArg (p :: ·) (ih horder)).trans ?_
      rcases hplace with hp | hp | hp | hp
      · simp [hp]
      · simp [hp, hnone 0 (by omega)]
      · simp [hp, hnone 0 (by omega), hnone 1 (by omega)]
      · simp [hp, hnone 0 (by omega), hnone 1 (by omega), hnone 2 (by omega)]

/-- The questions that are read are as long and as many as those that were put. -/
lemma filterMap_asked? {ps : List Put} (h : ∀ p ∈ ps, p.place = 0) :
    (ps.filterMap Put.asked?).length = ps.length ∧
      (ps.filterMap Put.asked?).flatMap Asked.encode = ps.flatMap Put.encode := by
  induction ps with
  | nil => exact ⟨rfl, rfl⟩
  | cons p ps ih =>
      obtain ⟨hp, hps⟩ := List.forall_mem_cons.mp h
      obtain ⟨hlength, hencode⟩ := ih hps
      cases p with
      | question q =>
          simp [Put.asked?, hlength, hencode, Put.encode, Question.encode_eq_asked]
      | record s r => cases s <;> cases hp
      | opt payload => cases hp

/-- So are the records. -/
lemma filterMap_entry? {ps : List Put} (h : ∀ p ∈ ps, p.place ≠ 0) :
    (ps.filterMap Put.entry?).length = ps.length ∧
      (ps.filterMap Put.entry?).flatMap Entry.encode = ps.flatMap Put.encode := by
  induction ps with
  | nil => exact ⟨rfl, rfl⟩
  | cons p ps ih =>
      obtain ⟨hp, hps⟩ := List.forall_mem_cons.mp h
      obtain ⟨hlength, hencode⟩ := ih hps
      cases p with
      | question q => exact absurd rfl hp
      | record s r => simp [Put.entry?, hlength, hencode, Put.encode, Record.encode_eq_entry]
      | opt payload => simp [Put.entry?, hlength, hencode, Put.encode, Draft.encode_optRecord]

lemma place_of_mem_addedIn {n : Fin 4} {p : Put} (h : p ∈ j.addedIn n) : p.place = n := by
  simpa using (List.mem_filter.mp h).2

lemma mem_added_of_mem_addedIn {n : Fin 4} {p : Put} (h : p ∈ j.addedIn n) : p ∈ j.added :=
  (List.mem_filter.mp h).1

lemma Kept.size_le_of_mem (h : j.Kept limit) {p : Put} (hp : p ∈ j.added) :
    p.size ≤ j.draft.body.length := by
  rw [h.body_eq, List.length_flatMap, ← p.length_encode]
  exact List.le_sum_of_mem (List.mem_map_of_mem hp)

/-- There are no more of them than octets. -/
lemma Kept.length_addedIn_le (h : j.Kept limit) (n : Fin 4) :
    (j.addedIn n).length ≤ j.draft.body.length := by
  have hcount : ∀ ps : List Put, ps.length ≤ (ps.flatMap Put.encode).length := by
    intro ps
    induction ps with
    | nil => exact Nat.zero_le _
    | cons p ps ih =>
        have hpos := p.size_pos
        rw [← p.length_encode] at hpos
        simp only [List.length_cons, List.flatMap_cons, List.length_append]
        omega
  rw [h.body_eq]
  exact (List.length_filter_le _ _).trans (hcount j.added)

/-- A count of the header is the number of what was added, which never exceeds its 16 bits. -/
lemma Kept.toNat_count (h : j.Kept limit) (hlimit : limit ≤ 65535) (n : Fin 4) :
    (j.draft.header.count n).toNat = (j.addedIn n).length := by
  have hbody : headerSize + j.draft.body.length ≤ limit := h.size_le
  have hle := h.length_addedIn_le n
  rw [h.count_eq, UInt16.toNat_ofNat_of_lt']
  show (j.addedIn n).length < 65536
  omega

/-- A record that is read has data short enough for its length. -/
lemma Kept.isFramed_of_entry? (h : j.Kept limit) (hlimit : limit ≤ 65535) {p : Put} {e : Entry}
    (hp : p ∈ j.added) (hframed : p.IsFramed) (he : p.entry? = some e) : e.IsFramed := by
  have hbody : headerSize + j.draft.body.length ≤ limit := h.size_le
  have hsize := h.size_le_of_mem hp
  cases p with
  | question q => cases he
  | record s r =>
      cases he
      have hr : r.size = r.owner.length + 10 + r.data.size := rfl
      refine ⟨hframed, ?_⟩
      show r.data.encode.length < 65536
      rw [RecordData.length_encode]
      simp only [Put.size] at hsize
      omega
  | opt payload =>
      cases he
      exact Entry.isFramed_option payload

/-- What was added in order is read from the message. -/
theorem Kept.read?_finish (h : j.Kept limit) (hlimit : limit ≤ 65535)
    (hframed : ∀ p ∈ j.added, p.IsFramed)
    (horder : j.added.Pairwise fun p q => p.place ≤ q.place) :
    Transcript.read? j.draft.finish =
      some ({ j.draft.header with
        opcode := j.draft.header.opcode &&& 0x0F
        rcode := j.draft.header.rcode &&& 0x0F }, j.transcript) := by
  have hquestion : ∀ p ∈ j.addedIn 0, p.place = 0 := fun p hp => place_of_mem_addedIn hp
  have hrecord : ∀ n ≠ 0, ∀ p ∈ j.addedIn n, p.place ≠ 0 := by
    intro n hn p hp
    rw [place_of_mem_addedIn hp]
    exact hn
  obtain ⟨hlength₀, hencode₀⟩ := filterMap_asked? hquestion
  obtain ⟨hlength₁, hencode₁⟩ := filterMap_entry? (hrecord 1 (by decide))
  obtain ⟨hlength₂, hencode₂⟩ := filterMap_entry? (hrecord 2 (by decide))
  obtain ⟨hlength₃, hencode₃⟩ := filterMap_entry? (hrecord 3 (by decide))
  have hbody : j.draft.body = j.transcript.questions.flatMap Asked.encode ++
      (j.transcript.answers ++ j.transcript.authorities ++
        j.transcript.additionals).flatMap Entry.encode := by
    rw [h.body_eq, eq_filter_places horder]
    simp only [transcript, List.flatMap_append, hencode₀, hencode₁, hencode₂, hencode₃,
      List.append_assoc]
    rfl
  rw [Draft.finish, hbody]
  refine Transcript.read?_layout ?_ ?_ ?_ ?_ ?_ ?_
  · exact (h.toNat_count hlimit 0).trans hlength₀.symm
  · exact (h.toNat_count hlimit 1).trans hlength₁.symm
  · exact (h.toNat_count hlimit 2).trans hlength₂.symm
  · exact (h.toNat_count hlimit 3).trans hlength₃.symm
  · intro q hq
    obtain ⟨p, hp, hasked⟩ := List.mem_filterMap.mp hq
    cases p with
    | question q' =>
        cases hasked
        exact hframed _ (mem_added_of_mem_addedIn hp)
    | record s r | opt payload => cases hasked
  · intro e he
    have hmem : ∃ p ∈ j.added, p.entry? = some e := by
      simp only [transcript, List.mem_append, List.mem_filterMap] at he
      rcases he with (⟨p, hp, he⟩ | ⟨p, hp, he⟩) | ⟨p, hp, he⟩ <;>
        exact ⟨p, mem_added_of_mem_addedIn hp, he⟩
    obtain ⟨p, hp, he⟩ := hmem
    exact h.isFramed_of_entry? hlimit hp (hframed p hp) he

end Journal

end Nameserver

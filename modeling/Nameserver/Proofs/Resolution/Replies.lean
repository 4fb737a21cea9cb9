import Nameserver.Proofs.Resolution.Answers

/-!
# Every direct reply

A query that is not forwarded is answered from a zone or refused.  Both replies are plays of calls
over a journal; the one that refuses just has no answers.  `Resolver.exists_journal` says for both
what they hold: the question if it fits, the longest prefix of the records that fits, and the
extension record if the query had one.
-/

namespace Nameserver

/-- A header without its counts and the mark of truncation. -/
def Header.uncounted (h : Header) : Header :=
  { h with truncated := false, questions := 0, answers := 0, authorities := 0, additionals := 0 }

lemma Put.uncounted_countIn (p : Put) (h : Header) : (p.countIn h).uncounted = h.uncounted := by
  cases p with
  | question q => rfl
  | record s r => cases s <;> rfl
  | opt payload => rfl

namespace Journal

/-- What is put into a response changes no more of its header than the counts and the mark. -/
lemma uncounted_put (j : Journal) (p : Put) :
    (j.perform (.put p)).draft.header.uncounted = j.draft.header.uncounted := by
  rw [draft_put]
  by_cases h : j.draft.HasRoom p
  · rw [Draft.put_of_hasRoom h]
    exact p.uncounted_countIn _
  · rw [Draft.put_of_not_hasRoom h]
    rfl

lemma uncounted_play_answers (j : Journal) (rs : List Record) :
    (j.play (rs.map answerCall)).draft.header.uncounted = j.draft.header.uncounted := by
  induction rs generalizing j with
  | nil => rfl
  | cons r rs ih => exact (ih _).trans (j.uncounted_put _)

/-- No call changes the id. -/
lemma id_perform (j : Journal) (call : Call) :
    (j.perform call).draft.header.id = j.draft.header.id := by
  cases call with
  | put p =>
      have hid := congrArg Header.id (j.uncounted_put p)
      exact hid
  | reserve n | rcode r | authoritative b => rfl

lemma id_play (j : Journal) (calls : List Call) :
    (j.play calls).draft.header.id = j.draft.header.id := by
  induction calls generalizing j with
  | nil => rfl
  | cons call calls ih => exact (ih _).trans (j.id_perform call)

lemma length_finish (j : Journal) : j.draft.finish.length = j.draft.size := by
  rw [Draft.finish, List.length_append, Header.length_encode, Draft.size]

end Journal

namespace Resolver

variable {resolver : Resolver} {request : Request}

lemma room_le (request : Request) : room request ≤ optSize := by
  unfold room
  split_ifs <;> decide

/-- The records that belong into the answer to a question.  Outside of all zones there are none. -/
def records (resolver : Resolver) (query : UInt64) (question : Question) : List Record :=
  match resolver.zones.find? question.name with
  | none => []
  | some zone => (reference resolver.sources zone query question).1

/-- A journal holds so much of the records as fits, next to the question and the extension record,
and is marked if that is not everything. -/
structure Holds (request : Request) (records kept : List Record) (j : Journal) : Prop where
  bounded : j.Kept request.limit
  id_eq : j.draft.header.id = request.header.id
  added_eq : j.added =
    (if QuestionFits request then [Put.question request.question] else []) ++
      kept.map (Put.record .answer) ++
      (if request.payload?.isSome then [.opt (UInt16.ofNat request.limit)] else [])
  longest : IsLongestFitting (fun rs =>
    headerSize + request.question.encode.length + Record.total rs ≤
      request.limit - room request) records kept
  truncated_iff : j.draft.header.truncated = true ↔ ¬ QuestionFits request ∨ kept ≠ records

lemma Holds.finish_eq {records kept : List Record} {j : Journal}
    (h : Holds request records kept j) :
    j.draft.finish = j.draft.header.encode ++ j.added.flatMap Put.encode := by
  rw [Draft.finish, h.bounded.body_eq]

lemma bounded_opened (request : Request) (recursionAvailable : Bool) :
    (opened request recursionAvailable).Kept request.limit :=
  (Journal.kept_start (le_trans (by decide) request.limit_bounds.1)).play _

lemma id_opened (request : Request) (recursionAvailable : Bool) :
    (opened request recursionAvailable).draft.header.id = request.header.id :=
  Journal.id_play _ _

/-- The response to a question about a name of a zone. -/
lemma holds_answered (records : List Record) (rcode : Rcode) (recursionAvailable : Bool) :
    ∃ kept, Holds request records kept
      (((opened request recursionAvailable).play (records.map Journal.answerCall)).play
        (closingCalls request rcode)) := by
  obtain ⟨kept, hadded, hlongest, -, htruncated, -⟩ :=
    @play_all records rcode request recursionAvailable
  refine ⟨kept, ((bounded_opened request recursionAvailable).play _).play _, ?_, hadded, hlongest,
    ?_⟩
  · rw [Journal.id_play, Journal.id_play, id_opened]
  · refine htruncated.trans ?_
    split_ifs with hfits <;> simp [hfits]

/-- The response that refuses a question. -/
lemma holds_refused (request : Request) (recursionAvailable : Bool) :
    Holds request [] []
      (((opened request recursionAvailable).perform (.authoritative false)).play
        (closingCalls request .refused)) := by
  have hbounds := request.limit_bounds
  have hdefault : defaultLimit = 512 := rfl
  have hheader : headerSize = 12 := rfl
  have hoption : optSize = 11 := rfl
  have hroom := room_le request
  have hlongest : IsLongestFitting (fun rs =>
      headerSize + request.question.encode.length + Record.total rs ≤
        request.limit - room request) [] [] :=
    ⟨List.nil_prefix, fun h => absurd rfl h, fun _ hfront _ => hfront⟩
  obtain ⟨hlimit, -, hcases⟩ := opened_cases request recursionAvailable
  have hsize : (opened request recursionAvailable).draft.size + room request ≤ request.limit := by
    rcases hcases with ⟨hfits, -, -, hsize⟩ | ⟨-, -, -, hsize⟩
    · unfold QuestionFits at hfits
      omega
    · omega
  obtain ⟨hadded, htruncated, -⟩ := @play_closing request
    ((opened request recursionAvailable).perform (.authoritative false)) .refused hlimit hsize
  refine ⟨((bounded_opened request recursionAvailable).perform _).play _, ?_, ?_, hlongest, ?_⟩
  · rw [Journal.id_play, Journal.id_perform, id_opened]
  · rw [hadded, List.map_nil, List.append_nil]
    congr 1
    rcases hcases with ⟨hfits, hadded, -⟩ | ⟨hfits, hadded, -⟩
    · rw [if_pos hfits]
      exact hadded
    · rw [if_neg hfits]
      exact hadded
  · rw [htruncated]
    show (opened request recursionAvailable).draft.header.truncated = true ↔ _
    rcases hcases with ⟨hfits, -, hmark, -⟩ | ⟨hfits, -, hmark, -⟩
    · simp [hmark, hfits]
    · simp [hmark, hfits]

lemma authoritative_opening (request : Request) (recursionAvailable : Bool) :
    (opening request recursionAvailable).header.authoritative = false := by
  unfold opening Draft.addQuestion Draft.add
  dsimp only
  split_ifs <;> rfl

lemma refused_eq (request : Request) (recursionAvailable : Bool) :
    closing request .refused (opening request recursionAvailable) =
      (((opened request recursionAvailable).perform (.authoritative false)).play
        (closingCalls request .refused)).draft.finish := by
  have hdraft : ((opened request recursionAvailable).perform (.authoritative false)).draft =
      opening request recursionAvailable := by
    show (opened request recursionAvailable).draft.withAuthoritative false = _
    rw [draft_opened]
    have hmark := authoritative_opening request recursionAvailable
    generalize opening request recursionAvailable = d at hmark ⊢
    obtain ⟨header, body, limit, reserved⟩ := d
    obtain ⟨⟩ := header
    cases hmark
    rfl
  rw [finish_play_closing, hdraft]

/-! ## The header -/

/-- The response code that belongs to a question.  Outside of all zones it is refused. -/
def verdict (resolver : Resolver) (query : UInt64) (question : Question) : Rcode :=
  match resolver.zones.find? question.name with
  | none => .refused
  | some zone => (reference resolver.sources zone query question).2

lemma uncounted_opened (request : Request) (recursionAvailable : Bool) :
    (opened request recursionAvailable).draft.header.uncounted =
      { responseHeader request recursionAvailable with authoritative := true } := by
  let j := Journal.start (responseHeader request recursionAvailable) request.limit
  have hput : ∀ j : Journal, ((j.perform (.put (.question request.question))).perform
      (.authoritative true)).draft.header.uncounted =
        { j.draft.header.uncounted with authoritative := true } := by
    intro j
    rw [← j.uncounted_put (.question request.question)]
    rfl
  unfold opened openingCalls
  split_ifs
  · exact hput (j.perform (.reserve (UInt64.ofNat optSize)))
  · exact hput j

lemma uncounted_play_closing (j : Journal) (request : Request) (rcode : Rcode) :
    (j.play (closingCalls request rcode)).draft.header.uncounted =
      { j.draft.header.uncounted with rcode := rcode.code } := by
  unfold closingCalls
  split_ifs
  · exact (j.perform (.rcode rcode)).uncounted_put (.opt (UInt16.ofNat request.limit))
  · rfl

/-- What any reply holds that a resolver writes itself, and what its header tells besides. -/
theorem exists_journal_told {configs : List ZoneConfig}
    (hstore : ZoneStore.ofConfigs configs = .ok resolver.zones) (request : Request)
    (query : UInt64) (recursionAvailable : Bool) :
    ∃ j kept, resolver.respond request query recursionAvailable = j.draft.finish ∧
      Holds request (resolver.records query request.question) kept j ∧
      j.draft.header.uncounted =
        { responseHeader request recursionAvailable with
          authoritative := resolver.isLocal request
          rcode := (toldRcode (resolver.verdict query request.question)
            j.draft.header.truncated).code } := by
  unfold records verdict isLocal
  cases hzone : resolver.zones.find? request.question.name with
  | none =>
      rw [respond, hzone]
      refine ⟨_, [], refused_eq request recursionAvailable,
        holds_refused request recursionAvailable, ?_⟩
      rw [uncounted_play_closing]
      show { ({ (opened request recursionAvailable).draft.header.uncounted with
        authoritative := false } : Header) with rcode := Rcode.refused.code } = _
      rw [uncounted_opened, @toldRcode_of_ne .refused (by decide)]
      rfl
  | some zone =>
      have htold := @respond_eq_told zone query request resolver hzone
        (ZoneStore.pairwise_exchanges hstore hzone) recursionAvailable
      dsimp only at htold ⊢
      generalize reference resolver.sources zone query request.question = answer at htold ⊢
      generalize hcode : toldRcode _ _ = code at htold
      obtain ⟨kept, hholds⟩ := @holds_answered request answer.1 code recursionAvailable
      obtain ⟨-, -, -, hmark, -⟩ := @play_all answer.1 code request recursionAvailable
      refine ⟨_, kept, htold, hholds, ?_⟩
      rw [hmark, hcode, uncounted_play_closing, Journal.uncounted_play_answers, uncounted_opened]
      rfl

/-- What any reply holds that a resolver writes itself. -/
theorem exists_journal {configs : List ZoneConfig}
    (hstore : ZoneStore.ofConfigs configs = .ok resolver.zones) (request : Request)
    (query : UInt64) (recursionAvailable : Bool) :
    ∃ j kept, resolver.respond request query recursionAvailable = j.draft.finish ∧
      Holds request (resolver.records query request.question) kept j := by
  obtain ⟨j, kept, hrespond, hholds, -⟩ :=
    exists_journal_told hstore request query recursionAvailable
  exact ⟨j, kept, hrespond, hholds⟩

end Resolver

end Nameserver

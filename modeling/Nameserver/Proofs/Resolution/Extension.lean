import Nameserver.Proofs.Resolution.Replies

/-!
# What a reply repeats of its request

`Resolver.echoes_request` is about the two parts of a reply that do not depend on any zone: the
question and the extension record.

**The extension record.**  It is put last, and truncation does not stop it.  There is room for it
because everything before it was held to a limit without that room, the question included.

**The question.**  It is put first, so it is missing only if it does not fit by itself.  Truncation
sticks, and then there are no answers either.

None of this depends on what a zone holds or how its records are sorted.  All that matters is that
the answers are some list of records under well-formed names (`Resolver.exists_answers`).
-/

namespace Nameserver

lemma RecordData.type_ne_opt (data : RecordData) : data.type ≠ RecordType.opt := by
  cases data <;> simp +decide [type]

/-- No answer passes for an extension record. -/
lemma Record.isOption_entry (r : Record) : r.entry.isOption = false :=
  beq_eq_false_iff_ne.mpr r.data.type_ne_opt

lemma Entry.encode_option (payload : UInt16) :
    (option payload).encode = [0, 0, 41] ++ encode16 payload ++ [0, 0, 0, 0, 0, 0] := by
  have htype : encode16 RecordType.opt.code = [0, 41] := by decide
  have hzero : encode32 0 ++ encode16 (UInt16.ofNat 0) = [0, 0, 0, 0, 0, 0] := by decide
  rw [← hzero]
  simp [encode, option, htype]

/-- The question of a request stands behind the header of its datagram. -/
lemma Request.question_isPrefix {datagram : Bytes} {request : Request}
    (h : parse datagram = .ok request) :
    request.question.encode <+: datagram.drop headerSize := by
  obtain ⟨q, -, ⟨-, hcontent⟩, rfl⟩ := parse_eq_ok.mp h
  refine List.IsPrefix.trans ?_ hcontent
  rw [Query.content, List.append_assoc]
  exact List.prefix_append _ _

namespace Resolver

variable {resolver : Resolver} {request : Request}

/-- Whatever a zone holds, it answers with a list of records under well-formed names. -/
lemma exists_answers (resolver : Resolver) (zone : Zone) (query : UInt64) {q : Question}
    (hname : Name.IsWire q.wireName) :
    ∃ records : List Record, (∀ r ∈ records, Name.IsWire r.owner) ∧
      ∀ d, (resolver.resolve zone query q d).2 = d.addAll records := by
  simp only [resolve, Draft.addAnswers_eq_addAll]
  split_ifs
  · exact ⟨_, isWire_owner_of_data hname _, fun d => rfl⟩
  · exact ⟨[], by simp, fun d => rfl⟩
  · exact ⟨_, isWire_owner_of_data hname _, fun d => rfl⟩
  · exact ⟨_, isWire_owner_of_data hname _, fun d => rfl⟩
  · exact ⟨_, isWire_owner_of_data hname _, fun d => rfl⟩
  · by_cases hcname : q.type = RecordType.cname
    · refine ⟨(aliasRecords zone q.name q.wireName).take 1, fun r hr => ?_, fun d => ?_⟩
      · exact isWire_owner_of_aliasRecords hname r (List.mem_of_mem_take hr)
      · rw [hcname, chase_cname]
    · exact ⟨_, isWire_owner_of_walk hname _, fun d => (chase_start hcname d).1⟩

/-- What any reply holds, whatever the zones are. -/
lemma exists_journal_of_wire (resolver : Resolver) (query : UInt64) (recursionAvailable : Bool)
    (hname : Name.IsWire request.question.wireName) :
    ∃ j records kept, resolver.respond request query recursionAvailable = j.draft.finish ∧
      (∀ r ∈ records, Name.IsWire r.owner) ∧ Holds request records kept j := by
  cases hzone : resolver.zones.find? request.question.name with
  | none =>
      refine ⟨_, [], [], ?_, by simp, holds_refused request recursionAvailable⟩
      rw [respond, hzone]
      exact refused_eq request recursionAvailable
  | some zone =>
      obtain ⟨records, howners, hanswers⟩ := exists_answers resolver zone query hname
      let opening := (opening request recursionAvailable).withAuthoritative true
      let rcode := (resolver.resolve zone query request.question opening).1
      obtain ⟨kept, hholds⟩ := @holds_answered request records rcode recursionAvailable
      refine ⟨_, records, kept, ?_, howners, hholds⟩
      rw [finish_play_closing, Journal.draft_play_answers, draft_opened, ← hanswers, respond, hzone]

/-- What a client reads of a reply, whatever the zones are. -/
lemma Holds.read? {records kept : List Record} {j : Journal} (h : Holds request records kept j)
    (hname : Name.IsWire request.question.wireName)
    (howners : ∀ r ∈ records, Name.IsWire r.owner) :
    ∃ header, header.truncated = j.draft.header.truncated ∧
      Transcript.read? j.draft.finish = some (header,
        { questions := if QuestionFits request then [request.question.asked] else []
          answers := kept.map Record.entry
          authorities := []
          additionals := if request.payload?.isSome
            then [.option (UInt16.ofNat request.limit)] else [] }) := by
  refine ⟨_, ?_, read?_of_added h.bounded hname
    (fun r hr => howners r (h.longest.isPrefix.subset hr)) h.added_eq⟩
  rfl

/-- Without the question there are no answers. -/
lemma Holds.kept_eq_nil {records kept : List Record} {j : Journal}
    (h : Holds request records kept j) (hfits : ¬ QuestionFits request) : kept = [] := by
  by_contra hne
  have hroom := h.longest.fits_kept hne
  unfold QuestionFits at hfits
  omega

/-- The question stands behind the header of a reply, if it fits. -/
lemma Holds.question_isPrefix {records kept : List Record} {j : Journal}
    (h : Holds request records kept j) (hfits : QuestionFits request) :
    request.question.encode <+: j.draft.finish.drop headerSize := by
  rw [h.finish_eq, ← j.draft.header.length_encode, List.drop_left, h.added_eq, if_pos hfits,
    List.append_assoc, List.flatMap_append, List.flatMap_singleton]
  exact List.prefix_append _ _

/-- The extension record is the end of a reply. -/
lemma Holds.option_isSuffix {records kept : List Record} {j : Journal}
    (h : Holds request records kept j) (hoption : request.payload?.isSome) :
    (Entry.option (UInt16.ofNat request.limit)).encode <:+ j.draft.finish := by
  rw [h.finish_eq, h.added_eq, if_pos hoption, List.flatMap_append, List.flatMap_singleton,
    ← List.append_assoc]
  exact List.suffix_append _ _

/-- **What a reply repeats of its request.**  The extension record is there exactly if the request
had one, as the last octets of the reply, whatever was left out.  The question is repeated octet by
octet, unless it does not fit by itself. -/
theorem echoes_request {datagram : Bytes} (hparse : Request.parse datagram = .ok request)
    (resolver : Resolver) (query : UInt64) (recursionAvailable : Bool) :
    let message := resolver.respond request query recursionAvailable
    ∃ h t, ∃ size : UInt16, Transcript.read? message = some (h, t) ∧
      size.toNat = request.limit ∧
      (t.answers ++ t.authorities ++ t.additionals).filter Entry.isOption =
        (if request.payload?.isSome then [Entry.option size] else []) ∧
      h.additionals = (if request.payload?.isSome then 1 else 0) ∧
      (request.payload?.isSome →
        [0, 0, 41] ++ encode16 size ++ [0, 0, 0, 0, 0, 0] <:+ message) ∧
      (QuestionFits request → h.questions = 1 ∧
        request.question.encode <+: datagram.drop headerSize ∧
        request.question.encode <+: message.drop headerSize) ∧
      (¬ QuestionFits request → h.questions = 0 ∧ h.truncated = true ∧ h.answers = 0 ∧
        t.answers = []) := by
  intro message
  have hname := Request.isWire_of_parse hparse
  obtain ⟨j, records, kept, hmessage, howners, hholds⟩ :=
    exists_journal_of_wire resolver query recursionAvailable hname
  obtain ⟨h, hmark, hread⟩ := hholds.read? hname howners
  have hsize : (UInt16.ofNat request.limit).toNat = request.limit :=
    UInt16.toNat_ofNat_of_lt' (request.limit_bounds.2.trans_lt (by decide))
  obtain ⟨hquestions, hanswers, -, hadditionals⟩ := Transcript.counts_of_read? hread
  rw [← hmessage] at hread
  refine ⟨h, _, _, hread, hsize, ?options, ?count, ?last, ?echo, ?missing⟩
  case options =>
    have hnone : (kept.map Record.entry).filter Entry.isOption = [] := by
      simp [List.filter_eq_nil_iff, Record.isOption_entry]
    rw [List.append_nil, List.filter_append, hnone]
    split_ifs <;> rfl
  case count =>
    apply UInt16.toNat_inj.mp
    rw [hadditionals]
    split_ifs <;> rfl
  case last =>
    intro hoption
    show _ <:+ resolver.respond request query recursionAvailable
    rw [hmessage, ← Entry.encode_option]
    exact hholds.option_isSuffix hoption
  case echo =>
    intro hfits
    refine ⟨UInt16.toNat_inj.mp ?_, Request.question_isPrefix hparse, ?_⟩
    · rw [hquestions, if_pos hfits]
      rfl
    · show _ <+: (resolver.respond request query recursionAvailable).drop headerSize
      rw [hmessage]
      exact hholds.question_isPrefix hfits
  case missing =>
    intro hfits
    obtain rfl := hholds.kept_eq_nil hfits
    refine ⟨UInt16.toNat_inj.mp ?_, ?_, UInt16.toNat_inj.mp hanswers, rfl⟩
    · rw [hquestions, if_neg hfits]
      rfl
    · rw [hmark, hholds.truncated_iff]
      exact .inl hfits

/-- A query for the texts of some labels that advertises 512 octets. -/
def extendedQuery (labels : List Bytes) : Bytes :=
  [0, 7, 1, 0, 0, 1, 0, 0, 0, 0, 0, 1] ++ Name.wire labels ++ [0, 16, 0, 1] ++
    [0, 0, 41, 2, 0, 0, 0, 0, 0, 0, 0]

/-- The extension record is there even if the question is not. -/
theorem echoes_request_extended :
    (∃ request, Request.parse (extendedQuery [[98], [97]]) = .ok request ∧
      let message := respond { zones := ⟨[(['a'], circularZone)]⟩ } request 0 false
      ∃ h t, Transcript.read? message = some (h, t) ∧ h.questions = 1 ∧ h.additionals = 1 ∧
        [0, 0, 41, 2, 0, 0, 0, 0, 0, 0, 0] <:+ message) ∧
    ∃ request, Request.parse (extendedQuery (List.replicate 2 (List.replicate 250 97))) =
        .ok request ∧
      let message := respond { zones := ⟨[(['a'], circularZone)]⟩ } request 0 false
      ∃ h t, Transcript.read? message = some (h, t) ∧ h.questions = 0 ∧ h.truncated = true ∧
        h.additionals = 1 ∧ [0, 0, 41, 2, 0, 0, 0, 0, 0, 0, 0] <:+ message := by
  have hextended : ∀ labels fits,
      (match Request.parse (extendedQuery labels) with
        | .ok request => decide (request.payload? = some 512 ∧ decide (QuestionFits request) = fits)
        | .error _ => false) = true →
      ∃ request, Request.parse (extendedQuery labels) = .ok request ∧
        request.payload? = some 512 ∧ decide (QuestionFits request) = fits := by
    intro labels fits h
    split at h
    · rename_i request hparse
      exact ⟨request, hparse, of_decide_eq_true h⟩
    · cases h
  constructor
  · obtain ⟨request, hparse, hpayload, hfits⟩ :=
      hextended [[98], [97]] true (by decide +kernel)
    obtain ⟨h, t, size, hread, hsize, -, hcount, hlast, hecho, -⟩ :=
      echoes_request hparse { zones := ⟨[(['a'], circularZone)]⟩ } 0 false
    rw [Request.limit, hpayload] at hsize
    obtain rfl : size = 512 := UInt16.toNat_inj.mp hsize
    rw [hpayload] at hcount hlast
    obtain ⟨hquestions, -⟩ := hecho (of_decide_eq_true hfits)
    exact ⟨request, hparse, h, t, hread, hquestions, hcount, hlast rfl⟩
  · obtain ⟨request, hparse, hpayload, hfits⟩ :=
      hextended (List.replicate 2 (List.replicate 250 97)) false (by decide +kernel)
    obtain ⟨h, t, size, hread, hsize, -, hcount, hlast, -, hmissing⟩ :=
      echoes_request hparse { zones := ⟨[(['a'], circularZone)]⟩ } 0 false
    rw [Request.limit, hpayload] at hsize
    obtain rfl : size = 512 := UInt16.toNat_inj.mp hsize
    rw [hpayload] at hcount hlast
    obtain ⟨hquestions, hmark, -⟩ := hmissing (of_decide_eq_false hfits)
    exact ⟨request, hparse, h, t, hread, hquestions, hmark, hcount, hlast rfl⟩

end Resolver

end Nameserver

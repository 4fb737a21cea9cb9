import Nameserver.Proofs.Message.Grammar
import Nameserver.Proofs.Resolution.Reference
import Nameserver.Proofs.Zone.Store

/-!
# The answer section of a response

`Resolver.respond_answers` says what a client reads: the answers are the longest prefix of the
reference list that fits next to the header, the question and the room for the extension record; the
mark of truncation tells whether anything was left out, and if nothing was, the response code is
that of the list.

A response is a play of calls (`Resolver.respond_eq_play`), so it reads back by
`Journal.Kept.read?_finish`.  What is left to do is to follow what is added on the way: the
question, if it fits (`Resolver.opened`), the answers, and the extension record, for which there is
room by then (`Resolver.play_closing`).
-/

namespace Nameserver

lemma Request.isWire_of_parse {datagram : Bytes} {request : Request}
    (h : parse datagram = .ok request) : Name.IsWire request.question.wireName := by
  obtain ⟨q, hsound, -, rfl⟩ := parse_eq_ok.mp h
  exact ⟨q.name, hsound.sized, rfl⟩

/-- The limit of a response lies between the default and the size of the buffer. -/
lemma Request.limit_bounds (request : Request) :
    defaultLimit ≤ request.limit ∧ request.limit ≤ bufferSize := by
  unfold limit
  split
  · exact ⟨le_refl _, by decide⟩
  · exact ⟨Nat.le_min.mpr ⟨Nat.le_max_right _ _, by decide⟩, Nat.min_le_right _ _⟩

namespace Resolver

variable {sources : Sources} {zone : Zone} {query : UInt64} {request : Request}

/-! ## Owners -/

lemma isWire_walkOwner {name : Text} {wireName : Bytes} (h : Name.IsWire wireName) (i : Nat) :
    Name.IsWire (walkOwner zone name wireName i) := by
  cases i with
  | zero => exact h
  | succ i => exact Name.isWire_encode _

lemma isWire_owner_of_data {owner : Bytes} {ttl : UInt32} (h : Name.IsWire owner)
    (data : List RecordData) :
    ∀ r ∈ data.map fun data => (⟨owner, ttl, data⟩ : Record), Name.IsWire r.owner := by
  intro r hr
  obtain ⟨_, -, rfl⟩ := List.mem_map.mp hr
  exact h

lemma isWire_owner_of_aliasRecords {name : Text} {wireName : Bytes} (h : Name.IsWire wireName) :
    ∀ r ∈ aliasRecords zone name wireName, Name.IsWire r.owner := by
  intro r hr
  obtain ⟨i, -, rfl⟩ := List.mem_map.mp hr
  exact isWire_walkOwner h i

/-- The records of a chain of aliases, and those at its end. -/
lemma isWire_owner_of_walk {name : Text} {wireName : Bytes} (h : Name.IsWire wireName)
    (data : Text → List RecordData) :
    ∀ r ∈ aliasRecords zone name wireName ++ endRecords zone name wireName data,
      Name.IsWire r.owner := by
  intro r hr
  rcases List.mem_append.mp hr with hr | hr
  · exact isWire_owner_of_aliasRecords h r hr
  · simp only [endRecords] at hr
    split_ifs at hr
    · exact isWire_owner_of_data (isWire_walkOwner h _) _ r hr
    · cases hr

lemma isWire_owner_of_reference {q : Question} (h : Name.IsWire q.wireName) :
    ∀ r ∈ (reference sources zone query q).1, Name.IsWire r.owner := by
  unfold reference
  split_ifs
  · exact isWire_owner_of_data h _
  · simp
  · exact isWire_owner_of_data h _
  · exact isWire_owner_of_data h _
  · exact isWire_owner_of_data h _
  · intro r hr
    exact isWire_owner_of_aliasRecords h r (List.mem_of_mem_take hr)
  · exact isWire_owner_of_walk h _

/-! ## A response as a play of calls -/

/-- The header of a response before anything is counted. -/
def responseHeader (request : Request) (recursionAvailable : Bool) : Header :=
  { Header.responseTo request.header with recursionAvailable }

/-- The octets set aside for the extension record. -/
def room (request : Request) : Nat := if request.payload?.isSome then optSize else 0

/-- What is done before anything is answered. -/
def openingCalls (request : Request) : List Call :=
  (if request.payload?.isSome then [.reserve (UInt64.ofNat optSize)] else []) ++
    [.put (.question request.question), .authoritative true]

/-- What is done after everything was answered. -/
def closingCalls (request : Request) (rcode : Rcode) : List Call :=
  .rcode rcode ::
    if request.payload?.isSome then [.put (.opt (UInt16.ofNat request.limit))] else []

/-- The journal of a response before anything is answered. -/
def opened (request : Request) (recursionAvailable : Bool) : Journal :=
  (Journal.start (responseHeader request recursionAvailable) request.limit).play
    (openingCalls request)

lemma draft_opened (request : Request) (recursionAvailable : Bool) :
    (opened request recursionAvailable).draft =
      (opening request recursionAvailable).withAuthoritative true := by
  unfold opened openingCalls opening
  cases request.payload? <;> rfl

lemma finish_play_closing (j : Journal) (request : Request) (rcode : Rcode) :
    (j.play (closingCalls request rcode)).draft.finish = closing request rcode j.draft := by
  unfold closingCalls closing
  cases request.payload? <;> rfl

/-- The response to a question about a name of a zone is a play over the reference list.  It ends
in the code of the list, as far as that is told. -/
lemma respond_eq_told {resolver : Resolver}
    (hzone : resolver.zones.find? request.question.name = some zone)
    (hsorted : zone.exchanges.Pairwise fun x y => Zone.exchangeLe x y = true)
    (recursionAvailable : Bool) :
    let records := (reference resolver.sources zone query request.question).1
    let code := (reference resolver.sources zone query request.question).2
    let answered := (opened request recursionAvailable).play (records.map Journal.answerCall)
    resolver.respond request query recursionAvailable =
      (answered.play (closingCalls request
        (toldRcode code answered.draft.header.truncated))).draft.finish := by
  intro records code answered
  obtain ⟨hdraft, hrcode⟩ := @resolve_eq zone query resolver request.question hsorted
    (opened request recursionAvailable).draft
  have hanswered : answered.draft = (resolver.resolve zone query request.question
      (opened request recursionAvailable).draft).2 :=
    (Journal.draft_play_answers _ _).trans hdraft.symm
  rw [finish_play_closing, hanswered, ← hrcode, draft_opened, respond, hzone]

/-- If nothing is left out, the code is told as it is. -/
lemma respond_eq_play {resolver : Resolver}
    (hzone : resolver.zones.find? request.question.name = some zone)
    (hsorted : zone.exchanges.Pairwise fun x y => Zone.exchangeLe x y = true)
    (recursionAvailable : Bool) :
    ∃ rcode, resolver.respond request query recursionAvailable =
      ((opened request recursionAvailable).play
        ((reference resolver.sources zone query request.question).1.map Journal.answerCall ++
          closingCalls request rcode)).draft.finish ∧
      (((opened request recursionAvailable).play
        ((reference resolver.sources zone query request.question).1.map
          Journal.answerCall)).draft.header.truncated = false →
        rcode = (reference resolver.sources zone query request.question).2) := by
  refine ⟨_, (respond_eq_told hzone hsorted recursionAvailable).trans
    (by rw [Journal.play_append]), ?_⟩
  intro hwhole
  rw [hwhole, toldRcode_false]

/-! ## What is added on the way -/

/-- There is room for the question in a response to its request. -/
def QuestionFits (request : Request) : Prop :=
  headerSize + request.question.encode.length ≤ request.limit - room request

instance (request : Request) : Decidable (QuestionFits request) :=
  inferInstanceAs (Decidable (_ ≤ _))

/-- Before anything is answered, the response holds the question if that fits. -/
lemma opened_cases (request : Request) (recursionAvailable : Bool) :
    let j := opened request recursionAvailable
    j.draft.limit = request.limit ∧ j.draft.reserved.toNat = room request ∧
      ((QuestionFits request ∧ j.added = [.question request.question] ∧
        j.draft.header.truncated = false ∧
        j.draft.size = headerSize + request.question.encode.length) ∨
      (¬ QuestionFits request ∧ j.added = [] ∧ j.draft.header.truncated = true ∧
        j.draft.size = headerSize)) := by
  let first : Draft := if request.payload?.isSome
    then (Draft.empty (responseHeader request recursionAvailable) request.limit).reserve
      (UInt64.ofNat optSize)
    else Draft.empty (responseHeader request recursionAvailable) request.limit
  have hopened : opened request recursionAvailable =
      (({ draft := first } : Journal).perform (.put (.question request.question))).perform
        (.authoritative true) := by
    unfold opened openingCalls
    simp only [first]
    cases request.payload? <;> rfl
  have hlimit : first.limit = request.limit := by
    simp only [first]
    cases request.payload? <;> rfl
  have hreserved : first.reserved.toNat = room request := by
    simp only [first, room]
    cases request.payload? <;> rfl
  have hmark : first.header.truncated = false := by
    simp only [first]
    cases request.payload? <;> rfl
  have hsize : first.size = headerSize := by
    simp only [first]
    cases request.payload? <;> rfl
  have hroom : first.HasRoom (.question request.question) ↔ QuestionFits request := by
    rw [Draft.hasRoom_iff rfl, hmark, hsize, hlimit, hreserved, Put.size, QuestionFits,
      request.question.length_encode]
    simp
  intro j
  have hdraft : j.draft = (first.put (.question request.question)).2.withAuthoritative true := by
    simp only [j, hopened]
    rfl
  have hadded : j.added =
      if (first.put (.question request.question)).1 then [.question request.question] else [] := by
    simp only [j, hopened]
    exact Journal.added_put _
  rw [hdraft, hadded]
  by_cases h : QuestionFits request
  · rw [Draft.put_of_hasRoom (hroom.mpr h)]
    refine ⟨hlimit, hreserved, .inl ⟨h, rfl, hmark, ?_⟩⟩
    rw [Draft.size] at hsize
    simp only [Draft.withAuthoritative, Draft.size, List.length_append, Put.encode]
    omega
  · rw [Draft.put_of_not_hasRoom fun hfits => h (hroom.mp hfits)]
    exact ⟨hlimit, hreserved, .inr ⟨h, rfl, rfl, hsize⟩⟩

/-- At the end there is room for the extension record. -/
lemma play_closing {j : Journal} {rcode : Rcode} (hlimit : j.draft.limit = request.limit)
    (hsize : j.draft.size + room request ≤ request.limit) :
    let j' := j.play (closingCalls request rcode)
    j'.added = j.added ++
      (if request.payload?.isSome then [.opt (UInt16.ofNat request.limit)] else []) ∧
      j'.draft.header.truncated = j.draft.header.truncated ∧
      j'.draft.header.rcode = rcode.code := by
  intro j'
  have hplay : j' = (j.perform (.rcode rcode)).play (if request.payload?.isSome
      then [.put (.opt (UInt16.ofNat request.limit))] else []) := rfl
  rw [hplay]
  unfold room at hsize
  split_ifs at hsize ⊢ with hoption
  · have hroom : (j.perform (.rcode rcode)).draft.HasRoom
        (.opt (UInt16.ofNat request.limit)) := by
      rw [← hlimit] at hsize
      exact hsize
    have hput := Draft.put_of_hasRoom hroom
    have hone : (j.perform (.rcode rcode)).play [.put (.opt (UInt16.ofNat request.limit))] =
        (j.perform (.rcode rcode)).perform (.put (.opt (UInt16.ofNat request.limit))) := rfl
    rw [hone, Journal.added_put, Journal.draft_put, hput]
    exact ⟨rfl, rfl, rfl⟩
  · exact ⟨(List.append_nil _).symm, rfl, rfl⟩

/-- What a response holds, and how it is marked. -/
lemma play_all {records : List Record} {rcode : Rcode} (request : Request)
    (recursionAvailable : Bool) :
    ∃ kept,
      let question := if QuestionFits request then [Put.question request.question] else []
      let answered := (opened request recursionAvailable).play (records.map Journal.answerCall)
      let j := answered.play (closingCalls request rcode)
      j.added = question ++ kept.map (Put.record .answer) ++
        (if request.payload?.isSome then [.opt (UInt16.ofNat request.limit)] else []) ∧
      IsLongestFitting (fun rs =>
        headerSize + request.question.encode.length + Record.total rs ≤
          request.limit - room request) records kept ∧
      j.draft.header.truncated = answered.draft.header.truncated ∧
      (j.draft.header.truncated = true ↔ question = [] ∨ kept ≠ records) ∧
      j.draft.header.rcode = rcode.code := by
  have hbounds := request.limit_bounds
  have hdefault : defaultLimit = 512 := rfl
  have hheader : headerSize = 12 := rfl
  have hreserve : room request ≤ 11 := by
    unfold room
    split_ifs <;> decide
  obtain ⟨hlimit, hreserved, ⟨hfits, hadded, hmark, hsize⟩ | ⟨hfits, hadded, hmark, hsize⟩⟩ :=
    opened_cases request recursionAvailable
  · have hroom : (opened request recursionAvailable).draft.size ≤
        (opened request recursionAvailable).draft.limit -
          (opened request recursionAvailable).draft.reserved.toNat := by
      rw [hsize, hlimit, hreserved]
      exact hfits
    obtain ⟨hadded', hlimit', -, hsize', hmark'⟩ := Journal.play_answers hmark hroom records
    rw [hlimit, hreserved] at hsize'
    obtain ⟨hall, htruncated, hrcode⟩ := @play_closing request _ rcode (hlimit'.trans hlimit)
      (by omega)
    refine ⟨_, ?_, Record.isLongestFitting_fitting hfits records, htruncated, ?_, hrcode⟩
    · rw [hall, hadded', hadded, hlimit, hreserved, hsize, if_pos hfits]
    · rw [htruncated, hmark', hlimit, hreserved, hsize]
      simp [hfits]
  · have hplay := (Journal.draft_play_answers (opened request recursionAvailable) records).trans
      (Draft.addAll_of_truncated hmark records)
    obtain ⟨hall, htruncated, hrcode⟩ := @play_closing request
      ((opened request recursionAvailable).play (records.map Journal.answerCall)) rcode
      (by rw [hplay, hlimit]) (by rw [hplay, hsize]; omega)
    refine ⟨[], ?_, Record.isLongestFitting_nil (Nat.lt_of_not_le hfits) records, htruncated, ?_,
      hrcode⟩
    · rw [hall, Journal.added_play_of_truncated hmark, hadded, if_neg hfits]
      rfl
    · rw [htruncated, hplay, hmark]
      simp [hfits]

/-! ## What is read -/

/-- What is read where a question, some answers and an extension record were put. -/
lemma transcript_of_added {j : Journal} {question option : List Put} {kept : List Record}
    (hadded : j.added = question ++ kept.map (Put.record .answer) ++ option)
    (hquestion : ∀ p ∈ question, p.place = 0) (hoption : ∀ p ∈ option, p.place = 3) :
    j.transcript =
      { questions := question.filterMap Put.asked?
        answers := kept.map Record.entry
        authorities := []
        additionals := option.filterMap Put.entry? } := by
  have hnone : ∀ {n m : Fin 4} {ps : List Put}, n ≠ m → (∀ p ∈ ps, p.place = n) →
      ps.filter (·.place = m) = [] := by
    intro n m ps hne hps
    rw [List.filter_eq_nil_iff]
    intro p hp
    simpa [hps p hp] using hne
  have hall : ∀ {n : Fin 4} {ps : List Put}, (∀ p ∈ ps, p.place = n) →
      ps.filter (·.place = n) = ps := by
    intro n ps hps
    rw [List.filter_eq_self]
    intro p hp
    simp [hps p hp]
  have hanswer : ∀ p ∈ kept.map (Put.record .answer), p.place = 1 := by
    intro p hp
    obtain ⟨r, -, rfl⟩ := List.mem_map.mp hp
    rfl
  have hshown : (kept.map (Put.record .answer)).filterMap Put.entry? = kept.map Record.entry := by
    rw [List.filterMap_map]
    show kept.filterMap (some ∘ Record.entry) = _
    rw [List.filterMap_eq_map]
  rw [Journal.transcript, Transcript.mk.injEq]
  simp only [Journal.addedIn, hadded, List.filter_append]
  refine ⟨?_, ?_, ?_, ?_⟩
  · rw [hall hquestion, hnone (by decide) hanswer, hnone (by decide) hoption, List.append_nil,
      List.append_nil]
  · rw [hnone (by decide) hquestion, hall hanswer, hnone (by decide) hoption, List.nil_append,
      List.append_nil, hshown]
  · rw [hnone (by decide) hquestion, hnone (by decide) hanswer, hnone (by decide) hoption]
    rfl
  · rw [hnone (by decide) hquestion, hnone (by decide) hanswer, hall hoption, List.nil_append,
      List.nil_append]

lemma pairwise_place {question option : List Put} {kept : List Record}
    (hquestion : ∀ p ∈ question, p.place = 0) (hoption : ∀ p ∈ option, p.place = 3) :
    (question ++ kept.map (Put.record .answer) ++ option).Pairwise
      fun p q => p.place ≤ q.place := by
  have hanswer : ∀ p ∈ kept.map (Put.record .answer), p.place = 1 := by
    intro p hp
    obtain ⟨r, -, rfl⟩ := List.mem_map.mp hp
    rfl
  refine List.pairwise_append.mpr ⟨List.pairwise_append.mpr ⟨?_, ?_, ?_⟩, ?_, ?_⟩
  · refine List.pairwise_of_forall_mem_list fun p hp q hq => ?_
    rw [hquestion p hp, hquestion q hq]
  · refine List.pairwise_of_forall_mem_list fun p hp q hq => ?_
    rw [hanswer p hp, hanswer q hq]
  · intro p hp q _
    rw [hquestion p hp]
    exact Fin.zero_le _
  · refine List.pairwise_of_forall_mem_list fun p hp q hq => ?_
    rw [hoption p hp, hoption q hq]
  · intro p _ q hq
    rw [hoption q hq]
    exact Fin.le_last _

/-- What a client reads where the question, some answers and the extension record were put. -/
lemma read?_of_added {j : Journal} {kept : List Record} (hkept : j.Kept request.limit)
    (hname : Name.IsWire request.question.wireName) (howners : ∀ r ∈ kept, Name.IsWire r.owner)
    (hadded : j.added =
      (if QuestionFits request then [Put.question request.question] else []) ++
        kept.map (Put.record .answer) ++
        (if request.payload?.isSome then [.opt (UInt16.ofNat request.limit)] else [])) :
    Transcript.read? j.draft.finish =
      some ({ j.draft.header with
        opcode := j.draft.header.opcode &&& 0x0F
        rcode := j.draft.header.rcode &&& 0x0F },
      { questions := if QuestionFits request then [request.question.asked] else []
        answers := kept.map Record.entry
        authorities := []
        additionals := if request.payload?.isSome
          then [.option (UInt16.ofNat request.limit)] else [] }) := by
  have hfirst : ∀ p ∈ (if QuestionFits request then [Put.question request.question] else []),
      p = .question request.question := by
    split_ifs <;> simp
  have hlast : ∀ p ∈ (if request.payload?.isSome
      then [Put.opt (UInt16.ofNat request.limit)] else []), ∃ payload, p = .opt payload := by
    split_ifs <;> simp
  have hframed : ∀ p ∈ j.added, p.IsFramed := by
    intro p hp
    rw [hadded, List.mem_append, List.mem_append] at hp
    rcases hp with (hp | hp) | hp
    · rw [hfirst p hp]
      exact hname
    · obtain ⟨r, hr, rfl⟩ := List.mem_map.mp hp
      exact howners r hr
    · obtain ⟨payload, rfl⟩ := hlast p hp
      trivial
  have hplace₀ : ∀ p ∈ (if QuestionFits request then [Put.question request.question] else []),
      p.place = 0 := by
    intro p hp
    rw [hfirst p hp]
    rfl
  have hplace₃ : ∀ p ∈ (if request.payload?.isSome
      then [Put.opt (UInt16.ofNat request.limit)] else []), p.place = 3 := by
    intro p hp
    obtain ⟨payload, rfl⟩ := hlast p hp
    rfl
  have horder : j.added.Pairwise fun p q => p.place ≤ q.place := by
    rw [hadded]
    exact pairwise_place hplace₀ hplace₃
  rw [hkept.read?_finish (request.limit_bounds.2.trans (by decide)) hframed horder,
    transcript_of_added hadded hplace₀ hplace₃]
  split_ifs <;> rfl

/-- What a client reads of a response that holds some answers. -/
lemma read_play {records : List Record} {rcode : Rcode}
    (hname : Name.IsWire request.question.wireName) (howners : ∀ r ∈ records, Name.IsWire r.owner)
    (recursionAvailable : Bool) :
    let answered := (opened request recursionAvailable).play (records.map Journal.answerCall)
    ∃ h t kept, Transcript.read? (answered.play (closingCalls request rcode)).draft.finish =
        some (h, t) ∧
      t.answers = kept.map Record.entry ∧
      IsLongestFitting (fun rs =>
        headerSize + request.question.encode.length + Record.total rs ≤
          request.limit - room request) records kept ∧
      t.questions = (if QuestionFits request then [request.question.asked] else []) ∧
      (h.truncated = true ↔ t.questions = [] ∨ kept ≠ records) ∧
      h.truncated = answered.draft.header.truncated ∧ h.rcode = rcode.code := by
  intro answered
  obtain ⟨kept, hadded, hlongest, hanswered, htruncated, hrcode⟩ :=
    @play_all records rcode request recursionAvailable
  generalize hj : answered.play (closingCalls request rcode) = j at *
  have hbounds := request.limit_bounds
  have hkept : j.Kept request.limit := by
    rw [← hj]
    exact (((Journal.kept_start (le_trans (by decide) hbounds.1)).play _).play _).play _
  have hread := read?_of_added hkept hname
    (fun r hr => howners r (hlongest.isPrefix.subset hr)) hadded
  refine ⟨_, _, kept, hread, rfl, hlongest, rfl, ?_, hanswered, ?_⟩
  · refine htruncated.trans ?_
    split_ifs <;> simp
  · show j.draft.header.rcode &&& 0x0F = rcode.code
    rw [hrcode]
    cases rcode <;> rfl

/-- **The answer section.**  A client reads the longest prefix of the reference list that fits, and
is told whether it is all there is. -/
theorem respond_answers {configs : List ZoneConfig} {store : ZoneStore} {datagram : Bytes}
    (hstore : ZoneStore.ofConfigs configs = .ok store)
    (hparse : Request.parse datagram = .ok request)
    (hzone : store.find? request.question.name = some zone)
    (sources : Sources) (query : UInt64) (recursionAvailable : Bool) :
    let message := respond { zones := store, sources } request query recursionAvailable
    let records := (reference sources zone query request.question).1
    let rcode := (reference sources zone query request.question).2
    ∃ h t kept, Transcript.read? message = some (h, t) ∧
      t.answers = kept.map Record.entry ∧
      IsLongestFitting (fun rs =>
        headerSize + request.question.encode.length + Record.total rs ≤
          request.limit - room request) records kept ∧
      t.questions = (if QuestionFits request then [request.question.asked] else []) ∧
      (h.truncated = true ↔ t.questions = [] ∨ kept ≠ records) ∧
      (h.truncated = false → h.rcode = rcode.code) := by
  intro message records rcode
  have hname := Request.isWire_of_parse hparse
  obtain ⟨actual, hmessage, hrcode⟩ := @respond_eq_play zone query request
    { zones := store, sources } hzone (ZoneStore.pairwise_exchanges hstore hzone) recursionAvailable
  rw [Journal.play_append] at hmessage
  obtain ⟨h, t, kept, hread, hanswers, hlongest, hquestions, htruncated, hmark, hactual⟩ :=
    @read_play request records actual hname (isWire_owner_of_reference hname) recursionAvailable
  rw [← hmessage] at hread
  refine ⟨h, t, kept, hread, hanswers, hlongest, hquestions, htruncated, ?_⟩
  intro hwhole
  rw [hactual, hrcode (hmark ▸ hwhole)]

/-- A zone with a name that is an alias of itself. -/
def circularConfig : ZoneConfig where
  domain := ['a']
  primary := ['a']
  admin := ['a']
  serial := 1
  aliases := [(['b'], ['b'])]

/-- The zone that is made of it. -/
def circularZone : Zone where
  apex := ['a']
  serial := 1
  primary := ['a']
  admin := ['a']
  ttl := 60
  aliases := [(['b', '.', 'a'], ['b', '.', 'a'])]

/-- A query for texts at that name. -/
def circularQuery : Bytes :=
  [0, 7, 1, 0, 0, 1, 0, 0, 0, 0, 0, 0, 1, 98, 1, 97, 0, 0, 16, 0, 1]

/-- The query is about a name of the zone, and its answer ends in a failure. -/
theorem respond_answers_circularZone :
    ∃ request, Request.parse circularQuery = .ok request ∧
      ∃ h t, Transcript.read? (respond { zones := ⟨[(['a'], circularZone)]⟩ } request 0 false) =
        some (h, t) ∧ (h.truncated = false → h.rcode = Rcode.servFail.code) := by
  have hstore : ZoneStore.ofConfigs [circularConfig] = .ok ⟨[(['a'], circularZone)]⟩ := rfl
  obtain ⟨request, hparse⟩ : ∃ request, Request.parse circularQuery = .ok request := ⟨_, rfl⟩
  have hname : request.question.name = ['b', '.', 'a'] ∧
      request.question.type = RecordType.txt := by
    cases hparse
    exact ⟨rfl, rfl⟩
  have hzone : ZoneStore.find? ⟨[(['a'], circularZone)]⟩ request.question.name =
      some circularZone := by
    rw [hname.1]
    rfl
  have hend : circularZone.walkEnd ['b', '.', 'a'] = 1 :=
    (Nat.find_eq_iff _).mpr ⟨by decide, by decide⟩
  have hcode : (reference {} circularZone 0 request.question).2 = .servFail := by
    simp only [reference, hname.1, hname.2]
    rw [if_neg (by decide), if_neg (by decide), if_neg (by decide), if_neg (by decide),
      if_neg (by decide)]
    show walkRcode circularZone ['b', '.', 'a'] = .servFail
    rw [walkRcode, hend]
    decide
  obtain ⟨h, t, kept, hread, -, -, -, -, hrcode⟩ :=
    respond_answers hstore hparse hzone {} 0 false
  rw [hcode] at hrcode
  exact ⟨request, hparse, h, t, hread, hrcode⟩

end Resolver

end Nameserver

import Nameserver.Proofs.Resolution.Layout

/-!
# Replies of different sizes

The same question may be asked with more or less room for the reply.

**What grows.**  More room never takes anything away: the answers in the smaller reply are the first
ones of those in the larger, and a reply that is whole stays as it is but for the size that the
extension record repeats (`Resolver.replies_grow`).

**What stays.**  Whatever the size, the header is the same up to the counts, the mark of truncation
and the response code (`Resolver.replies_agree`).  The code is not: that the aliases lead in a
circle is found out only behind the last of them, so a reply that is full before that has no
failure to tell.
-/

namespace Nameserver

namespace Resolver

variable {resolver : Resolver} {configs : List ZoneConfig} {request request' : Request}
  {records : List Record}

/-! ## More room -/

section Room

variable (hquestion : request.question = request'.question)
  (hroom : request.limit - room request ≤ request'.limit - room request')

include hquestion hroom

lemma questionFits_mono (h : QuestionFits request) : QuestionFits request' := by
  unfold QuestionFits at h ⊢
  rw [← hquestion]
  exact h.trans hroom

lemma shown_mono (records : List Record) : shown request records <+: shown request' records := by
  by_cases hnil : shown request records = []
  · rw [hnil]
    exact List.nil_prefix
  · have hfits := (isLongestFitting_shown request records).fits_kept hnil
    rw [hquestion] at hfits
    exact (isLongestFitting_shown request' records).longest _ (shown_isPrefix request records)
      (hfits.trans hroom)

lemma isCut_mono (h : isCut request records = false) : isCut request' records = false := by
  obtain ⟨hfits, hall⟩ := isCut_eq_false_iff.mp h
  refine isCut_eq_false_iff.mpr ⟨questionFits_mono hquestion hroom hfits, ?_⟩
  have hmore := shown_mono hquestion hroom records
  rw [hall] at hmore
  exact (shown_isPrefix request' records).eq_of_length_le hmore.length_le

end Room

lemma limit_mono (request : Request) {small large : UInt16} (hsize : small ≤ large) :
    Request.limit { request with payload? := some small } ≤
      Request.limit { request with payload? := some large } :=
  min_le_min_right _ (max_le_max_right _ (UInt16.le_iff_toNat_le.mp hsize))

/-- **More room.**  Let a question be asked with two advertised sizes.  The answers in the reply to
the smaller one are the first of those in the other reply, which is not truncated if the first is
not.  If the first is not truncated, both are the same in front of their extension records, which
repeat the sizes as far as they are in bounds. -/
theorem replies_grow (hstore : ZoneStore.ofConfigs configs = .ok resolver.zones)
    (request : Request) (query : UInt64) (recursionAvailable : Bool) {small large : UInt16}
    (hsize : small ≤ large) :
    let message (payload : UInt16) :=
      resolver.respond { request with payload? := some payload } query recursionAvailable
    let option (payload : UInt16) :=
      (Draft.optRecord (UInt16.ofNat (min (max payload.toNat 512) 4096))).encode
    ∃ h h' kept kept',
      Carries (message small) request.question h kept ∧
      Carries (message large) request.question h' kept' ∧
      kept <+: kept' ∧ (h'.truncated = true → h.truncated = true) ∧
      (h.truncated = false → ∃ front,
        message small = front ++ option small ∧ message large = front ++ option large) := by
  intro message option
  let sized (payload : UInt16) : Request := { request with payload? := some payload }
  have hsame : (sized small).question = (sized large).question := rfl
  have hroom : (sized small).limit - room (sized small) ≤
      (sized large).limit - room (sized large) :=
    Nat.sub_le_sub_right (limit_mono request hsize) optSize
  refine ⟨_, _, _, _, carries_respond hstore (sized small) query recursionAvailable,
    carries_respond hstore (sized large) query recursionAvailable, shown_mono hsame hroom _, ?_, ?_⟩
  · intro hcut
    by_contra hwhole
    have hmore := isCut_mono hsame hroom (Bool.eq_false_of_not_eq_true hwhole)
    exact Bool.false_ne_true (hmore.symm.trans hcut)
  · intro hwhole
    refine ⟨_, respond_eq_encode hstore (sized small) query recursionAvailable, ?_⟩
    rw [reply_of_whole hwhole]
    refine (respond_eq_encode hstore (sized large) query recursionAvailable).trans ?_
    rw [reply_of_whole (isCut_mono hsame hroom hwhole)]
    rfl

/-- A client asks for the texts of a name that is an alias of itself. -/
def circularRequest : Request where
  header := { id := 7, recursionDesired := true }
  question := .ofName ['b', '.', 'a'] RecordType.txt

/-- The answer to it fits into 512 octets, so with more room it stays the same. -/
theorem replies_grow_circularRequest :
    let resolver : Resolver := { zones := ⟨[(['a'], circularZone)]⟩ }
    let message (payload : UInt16) :=
      resolver.respond { circularRequest with payload? := some payload } 0 false
    ZoneStore.ofConfigs [circularConfig] = .ok resolver.zones ∧ (512 : UInt16) ≤ 5000 ∧
      ∃ front, message 512 = front ++ [0, 0, 41, 2, 0, 0, 0, 0, 0, 0, 0] ∧
        message 5000 = front ++ [0, 0, 41, 16, 0, 0, 0, 0, 0, 0, 0] := by
  intro resolver message
  have hstore : ZoneStore.ofConfigs [circularConfig] = .ok resolver.zones := rfl
  obtain ⟨h, h', kept, kept', hsmall, -, -, -, hwhole⟩ :=
    replies_grow hstore circularRequest 0 false (by decide : (512 : UInt16) ≤ 5000)
  have hmark : (Header.decode (message 512)).map Header.truncated = .ok false := by decide +kernel
  rw [hsmall.header] at hmark
  exact ⟨hstore, by decide, hwhole (Except.ok.inj hmark)⟩

/-! ## The verdict -/

/-- The answer to a question leads in a circle along the aliases of a zone. -/
def IsCircular (resolver : Resolver) (q : Question) : Prop :=
  ∃ zone, resolver.zones.find? q.name = some zone ∧
    q.type ∉ [RecordType.soa, RecordType.caa, RecordType.cname] ∧
    (q.type = RecordType.ns → q.name ≠ zone.apex) ∧ (q.type = RecordType.mx → q.name ≠ zone.apex) ∧
    zone.Revisits q.name

lemma verdict_eq_servFail_iff {query : UInt64} {q : Question} :
    resolver.verdict query q = .servFail ↔ resolver.IsCircular q := by
  unfold verdict IsCircular
  cases resolver.zones.find? q.name with
  | none => simp
  | some zone =>
      simp only [reference, ← walkRcode_eq_servFail_iff]
      split_ifs <;> simp_all

/-- **The verdict.**  Let a question be asked with two sizes, or with none.  The headers of the
replies differ in nothing but the counts, the mark of truncation and the response code, and the
answers are the first of the same records.  The codes are the same as well unless the answer leads
in a circle.  Then a reply that is whole tells the failure, and one that is truncated does not. -/
theorem replies_agree (hstore : ZoneStore.ofConfigs configs = .ok resolver.zones)
    (request : Request) (query : UInt64) (recursionAvailable : Bool)
    (payload? payload?' : Option UInt16) :
    let message (payload? : Option UInt16) :=
      resolver.respond { request with payload? } query recursionAvailable
    ∃ h h' kept kept',
      Carries (message payload?) request.question h kept ∧
      Carries (message payload?') request.question h' kept' ∧
      (kept <+: kept' ∨ kept' <+: kept) ∧ h.authoritative = h'.authoritative ∧
      { h.uncounted with rcode := 0 } = { h'.uncounted with rcode := 0 } ∧
      (¬ resolver.IsCircular request.question → h.rcode = h'.rcode) ∧
      (resolver.IsCircular request.question →
        h.rcode = (if h.truncated then Rcode.noError else Rcode.servFail).code ∧
        h'.rcode = (if h'.truncated then Rcode.noError else Rcode.servFail).code) := by
  intro message
  let sized (payload? : Option UInt16) : Request := { request with payload? }
  have hfront : ∀ payload?, shown (sized payload?) (resolver.records query request.question) <+:
      resolver.records query request.question := fun payload? => shown_isPrefix _ _
  refine ⟨_, _, _, _, carries_respond hstore (sized payload?) query recursionAvailable,
    carries_respond hstore (sized payload?') query recursionAvailable,
    List.prefix_or_prefix_of_prefix (hfront _) (hfront _), rfl, rfl, ?_, ?_⟩
  · intro hstraight
    have hverdict : resolver.verdict query request.question ≠ .servFail :=
      mt verdict_eq_servFail_iff.mp hstraight
    have htold := toldRcode_of_ne hverdict
    exact congrArg Rcode.code ((htold _).trans (htold _).symm)
  · intro hcircle
    have hverdict : resolver.verdict query request.question = .servFail :=
      verdict_eq_servFail_iff.mpr hcircle
    have htold : ∀ payload?, (resolver.sentHeader (sized payload?) query recursionAvailable).rcode =
        (if (resolver.sentHeader (sized payload?) query recursionAvailable).truncated
          then Rcode.noError else Rcode.servFail).code := by
      intro payload?
      rw [rcode_sentHeader]
      show (toldRcode (resolver.verdict query request.question) _).code = _
      rw [hverdict, toldRcode]
      simp
    exact ⟨htold payload?, htold payload?'⟩

/-- A name that takes up most of the room it may take. -/
def longLabels : Text :=
  List.replicate 63 'b' ++ '.' :: List.replicate 63 'b' ++ '.' :: List.replicate 40 'b'

/-- A zone with a long name that is an alias of itself. -/
def longCircleConfig : ZoneConfig where
  domain := ['a']
  primary := ['a']
  admin := ['a']
  serial := 1
  aliases := [(longLabels, longLabels)]

/-- The zone that is made of it. -/
def longCircleZone : Zone where
  apex := ['a']
  serial := 1
  primary := ['a']
  admin := ['a']
  ttl := 60
  aliases := [(longLabels ++ ['.', 'a'], longLabels ++ ['.', 'a'])]

/-- A client asks for the texts of that name. -/
def longCircleRequest : Request where
  header := { id := 7, recursionDesired := true }
  question := .ofName (longLabels ++ ['.', 'a']) RecordType.txt

/-- It is told of the failure only if it takes more than 512 octets. -/
theorem replies_agree_longCircle :
    let resolver : Resolver := { zones := ⟨[(['a'], longCircleZone)]⟩ }
    let message (payload? : Option UInt16) :=
      resolver.respond { longCircleRequest with payload? } 0 false
    ZoneStore.ofConfigs [longCircleConfig] = .ok resolver.zones ∧
      ∃ h h', Header.decode (message none) = .ok h ∧ Header.decode (message (some 4096)) = .ok h' ∧
        h.authoritative = h'.authoritative ∧ h.truncated = true ∧
        h.rcode = Rcode.noError.code ∧ h'.rcode = Rcode.servFail.code := by
  intro resolver message
  have hstore : ZoneStore.ofConfigs [longCircleConfig] = .ok resolver.zones := by rfl
  have hcircle : resolver.IsCircular longCircleRequest.question := by
    exact ⟨longCircleZone, rfl, by decide, by decide, by decide, 0, 1, Nat.zero_lt_one,
      by decide +kernel, by decide +kernel⟩
  obtain ⟨h, h', kept, kept', hplain, hlarge, -, hsame, -, -, htold⟩ :=
    replies_agree hstore longCircleRequest 0 false none (some 4096)
  obtain ⟨hrcode, hrcode'⟩ := htold hcircle
  have hmark : (Header.decode (message none)).map Header.truncated = .ok true := by
    decide +kernel
  have hmark' : (Header.decode (message (some 4096))).map Header.truncated = .ok false := by
    decide +kernel
  rw [hplain.header] at hmark
  rw [hlarge.header] at hmark'
  rw [Except.ok.inj hmark] at hrcode
  rw [Except.ok.inj hmark'] at hrcode'
  exact ⟨hstore, h, h', hplain.header, hlarge.header, hsame, Except.ok.inj hmark, hrcode, hrcode'⟩

end Resolver

end Nameserver

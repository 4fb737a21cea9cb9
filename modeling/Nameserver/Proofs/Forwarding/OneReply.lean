import Nameserver.Proofs.Forwarding.Standing

/-!
# One reply for every forwarded query

A forwarded query gets one reply, whatever the order in which callers and workers act.
`Pool.one_reply` says so for every reachable pool.

**The account.**  A part of a query is open until it is counted off, or has brought an answer.  So
what is outstanding of a ticket are the open parts and those that have brought an answer.  The
ticket is redeemed if there is one of the latter, or if everything is counted off and nobody is left
who claims the right to reply (`Ticket.Balanced`).

**The error reply.**  It goes out when the one who has counted off the last part redeems the ticket.
No part can have brought an answer then or have come too late, and none is open.
-/

namespace Nameserver

namespace Ticket

/-- How a ticket stands with so many open parts, and so many who claim the right to reply after they
have counted off the last one. -/
structure Balanced (ticket : Ticket) (openParts claimants : Nat) : Prop where
  open_le : (openParts : ℤ) ≤ ticket.outstanding
  /-- Only one claims the right to reply, when nothing is outstanding. -/
  of_claimants : 0 < claimants → ticket.outstanding = 0 ∧ claimants = 1
  /-- The ticket is redeemed if all is counted off and claimed, or if more is outstanding than what
  is open. -/
  redeemed_iff : ticket.redeemed = true ↔
    (ticket.outstanding = 0 ∧ claimants = 0) ∨ (openParts : ℤ) < ticket.outstanding

variable {ticket : Ticket} {openParts claimants : Nat}

/-- Whoever counts off the last part becomes a claimant. -/
lemma Balanced.countOff (h : ticket.Balanced (openParts + 1) claimants) :
    ticket.countOff.2.Balanced openParts
      (claimants + if ticket.countOff.1 then 1 else 0) := by
  obtain ⟨hle, hclaimants, hiff⟩ := h
  push_cast at hle hiff
  have hnone : claimants = 0 := by
    by_contra hpos
    have := (hclaimants (by omega)).1
    omega
  subst hnone
  constructor
  case open_le =>
    simp only [Ticket.countOff]
    omega
  case of_claimants =>
    intro hlast
    have hone : ticket.outstanding = 1 := by
      by_contra hne
      simp [Ticket.countOff, hne] at hlast
    simp [Ticket.countOff, hone]
  case redeemed_iff =>
    simp only [Ticket.countOff, hiff, decide_eq_true_eq]
    split <;> omega

/-- The one who claims the right to reply gets it. -/
lemma Balanced.claim (h : ticket.Balanced openParts (claimants + 1)) :
    ticket.outstanding = 0 ∧ ticket.redeemed = false ∧
      ticket.redeem.2.Balanced openParts claimants := by
  obtain ⟨hle, hclaimants, hiff⟩ := h
  obtain ⟨hzero, hone⟩ := hclaimants (by omega)
  have hopen : ticket.redeemed = false := by
    rw [← Bool.not_eq_true, hiff]
    omega
  refine ⟨hzero, hopen, ?_⟩
  constructor
  case open_le => exact hle
  case of_claimants => omega
  case redeemed_iff =>
    simp only [Ticket.redeem, true_iff]
    omega

/-- A part that brings an answer stays outstanding. -/
lemma Balanced.answer (h : ticket.Balanced (openParts + 1) claimants) :
    ticket.redeem.2.Balanced openParts claimants := by
  obtain ⟨hle, hclaimants, hiff⟩ := h
  push_cast at hle
  constructor
  case open_le =>
    simp only [Ticket.redeem]
    omega
  case of_claimants => exact hclaimants
  case redeemed_iff =>
    simp only [Ticket.redeem, true_iff]
    omega

end Ticket

/-- Whether a part has ended without an answer while nobody had replied. -/
def Outcome.Missed (outcome : Outcome) : Prop := outcome = .refused ∨ outcome = .failed

namespace Forwarded

/-- The replies that the caller of a query has still to send. -/
def owed (q : Forwarded) : Nat := if q.callerReplies && q.caller ≠ .settled then 1 else 0

/-- The parts of a query that are not counted off and have brought no answer: those of the workers
that the caller is not done with, and those of which a worker has a copy. -/
def openParts (q : Forwarded) (s : Shares) : Nat :=
  (s.copies.length - q.asked) + s.copies.sum + s.failures.sum

/-- Those who claim the right to reply, the caller of the query and workers. -/
def claimants (q : Forwarded) (s : Shares) : Nat :=
  s.claims.sum + if q.caller = .claiming then 1 else 0

/-- What always holds of a query and what the workers have to do with it. -/
structure Sound (q : Forwarded) (s : Shares) : Prop where
  /-- The caller is done only with workers that there are. -/
  asked_le : q.asked ≤ s.copies.length
  /-- It is a worker that has refused. -/
  asked_lt_of_refused : q.caller = .refused → q.asked < s.copies.length
  /-- The caller settles when all have been asked. -/
  asked_of_settled : q.caller = .settled → q.asked = s.copies.length
  /-- The ticket agrees with what is open and claimed. -/
  balanced : q.ticket.Balanced (q.openParts s) (q.claimants s)
  /-- There is one reply, sent or owed, for a ticket that is redeemed. -/
  replies : q.replies.length + q.owed = if q.ticket.redeemed then 1 else 0
  /-- A worker that was asked has a copy, or its part is over. -/
  covered : ∀ w < q.asked, (∃ n, s.copies[w]? = some (n + 1)) ∨ ∃ outcome, (w, outcome) ∈ s.ended
  /-- The part of a worker that has refused is over. -/
  covered_of_refused : q.caller = .refused → ∃ outcome, (q.asked, outcome) ∈ s.ended
  /-- As long as nobody has replied, the parts that are over have brought nothing. -/
  missed_of_unredeemed : q.ticket.redeemed = false → ∀ e ∈ s.ended, e.2.Missed
  /-- Where an error reply is sent or owed, nothing is outstanding and no part has brought
  anything. -/
  missed_of_servFail : .servFail ∈ q.replies ∨ q.callerReplies = true →
    q.ticket.outstanding = 0 ∧ ∀ e ∈ s.ended, e.2.Missed

variable {q : Forwarded} {s : Shares} {w n m : Nat}

/-! ## Open parts -/

lemma sum_set {ns : List Nat} (hm : ns[w]? = some m) : (ns.set w n).sum + m = ns.sum + n := by
  induction ns generalizing w with
  | nil => simp at hm
  | cons k ns ih =>
      cases w with
      | zero =>
          simp only [List.getElem?_cons_zero, Option.some.injEq] at hm
          simp only [List.set_cons_zero, List.sum_cons, hm]
          omega
      | succ w =>
          simp only [List.getElem?_cons_succ] at hm
          simp only [List.set_cons_succ, List.sum_cons]
          have hsum := ih hm
          omega

lemma openParts_pos_of_copy (hcopy : s.copies[w]? = some (n + 1)) : 0 < q.openParts s := by
  have hsum := sum_set (n := 0) hcopy
  unfold openParts
  omega

/-- A query with an open part has got no error reply. -/
lemma Sound.not_servFail (h : q.Sound s) (hopen : 0 < q.openParts s) :
    ¬ (Relay.servFail ∈ q.replies ∨ q.callerReplies = true) := by
  intro hfail
  have hout := (h.missed_of_servFail hfail).1
  have hle := h.balanced.open_le
  omega

/-- Without an open part, every worker's part is over. -/
lemma Sound.ended_of_openParts (h : q.Sound s) (hopen : q.openParts s = 0) :
    ∀ w < s.copies.length, ∃ outcome, (w, outcome) ∈ s.ended := by
  intro w hw
  have hasked : w < q.asked := by
    unfold openParts at hopen
    omega
  rcases h.covered w hasked with ⟨n, hn⟩ | hended
  · have hpos := openParts_pos_of_copy (q := q) hn
    omega
  · exact hended

/-! ## What the changes keep -/

lemma sound_ofQuery (query : Bytes) (hcopies : s.copies.sum = 0) (hfailures : s.failures.sum = 0)
    (hclaims : s.claims.sum = 0) (hended : s.ended = []) :
    (ofQuery query s.copies.length).Sound s := by
  unfold ofQuery
  split
  · rename_i hzero
    have hbalanced : (Ticket.issue 0).redeem.2.Balanced 0 0 := by
      constructor <;> simp [Ticket.issue, Ticket.redeem]
    constructor
    case balanced =>
      simpa [openParts, claimants, hzero, hcopies, hfailures, hclaims] using hbalanced
    all_goals simp [owed, Ticket.issue, Ticket.redeem, hzero, hended]
  · rename_i hpos
    have hbalanced : (Ticket.issue s.copies.length).Balanced s.copies.length 0 := by
      constructor <;> simp [Ticket.issue]
      simpa using hpos
    constructor
    case balanced => simpa [openParts, claimants, hcopies, hfailures, hclaims] using hbalanced
    all_goals simp [owed, Ticket.issue, hended]

lemma Sound.accept (h : q.Sound s) (hcaller : q.caller = .asking)
    (hcopies : s.copies[q.asked]? = some n) :
    q.accept.Sound { s with copies := s.copies.set q.asked (n + 1) } := by
  have hasked := (List.getElem?_eq_some_iff.1 hcopies).1
  have hopen : q.accept.openParts { s with copies := s.copies.set q.asked (n + 1) }
      = q.openParts s := by
    have hsum := sum_set (n := n + 1) hcopies
    simp only [openParts, Forwarded.accept, List.length_set]
    omega
  constructor
  case asked_le => simpa [Forwarded.accept] using hasked
  case balanced =>
    rw [hopen]
    exact h.balanced
  case replies => exact h.replies
  case covered =>
    intro v hv
    simp only [Forwarded.accept] at hv
    rcases eq_or_ne q.asked v with rfl | hne
    · exact .inl ⟨n, by simp [hasked]⟩
    · simpa [hne] using h.covered v (by omega)
  case missed_of_unredeemed => exact h.missed_of_unredeemed
  case missed_of_servFail => exact h.missed_of_servFail
  all_goals simp [Forwarded.accept, hcaller]

/-- The end of a part that was open keeps what holds of a query, unless it comes too early. -/
lemma Sound.missed_append {outcome : Outcome} (h : q.Sound s) (hopen : 0 < q.openParts s)
    (houtcome : outcome.Missed ∨ q.ticket.redeemed = true) :
    (q.ticket.redeemed = false → ∀ e ∈ s.ended ++ [(w, outcome)], e.2.Missed) ∧
    (.servFail ∈ q.replies ∨ q.callerReplies = true →
      q.ticket.outstanding = 0 ∧ ∀ e ∈ s.ended ++ [(w, outcome)], e.2.Missed) := by
  refine ⟨fun hunredeemed e he => ?_, fun hfail => absurd hfail (h.not_servFail hopen)⟩
  rcases List.mem_append.1 he with he | he
  · exact h.missed_of_unredeemed hunredeemed e he
  · rw [List.mem_singleton.1 he]
    exact houtcome.resolve_right (by simp [hunredeemed])

lemma Sound.covered_append {e : Nat × Outcome} (h : q.Sound s) :
    ∀ w < q.asked, (∃ n, s.copies[w]? = some (n + 1)) ∨ ∃ outcome, (w, outcome) ∈ s.ended ++ [e] :=
  fun w hw => (h.covered w hw).imp_right fun ⟨outcome, ho⟩ =>
    ⟨outcome, List.mem_append_left _ ho⟩

lemma Sound.refuse (h : q.Sound s) (hcaller : q.caller = .asking)
    (hasked : q.asked < s.copies.length) :
    q.refuse.Sound { s with ended := s.ended ++ [(q.asked, .refused)] } := by
  have hopen : 0 < q.openParts s := by
    unfold openParts
    omega
  obtain ⟨hunredeemed, hservFail⟩ := h.missed_append (w := q.asked) hopen (.inl (.inl rfl))
  constructor
  case asked_le => exact h.asked_le
  case asked_lt_of_refused => exact fun _ => hasked
  case asked_of_settled => simp [Forwarded.refuse]
  case balanced =>
    have hbalanced := h.balanced
    simpa [openParts, claimants, Forwarded.refuse, hcaller] using hbalanced
  case replies =>
    have howed : q.refuse.owed = q.owed := by simp [owed, Forwarded.refuse, hcaller]
    rw [howed]
    exact h.replies
  case covered => exact h.covered_append
  case covered_of_refused => exact fun _ => ⟨.refused, by simp [Forwarded.refuse]⟩
  case missed_of_unredeemed => exact hunredeemed
  case missed_of_servFail => exact hservFail

lemma Sound.countRefusal (h : q.Sound s) (hcaller : q.caller = .refused) :
    q.countRefusal.Sound s := by
  have hasked := h.asked_lt_of_refused hcaller
  have hopen : q.openParts s = q.countRefusal.openParts s + 1 := by
    simp only [openParts, Forwarded.countRefusal]
    omega
  have hbalanced := h.balanced
  rw [hopen] at hbalanced
  constructor
  case asked_le => exact hasked
  case balanced =>
    have hcount := hbalanced.countOff
    cases hlast : q.ticket.countOff.1 <;>
      simpa [claimants, Forwarded.countRefusal, hcaller, hlast] using hcount
  case replies =>
    have howed : q.countRefusal.owed = q.owed := by
      cases hlast : q.ticket.countOff.1 <;>
        simp [owed, Forwarded.countRefusal, hcaller, hlast]
    rw [howed]
    exact h.replies
  case covered =>
    intro v hv
    rcases Nat.lt_succ_iff_lt_or_eq.1 hv with hv | rfl
    · exact h.covered v hv
    · exact .inr (h.covered_of_refused hcaller)
  case missed_of_unredeemed => exact h.missed_of_unredeemed
  case missed_of_servFail =>
    exact fun hfail => absurd hfail (h.not_servFail (by omega))
  all_goals cases hlast : q.ticket.countOff.1 <;> simp [Forwarded.countRefusal, hlast]

lemma Sound.claimRefusal (h : q.Sound s) (hcaller : q.caller = .claiming) :
    q.claimRefusal.Sound s := by
  have hbalanced := h.balanced
  rw [claimants, if_pos hcaller] at hbalanced
  obtain ⟨hzero, hunredeemed, hclaim⟩ := hbalanced.claim
  constructor
  case asked_le => exact h.asked_le
  case balanced => simpa [openParts, claimants, Forwarded.claimRefusal] using hclaim
  case replies =>
    have hreplies := h.replies
    simp only [hunredeemed, Bool.false_eq_true, if_false, Nat.add_eq_zero_iff] at hreplies
    simp [owed, Forwarded.claimRefusal, Ticket.redeem, hunredeemed, hreplies.1]
  case covered => exact h.covered
  case missed_of_unredeemed => simp [Forwarded.claimRefusal, Ticket.redeem]
  case missed_of_servFail => exact fun _ => ⟨hzero, h.missed_of_unredeemed hunredeemed⟩
  all_goals simp [Forwarded.claimRefusal]

lemma Sound.settle (h : q.Sound s) (hasked : q.asked = s.copies.length)
    (hcaller : q.caller = .asking) : q.settle.Sound s := by
  have hmem : Relay.servFail ∈ q.settle.replies →
      Relay.servFail ∈ q.replies ∨ q.callerReplies = true := by
    cases hreplies : q.callerReplies <;> simp [Forwarded.settle, hreplies]
  constructor
  case asked_le => exact h.asked_le
  case asked_of_settled => exact fun _ => hasked
  case balanced =>
    have hbalanced := h.balanced
    simpa [openParts, claimants, Forwarded.settle, hcaller] using hbalanced
  case replies =>
    have hreplies := h.replies
    cases hcallerReplies : q.callerReplies <;>
      simpa [Forwarded.settle, owed, hcallerReplies, hcaller] using hreplies
  case covered => exact h.covered
  case missed_of_unredeemed => exact h.missed_of_unredeemed
  case missed_of_servFail =>
    exact fun hfail => h.missed_of_servFail (hfail.elim hmem .inr)
  all_goals simp [Forwarded.settle]

/-- A worker whose part ends without an answer has it to count off. -/
lemma Sound.fail (outcome : Outcome) (h : q.Sound s) (hcopy : s.copies[w]? = some (n + 1))
    (hfailure : s.failures[w]? = some m) (houtcome : outcome.Missed ∨ q.ticket.redeemed = true) :
    q.Sound
      { s with
        copies := s.copies.set w n
        failures := s.failures.set w (m + 1)
        ended := s.ended ++ [(w, outcome)] } := by
  have hopen : q.openParts
      { s with
        copies := s.copies.set w n
        failures := s.failures.set w (m + 1)
        ended := s.ended ++ [(w, outcome)] } = q.openParts s := by
    have hcopies := sum_set (n := n) hcopy
    have hfailures := sum_set (n := m + 1) hfailure
    simp only [openParts, List.length_set]
    omega
  obtain ⟨hunredeemed, hservFail⟩ :=
    h.missed_append (w := w) (openParts_pos_of_copy hcopy) houtcome
  constructor
  case balanced =>
    rw [hopen]
    exact h.balanced
  case replies => exact h.replies
  case covered =>
    intro v hv
    rcases eq_or_ne w v with rfl | hne
    · exact .inr ⟨outcome, by simp⟩
    · simpa [hne] using h.covered_append (e := (w, outcome)) v hv
  case covered_of_refused =>
    intro hcaller
    obtain ⟨o, ho⟩ := h.covered_of_refused hcaller
    exact ⟨o, List.mem_append_left _ ho⟩
  case missed_of_unredeemed => exact hunredeemed
  case missed_of_servFail => exact hservFail
  case asked_le => simpa using h.asked_le
  case asked_lt_of_refused => simpa using h.asked_lt_of_refused
  case asked_of_settled => simpa using h.asked_of_settled

lemma Sound.answer (h : q.Sound s) (datagram : Bytes) (hcopy : s.copies[w]? = some (n + 1)) :
    (q.answer datagram).Sound
      { s with copies := s.copies.set w n, ended := s.ended ++ [(w, .answered)] } := by
  have hnot := h.not_servFail (openParts_pos_of_copy hcopy)
  have hopen : q.openParts s = (q.answer datagram).openParts
      { s with copies := s.copies.set w n, ended := s.ended ++ [(w, .answered)] } + 1 := by
    have hcopies := sum_set (n := n) hcopy
    simp only [openParts, Forwarded.answer, List.length_set]
    omega
  have hbalanced := h.balanced
  rw [hopen] at hbalanced
  constructor
  case balanced => exact hbalanced.answer
  case replies =>
    have hreplies := h.replies
    have howed : (q.answer datagram).owed = q.owed := rfl
    rw [howed]
    cases hredeemed : q.ticket.redeemed with
    | true => simpa [Forwarded.answer, Ticket.redeem, hredeemed] using hreplies
    | false =>
      simp only [hredeemed, Bool.false_eq_true, if_false] at hreplies
      simp only [Forwarded.answer, Ticket.redeem, hredeemed, Bool.not_false, if_true,
        List.length_append, List.length_singleton]
      omega
  case covered =>
    intro v hv
    rcases eq_or_ne w v with rfl | hne
    · exact .inr ⟨.answered, by simp⟩
    · simpa [hne] using h.covered_append (e := (w, .answered)) v hv
  case covered_of_refused =>
    intro hcaller
    obtain ⟨o, ho⟩ := h.covered_of_refused hcaller
    exact ⟨o, List.mem_append_left _ ho⟩
  case missed_of_unredeemed => simp [Forwarded.answer, Ticket.redeem]
  case missed_of_servFail =>
    intro hservFail
    cases hredeemed : q.ticket.redeemed <;>
      exact absurd (by simpa [Forwarded.answer, Ticket.redeem, hredeemed] using hservFail) hnot
  case asked_le => simpa [Forwarded.answer] using h.asked_le
  case asked_lt_of_refused => simpa [Forwarded.answer] using h.asked_lt_of_refused
  case asked_of_settled => simpa [Forwarded.answer] using h.asked_of_settled

lemma Sound.countFailure (h : q.Sound s) (hfailure : s.failures[w]? = some (n + 1))
    (hclaim : s.claims[w]? = some 0) :
    q.countFailure.Sound
      { s with
        failures := s.failures.set w n
        claims := s.claims.set w (if q.ticket.countOff.1 then 1 else 0) } := by
  have hfailures := sum_set (n := n) hfailure
  have hclaims := sum_set (n := if q.ticket.countOff.1 then 1 else 0) hclaim
  have hopen : q.openParts s = q.countFailure.openParts
      { s with
        failures := s.failures.set w n
        claims := s.claims.set w (if q.ticket.countOff.1 then 1 else 0) } + 1 := by
    simp only [openParts, Forwarded.countFailure]
    omega
  have hbalanced := h.balanced
  rw [hopen] at hbalanced
  constructor
  case balanced =>
    have hcount := hbalanced.countOff
    rw [claimants, add_right_comm, ← hclaims, add_zero] at hcount
    exact hcount
  case asked_le => exact h.asked_le
  case asked_lt_of_refused => exact h.asked_lt_of_refused
  case asked_of_settled => exact h.asked_of_settled
  case replies => exact h.replies
  case covered => exact h.covered
  case covered_of_refused => exact h.covered_of_refused
  case missed_of_unredeemed => exact h.missed_of_unredeemed
  case missed_of_servFail =>
    exact fun hfail => absurd hfail (h.not_servFail (by omega))

lemma Sound.claimFailure (h : q.Sound s) (hclaim : s.claims[w]? = some (n + 1)) :
    q.claimFailure.Sound { s with claims := s.claims.set w n } := by
  have hclaimants : q.claimants s
      = q.claimFailure.claimants { s with claims := s.claims.set w n } + 1 := by
    have hclaims : (s.claims.set w n).sum + 1 = s.claims.sum := by
      have hsum := sum_set (n := n) hclaim
      omega
    rw [claimants, claimants, add_right_comm, hclaims]
    rfl
  have hbalanced := h.balanced
  rw [hclaimants] at hbalanced
  obtain ⟨hzero, hunredeemed, hclaimed⟩ := hbalanced.claim
  constructor
  case balanced => exact hclaimed
  case replies =>
    have hreplies := h.replies
    have howed : q.claimFailure.owed = q.owed := rfl
    rw [howed]
    simp only [hunredeemed, Bool.false_eq_true, if_false] at hreplies
    simp only [Forwarded.claimFailure, Ticket.redeem, hunredeemed, Bool.not_false, if_true,
      List.length_append, List.length_singleton]
    omega
  case asked_le => exact h.asked_le
  case asked_lt_of_refused => exact h.asked_lt_of_refused
  case asked_of_settled => exact h.asked_of_settled
  case covered => exact h.covered
  case covered_of_refused => exact h.covered_of_refused
  case missed_of_unredeemed => simp [Forwarded.claimFailure, Ticket.redeem]
  case missed_of_servFail => exact fun _ => ⟨hzero, h.missed_of_unredeemed hunredeemed⟩

end Forwarded

namespace Standing

/-- What always holds of a standing.  A query that has not come leaves no trace. -/
def Good (s : Standing) : Prop :=
  match s.query? with
  | none => (s.copies.sum = 0 ∧ s.failures.sum = 0 ∧ s.claims.sum = 0) ∧ s.ended = []
  | some q => q.Sound s.toShares

lemma Good.sound {s : Standing} {q : Forwarded} (h : s.Good) (hq : s.query? = some q) :
    q.Sound s.toShares := by
  unfold Good at h
  rwa [hq] at h

lemma Good.change {s t : Standing} (h : s.Good) (hchange : s.Change t) : t.Good := by
  cases hchange with
  | same => exact h
  | enter query hnone =>
      unfold Good at h
      rw [hnone] at h
      obtain ⟨⟨hcopies, hfailures, hclaims⟩, hended⟩ := h
      exact Forwarded.sound_ofQuery query hcopies hfailures hclaims hended
  | accept hq hcaller hcopies => exact (h.sound hq).accept hcaller hcopies
  | refuse hq hcaller hasked => exact (h.sound hq).refuse hcaller hasked
  | countRefusal hq hcaller => exact (h.sound hq).countRefusal hcaller
  | claimRefusal hq hcaller => exact (h.sound hq).claimRefusal hcaller
  | settle hq hasked hcaller => exact (h.sound hq).settle hasked hcaller
  | late hq hcopy hfailure hredeemed =>
      have hlate := (h.sound hq).fail .late hcopy hfailure (.inr hredeemed)
      simpa [Good, hq] using hlate
  | fail hq hcopy hfailure =>
      have hfail := (h.sound hq).fail .failed hcopy hfailure (.inl (.inr rfl))
      simpa [Good, hq] using hfail
  | answer datagram hq hcopy => exact (h.sound hq).answer datagram hcopy
  | countFailure hq hfailure hclaim => exact (h.sound hq).countFailure hfailure hclaim
  | claimFailure hq hclaim => exact (h.sound hq).claimFailure hclaim

end Standing

namespace Pool

variable {pool : Pool} {past : List Ending} {i : Nat}

lemma good_start (forwarders : List SocketAddress) (depth i : Nat) :
    ((start forwarders depth).standing [] i).Good := by
  have hshare (share : Worker → Nat) (h : ∀ forwarder, share { forwarder } = 0) :
      ((start forwarders depth).workers.map share).sum = 0 := by
    refine List.sum_eq_zero fun n hn => ?_
    rw [start, List.map_map] at hn
    obtain ⟨forwarder, -, rfl⟩ := List.mem_map.1 hn
    exact h forwarder
  refine ⟨⟨hshare _ ?_, hshare _ ?_, hshare _ ?_⟩, rfl⟩
  · simp [Worker.copies]
  · simp [Worker.failures]
  · simp [Worker.claims]

/-- What holds of all standings holds after all actions that lose no query. -/
theorem good_play (actions : List Action) (hlossless : pool.isLossless actions = true)
    (h : (pool.standing past i).Good) :
    ((pool.play actions).standing (past ++ pool.endings actions) i).Good := by
  induction actions generalizing pool past with
  | nil => simpa [play, endings] using h
  | cons action actions ih =>
      rw [isLossless, Bool.and_eq_true, Bool.not_eq_true'] at hlossless
      have hact := h.change (standing_act hlossless.1)
      simpa [play, endings] using ih hlossless.2 hact

/-- Where no worker is ended, nothing is lost. -/
lemma isLossless_of_no_stop (actions : List Action) (h : ∀ w, Action.stop w ∉ actions) :
    pool.isLossless actions = true := by
  induction actions generalizing pool with
  | nil => rfl
  | cons action actions ih =>
      have hloses : pool.loses action = false := by
        cases action with
        | stop w => exact absurd List.mem_cons_self (h w)
        | _ => rfl
      rw [isLossless, hloses, ih fun w hw => h w (List.mem_cons_of_mem _ hw)]
      rfl

lemma length_workers_act (pool : Pool) (action : Action) :
    (pool.act action).workers.length = pool.workers.length := by
  cases action <;>
    simp only [act, enter, offer, countRefusal, claimRefusal, settle, take, look, hear,
      countFailure, claimFailure, stop, modifyQuery, modifyWorker, turn] <;>
    grind

lemma length_workers_play (pool : Pool) (actions : List Action) :
    (pool.play actions).workers.length = pool.workers.length := by
  induction actions generalizing pool with
  | nil => rfl
  | cons action actions ih => exact (ih _).trans (length_workers_act pool action)

/-- Whether all is over with a query: the caller has asked every worker and knows whether it has to
reply, and no worker has a copy or is busy with one. -/
def Handled (pool : Pool) (i : Nat) : Prop :=
  (∃ q, pool.queries[i]? = some q ∧ q.caller = .settled) ∧
    ∀ worker ∈ pool.workers, i ∉ worker.queue ∧ worker.activity.query? ≠ some i

/-- A query with which all is over has no open part, and nobody claims to reply to it. -/
lemma Handled.openParts_eq_zero {q : Forwarded} (h : pool.Handled i)
    (hq : pool.queries[i]? = some q) (hsound : q.Sound (pool.standing past i).toShares) :
    q.caller = .settled ∧ q.openParts (pool.standing past i).toShares = 0 ∧
      q.claimants (pool.standing past i).toShares = 0 := by
  obtain ⟨⟨q', hq', hsettled⟩, hidle⟩ := h
  obtain rfl := Option.some.inj (hq.symm.trans hq')
  have hshare (share : Worker → Nat)
      (h : ∀ worker : Worker, i ∉ worker.queue → worker.activity.query? ≠ some i →
        share worker = 0) : (pool.workers.map share).sum = 0 := by
    refine List.sum_eq_zero fun n hn => ?_
    obtain ⟨worker, hw, rfl⟩ := List.mem_map.1 hn
    exact h worker (hidle worker hw).1 (hidle worker hw).2
  have hcopies := hshare (Worker.copies i) fun worker hqueue hbusy => by
    rw [Worker.copies, List.count_eq_zero_of_not_mem hqueue, if_neg]
    rintro (ha | ha) <;> exact hbusy (by rw [ha]; rfl)
  have hfailures := hshare (Worker.failures i) fun worker _ hbusy =>
    if_neg fun ha => hbusy (by rw [ha]; rfl)
  have hclaims := hshare (Worker.claims i) fun worker _ hbusy =>
    if_neg fun ha => hbusy (by rw [ha]; rfl)
  have hasked := hsound.asked_of_settled hsettled
  refine ⟨hsettled, ?_, ?_⟩
  · rw [Forwarded.openParts, hasked, Nat.sub_self]
    simp only [standing, hcopies, hfailures]
  · rw [Forwarded.claimants, if_neg (by simp [hsettled])]
    exact hclaims

/-- **One reply for every forwarded query.**  Let callers and workers act in any order, as long as
no query is lost.  No query ever has more than one reply, and one with which all is over has got its
one.  The error reply goes out only if each worker's part is over and none has brought an answer or
come too late, and the parts outstanding never fall below zero. -/
theorem one_reply (forwarders : List SocketAddress) (depth : Nat) (actions : List Action)
    (hlossless : (start forwarders depth).isLossless actions = true) (i : Nat) (q : Forwarded)
    (hq : ((start forwarders depth).play actions).queries[i]? = some q) :
    q.replies.length ≤ 1 ∧
    (((start forwarders depth).play actions).Handled i → q.replies.length = 1) ∧
    (.servFail ∈ q.replies →
      (∀ w < forwarders.length, ∃ outcome,
        ⟨i, w, outcome⟩ ∈ (start forwarders depth).endings actions) ∧
      ∀ e ∈ (start forwarders depth).endings actions, e.query = i →
        e.outcome = .refused ∨ e.outcome = .failed) ∧
    0 ≤ q.ticket.outstanding := by
  have hgood := good_play actions hlossless (good_start forwarders depth i)
  have hsound := hgood.sound hq
  have hreplies := hsound.replies
  have hle := hsound.balanced.open_le
  have hlength : ((start forwarders depth).play actions).workers.length = forwarders.length := by
    rw [length_workers_play]
    simp [start]
  refine ⟨?_, ?_, ?_, by omega⟩
  · split at hreplies <;> omega
  · intro hhandled
    obtain ⟨hsettled, hopen, hclaimants⟩ := hhandled.openParts_eq_zero hq hsound
    have hredeemed : q.ticket.redeemed = true := by
      rw [hsound.balanced.redeemed_iff, hopen, hclaimants]
      omega
    simpa [hredeemed, Forwarded.owed, hsettled] using hreplies
  · intro hservFail
    obtain ⟨hout, hmissed⟩ := hsound.missed_of_servFail (.inl hservFail)
    have hended := hsound.ended_of_openParts (by omega)
    simp only [standing, List.nil_append, List.length_map, hlength] at hended hmissed
    refine ⟨fun w hw => ?_, fun e he hi => ?_⟩
    · obtain ⟨outcome, ho⟩ := hended w hw
      obtain ⟨e, he, hmem⟩ := List.mem_filterMap.1 ho
      split at hmem
      · rename_i hi
        obtain ⟨rfl, rfl⟩ := Prod.mk.inj (Option.some.inj hmem)
        exact ⟨e.outcome, hi ▸ he⟩
      · exact absurd hmem (by simp)
    · exact hmissed (e.worker, e.outcome) (List.mem_filterMap.2 ⟨e, he, if_pos hi⟩)

/-- A query for the address of the root. -/
def rootQuery : Bytes := [0, 7, 1, 0, 0, 1, 0, 0, 0, 0, 0, 0, 0, 0, 1, 0, 1]

/-- Two forwarders, of which the first has been given up.  The second one answers one query, lets
another run out of time and has no room for a third; its caller comes in between when the first
worker has refused the second query. -/
def crowdedRun : List Action :=
  [.stop 0, .enter rootQuery, .offer 0, .countRefusal 0, .offer 0, .take 1, .look 1,
    .enter rootQuery, .offer 1, .settle 0, .countRefusal 1, .offer 1, .enter rootQuery, .offer 2,
    .countRefusal 2, .offer 2, .hear 1 (.datagram rootQuery), .take 1, .look 1, .countRefusal 2,
    .settle 1, .claimRefusal 2, .hear 1 .timeout, .settle 2, .countFailure 1, .claimFailure 1]

/-- In the crowded run the query that runs out of time gets one error reply, after the first worker
has refused it and the exchange of the second has failed. -/
theorem one_reply_crowdedRun :
    let pool := start (List.replicate 2 ⟨.v4 (.ofOctets 192 0 2 1), 53, 0⟩) 0
    let q : Forwarded :=
      { query := rootQuery, ticket := ⟨true, 0⟩, caller := .settled, asked := 2
        replies := [.servFail] }
    pool.isLossless crowdedRun = true ∧ (pool.play crowdedRun).queries[1]? = some q ∧
      (pool.play crowdedRun).Handled 1 ∧
      (∀ w < 2, ∃ outcome, ⟨1, w, outcome⟩ ∈ pool.endings crowdedRun) ∧
      0 ≤ q.ticket.outstanding := by
  intro pool q
  have hlossless : pool.isLossless crowdedRun = true := by
    -- the worker that is ended has no query yet, and no other one is ended
    rw [crowdedRun, isLossless, isLossless_of_no_stop _ (by simp)]
    decide
  have hq : (pool.play crowdedRun).queries[1]? = some q := by decide
  have hhandled : (pool.play crowdedRun).Handled 1 := ⟨⟨q, hq, by decide⟩, by decide⟩
  obtain ⟨-, -, hservFail, hout⟩ := one_reply _ 0 crowdedRun hlossless 1 q hq
  exact ⟨hlossless, hq, hhandled, (hservFail (by decide)).1, hout⟩

end Pool

end Nameserver

import Mathlib
import Nameserver.Proofs.Registry.Postings
import Nameserver.Session.Challenge

/-!
# What the sessions hold is what is shown

Whatever the sessions of a challenge listener do, and in whatever order, the registry shows the
challenges of the registrations that are held, and nothing else: `ChallengeListener.sound_play`.

**Holdings.**  It makes no difference to the registry which session holds a registration.
`Holdings` keeps the registry and two bags of registrations, those that are held and those that have
a number and are about to be registered.  An action of a session does one of four things to them
(`Holdings.Change`), and `Holdings.Sound` is what all four preserve.

**Numbers.**  A posting belongs to one registration because no two registrations have the same
number.  Numbers are counted with 64 bits, so this holds as long as fewer than `2 ^ 64` are given
out.  `Holdings.Reachable` asks for no more than that no number is given out while it is in use.
-/

namespace Nameserver

/-- A registry with the registrations that are held and those that are about to be registered. -/
structure Holdings where
  registry : ChallengeRegistry
  held : Multiset Registration
  granted : Multiset Registration

namespace Holdings

/-- What happens to holdings in one step, and how many numbers are given out. -/
inductive Change (h : Holdings) : Nat → Holdings → Prop
  | none : Change h 0 h
  | grant (challenges : List Challenge) :
      Change h 1
        ⟨h.registry.freshId.2, h.held, ⟨h.registry.freshId.1, challenges⟩ ::ₘ h.granted⟩
  | register {g : Registration} {rest : Multiset Registration} (hgranted : h.granted = g ::ₘ rest) :
      Change h 0 ⟨h.registry.register g.id g.challenges, g ::ₘ h.held, rest⟩
  | release {g : Registration} {rest : Multiset Registration} (hheld : h.held = g ::ₘ rest) :
      Change h 0 ⟨h.registry.release g, rest, h.granted⟩

/-- The registry shows what is held, and registrations can be told apart by their numbers. -/
structure Shows (h : Holdings) : Prop where
  tidy : h.registry.IsTidy
  distinct : ((h.held + h.granted).map Registration.id).Nodup
  mem_postings : ∀ p, p ∈ h.registry.postings ↔ ∃ g ∈ h.held, p ∈ g.postings

/-- The registry shows what is held, after so many numbers have been given out. -/
structure Sound (h : Holdings) (numbers : Nat) : Prop where
  tidy : h.registry.IsTidy
  nextId_eq : h.registry.nextId = UInt64.ofNat numbers
  id_lt : ∀ g ∈ h.held + h.granted, g.id.toNat < numbers
  distinct : ((h.held + h.granted).map Registration.id).Nodup
  mem_postings : ∀ p, p ∈ h.registry.postings ↔ ∃ g ∈ h.held, p ∈ g.postings

variable {h h' : Holdings} {numbers more : Nat}

lemma Sound.shows (hsound : h.Sound numbers) : h.Shows :=
  ⟨hsound.tidy, hsound.distinct, hsound.mem_postings⟩

/-! ## Single steps -/

/-- A number that is given out changes nothing, as long as nothing else has it. -/
lemma Shows.grant (hshows : h.Shows) (challenges : List Challenge)
    (hfresh : h.registry.freshId.1 ∉ (h.held + h.granted).map Registration.id) :
    Shows ⟨h.registry.freshId.2, h.held, ⟨h.registry.freshId.1, challenges⟩ ::ₘ h.granted⟩ where
  tidy := ⟨hshows.tidy.keyed, hshows.tidy.ne_nil, hshows.tidy.nodup⟩
  distinct := by
    rw [Multiset.add_cons, Multiset.map_cons, Multiset.nodup_cons]
    exact ⟨hfresh, hshows.distinct⟩
  mem_postings := hshows.mem_postings

lemma Shows.register (hshows : h.Shows) {g : Registration} {rest : Multiset Registration}
    (hgranted : h.granted = g ::ₘ rest) :
    Shows ⟨h.registry.register g.id g.challenges, g ::ₘ h.held, rest⟩ where
  tidy := hshows.tidy.register _ _
  distinct := by
    have hall : g ::ₘ h.held + rest = h.held + h.granted := by
      rw [hgranted, Multiset.cons_add, Multiset.add_cons]
    exact hall ▸ hshows.distinct
  mem_postings := by
    intro p
    simp only [hshows.tidy.mem_postings_register, hshows.mem_postings, Multiset.mem_cons,
      exists_eq_or_imp]
    exact or_comm

/-- What is taken away belongs to the registration that is released, and to no other. -/
lemma Shows.release (hshows : h.Shows) {g : Registration} {rest : Multiset Registration}
    (hheld : h.held = g ::ₘ rest) : Shows ⟨h.registry.release g, rest, h.granted⟩ := by
  have hdistinct := hshows.distinct
  rw [hheld, Multiset.cons_add, Multiset.map_cons, Multiset.nodup_cons] at hdistinct
  refine ⟨hshows.tidy.unregister _ _, hdistinct.2, fun p => ?_⟩
  -- a posting tells the number of its registration, and no other has the one that goes
  have hother : ∀ g' ∈ rest, p ∈ g'.postings → p ∉ g.postings := by
    intro g' hg' hp' hp
    have hsame : g'.id = g.id :=
      (Registration.id_of_mem_postings hp').symm.trans (Registration.id_of_mem_postings hp)
    exact hdistinct.1 (Multiset.mem_map.mpr ⟨g', Multiset.mem_add.mpr (.inl hg'), hsame⟩)
  simp only [ChallengeRegistry.release, hshows.tidy.mem_postings_unregister,
    hshows.mem_postings, hheld, Multiset.mem_cons, exists_eq_or_imp]
  constructor
  · rintro ⟨hp | hp, hnot⟩
    exacts [absurd hp hnot, hp]
  · rintro ⟨g', hg', hp⟩
    exact ⟨.inr ⟨g', hg', hp⟩, hother g' hg' hp⟩

/-! ## Steps and numbers -/

/-- A fresh number is not the number of anything that is held or about to be registered. -/
lemma Sound.grant (hsound : h.Sound numbers) (hlt : numbers < 2 ^ 64)
    (challenges : List Challenge) :
    Sound ⟨h.registry.freshId.2, h.held, ⟨h.registry.freshId.1, challenges⟩ ::ₘ h.granted⟩
      (numbers + 1) := by
  -- the counter has not started over, so the fresh number is above all others
  have hid : h.registry.freshId.1.toNat = numbers := by
    rw [ChallengeRegistry.freshId, hsound.nextId_eq]
    exact UInt64.toNat_ofNat_of_lt' hlt
  have hfresh : h.registry.freshId.1 ∉ (h.held + h.granted).map Registration.id := by
    intro hmem
    obtain ⟨g, hg, heq⟩ := Multiset.mem_map.mp hmem
    have hlt := hsound.id_lt g hg
    rw [heq] at hlt
    exact absurd hid hlt.ne
  have hshows := hsound.shows.grant challenges hfresh
  refine ⟨hshows.tidy, ?_, ?_, hshows.distinct, hshows.mem_postings⟩
  · rw [UInt64.ofNat_add, ← hsound.nextId_eq]
    rfl
  · intro g hg
    rw [Multiset.add_cons, Multiset.mem_cons] at hg
    rcases hg with rfl | hg
    · exact hid.trans_lt (Nat.lt_succ_self numbers)
    · exact (hsound.id_lt g hg).trans (Nat.lt_succ_self numbers)

lemma Sound.register (hsound : h.Sound numbers) {g : Registration} {rest : Multiset Registration}
    (hgranted : h.granted = g ::ₘ rest) :
    Sound ⟨h.registry.register g.id g.challenges, g ::ₘ h.held, rest⟩ numbers := by
  have hall : g ::ₘ h.held + rest = h.held + h.granted := by
    rw [hgranted, Multiset.cons_add, Multiset.add_cons]
  have hshows := hsound.shows.register hgranted
  refine ⟨hshows.tidy, ?_, hall ▸ hsound.id_lt, hshows.distinct, hshows.mem_postings⟩
  rw [ChallengeRegistry.nextId_register, hsound.nextId_eq]

lemma Sound.release (hsound : h.Sound numbers) {g : Registration} {rest : Multiset Registration}
    (hheld : h.held = g ::ₘ rest) : Sound ⟨h.registry.release g, rest, h.granted⟩ numbers := by
  have hall : h.held + h.granted = g ::ₘ (rest + h.granted) := by
    rw [hheld, Multiset.cons_add]
  have hshows := hsound.shows.release hheld
  refine ⟨hshows.tidy, ?_, ?_, hshows.distinct, hshows.mem_postings⟩
  · rw [ChallengeRegistry.release, ChallengeRegistry.nextId_unregister, hsound.nextId_eq]
  · intro g' hg'
    exact hsound.id_lt g' (hall ▸ Multiset.mem_cons_of_mem hg')

lemma Sound.change (hsound : h.Sound numbers) (hchange : h.Change more h')
    (hlt : numbers + more < 2 ^ 64) : h'.Sound (numbers + more) := by
  cases hchange with
  | none => exact hsound
  | grant challenges => exact hsound.grant (by omega) challenges
  | register hgranted => exact hsound.register hgranted
  | release hheld => exact hsound.release hheld

/-! ## All steps -/

/-- What steps lead to from an empty registry.  No number is given out while a registration has it,
for 64 bits are enough to count until then. -/
inductive Reachable : Holdings → Prop
  | empty : Reachable ⟨{}, 0, 0⟩
  | step {h h' : Holdings} {numbers : Nat} (hreach : Reachable h) (hchange : h.Change numbers h')
      (hdistinct : ((h'.held + h'.granted).map Registration.id).Nodup) : Reachable h'

lemma shows_empty : Shows ⟨{}, 0, 0⟩ where
  tidy := ChallengeRegistry.isTidy_empty
  distinct := by simp
  mem_postings := by simp [ChallengeRegistry.postings]

lemma Shows.change (hshows : h.Shows) (hchange : h.Change numbers h')
    (hdistinct : ((h'.held + h'.granted).map Registration.id).Nodup) : h'.Shows := by
  cases hchange with
  | none => exact hshows
  | grant challenges =>
      rw [Multiset.add_cons, Multiset.map_cons, Multiset.nodup_cons] at hdistinct
      exact hshows.grant challenges hdistinct.1
  | register hgranted => exact hshows.register hgranted
  | release hheld => exact hshows.release hheld

/-- However registrations come and go, the registry shows those that are held. -/
theorem Reachable.shows (hreach : h.Reachable) : h.Shows := by
  induction hreach with
  | empty => exact shows_empty
  | step _ hchange hdistinct ih => exact ih.change hchange hdistinct

/-- A registration is made in two steps. -/
lemma Reachable.hold (hreach : h.Reachable) (challenges : List Challenge)
    (hfresh : h.registry.nextId ∉ (h.held + h.granted).map Registration.id) :
    Reachable ⟨(h.registry.hold challenges).2, (h.registry.hold challenges).1 ::ₘ h.held,
      h.granted⟩ := by
  have hdistinct : ((h.held + ⟨h.registry.freshId.1, challenges⟩ ::ₘ h.granted).map
      Registration.id).Nodup := by
    rw [Multiset.add_cons, Multiset.map_cons, Multiset.nodup_cons]
    exact ⟨hfresh, hreach.shows.distinct⟩
  have hgrant := hreach.step (.grant challenges) hdistinct
  refine hgrant.step (Change.register (g := ⟨h.registry.freshId.1, challenges⟩) rfl) ?_
  rwa [Multiset.cons_add, ← Multiset.add_cons]

lemma Reachable.drop (hreach : h.Reachable) {g : Registration} {rest : Multiset Registration}
    (hheld : h.held = g ::ₘ rest) : Reachable ⟨h.registry.release g, rest, h.granted⟩ :=
  hreach.step (.release hheld) (hreach.shows.release hheld).distinct

end Holdings

/-- One entry of a list taken apart from the others. -/
lemma exists_perm_modify {α : Type} {xs : List α} {i : Nat} {x : α} (hx : xs[i]? = some x) :
    ∃ rest, xs.Perm (x :: rest) ∧ ∀ f, (xs.modify i f).Perm (f x :: rest) := by
  obtain ⟨hi, rfl⟩ := List.getElem?_eq_some_iff.mp hx
  refine ⟨xs.take i ++ xs.drop (i + 1), ?_, fun f => ?_⟩
  · nth_rewrite 1 [← List.take_append_drop i xs, List.drop_eq_getElem_cons hi]
    exact List.perm_middle
  · rw [List.modify_eq_take_cons_drop hi]
    exact List.perm_middle

lemma Ack.ofFailure_ne_ok (failure : Failure) : Ack.ofFailure failure ≠ .ok := by
  simp [Ack.ofFailure, Ack.ok]

namespace ChallengeListener

variable {listener : ChallengeListener} {session place : Nat} {s : ChallengeSession}
  {payload : Bytes} {g : Registration}

/-- What the sessions hold. -/
def held (listener : ChallengeListener) : List Registration :=
  listener.sessions.flatMap (·.held)

/-- What the sessions are about to register. -/
def granted (listener : ChallengeListener) : List Registration :=
  listener.sessions.flatMap (·.granted?.toList)

/-- The registry of a listener, with all that its sessions hold or are about to. -/
def holdings (listener : ChallengeListener) : Holdings :=
  ⟨listener.registry, listener.held, listener.granted⟩

/-! ## One action

A session that changes leaves the registrations of all others where they are. -/

lemma exists_holdings (hs : listener.sessions[session]? = some s) :
    ∃ held granted : Multiset Registration,
      listener.holdings = ⟨listener.registry, s.held + held, s.granted?.toList + granted⟩ ∧
      ∀ registry f, ({ listener with registry }.modifySession session f).holdings =
        ⟨registry, (f s).held + held, (f s).granted?.toList + granted⟩ := by
  obtain ⟨rest, hperm, hmodify⟩ := exists_perm_modify hs
  refine ⟨rest.flatMap (·.held), rest.flatMap (·.granted?.toList), ?_, fun registry f => ?_⟩
  · simp only [holdings, held, granted, Multiset.coe_add, Holdings.mk.injEq, true_and]
    exact ⟨Multiset.coe_eq_coe.mpr (hperm.flatMap_right _),
      Multiset.coe_eq_coe.mpr (hperm.flatMap_right _)⟩
  · simp only [holdings, held, granted, modifySession, Multiset.coe_add, Holdings.mk.injEq,
      true_and]
    exact ⟨Multiset.coe_eq_coe.mpr ((hmodify f).flatMap_right _),
      Multiset.coe_eq_coe.mpr ((hmodify f).flatMap_right _)⟩

lemma holdings_connect (listener : ChallengeListener) (peer : IpAddress) :
    (listener.connect peer).holdings = listener.holdings := by
  simp [holdings, held, granted, connect]

lemma holdings_finish (listener : ChallengeListener) (session : Nat) :
    (listener.finish session).holdings = listener.holdings := by
  cases hs : listener.sessions[session]? with
  | none =>
      have hlength := List.getElem?_eq_none_iff.mp hs
      simp [finish, modifySession, List.modify_eq_self hlength]
  | some s =>
      obtain ⟨held, granted, hold, hnew⟩ := exists_holdings hs
      rw [hold, finish]
      refine (hnew listener.registry _).trans ?_
      split_ifs <;> rfl

/-- A frame is not looked at, is turned down, or is granted. -/
lemma grant_cases (listener : ChallengeListener) (session : Nat) (payload : Bytes) :
    listener.grant session payload = (none, listener) ∨
    ∃ s, listener.sessions[session]? = some s ∧ s.granted? = none ∧
      ((∃ failure, listener.grant session payload = (some (.ofFailure failure), listener)) ∨
      ∃ request, ChallengeRequest.ofFrame listener.policy s.peer payload = .ok request ∧
        listener.grant session payload = (some .ok,
          { listener with registry := listener.registry.freshId.2 }.modifySession session fun s =>
            { s with granted? := some ⟨listener.registry.freshId.1, request.challenges⟩ })) := by
  unfold grant
  cases hs : listener.sessions[session]? with
  | none => exact .inl rfl
  | some s =>
      dsimp only
      split_ifs with hbusy
      · exact .inl rfl
      have hgranted : s.granted? = none := by
        simp only [Bool.or_eq_true, not_or, Bool.not_eq_true, Option.isSome_eq_false_iff,
          Option.isNone_iff_eq_none] at hbusy
        exact hbusy.2
      refine .inr ⟨s, rfl, hgranted, ?_⟩
      cases ChallengeRequest.ofFrame listener.policy s.peer payload with
      | error failure => exact .inl ⟨failure, rfl⟩
      | ok request => exact .inr ⟨request, rfl, rfl⟩

/-- How many numbers an action gives out. -/
def numbers (listener : ChallengeListener) : Action → Nat
  | .grant session payload => if (listener.grant session payload).1 = some .ok then 1 else 0
  | _ => 0

lemma change_grant :
    listener.holdings.Change (listener.numbers (.grant session payload))
      (listener.grant session payload).2.holdings := by
  unfold numbers
  dsimp only
  rcases listener.grant_cases session payload with heq | ⟨s, hs, hgranted, hack⟩
  · rw [heq, if_neg (by simp)]
    exact .none
  rcases hack with ⟨failure, heq⟩ | ⟨request, -, heq⟩
  · rw [heq, if_neg (by simp [Ack.ofFailure_ne_ok])]
    exact .none
  · obtain ⟨held, granted, hold, hnew⟩ := exists_holdings hs
    rw [heq, if_pos rfl, hnew, hold, hgranted]
    simpa using Holdings.Change.grant (h := ⟨listener.registry, s.held + held, granted⟩)
      request.challenges

lemma change_register : listener.holdings.Change 0 (listener.register session).holdings := by
  unfold register
  split
  · rename_i g own hs
    obtain ⟨held, granted, hold, hnew⟩ := exists_holdings hs
    rw [hnew, hold]
    have hchange := Holdings.Change.register
      (h := ⟨listener.registry, own + held, g ::ₘ granted⟩) rfl
    simpa [← Multiset.coe_add, add_assoc, add_left_comm] using hchange
  · exact .none

lemma change_release (hg : listener.sessions[session]?.bind (·.held[place]?) = some g) :
    ∃ rest : Multiset Registration, listener.holdings.held = g ::ₘ rest ∧
      (listener.release session place).holdings =
        ⟨listener.registry.release g, rest, listener.holdings.granted⟩ := by
  obtain ⟨s, hs, hplace⟩ := Option.bind_eq_some_iff.mp hg
  obtain ⟨held, granted, hold, hnew⟩ := exists_holdings hs
  obtain ⟨hlt, rfl⟩ := List.getElem?_eq_some_iff.mp hplace
  refine ⟨s.held.eraseIdx place + held, ?_, ?_⟩
  · rw [hold, ← Multiset.cons_add, Multiset.cons_coe]
    exact congrArg (· + held) (Multiset.coe_eq_coe.mpr (List.getElem_cons_eraseIdx_perm hlt).symm)
  · unfold release
    rw [hg]
    exact (hnew _ _).trans (by rw [hold])

/-- What an action does to the holdings. -/
lemma change_act (listener : ChallengeListener) (action : Action) :
    listener.holdings.Change (listener.numbers action) (listener.act action).holdings := by
  cases action with
  | connect peer =>
      rw [act, holdings_connect]
      exact .none
  | grant session payload => exact change_grant
  | register session => exact change_register
  | finish session =>
      rw [act, holdings_finish]
      exact .none
  | release session place =>
      cases hg : listener.sessions[session]?.bind (·.held[place]?) with
      | none =>
          rw [act, release, hg]
          exact .none
      | some g =>
          obtain ⟨rest, hheld, heq⟩ := change_release hg
          rw [act, heq]
          exact .release hheld

/-! ## Any number of actions -/

/-- How many numbers are given out in the course of actions. -/
def registrations (listener : ChallengeListener) : List Action → Nat
  | [] => 0
  | action :: actions => listener.numbers action + (listener.act action).registrations actions

lemma sound_start (policy : ChallengePolicy) :
    Holdings.Sound (holdings { policy }) 0 where
  tidy := ChallengeRegistry.isTidy_empty
  nextId_eq := rfl
  id_lt := by simp [holdings, held, granted]
  distinct := by simp [holdings, held, granted]
  mem_postings := by simp [holdings, held, ChallengeRegistry.postings]

lemma reachable_start (policy : ChallengePolicy) : (holdings { policy }).Reachable :=
  Holdings.Reachable.empty

lemma sound_play {numbers : Nat} (actions : List Action)
    (hsound : listener.holdings.Sound numbers)
    (hlt : numbers + listener.registrations actions < 2 ^ 64) :
    (listener.play actions).holdings.Sound (numbers + listener.registrations actions) := by
  induction actions generalizing listener numbers with
  | nil => exact hsound
  | cons action actions ih =>
      rw [registrations, ← add_assoc] at hlt ⊢
      exact ih (hsound.change (listener.change_act action) (by omega)) hlt

/-- With less than `2 ^ 64` numbers given out, none comes twice. -/
lemma reachable_play {numbers : Nat} (actions : List Action) (hreach : listener.holdings.Reachable)
    (hsound : listener.holdings.Sound numbers)
    (hlt : numbers + listener.registrations actions < 2 ^ 64) :
    (listener.play actions).holdings.Reachable := by
  induction actions generalizing listener numbers with
  | nil => exact hreach
  | cons action actions ih =>
      rw [registrations, ← add_assoc] at hlt
      have hchange := listener.change_act action
      have hnext := hsound.change hchange (by omega)
      exact ih (hreach.step hchange hnext.distinct) hnext hlt

/-- A request that is acknowledged is held from then on. -/
lemma receive_eq (hs : listener.sessions[session]? = some s) {request : ChallengeRequest}
    (hgrant : listener.grant session payload = (some .ok,
      { listener with registry := listener.registry.freshId.2 }.modifySession session fun s =>
        { s with granted? := some ⟨listener.registry.freshId.1, request.challenges⟩ })) :
    listener.receive session payload = (some .ok,
      { listener with registry := (listener.registry.hold request.challenges).2 }.modifySession
        session fun s => { s with
          granted? := none
          held := s.held ++ [(listener.registry.hold request.challenges).1] }) := by
  have hsession : (listener.sessions.modify session fun s =>
      { s with granted? := some ⟨listener.registry.freshId.1, request.challenges⟩ })[session]? =
      some { s with granted? := some ⟨listener.registry.freshId.1, request.challenges⟩ } := by
    rw [List.getElem?_modify, hs]
    simp
  simp only [receive, hgrant, register, modifySession, hsession, List.modify_modify_eq]
  rfl

lemma holdings_receive {listener' : ChallengeListener}
    (h : listener.receive session payload = (some .ok, listener')) :
    ∃ s request, listener.sessions[session]? = some s ∧
      ChallengeRequest.ofFrame listener.policy s.peer payload = .ok request ∧
      listener'.holdings = ⟨(listener.registry.hold request.challenges).2,
        (listener.registry.hold request.challenges).1 ::ₘ listener.holdings.held,
        listener.holdings.granted⟩ := by
  rcases listener.grant_cases session payload with heq | ⟨s, hs, hgranted, ⟨failure, heq⟩ |
    ⟨request, hrequest, heq⟩⟩
  · simp [receive, heq] at h
  · simp [receive, heq, Ack.ofFailure_ne_ok] at h
  · refine ⟨s, request, hs, hrequest, ?_⟩
    rw [receive_eq hs heq, Prod.mk.injEq] at h
    obtain ⟨held, granted, hold, hnew⟩ := exists_holdings hs
    rw [← h.2, hnew, hold, hgranted]
    simp only [Holdings.mk.injEq, true_and, and_true]
    rw [← Multiset.coe_add, Multiset.coe_singleton, add_comm (s.held : Multiset Registration),
      Multiset.singleton_add, Multiset.cons_add]

end ChallengeListener

end Nameserver

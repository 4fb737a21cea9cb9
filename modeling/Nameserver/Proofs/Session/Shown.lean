import Mathlib
import Nameserver.Proofs.Session.Holdings

/-!
# What a client can count on

What `Holdings.Sound` says about the bags of registrations, said about a listener that has taken any
actions (`ChallengeListener.shows_held`): the postings of its registry are those of the
registrations that its sessions hold, each once.  The values that are shown for a domain, and how
many there are, follow.

**Nothing too much.**  A frame that is not granted changes nothing.  When the last session has ended
the registry is empty (`ChallengeListener.closeAll`).

**Nothing too little.**  Releasing a registration leaves the values of all others, also where they
are for the same domain, or the same values.
-/

namespace Nameserver

/-- The session is over, and nothing of it is left. -/
def ChallengeSession.HasEnded (s : ChallengeSession) : Prop := s.isOpen = false ∧ s.held = []

lemma modify_congr {α : Type} {xs : List α} {i : Nat} {f f' : α → α}
    (h : ∀ x, xs[i]? = some x → f x = f' x) : xs.modify i f = xs.modify i f' := by
  refine List.ext_getElem? fun j => ?_
  rw [List.getElem?_modify, List.getElem?_modify]
  cases hx : xs[j]? with
  | none => rfl
  | some x =>
      by_cases hij : i = j
      · simp [hij, h x (hij ▸ hx)]
      · simp [hij]

lemma modify_eq_of_fixed {α : Type} {xs : List α} {i : Nat} {f : α → α}
    (h : ∀ x, xs[i]? = some x → f x = x) : xs.modify i f = xs :=
  (modify_congr h).trans (List.modify_id i xs)

namespace ChallengeListener

variable {listener : ChallengeListener} {session place : Nat} {s : ChallengeSession}
  {numbers : Nat} {g : Registration}

/-! ## Ending sessions

Registering, releasing and ending change one session each, and of the session only what they are
about. -/

lemma sessions_register (listener : ChallengeListener) (session : Nat) :
    (listener.register session).sessions = listener.sessions.modify session fun s =>
      { s with granted? := none, held := s.held ++ s.granted?.toList } := by
  unfold register
  split
  · rename_i hs
    refine modify_congr fun s hs' => ?_
    cases hs.symm.trans hs'
    rfl
  · rename_i hother
    refine (modify_eq_of_fixed fun s hs => ?_).symm
    obtain ⟨peer, isOpen, granted?, held⟩ := s
    cases granted? with
    | none => simp
    | some g => exact (hother _ _ _ _ hs).elim

lemma sessions_release (listener : ChallengeListener) (session place : Nat) :
    (listener.release session place).sessions = listener.sessions.modify session fun s =>
      { s with held := s.held.eraseIdx place } := by
  unfold release
  split
  · rfl
  · rename_i hnone
    refine (modify_eq_of_fixed fun s hs => ?_).symm
    have hplace : s.held.length ≤ place := by
      simpa [hs] using hnone
    rw [List.eraseIdx_of_length_le hplace]

lemma sessions_play_release (listener : ChallengeListener) (session n : Nat) :
    (listener.play (List.replicate n (.release session 0))).sessions =
      listener.sessions.modify session fun s => { s with held := s.held.drop n } := by
  induction n generalizing listener with
  | zero => exact (List.modify_id session listener.sessions).symm
  | succ n ih =>
      refine (ih (listener.release session 0)).trans ?_
      rw [sessions_release, List.modify_modify_eq]
      refine modify_congr fun s _ => ?_
      simp

/-- Ends a session after it has registered what it was about to. -/
def settle (listener : ChallengeListener) (session : Nat) : ChallengeListener :=
  (listener.register session).close session

lemma sessions_settle (listener : ChallengeListener) (session : Nat) :
    (listener.settle session).sessions = listener.sessions.modify session fun s =>
      { peer := s.peer, isOpen := false } := by
  unfold settle close
  refine (sessions_play_release _ session _).trans ?_
  simp only [act, finish, modifySession, sessions_register, List.modify_modify_eq]
  refine modify_congr fun s hs => ?_
  simp [hs]

lemma sound_play_release (n : Nat) (hsound : listener.holdings.Sound numbers)
    (hlt : numbers < 2 ^ 64) :
    (listener.play (List.replicate n (.release session 0))).holdings.Sound numbers := by
  induction n generalizing listener with
  | zero => exact hsound
  | succ n ih => exact ih (hsound.change (listener.change_act (.release session 0)) hlt)

lemma sound_settle (hsound : listener.holdings.Sound numbers) (hlt : numbers < 2 ^ 64) :
    (listener.settle session).holdings.Sound numbers := by
  have hregister : (listener.register session).holdings.Sound numbers :=
    hsound.change change_register hlt
  rw [← holdings_finish _ session] at hregister
  exact sound_play_release _ hregister hlt

/-- Ends all sessions one after the other. -/
def closeAll (listener : ChallengeListener) : ChallengeListener :=
  (List.range listener.sessions.length).foldl settle listener

lemma sound_closeAll (hsound : listener.holdings.Sound numbers) (hlt : numbers < 2 ^ 64) :
    listener.closeAll.holdings.Sound numbers := by
  unfold closeAll
  induction listener.sessions.length with
  | zero => exact hsound
  | succ n ih =>
      rw [List.range_succ, List.foldl_concat]
      exact sound_settle ih hlt

lemma getElem?_foldl_settle (listener : ChallengeListener) (n i : Nat) :
    ((List.range n).foldl settle listener).sessions[i]? =
      listener.sessions[i]?.map fun s =>
        if i < n then { peer := s.peer, isOpen := false } else s := by
  induction n with
  | zero => simp
  | succ n ih =>
      rw [List.range_succ, List.foldl_concat, sessions_settle, List.getElem?_modify, ih,
        Option.map_eq_map, Option.map_map]
      congr 1
      funext s
      dsimp only [Function.comp_apply]
      split_ifs <;> first | rfl | omega

lemma hasEnded_closeAll (hs : s ∈ listener.closeAll.sessions) : s.HasEnded := by
  obtain ⟨i, hi⟩ := List.mem_iff_getElem?.mp hs
  rw [closeAll, getElem?_foldl_settle] at hi
  obtain ⟨s', hs', rfl⟩ := Option.map_eq_some_iff.mp hi
  rw [if_pos (List.getElem?_eq_some_iff.mp hs').1]
  exact ⟨rfl, rfl⟩

/-! ## What is shown -/

/-- What has to be shown for all that is held.  A posting that several challenges of a registration
come to counts once. -/
def postings (listener : ChallengeListener) : Finset Posting :=
  (listener.held.flatMap Registration.postings).toFinset

lemma mem_postings {p : Posting} :
    p ∈ listener.postings ↔ ∃ g ∈ listener.held, p ∈ g.postings := by
  rw [postings, List.mem_toFinset, List.mem_flatMap]

lemma coe_postings (hsound : listener.holdings.Sound numbers) :
    (listener.registry.postings : Multiset Posting) = listener.postings.val := by
  refine (Multiset.Nodup.ext (Multiset.coe_nodup.mpr hsound.tidy.nodup_postings)
    (Finset.nodup _)).mpr fun p => ?_
  rw [Finset.mem_val, mem_postings]
  exact hsound.mem_postings p

lemma size_eq_card (hsound : listener.holdings.Sound numbers) :
    listener.registry.size = listener.postings.card := by
  rw [ChallengeRegistry.size_eq_length, ← Multiset.coe_card, coe_postings hsound]
  rfl

lemma coe_values (hsound : listener.holdings.Sound numbers) (domain : Text) :
    (listener.registry.values domain : Multiset Text) =
      (listener.postings.filter (·.domain = Text.normalize domain)).val.map Posting.value := by
  have htidy : listener.registry.IsTidy := hsound.tidy
  rw [htidy.values_eq, Finset.filter_val, ← coe_postings hsound, Multiset.filter_coe,
    Multiset.map_coe]

/-- A client that asks for the domain of a challenge gets its value. -/
lemma mem_values (hsound : listener.holdings.Sound numbers) (hg : g ∈ listener.held)
    {c : Challenge} (hc : c ∈ g.challenges) {domain : Text}
    (hdomain : Text.normalize domain = c.baseDomain) :
    c.value ∈ listener.registry.values domain := by
  rw [← Multiset.mem_coe, coe_values hsound]
  refine Multiset.mem_map.mpr ⟨⟨c.baseDomain, g.id, c.value⟩, ?_, rfl⟩
  rw [Finset.mem_val, Finset.mem_filter, mem_postings]
  exact ⟨⟨g, hg, List.mem_map.mpr ⟨c, hc, rfl⟩⟩, hdomain.symm⟩

lemma pending_eq_nil (hsound : listener.holdings.Sound numbers)
    (hended : ∀ s ∈ listener.sessions, s.HasEnded) : listener.registry.pending = [] := by
  have htidy : listener.registry.IsTidy := hsound.tidy
  refine htidy.pending_eq_nil (List.eq_nil_iff_forall_not_mem.mpr fun p hp => ?_)
  obtain ⟨g, hg, -⟩ := (hsound.mem_postings p).mp hp
  obtain ⟨s, hs, hg⟩ := List.mem_flatMap.mp hg
  rw [(hended s hs).2] at hg
  exact List.not_mem_nil hg

/-- A session that is not about to register anything has nothing to register. -/
lemma register_eq_self (hs : listener.sessions[session]? = some s) (hgranted : s.granted? = none) :
    listener.register session = listener := by
  obtain ⟨peer, isOpen, granted?, held⟩ := s
  subst hgranted
  rw [register, hs]

/-- A frame that is turned down changes nothing, and leaves nothing to be registered. -/
lemma unchanged_of_ne_ok {payload : Bytes} {ack : Ack}
    (hack : (listener.grant session payload).1 = some ack) (hne : ack ≠ .ok) :
    (listener.grant session payload).2 = listener ∧
      (listener.receive session payload).2 = listener := by
  rcases listener.grant_cases session payload with heq | ⟨s, hs, hgranted, hcases⟩
  · rw [heq] at hack
    cases hack
  rcases hcases with ⟨failure, heq⟩ | ⟨request, -, heq⟩
  · unfold receive
    rw [heq]
    exact ⟨rfl, register_eq_self hs hgranted⟩
  · rw [heq] at hack
    exact absurd (Option.some.inj hack).symm hne

/-- **What is held is shown.**  Let sessions take any actions in any order, with fewer than `2 ^ 64`
registrations.  The registry then has the postings of what they hold, each once, under numbers that
differ, and no domain without a value; it counts them and shows them accordingly.  A frame that is
turned down changes nothing, a registration that is released takes none of the values of another
with it, and when all sessions have ended nothing is left. -/
theorem shows_held (policy : ChallengePolicy) (actions : List Action)
    (hnumbers : registrations { policy } actions < 2 ^ 64) :
    let listener := play { policy } actions
    (listener.registry.postings : Multiset Posting) = listener.postings.val ∧
    (listener.held.map Registration.id).Nodup ∧
    (∀ e ∈ listener.registry.pending, e.2 ≠ []) ∧
    listener.registry.size = listener.postings.card ∧
    (∀ domain, (listener.registry.values domain : Multiset Text) =
      (listener.postings.filter (·.domain = Text.normalize domain)).val.map Posting.value) ∧
    (∀ session payload ack, (listener.grant session payload).1 = some ack → ack ≠ .ok →
      (listener.grant session payload).2 = listener ∧
      (listener.receive session payload).2 = listener) ∧
    (∀ session place g,
      listener.sessions[session]?.bind (·.held[place]?) = some g →
      ∀ g' ∈ listener.held, g' ≠ g → ∀ c ∈ g'.challenges, ∀ domain,
        Text.normalize domain = c.baseDomain →
        c.value ∈ (listener.release session place).registry.values domain) ∧
    ((∀ s ∈ listener.sessions, s.HasEnded) → listener.registry.pending = []) ∧
    listener.closeAll.registry.pending = [] := by
  intro listener
  have hsound : listener.holdings.Sound (registrations { policy } actions) := by
    simpa using sound_play actions (sound_start policy) (by simpa using hnumbers)
  refine ⟨coe_postings hsound, ?_, ?_, size_eq_card hsound, coe_values hsound,
    fun session payload ack hack hne => unchanged_of_ne_ok hack hne, ?_, pending_eq_nil hsound, ?_⟩
  · have hdistinct := hsound.distinct
    rw [Multiset.map_add, Multiset.nodup_add] at hdistinct
    exact Multiset.coe_nodup.mp hdistinct.1
  · intro e he
    exact hsound.tidy.ne_nil (hsound.tidy.keyed.mem_iff.mp he)
  · intro session place g hg g' hg' hne c hc domain hdomain
    obtain ⟨rest, hheld, heq⟩ := change_release hg
    have hreleased : (listener.release session place).holdings.Sound _ :=
      hsound.change (listener.change_act (.release session place)) hnumbers
    have hrest : g' ∈ rest := by
      have hmem : g' ∈ listener.holdings.held := Multiset.mem_coe.mpr hg'
      rw [hheld] at hmem
      exact (Multiset.mem_cons.mp hmem).resolve_left hne
    have hleft : g' ∈ (listener.release session place).holdings.held := by
      rw [heq]
      exact hrest
    exact mem_values hreleased (Multiset.mem_coe.mp hleft) hc hdomain
  · exact pending_eq_nil (sound_closeAll hsound hnumbers) fun s => hasEnded_closeAll

/-- A request for the same value at a domain and at its wildcard. -/
def sharedFrame : Bytes :=
  let value := List.replicate 43 65
  [91, 91, 91, 34, 42, 46, 97, 34, 44, 34] ++ value ++ [34, 93, 44, 91, 34, 97, 34, 44, 34] ++
    value ++ [34, 93, 93, 93]

/-- Two sessions register the same, and the first one ends. -/
def sharedRun : List Action :=
  let peer := .v4 (.ofOctets 192 0 2 1)
  [.connect peer, .connect peer, .grant 0 sharedFrame, .grant 1 sharedFrame, .register 1,
    .register 0, .finish 0, .release 0 0]

/-- The listener lets everybody register everything. -/
def openPolicy : ChallengePolicy := { listen := ⟨.v4 (.ofOctets 127 0 0 1), 853, 0⟩ }

/-- After the shared run the value is shown once, for the second session. -/
theorem shows_held_sharedRun :
    let listener := play { policy := openPolicy } sharedRun
    registrations { policy := openPolicy } sharedRun < 2 ^ 64 ∧
    (listener.registry.postings : Multiset Posting) = {⟨['a'], 1, List.replicate 43 'A'⟩} ∧
    listener.registry.size = 1 ∧
    (listener.registry.values ['A', '.'] : Multiset Text) = {List.replicate 43 'A'} ∧
    listener.closeAll.registry.pending = [] := by
  have hnumbers : registrations { policy := openPolicy } sharedRun < 2 ^ 64 := by decide +kernel
  have hheld : (play { policy := openPolicy } sharedRun).postings =
      {⟨['a'], 1, List.replicate 43 'A'⟩} := by
    decide +kernel
  have hnormalize : Text.normalize ['A', '.'] = ['a'] := by decide
  obtain ⟨hpostings, -, -, hsize, hvalues, -, -, -, hclosed⟩ :=
    shows_held openPolicy sharedRun hnumbers
  rw [hheld] at hpostings hsize
  have hshown := hvalues ['A', '.']
  rw [hheld, hnormalize] at hshown
  exact ⟨hnumbers, hpostings, hsize, hshown, hclosed⟩

end ChallengeListener

end Nameserver

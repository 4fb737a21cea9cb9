import Mathlib
import Nameserver.Proofs.Resolution.Challenges
import Nameserver.Proofs.Resolution.Dependence
import Nameserver.Proofs.Session.Grants
import Nameserver.Proofs.Session.Shown

/-!
# Whom a session can influence

What a session registers and releases changes replies, but only where its peer is granted the
domain: `ChallengeListener.influences_granted`.

**One step.**  `ChallengeSession.Step` says what a session can do to itself and to the registry.
It never gets hold of a registration that its peer may not make (`ChallengeSession.IsPermitted`), so
a step leaves all other domains as they are (`ChallengeSession.Step.entries_eq`).

**Two runs.**  A reply that is another one after a session has acted was looked up at a domain
whose entries are others.  Nothing is assumed of the registry at the start.
-/

namespace Nameserver

variable {policy : ChallengePolicy} {peer : IpAddress} {registry registry' : ChallengeRegistry}
  {d : Text}

/-! ## What a peer may register -/

/-- The peer may register all challenges of a registration. -/
def ChallengePolicy.Permits (policy : ChallengePolicy) (peer : IpAddress)
    (challenges : List Challenge) : Prop :=
  ∀ c ∈ challenges, policy.mayUpdate peer c.baseDomain = true

lemma forM_eq_ok_iff {ε α : Type} {f : α → Except ε Unit} {xs : List α} :
    forM xs f = .ok () ↔ ∀ x ∈ xs, f x = .ok () := by
  induction xs with
  | nil => simp [pure, Except.pure]
  | cons x xs ih =>
      rw [List.forM_cons, Except.bind_eq_ok, List.forall_mem_cons, ← ih]
      constructor
      · rintro ⟨⟨⟩, hx, hxs⟩
        exact ⟨hx, hxs⟩
      · rintro ⟨hx, hxs⟩
        exact ⟨(), hx, hxs⟩

/-- A request is taken only if each of its challenges passes. -/
lemma ChallengeRequest.check_eq_ok_iff {request : ChallengeRequest} :
    request.check policy peer = .ok () ↔
      request.challenges ≠ [] ∧
        ∀ c ∈ request.challenges, checkChallenge policy peer c = .ok () := by
  rw [check, List.forM_eq_forM]
  split_ifs with hempty
  · simp_all
  · simp_all [forM_eq_ok_iff]

lemma ChallengeRequest.permits_of_ofFrame {payload : Bytes} {request : ChallengeRequest}
    (h : ofFrame policy peer payload = .ok request) : policy.Permits peer request.challenges := by
  intro c hc
  rw [ofFrame] at h
  split at h
  · cases h
  · obtain ⟨⟨⟩, hcheck, rfl⟩ := Except.map_eq_ok.mp h
    have hpassed := (check_eq_ok_iff.mp hcheck).2 c hc
    rw [checkChallenge] at hpassed
    split_ifs at hpassed with hempty hforbidden
    simpa using hforbidden

namespace ChallengeRegistry

variable {id : RegistrationId} {challenges : List Challenge}

lemma entries_register_of_ne (h : ∀ c ∈ challenges, c.baseDomain ≠ d) :
    (registry.register id challenges).entries d = registry.entries d := by
  induction challenges generalizing registry with
  | nil => rfl
  | cons c challenges ih =>
      rw [List.forall_mem_cons] at h
      rw [register, List.foldl_cons]
      exact (ih h.2).trans (by rw [entries_add, if_neg (Ne.symm h.1)])

lemma entries_unregister_of_ne (h : ∀ c ∈ challenges, c.baseDomain ≠ d) :
    (registry.unregister id challenges).entries d = registry.entries d := by
  induction challenges generalizing registry with
  | nil => rfl
  | cons c challenges ih =>
      rw [List.forall_mem_cons] at h
      rw [unregister, List.foldl_cons]
      exact (ih h.2).trans (by rw [entries_remove, if_neg (Ne.symm h.1)])

end ChallengeRegistry

/-! ## Steps of a session -/

namespace ChallengeSession

variable {s s' : ChallengeSession}

/-- What an action of a session makes of it and of the registry. -/
inductive Step (policy : ChallengePolicy) (s : ChallengeSession) (registry : ChallengeRegistry) :
    ChallengeSession → ChallengeRegistry → Prop
  | stay : Step policy s registry s registry
  | grant {payload : Bytes} {request : ChallengeRequest}
      (hrequest : ChallengeRequest.ofFrame policy s.peer payload = .ok request) :
      Step policy s registry
        { s with granted? := some ⟨registry.freshId.1, request.challenges⟩ } registry.freshId.2
  | register {g : Registration} (hgranted : s.granted? = some g) :
      Step policy s registry { s with granted? := none, held := s.held ++ [g] }
        (registry.register g.id g.challenges)
  | finish : Step policy s registry { s with isOpen := false } registry
  | release {g : Registration} {place : Nat} (hheld : s.held[place]? = some g) :
      Step policy s registry { s with held := s.held.eraseIdx place } (registry.release g)

/-- Everything that a session has a number for may be registered by its peer. -/
structure IsPermitted (policy : ChallengePolicy) (s : ChallengeSession) : Prop where
  granted : ∀ g, s.granted? = some g → policy.Permits s.peer g.challenges
  held : ∀ g ∈ s.held, policy.Permits s.peer g.challenges

lemma Step.peer_eq (h : Step policy s registry s' registry') : s'.peer = s.peer := by
  cases h <;> rfl

lemma Step.isPermitted (h : Step policy s registry s' registry') (hs : s.IsPermitted policy) :
    s'.IsPermitted policy := by
  cases h with
  | stay => exact hs
  | grant hrequest =>
      refine ⟨?_, hs.held⟩
      rintro g ⟨rfl⟩
      exact ChallengeRequest.permits_of_ofFrame hrequest
  | register hgranted =>
      refine ⟨by simp, ?_⟩
      intro g hg
      rw [List.mem_append, List.mem_singleton] at hg
      rcases hg with hg | rfl
      · exact hs.held g hg
      · exact hs.granted g hgranted
  | finish => exact ⟨hs.granted, hs.held⟩
  | release hheld =>
      refine ⟨hs.granted, ?_⟩
      intro g hg
      exact hs.held g (List.mem_of_mem_eraseIdx hg)

/-- A step leaves the domains alone that the peer may not register challenges for. -/
lemma Step.entries_eq (h : Step policy s registry s' registry') (hs : s.IsPermitted policy)
    (hd : policy.mayUpdate s.peer d = false) : registry'.entries d = registry.entries d := by
  have hother : ∀ challenges, policy.Permits s.peer challenges →
      ∀ c ∈ challenges, c.baseDomain ≠ d := by
    rintro challenges hpermits c hc rfl
    rw [hpermits c hc] at hd
    cases hd
  cases h with
  | stay => rfl
  | grant hrequest => rfl
  | register hgranted =>
      exact ChallengeRegistry.entries_register_of_ne (hother _ (hs.granted _ hgranted))
  | finish => rfl
  | release hheld =>
      have hmem := List.mem_of_getElem? hheld
      exact ChallengeRegistry.entries_unregister_of_ne (hother _ (hs.held _ hmem))

end ChallengeSession

namespace ChallengeListener

variable {listener : ChallengeListener} {session : Nat} {s : ChallengeSession}

/-- The session that takes an action. -/
def Action.session? : Action → Option Nat
  | .connect _ => none
  | .grant session _ => some session
  | .register session => some session
  | .finish session => some session
  | .release session _ => some session

lemma modifySession_eq (hs : listener.sessions[session]? = some s) (registry : ChallengeRegistry)
    (f : ChallengeSession → ChallengeSession) :
    { listener with registry }.modifySession session f =
      { listener with registry, sessions := listener.sessions.set session (f s) } := by
  simp [modifySession, List.modify_eq_set_getElem?, hs]

lemma set_eq_self (hs : listener.sessions[session]? = some s) :
    { listener with sessions := listener.sessions.set session s } = listener := by
  obtain ⟨hlt, rfl⟩ := List.getElem?_eq_some_iff.mp hs
  rw [List.set_getElem_self]

/-- An action of a session is a step of it. -/
lemma exists_step {action : Action} (hsession : action.session? = some session)
    (hs : listener.sessions[session]? = some s) :
    ∃ s' registry', ChallengeSession.Step listener.policy s listener.registry s' registry' ∧
      listener.act action =
        { listener with registry := registry', sessions := listener.sessions.set session s' } := by
  have hstay : ∃ s' registry',
      ChallengeSession.Step listener.policy s listener.registry s' registry' ∧ listener =
        { listener with registry := registry', sessions := listener.sessions.set session s' } :=
    ⟨s, listener.registry, .stay, (set_eq_self hs).symm⟩
  cases action with
  | connect peer => cases hsession
  | grant session payload =>
      cases hsession
      rw [act]
      rcases listener.grant_cases session payload with heq | ⟨s', hs', -, hack⟩
      · rw [heq]
        exact hstay
      rw [hs, Option.some.injEq] at hs'
      subst hs'
      rcases hack with ⟨failure, heq⟩ | ⟨request, hrequest, heq⟩
      · rw [heq]
        exact hstay
      · rw [heq, modifySession_eq hs]
        exact ⟨_, _, .grant hrequest, rfl⟩
  | register session =>
      cases hsession
      obtain ⟨peer, isOpen, granted?, held⟩ := s
      rw [act, register, hs]
      cases granted? with
      | none => exact hstay
      | some g => exact ⟨_, _, .register rfl, modifySession_eq hs _ _⟩
  | finish session =>
      cases hsession
      rw [act, finish]
      have heq := modifySession_eq hs listener.registry fun s =>
        if s.granted?.isSome then s else { s with isOpen := false }
      split_ifs at heq
      · exact ⟨s, _, .stay, heq⟩
      · exact ⟨_, _, .finish, heq⟩
  | release session place =>
      cases hsession
      cases hheld : s.held[place]? with
      | none =>
          rw [act, release, hs, Option.bind_some, hheld]
          exact hstay
      | some g =>
          rw [act, release, hs, Option.bind_some, hheld]
          exact ⟨_, _, .release hheld, modifySession_eq hs _ _⟩

/-- There is nothing to do in a session that there is not. -/
lemma act_eq_of_no_session {action : Action} (hsession : action.session? = some session)
    (hs : listener.sessions[session]? = none) : listener.act action = listener := by
  have hlength := List.getElem?_eq_none_iff.mp hs
  cases action with
  | connect peer => cases hsession
  | grant session payload =>
      cases hsession
      rw [act, grant, hs]
  | register session =>
      cases hsession
      rw [act, register, hs]
  | finish session =>
      cases hsession
      rw [act, finish, modifySession, List.modify_eq_self hlength]
  | release session place =>
      cases hsession
      rw [act, release, hs]
      rfl

/-! ## Any number of actions -/

/-- All sessions hold only what their peers may register. -/
def IsPermitted (listener : ChallengeListener) : Prop :=
  ∀ s ∈ listener.sessions, s.IsPermitted listener.policy

lemma policy_act (listener : ChallengeListener) (action : Action) :
    (listener.act action).policy = listener.policy := by
  cases hsession : action.session? with
  | none =>
      cases action <;> cases hsession
      rfl
  | some session =>
      cases hs : listener.sessions[session]? with
      | none => rw [act_eq_of_no_session hsession hs]
      | some s =>
          obtain ⟨s', registry', -, heq⟩ := exists_step hsession hs
          rw [heq]

lemma IsPermitted.act (h : listener.IsPermitted) (action : Action) :
    (listener.act action).IsPermitted := by
  intro s' hs'
  rw [policy_act]
  cases hsession : action.session? with
  | none =>
      cases action <;> cases hsession
      rw [ChallengeListener.act, connect, List.mem_append, List.mem_singleton] at hs'
      rcases hs' with hs' | rfl
      · exact h s' hs'
      · exact ⟨by simp, by simp⟩
  | some session =>
      cases hs : listener.sessions[session]? with
      | none =>
          rw [act_eq_of_no_session hsession hs] at hs'
          exact h s' hs'
      | some s =>
          obtain ⟨s'', registry', hstep, heq⟩ := exists_step hsession hs
          rw [heq] at hs'
          rcases List.mem_or_eq_of_mem_set hs' with hs' | rfl
          · exact h s' hs'
          · exact hstep.isPermitted (h s (List.mem_of_getElem? hs))

lemma IsPermitted.play (h : listener.IsPermitted) (actions : List Action) :
    (listener.play actions).IsPermitted := by
  induction actions generalizing listener with
  | nil => exact h
  | cons action actions ih => exact ih (h.act action)

lemma policy_play (listener : ChallengeListener) (actions : List Action) :
    (listener.play actions).policy = listener.policy := by
  induction actions generalizing listener with
  | nil => rfl
  | cons action actions ih => exact (ih _).trans (policy_act _ _)

/-- Whatever a session does, the domains that are not granted to its peer stay as they are. -/
lemma entries_play (h : listener.IsPermitted) (hs : listener.sessions[session]? = some s)
    (hd : listener.policy.mayUpdate s.peer d = false) {actions : List Action}
    (hown : ∀ action ∈ actions, action.session? = some session) :
    (listener.play actions).registry.entries d = listener.registry.entries d := by
  induction actions generalizing listener s with
  | nil => rfl
  | cons action actions ih =>
      rw [List.forall_mem_cons] at hown
      obtain ⟨s', registry', hstep, heq⟩ := exists_step hown.1 hs
      have hs' : (listener.act action).sessions[session]? = some s' := by
        rw [heq]
        exact List.getElem?_set_self (List.getElem?_eq_some_iff.mp hs).1
      have hd' : (listener.act action).policy.mayUpdate s'.peer d = false := by
        rw [policy_act, hstep.peer_eq, hd]
      refine (ih (h.act action) hs' hd' hown.2).trans ?_
      rw [heq]
      exact hstep.entries_eq (h s (List.mem_of_getElem? hs)) hd

/-! ## Replies -/

/-- Where two registries make a difference to answers, they differ at one domain. -/
lemma exists_entries_ne {zone : Zone} {q : Question} {issuers : List Text}
    {mailKeys? : Option (Text → List Text)} (hzone : zone.IsNamed) (hname : Text.IsNormal q.name)
    (hdiffer : Resolver.Differ (Resolver.challengeSources registry issuers mailKeys?)
      (Resolver.challengeSources registry' issuers mailKeys?) zone q) :
    ∃ d, registry.entries d ≠ registry'.entries d ∧
      ((q.type = RecordType.caa ∧ q.name = d) ∨
      (q.type = RecordType.txt ∧ zone.alias? (zone.walk q.name (zone.walkEnd q.name)) = none ∧
        zone.walk q.name (zone.walkEnd q.name) = challengeLabel ++ '.' :: d)) := by
  rcases hdiffer with ⟨htype, hissuers⟩ | ⟨htype, hend, htexts⟩
  · refine ⟨q.name, ?_, .inl ⟨htype, rfl⟩⟩
    intro hsame
    apply hissuers
    simp [Resolver.issuers, Resolver.challengeSources, ChallengeRegistry.issuerRecords,
      ChallengeRegistry.values, hname.normalize_eq, hsame]
  · have hlast := hzone.isNormal_walk hname (zone.walkEnd q.name)
    generalize zone.walk q.name (zone.walkEnd q.name) = last at *
    cases hdomain : Resolver.challengeDomain? last with
    | none => simp [Resolver.texts, Resolver.challengeSources, hdomain, Resolver.mailKeyTexts]
        at htexts
    | some d =>
        rw [Resolver.challengeDomain?_eq_some_iff] at hdomain
        subst hdomain
        refine ⟨d, ?_, .inr ⟨htype, hend, rfl⟩⟩
        intro hsame
        apply htexts
        simp [Resolver.texts, Resolver.challengeSources, ChallengeRegistry.values,
          Resolver.challengeDomain?_eq_some_iff.mpr, hlast.of_dot.normalize_eq, hsame]

/-- **A session influences what its peer is granted.**  If a reply is another one after a session
has taken a frame, or after it was closed, then the peer of the session is granted the name in
question and the query is for authority records, or the query is for texts and its walk ends at the
challenge of a domain that the peer is granted. -/
theorem influences_granted {configs : List ZoneConfig} {store : ZoneStore}
    (hstore : ZoneStore.ofConfigs configs = .ok store) {policy : ChallengePolicy}
    {grants : Table Network (List Text)} (hgrants : policy.grants? = some grants)
    (registry : ChallengeRegistry) (actions : List Action) (payload : Bytes)
    (mailKeys? : Option (Text → List Text)) (server : Server) (source : IpAddress)
    (datagram : Bytes) :
    let listener := play { policy, registry } actions
    let reply (listener : ChallengeListener) := (server.receive
      { zones := store
        sources := Resolver.challengeSources listener.registry policy.issuers mailKeys? }
      source datagram).1
    ∀ session s after, listener.sessions[session]? = some s →
      after = (listener.receive session payload).2 ∨ after = listener.close session →
      reply after ≠ reply listener →
      ∃ request zone network domains granted,
        Request.parse (datagram.take bufferSize) = .ok request ∧
        store.find? request.question.name = some zone ∧
        (network, domains) ∈ grants ∧ network.contains s.peer.canonical = true ∧
        granted ∈ domains ∧
        let q := request.question
        let last := zone.walk q.name (zone.walkEnd q.name)
        let D := Text.normalize granted
        (q.type = RecordType.caa ∧ (q.name = D ∨ '.' :: D <:+ q.name)) ∨
        (q.type = RecordType.txt ∧ zone.alias? last = none ∧
          ∃ b, last = challengeLabel ++ '.' :: b ∧ (b = D ∨ '.' :: D <:+ b)) := by
  intro listener reply session s after hs hafter hchanged
  have hpermitted : listener.IsPermitted := IsPermitted.play (by simp [IsPermitted]) actions
  have hpolicy : listener.policy = policy := policy_play _ _
  obtain ⟨own, hown, rfl⟩ : ∃ own : List Action,
      (∀ action ∈ own, action.session? = some session) ∧ after = listener.play own := by
    rcases hafter with rfl | rfl
    · exact ⟨[.grant session payload, .register session], by simp [Action.session?], rfl⟩
    · refine ⟨_, ?_, rfl⟩
      intro action haction
      rw [List.mem_cons, List.mem_replicate] at haction
      rcases haction with rfl | ⟨-, rfl⟩ <;> rfl
  obtain ⟨request, zone, hparse, hzone, hdiffer⟩ := Server.exists_of_receive_ne hchanged
  obtain ⟨config, -, hconfig⟩ := ZoneStore.exists_config hstore hzone
  obtain ⟨d, hne, hasked⟩ := exists_entries_ne (Zone.isNamed_of_ofConfig hconfig)
    (Request.isNormal_name hparse) hdiffer
  have hmay : policy.mayUpdate s.peer d = true := by
    by_contra hmay
    rw [Bool.not_eq_true, ← hpolicy] at hmay
    exact hne (entries_play hpermitted hs hmay hown)
  obtain ⟨network, domains, hmem, hcontains, granted, hgranted, hbelow⟩ :=
    (ChallengePolicy.mayUpdate_iff hgrants).mp hmay
  refine ⟨request, zone, network, domains, granted, hparse, hzone, hmem, hcontains, hgranted, ?_⟩
  rcases hasked with ⟨htype, rfl⟩ | ⟨htype, hend, hlast⟩
  · exact .inl ⟨htype, hbelow⟩
  · exact .inr ⟨htype, hend, d, hlast, hbelow⟩

/-- One network may have challenges for `a` and the names below it. -/
def grantedPolicy : ChallengePolicy where
  listen := ⟨.v4 (.ofOctets 127 0 0 1), 853, 0⟩
  grants? := some [(.v4 (.ofOctets 192 0 2 0) 24, ["A.".toList])]

/-- An address of that network in its version 6 form. -/
def mappedPeer : IpAddress := .v6 ⟨0xFFFFC0000201#128⟩

/-- A query for the authorities that may issue for `a`. -/
def authorityQuery : Bytes := [0, 7, 1, 0, 0, 1, 0, 0, 0, 0, 0, 0, 1, 97, 0, 1, 1, 0, 1]

/-- What a server without any other configuration replies to the query. -/
def authorityReply (store : ZoneStore) (listener : ChallengeListener) : Disposition :=
  (Server.receive { config := { listen := [] } }
    { zones := store
      sources := Resolver.challengeSources listener.registry grantedPolicy.issuers none }
    mappedPeer authorityQuery).1

/-- The listener with a session of the peer. -/
def mappedListener : ChallengeListener := play { policy := grantedPolicy } [.connect mappedPeer]

/-- With a challenge for `a` the authority records of `a` are others, and `a` is granted. -/
theorem influences_granted_mappedPeer :
    ∃ store request network domains granted,
      ZoneStore.ofConfigs [ZoneStore.emptyConfig "a"] = .ok store ∧
      authorityReply store (mappedListener.receive 0 sharedFrame).2 ≠
        authorityReply store mappedListener ∧
      Request.parse authorityQuery = .ok request ∧ request.question.type = RecordType.caa ∧
      grantedPolicy.grants? = some [(network, domains)] ∧
      network.contains mappedPeer.canonical = true ∧ granted ∈ domains ∧
      (request.question.name = Text.normalize granted ∨
        '.' :: Text.normalize granted <:+ request.question.name) := by
  obtain ⟨store, hstore, hchanged⟩ :
      ∃ store, ZoneStore.ofConfigs [ZoneStore.emptyConfig "a"] = .ok store ∧
        authorityReply store (mappedListener.receive 0 sharedFrame).2 ≠
          authorityReply store mappedListener :=
    ⟨_, rfl, by decide +kernel⟩
  obtain ⟨s, hs, hpeer⟩ : ∃ s, mappedListener.sessions[0]? = some s ∧ s.peer = mappedPeer :=
    ⟨_, rfl, rfl⟩
  obtain ⟨request, zone, network, domains, granted, hparse, -, hmem, hcontains, hgranted, hasked⟩ :=
    @influences_granted _ _ hstore grantedPolicy _ rfl {} [.connect mappedPeer] sharedFrame
      none { config := { listen := [] } } mappedPeer authorityQuery 0 s _ hs (.inl rfl) hchanged
  have htype : request.question.type = RecordType.caa := by
    cases hparse
    rfl
  rw [List.mem_singleton] at hmem
  refine ⟨store, request, network, domains, granted, hstore, hchanged, hparse, htype, ?_,
    hpeer ▸ hcontains, hgranted, ?_⟩
  · rw [hmem]
    rfl
  · rcases hasked with ⟨-, hname⟩ | ⟨htxt, -⟩
    · exact hname
    · rw [htype] at htxt
      cases htxt

end ChallengeListener

end Nameserver

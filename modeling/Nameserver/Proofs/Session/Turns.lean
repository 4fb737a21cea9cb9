import Mathlib
import Nameserver.Proofs.Session.Framing
import Nameserver.Proofs.Session.Influence
import Nameserver.Service

/-!
# One session among everything else

A service takes one event after the other, and most of them have nothing to do with a given
challenge session.

* `Service.Turn` says what an event can do to the conversations and to the challenge sessions.
* Every challenge session has exactly one connection (`Service.IsNumbered`), since both are numbered
  when a client connects.
* **`Service.Turn.keeps`** — whatever is not on the connection of a session leaves the connection
  and the session as they are.
-/

namespace Nameserver

/-- The challenge session that a connection is for. -/
def Purpose.session? : Purpose → Option Nat
  | .challenges session => some session
  | .mailKeys => none

namespace ChallengeListener

variable {listener : ChallengeListener} {session other : Nat} {action : Action}
  {actions : List Action}

/-! ## Actions of other sessions -/

lemma length_act (h : action.session? ≠ none) :
    (listener.act action).sessions.length = listener.sessions.length := by
  obtain ⟨session, hsession⟩ := Option.ne_none_iff_exists'.mp h
  cases hs : listener.sessions[session]? with
  | none => rw [act_eq_of_no_session hsession hs]
  | some s =>
      obtain ⟨s', registry', -, heq⟩ := exists_step hsession hs
      rw [heq, List.length_set]

lemma getElem?_act_of_ne (h : action.session? ≠ none) (hne : action.session? ≠ some session) :
    (listener.act action).sessions[session]? = listener.sessions[session]? := by
  obtain ⟨other, hother⟩ := Option.ne_none_iff_exists'.mp h
  cases hs : listener.sessions[other]? with
  | none => rw [act_eq_of_no_session hother hs]
  | some s =>
      obtain ⟨s', registry', -, heq⟩ := exists_step hother hs
      rw [heq]
      exact List.getElem?_set_ne fun heq => hne (hother.trans (congrArg some heq))

lemma length_play (h : ∀ action ∈ actions, action.session? ≠ none) :
    (listener.play actions).sessions.length = listener.sessions.length := by
  induction actions generalizing listener with
  | nil => rfl
  | cons action actions ih =>
      rw [List.forall_mem_cons] at h
      exact (ih h.2).trans (length_act h.1)

lemma getElem?_play_of_ne (h : ∀ action ∈ actions, action.session? ≠ none)
    (hne : ∀ action ∈ actions, action.session? ≠ some session) :
    (listener.play actions).sessions[session]? = listener.sessions[session]? := by
  induction actions generalizing listener with
  | nil => rfl
  | cons action actions ih =>
      rw [List.forall_mem_cons] at h hne
      exact (ih h.2 hne.2).trans (getElem?_act_of_ne h.1 hne.1)

/-- The end of a session consists of actions of it. -/
lemma exists_play_eq_close (listener : ChallengeListener) (session : Nat) :
    ∃ n, listener.close session =
      listener.play (.finish session :: List.replicate n (.release session 0)) :=
  ⟨_, rfl⟩

lemma play_append (listener : ChallengeListener) (actions more : List Action) :
    listener.play (actions ++ more) = (listener.play actions).play more :=
  List.foldl_append

end ChallengeListener

namespace Service

open ChallengeListener (Action)

/-- Something that happens to a service. -/
inductive Event where
  | receive (server : Nat) (source : IpAddress) (datagram : Bytes)
  /-- The forwarding workers take actions. -/
  | work (actions : List Pool.Action)
  | connectChallenges (peer : IpAddress)
  | connectMailKeys
  | write (connection : Nat) (bytes : Bytes)
  | read (connection : Nat)
  | hangUp (connection : Nat)
  | sleep (duration : Nat)
  | stop
deriving DecidableEq, Repr

/-- The connection that an event is about. -/
def Event.connection? : Event → Option Nat
  | .write connection _ => some connection
  | .read connection => some connection
  | .hangUp connection => some connection
  | _ => none

/-- The service after an event. -/
def react (service : Service) : Event → Service
  | .receive server source datagram => (service.receive server source datagram).2
  | .work actions => { service with pool := service.pool.play actions }
  | .connectChallenges peer => (service.connectChallenges? peer).getD service
  | .connectMailKeys => service.connectMailKeys?.getD service
  | .write connection bytes => service.write connection bytes
  | .read connection => (service.read connection).2
  | .hangUp connection => service.hangUp connection
  | .sleep duration => service.sleep duration
  | .stop => service.stop

/-- The service after events. -/
def run (service : Service) (events : List Event) : Service := events.foldl react service

/-- A challenge session. -/
def session? (service : Service) (session : Nat) : Option ChallengeSession :=
  service.challenges?.bind (·.sessions[session]?)

/-- The rules for challenges, if they are taken. -/
def policy? (service : Service) : Option ChallengePolicy := service.challenges?.map (·.policy)

variable {service after : Service} {connection number session : Nat} {purpose : Purpose}
  {c : Conversation}

/-! ## What an event can do -/

/-- The challenge sessions are what actions of one purpose have made of them. -/
def HasActed (purpose : Purpose) (service after : Service) : Prop :=
  ∃ actions : List Action,
    (∀ action ∈ actions, action.session? ≠ none ∧ action.session? = purpose.session?) ∧
    after.challenges? = service.challenges?.map (·.play actions)

lemma HasActed.of_eq (h : after.challenges? = service.challenges?) :
    HasActed purpose service after := by
  refine ⟨[], by simp, h.trans ?_⟩
  cases service.challenges? <;> rfl

lemma HasActed.trans {later : Service} (h : HasActed purpose service later)
    (h' : HasActed purpose later after) : HasActed purpose service after := by
  obtain ⟨actions, hown, hlater⟩ := h
  obtain ⟨more, hmore, hafter⟩ := h'
  refine ⟨actions ++ more, ?_, ?_⟩
  · intro action haction
    rcases List.mem_append.mp haction with haction | haction
    · exact hown action haction
    · exact hmore action haction
  · rw [hafter, hlater, Option.map_map]
    exact congrArg (service.challenges?.map ·)
      (funext fun listener => (listener.play_append actions more).symm)

/-- What an event makes of the conversations and the challenge sessions, if it is about this
connection or about none. -/
inductive Turn (service : Service) (connection? : Option Nat) : Service → Prop
  /-- It is about something else. -/
  | aside {after : Service} (hconversations : after.conversations = service.conversations)
      (hchallenges : after.challenges? = service.challenges?) : Turn service connection? after
  | challenges {after : Service} {listener : ChallengeListener} (peer : IpAddress)
      (hlistener : service.challenges? = some listener)
      (hconversations : after.conversations =
        service.conversations ++ [{ purpose := .challenges listener.sessions.length }])
      (hchallenges : after.challenges? = some (listener.connect peer)) :
      Turn service connection? after
  | mailKeys {after : Service}
      (hconversations : after.conversations = service.conversations ++ [{ purpose := .mailKeys }])
      (hchallenges : after.challenges? = service.challenges?) : Turn service connection? after
  /-- A connection is another one afterwards, and what it is for has taken actions. -/
  | talk {after : Service} {number : Nat} {purpose : Purpose} {before now : Connection}
      (hnumber : connection? = some number)
      (hbefore : service.conversations[number]? = some ⟨purpose, before⟩)
      (hconversations : after.conversations = service.conversations.set number ⟨purpose, now⟩)
      (hacted : HasActed purpose service after) : Turn service connection? after

/-- A frame of a challenge session is looked at, and what it asks for is registered. -/
lemma acknowledge_challenges {listener : ChallengeListener}
    (h : service.challenges? = some listener) (session : Nat) (payload : Bytes) :
    acknowledge (.challenges session) service payload =
      ((listener.receive session payload).1, { service with
        challenges? := some (listener.play [.grant session payload, .register session]) }) := by
  rw [acknowledge, h]
  rfl

lemma conversations_acknowledge (purpose : Purpose) (service : Service) (payload : Bytes) :
    (acknowledge purpose service payload).2.conversations = service.conversations := by
  unfold acknowledge
  cases purpose with
  | challenges session => cases service.challenges? <;> rfl
  | mailKeys => cases service.mailKeys? <;> rfl

lemma hasActed_acknowledge (purpose : Purpose) (service : Service) (payload : Bytes) :
    HasActed purpose service (acknowledge purpose service payload).2 := by
  cases purpose with
  | challenges session =>
      cases hlistener : service.challenges? with
      | none =>
          refine .of_eq ?_
          simp only [acknowledge, hlistener]
      | some listener =>
          rw [acknowledge_challenges hlistener]
          refine ⟨[.grant session payload, .register session], ?_, ?_⟩
          · simp [Action.session?, Purpose.session?]
          · rw [hlistener, Option.map_some]
  | mailKeys =>
      refine .of_eq ?_
      unfold acknowledge
      cases service.mailKeys? <;> rfl

lemma hasActed_dismiss (purpose : Purpose) (service : Service) :
    HasActed purpose service (service.dismiss purpose) := by
  cases purpose with
  | challenges session =>
      cases hlistener : service.challenges? with
      | none =>
          refine .of_eq ?_
          simp only [dismiss, hlistener, Option.map_none]
      | some listener =>
          obtain ⟨held, hclose⟩ := listener.exists_play_eq_close session
          refine ⟨.finish session :: List.replicate held (.release session 0), ?_, ?_⟩
          · intro action haction
            rcases List.mem_cons.mp haction with rfl | haction
            · simp [Action.session?, Purpose.session?]
            · simp [List.eq_of_mem_replicate haction, Action.session?, Purpose.session?]
          · simp only [dismiss, hlistener, Option.map_some, hclose]
  | mailKeys => exact .of_eq rfl

/-- What the frames of a connection do. -/
lemma hasActed_serve (purpose : Purpose) (c : Connection) (service : Service) :
    (c.serve (acknowledge purpose) service).2.conversations = service.conversations ∧
      HasActed purpose service (c.serve (acknowledge purpose) service).2 :=
  Connection.serve_preserves
    (fun later => later.conversations = service.conversations ∧ HasActed purpose service later)
    (fun later payload h => ⟨(conversations_acknowledge purpose later payload).trans h.1,
      h.2.trans (hasActed_acknowledge purpose later payload)⟩)
    c ⟨rfl, .of_eq rfl⟩

/-- Putting a connection back ends its session if it has ended. -/
lemma turn_putConnection {later : Service} {before : Connection} (now : Connection)
    (hbefore : service.conversations[number]? = some ⟨purpose, before⟩)
    (hconversations : later.conversations = service.conversations)
    (hacted : HasActed purpose service later) :
    service.Turn (some number) (later.putConnection number purpose now) := by
  rw [putConnection]
  split_ifs with hopen
  · exact .talk rfl hbefore (by rw [hconversations]) hacted
  · have hdismissed := hasActed_dismiss purpose
      { later with conversations := later.conversations.set number ⟨purpose, now⟩ }
    have hset : (dismiss { later with
          conversations := later.conversations.set number ⟨purpose, now⟩ } purpose).conversations =
        service.conversations.set number ⟨purpose, now⟩ := by
      rw [← hconversations]
      cases purpose <;> rfl
    exact .talk rfl hbefore hset (hacted.trans hdismissed)

lemma turn_write (service : Service) (number : Nat) (bytes : Bytes) :
    service.Turn (some number) (service.write number bytes) := by
  rw [write]
  cases hbefore : service.conversations[number]? with
  | none => exact .aside rfl rfl
  | some c =>
      obtain ⟨purpose, c⟩ := c
      dsimp only
      rw [Connection.write]
      split_ifs with hopen
      · obtain ⟨hconversations, hacted⟩ :=
          hasActed_serve purpose { c with received := c.received ++ bytes } service
        exact turn_putConnection _ hbefore hconversations hacted
      · exact turn_putConnection _ hbefore rfl (.of_eq rfl)

lemma turn_read (service : Service) (number : Nat) :
    service.Turn (some number) (service.read number).2 := by
  rw [read]
  cases hbefore : service.conversations[number]? with
  | none => exact .aside rfl rfl
  | some c =>
      exact .talk rfl hbefore rfl (.of_eq rfl)

lemma turn_hangUp (service : Service) (number : Nat) :
    service.Turn (some number) (service.hangUp number) := by
  rw [hangUp]
  cases hbefore : service.conversations[number]? with
  | none => exact .aside rfl rfl
  | some c =>
      exact turn_putConnection _ hbefore rfl (.of_eq rfl)

/-- Whatever happens is a turn, unless the service stops. -/
lemma turn_react (service : Service) {event : Event} (hstop : event ≠ .stop) :
    service.Turn event.connection? (service.react event) := by
  cases event with
  | receive server source datagram =>
      rw [react, receive]
      split
      · exact .aside rfl rfl
      · exact .aside rfl rfl
  | work actions => exact .aside rfl rfl
  | connectChallenges peer =>
      rw [react, connectChallenges?]
      cases hlistener : service.challenges? with
      | none => exact .aside rfl rfl
      | some listener => exact .challenges peer hlistener rfl rfl
  | connectMailKeys =>
      rw [react, connectMailKeys?]
      cases service.mailKeys? with
      | none => exact .aside rfl rfl
      | some registry => exact .mailKeys rfl rfl
  | write connection bytes => exact service.turn_write connection bytes
  | read connection => exact service.turn_read connection
  | hangUp connection => exact service.turn_hangUp connection
  | sleep duration =>
      rw [react, sleep]
      cases service.mailKeys? with
      | none => exact .aside rfl rfl
      | some registry => exact .aside rfl rfl
  | stop => exact absurd rfl hstop

/-! ## Connections and sessions -/

/-- How many challenge sessions there have been. -/
def sessionCount (service : Service) : Nat :=
  service.challenges?.elim 0 (·.sessions.length)

/-- Connections are for challenge sessions in the order of their numbers, one for each. -/
def IsNumbered (service : Service) : Prop :=
  (service.conversations.map Conversation.purpose).filterMap Purpose.session? =
    List.range service.sessionCount

lemma isNumbered_start {config : Configuration} (h : start config = .ok service) :
    service.IsNumbered := by
  obtain ⟨zones, -, rfl⟩ := Except.map_eq_ok.mp h
  rw [IsNumbered, sessionCount]
  cases config.challenges? <;> rfl

/-- A connection is put in the place of another for the same purpose. -/
lemma map_purpose_set {conversations : List Conversation} {before now : Connection}
    (h : conversations[number]? = some ⟨purpose, before⟩) :
    (conversations.set number ⟨purpose, now⟩).map Conversation.purpose =
      conversations.map Conversation.purpose := by
  have hpurpose : (conversations.map Conversation.purpose)[number]? = some purpose := by
    rw [List.getElem?_map, h]
    rfl
  obtain ⟨hlt, heq⟩ := List.getElem?_eq_some_iff.mp hpurpose
  rw [List.map_set]
  nth_rewrite 2 [← List.set_getElem_self hlt]
  rw [heq]

lemma Turn.isNumbered {connection? : Option Nat} (h : service.Turn connection? after)
    (hnumbered : service.IsNumbered) : after.IsNumbered := by
  rw [IsNumbered, sessionCount] at hnumbered ⊢
  cases h with
  | aside hconversations hchallenges => rw [hconversations, hchallenges, hnumbered]
  | challenges peer hlistener hconversations hchallenges =>
      rw [hlistener] at hnumbered
      rw [hconversations, hchallenges, List.map_append, List.filterMap_append, hnumbered]
      simp [Purpose.session?, ChallengeListener.connect, List.range_succ]
  | mailKeys hconversations hchallenges =>
      rw [hconversations, hchallenges, List.map_append, List.filterMap_append, hnumbered]
      simp [Purpose.session?]
  | talk hnumber hbefore hconversations hacted =>
      obtain ⟨actions, hown, hchallenges⟩ := hacted
      rw [hconversations, hchallenges, map_purpose_set hbefore, hnumbered]
      cases service.challenges? with
      | none => rfl
      | some listener =>
          exact congrArg List.range
            (ChallengeListener.length_play fun action haction => (hown action haction).1).symm

/-- A session has one connection only. -/
lemma IsNumbered.eq_of_session (h : service.IsNumbered) {i j : Nat} {c d : Conversation}
    (hc : service.conversations[i]? = some c) (hd : service.conversations[j]? = some d)
    (hsession : c.purpose.session? = some session) (hsame : d.purpose.session? = some session) :
    i = j := by
  have hdistinct : ((service.conversations.map Conversation.purpose).filterMap
      Purpose.session?).Nodup := h ▸ List.nodup_range
  rw [List.filterMap_map, List.Nodup, List.pairwise_filterMap, List.pairwise_iff_getElem]
    at hdistinct
  obtain ⟨hi, rfl⟩ := List.getElem?_eq_some_iff.mp hc
  obtain ⟨hj, rfl⟩ := List.getElem?_eq_some_iff.mp hd
  rcases Nat.lt_trichotomy i j with hlt | heq | hlt
  · exact absurd rfl (hdistinct i j hi hj hlt session hsession session hsame)
  · exact heq
  · exact absurd rfl (hdistinct j i hj hi hlt session hsame session hsession)

lemma Turn.policy?_eq {connection? : Option Nat} (h : service.Turn connection? after) :
    after.policy? = service.policy? := by
  cases h with
  | aside hconversations hchallenges => rw [policy?, hchallenges, policy?]
  | challenges peer hlistener hconversations hchallenges =>
      rw [policy?, hchallenges, policy?, hlistener]
      rfl
  | mailKeys hconversations hchallenges => rw [policy?, hchallenges, policy?]
  | talk hnumber hbefore hconversations hacted =>
      obtain ⟨actions, hown, hchallenges⟩ := hacted
      rw [policy?, hchallenges, policy?, Option.map_map]
      exact congrArg (service.challenges?.map ·)
        (funext fun listener => listener.policy_play _)

/-- Until the service stops, its numbering and its policy stay as they are. -/
lemma IsNumbered.run {events : List Event} (h : service.IsNumbered)
    (hstop : ∀ event ∈ events, event ≠ .stop) :
    (service.run events).IsNumbered ∧ (service.run events).policy? = service.policy? := by
  induction events generalizing service with
  | nil => exact ⟨h, rfl⟩
  | cons event events ih =>
      rw [List.forall_mem_cons] at hstop
      have hturn := service.turn_react hstop.1
      obtain ⟨hnumbered, hpolicy⟩ := ih (hturn.isNumbered h) hstop.2
      exact ⟨hnumbered, hpolicy.trans hturn.policy?_eq⟩

/-- What is not on the connection of a session leaves the connection and the session alone. -/
theorem Turn.keeps {connection? : Option Nat} (h : service.Turn connection? after)
    (hnumbered : service.IsNumbered) (hc : service.conversations[number]? = some c)
    (hpurpose : c.purpose = .challenges session) (hother : connection? ≠ some number)
    {s : ChallengeSession} (hs : service.session? session = some s) :
    after.conversations[number]? = some c ∧ after.session? session = some s := by
  have hnumber : number < service.conversations.length := (List.getElem?_eq_some_iff.mp hc).1
  obtain ⟨listener, hlistener, hsession⟩ := Option.bind_eq_some_iff.mp hs
  cases h with
  | aside hconversations hchallenges =>
      rw [hconversations, session?, hchallenges]
      exact ⟨hc, hs⟩
  | challenges peer hlistener' hconversations hchallenges =>
      cases hlistener.symm.trans hlistener'
      rw [hconversations, session?, hchallenges, List.getElem?_append_left hnumber]
      refine ⟨hc, ?_⟩
      rw [Option.bind_some, ChallengeListener.connect,
        List.getElem?_append_left (List.getElem?_eq_some_iff.mp hsession).1, hsession]
  | mailKeys hconversations hchallenges =>
      rw [hconversations, session?, hchallenges, List.getElem?_append_left hnumber]
      exact ⟨hc, hs⟩
  | @talk other purpose before now hon hbefore hconversations hacted =>
      obtain ⟨actions, hown, hchallenges⟩ := hacted
      have hne : other ≠ number := by
        rintro rfl
        exact hother hon
      rw [hconversations, session?, hchallenges, hlistener, List.getElem?_set_ne hne]
      refine ⟨hc, (ChallengeListener.getElem?_play_of_ne
        (fun action haction => (hown action haction).1) ?_).trans hsession⟩
      intro action haction hsame
      have hpurpose' : purpose.session? = some session := by
        rw [← (hown action haction).2, hsame]
      exact hne (hnumbered.eq_of_session hbefore hc hpurpose' (by rw [hpurpose]; rfl))

end Service

end Nameserver

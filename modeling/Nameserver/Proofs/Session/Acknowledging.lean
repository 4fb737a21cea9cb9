import Mathlib
import Nameserver.Proofs.Session.Refusals
import Nameserver.Proofs.Session.Turns

/-!
# Answers in order

Every frame of a challenge session is acknowledged in its turn, and what was accepted is held until
the session ends (`Service.acknowledges_in_order`).  There is one exception: a refusal that is too
large for a frame cannot be sent, and then the session ends with everything that it holds.

**One stream.**  What a session has to answer depends on what has arrived on its connection, and not
on the pieces it came in or on when the answers are read.  So each of its states is compared with
one handler that is fed everything at once (`ChallengeRequest.talk`), whose frames are then counted
off one by one (`ChallengeRequest.serve_note`).

**One step.**  `Service.Follows` is kept by what others do (`Follows.of_other`), by what arrives
(`Follows.write`) and by what is read (`Follows.read`), and so by any events (`Follows.run`).
-/

namespace Nameserver

variable {policy : ChallengePolicy} {peer : IpAddress} {payload rest : Bytes}
  {payloads : List Bytes}

/-! ## One frame -/

namespace ChallengeRequest

/-- The challenges that a frame has registered. -/
def accepted? (policy : ChallengePolicy) (peer : IpAddress) (payload : Bytes) :
    Option (List Challenge) :=
  match ofFrame policy peer payload with
  | .ok request => some request.challenges
  | .error _ => none

/-- Acknowledges the frames of a session, and notes what is registered. -/
def note (policy : ChallengePolicy) (peer : IpAddress) : FrameHandler (List (List Challenge)) :=
  fun noted payload =>
    (some (answer policy peer payload), noted ++ (accepted? policy peer payload).toList)

/-- What a session has come to when this has arrived. -/
def talk (policy : ChallengePolicy) (peer : IpAddress) (stream : Bytes) :
    Connection × List (List Challenge) :=
  Connection.serve (note policy peer) { received := stream } []

lemma talk_nil (policy : ChallengePolicy) (peer : IpAddress) : talk policy peer [] = ({}, []) :=
  Connection.serve_of_incomplete rfl _ _

/-- A connection that has got this far, and has been read from, goes on from where it is. -/
lemma talk_append_of_isOpen {c : Connection} {stream heard : Bytes} (hopen : c.isOpen = true)
    (hlag : c.lag heard = (talk policy peer stream).1) (bytes : Bytes) :
    let served := Connection.serve (note policy peer) (c.feed bytes) (talk policy peer stream).2
    talk policy peer (stream ++ bytes) = (served.1.lag heard, served.2) := by
  intro served
  have hstill : (talk policy peer stream).1.isOpen = true := hlag ▸ hopen
  have happend : talk policy peer (stream ++ bytes) = Connection.serve (note policy peer)
      ((talk policy peer stream).1.feed bytes) (talk policy peer stream).2 :=
    (Connection.serve_append (note policy peer) { received := stream } [] bytes).1 hstill
  rw [happend, ← Connection.serve_lag, ← hlag]
  rfl

/-- Nothing is said any more once the session has ended. -/
lemma talk_append_of_closed {stream : Bytes}
    (hclosed : (talk policy peer stream).1.isOpen = false) (bytes : Bytes) :
    (talk policy peer (stream ++ bytes)).1.isOpen = false ∧
    (talk policy peer (stream ++ bytes)).1.unread = (talk policy peer stream).1.unread := by
  obtain ⟨hended, hunread, -⟩ :=
    (Connection.serve_append (note policy peer) { received := stream } [] bytes).2 hclosed
  exact ⟨hended, hunread⟩

/-- All frames up to the first one whose answer cannot be sent are answered in their order. -/
lemma serve_note (policy : ChallengePolicy) (peer : IpAddress)
    (hsize : ∀ payload ∈ payloads, payload.length ≤ Frame.limit)
    (hrest : Frame.next rest = .incomplete) (unread : Bytes) (noted : List (List Challenge)) :
    let served := Connection.serve (note policy peer)
      { received := payloads.flatMap Frame.wrap ++ rest, unread } noted
    let answered := payloads.takeWhile (fits policy peer)
    served.1.unread = unread ++ (answered.map (reply policy peer)).flatMap Frame.wrap ∧
    (served.1.isOpen = true ↔ answered = payloads) ∧
    (answered = payloads → served.2 = noted ++ payloads.filterMap (accepted? policy peer)) := by
  induction payloads generalizing unread noted with
  | nil =>
      rw [Connection.serve_of_incomplete hrest]
      simp
  | cons payload payloads ih =>
      rw [List.forall_mem_cons] at hsize
      have hfront : Frame.next ((payload :: payloads).flatMap Frame.wrap ++ rest) =
          .frame payload (payloads.flatMap Frame.wrap ++ rest) := by
        rw [List.flatMap_cons, List.append_assoc]
        exact Frame.next_wrap hsize.1 _
      rw [Connection.serve_of_frame rfl hfront]
      by_cases hfits : (reply policy peer payload).length ≤ Frame.limit
      · have hframe : ((note policy peer noted payload).1.bind fun ack =>
            Frame.encode? ack.toJson.print) = some (Frame.wrap (reply policy peer payload)) :=
          Frame.encode?_of_le hfits
        have hmore := ih hsize.2 (unread ++ Frame.wrap (reply policy peer payload))
          (noted ++ (accepted? policy peer payload).toList)
        rw [hframe]
        have hanswered : fits policy peer payload = true := decide_eq_true hfits
        simp only [List.takeWhile_cons_of_pos hanswered, List.map_cons, List.flatMap_cons,
          List.cons.injEq, true_and]
        refine ⟨hmore.1.trans (List.append_assoc ..), hmore.2.1, fun hall => ?_⟩
        refine (hmore.2.2 hall).trans ?_
        rw [List.append_assoc]
        cases hgranted : accepted? policy peer payload with
        | none => rw [List.filterMap_cons_none hgranted]; rfl
        | some challenges => rw [List.filterMap_cons_some hgranted]; rfl
      · have hframe : ((note policy peer noted payload).1.bind fun ack =>
            Frame.encode? ack.toJson.print) = none :=
          Frame.encode?_of_lt (Nat.not_le.mp hfits)
        have hanswered : ¬ fits policy peer payload = true := by simpa [fits] using hfits
        rw [hframe]
        simp [List.takeWhile_cons_of_neg hanswered]

end ChallengeRequest

/-! ## A session among others -/

/-- The session has nothing under way, and holds what was noted as long as it is open. -/
structure ChallengeSession.IsAt (s : ChallengeSession) (peer : IpAddress) (isOpen : Bool)
    (noted : List (List Challenge)) : Prop where
  peer_eq : s.peer = peer
  granted_eq : s.granted? = none
  isOpen_eq : s.isOpen = isOpen
  held_eq : s.held.map Registration.challenges = if isOpen then noted else []

/-- Of a session that has ended nothing is held, whatever was noted. -/
lemma ChallengeSession.IsAt.of_closed {s : ChallengeSession} {noted : List (List Challenge)}
    (h : s.IsAt peer false noted) (noted' : List (List Challenge)) : s.IsAt peer false noted' :=
  ⟨h.peer_eq, h.granted_eq, h.isOpen_eq, h.held_eq⟩

namespace ChallengeListener

open ChallengeRequest (answer accepted?)

variable {listener : ChallengeListener} {session : Nat} {s : ChallengeSession} {isOpen : Bool}
  {noted : List (List Challenge)}

/-- An open session answers a frame, and holds what is accepted besides what it held. -/
lemma receive_of_isAt (hs : listener.sessions[session]? = some s) (h : s.IsAt peer true noted)
    (payload : Bytes) :
    (listener.receive session payload).1 = some (answer listener.policy peer payload) ∧
    ∃ s', (listener.receive session payload).2.sessions[session]? = some s' ∧
      s'.IsAt peer true (noted ++ (accepted? listener.policy peer payload).toList) := by
  cases hframe : ChallengeRequest.ofFrame listener.policy peer payload with
  | error failure =>
      have hgrant : listener.grant session payload = (some (.ofFailure failure), listener) := by
        rw [grant, hs]
        simp [h.isOpen_eq, h.granted_eq, h.peer_eq, hframe]
      have hreceive : listener.receive session payload = (some (.ofFailure failure), listener) := by
        rw [receive, hgrant]
        exact congrArg (Prod.mk _) (register_eq_self hs h.granted_eq)
      rw [hreceive, answer, accepted?, hframe]
      exact ⟨rfl, s, hs, by simpa using h⟩
  | ok request =>
      have hgrant : listener.grant session payload = (some .ok,
          { listener with registry := listener.registry.freshId.2 }.modifySession session fun s =>
            { s with granted? := some ⟨listener.registry.freshId.1, request.challenges⟩ }) := by
        rw [grant, hs]
        simp [h.isOpen_eq, h.granted_eq, h.peer_eq, hframe]
      rw [receive_eq hs hgrant, answer, accepted?, hframe]
      refine ⟨rfl, { s with
          granted? := none
          held := s.held ++ [(listener.registry.hold request.challenges).1] }, ?_,
        ⟨h.peer_eq, rfl, h.isOpen_eq, ?_⟩⟩
      · rw [modifySession, List.getElem?_modify, hs]
        simp
      · rw [List.map_append, h.held_eq]
        rfl

/-- The end of a session releases everything that it holds. -/
lemma close_of_isAt (hs : listener.sessions[session]? = some s)
    (h : s.IsAt peer isOpen noted) :
    ∃ s', (listener.close session).sessions[session]? = some s' ∧ s'.IsAt peer false noted := by
  have hsettle : listener.close session = listener.settle session := by
    rw [settle, register_eq_self hs h.granted_eq]
  refine ⟨{ peer := s.peer, isOpen := false }, ?_, ⟨h.peer_eq, rfl, rfl, rfl⟩⟩
  rw [hsettle, sessions_settle, List.getElem?_modify, hs]
  simp

end ChallengeListener

namespace Service

open ChallengeRequest (accepted? answer fits isOk_answer_iff exists_not_fits note
  refused_of_not_fits reply serve_note talk talk_append_of_closed talk_append_of_isOpen talk_nil)

variable {service : Service} {number session : Nat} {stream heard : Bytes} {event : Event}
  {isOpen : Bool} {noted : List (List Challenge)}

/-! ## The session in its service -/

/-- A session of the service has nothing under way, and holds what was noted as long as it is
open. -/
def HasNoted (service : Service) (session : Nat) (policy : ChallengePolicy) (peer : IpAddress)
    (isOpen : Bool) (noted : List (List Challenge)) : Prop :=
  service.policy? = some policy ∧
    ∃ s, service.session? session = some s ∧ s.IsAt peer isOpen noted

lemma HasNoted.exists_listener (h : service.HasNoted session policy peer isOpen noted) :
    ∃ listener s, service.challenges? = some listener ∧ listener.policy = policy ∧
      listener.sessions[session]? = some s ∧ s.IsAt peer isOpen noted := by
  obtain ⟨hpolicy, s, hs, hat⟩ := h
  obtain ⟨listener, hlistener, hsession⟩ := Option.bind_eq_some_iff.mp hs
  refine ⟨listener, s, hlistener, ?_, hsession, hat⟩
  simpa [policy?, hlistener] using hpolicy

/-- A session acknowledges a frame and holds what is noted for it. -/
lemma HasNoted.acknowledge (h : service.HasNoted session policy peer true noted)
    (payload : Bytes) :
    (Service.acknowledge (.challenges session) service payload).1 =
      (note policy peer noted payload).1 ∧
    (Service.acknowledge (.challenges session) service payload).2.HasNoted session policy peer true
      (note policy peer noted payload).2 := by
  obtain ⟨listener, s, hlistener, rfl, hs, hat⟩ := h.exists_listener
  obtain ⟨hack, s', hs', hat'⟩ := ChallengeListener.receive_of_isAt hs hat payload
  rw [acknowledge_challenges hlistener]
  exact ⟨hack, congrArg some (listener.policy_play _), s', hs', hat'⟩

lemma HasNoted.serve (h : service.HasNoted session policy peer true noted) (c : Connection) :
    (c.serve (Service.acknowledge (.challenges session)) service).1 =
      (c.serve (note policy peer) noted).1 ∧
    (c.serve (Service.acknowledge (.challenges session)) service).2.HasNoted session policy peer
      true (c.serve (note policy peer) noted).2 :=
  Connection.serve_congr (fun later noted => HasNoted later session policy peer true noted)
    (fun _ _ payload hlater => hlater.acknowledge payload) c h

lemma HasNoted.dismiss (h : service.HasNoted session policy peer isOpen noted) :
    (service.dismiss (.challenges session)).HasNoted session policy peer false noted := by
  obtain ⟨listener, s, hlistener, rfl, hs, hat⟩ := h.exists_listener
  obtain ⟨s', hs', hat'⟩ := ChallengeListener.close_of_isAt hs hat
  have hdismissed : (service.dismiss (.challenges session)).challenges? =
      some (listener.close session) := by
    rw [Service.dismiss, hlistener]
    rfl
  refine ⟨?_, s', ?_, hat'⟩
  · rw [policy?, hdismissed]
    exact congrArg some (listener.policy_play _)
  · rw [session?, hdismissed]
    exact hs'

/-- A connection is put back, and its session goes on as long as it does. -/
lemma HasNoted.putConnection (h : service.HasNoted session policy peer isOpen noted)
    (now : Connection) (hnumber : number < service.conversations.length)
    (hopen : now.isOpen = true → isOpen = true) :
    (service.putConnection number (.challenges session) now).conversations[number]? =
      some ⟨.challenges session, now⟩ ∧
    (service.putConnection number (.challenges session) now).HasNoted session policy peer
      now.isOpen noted := by
  have hset : { service with
      conversations := service.conversations.set number ⟨.challenges session, now⟩ }.HasNoted
        session policy peer isOpen noted := h
  rw [Service.putConnection]
  cases hnow : now.isOpen with
  | true =>
      cases hopen hnow
      exact ⟨List.getElem?_set_self hnumber, hset⟩
  | false => exact ⟨List.getElem?_set_self hnumber, hset.dismiss⟩

/-! ## One event -/

/-- A session has got as far as this much of what has arrived on its connection takes it, and its
peer has heard this much of the answers. -/
structure Follows (service : Service) (number session : Nat) (policy : ChallengePolicy)
    (peer : IpAddress) (stream heard : Bytes) : Prop where
  numbered : service.IsNumbered
  exists_connection : ∃ c : Connection,
    service.conversations[number]? = some ⟨.challenges session, c⟩ ∧
    c.isOpen = (talk policy peer stream).1.isOpen ∧
    heard ++ c.unread = (talk policy peer stream).1.unread ∧
    (c.isOpen = true → c.received = (talk policy peer stream).1.received)
  hasNoted : service.HasNoted session policy peer (talk policy peer stream).1.isOpen
    (talk policy peer stream).2

/-- A client has connected. -/
lemma follows_connect (hnumbered : service.IsNumbered) (hpolicy : service.policy? = some policy)
    (peer : IpAddress) :
    ∃ session, (service.react (.connectChallenges peer)).Follows service.nextConnection session
      policy peer [] [] := by
  obtain ⟨listener, hlistener, rfl⟩ := Option.map_eq_some_iff.mp hpolicy
  have hreact : service.react (.connectChallenges peer) = { service with
      challenges? := some (listener.connect peer)
      conversations :=
        service.conversations ++ [{ purpose := .challenges listener.sessions.length }] } := by
    rw [react, connectChallenges?, hlistener]
    rfl
  have hturn : service.Turn none (service.react (.connectChallenges peer)) :=
    service.turn_react (by simp : Event.connectChallenges peer ≠ .stop)
  refine ⟨listener.sessions.length, hturn.isNumbered hnumbered, ⟨{}, ?_, ?_⟩, ?_, { peer }, ?_, ?_⟩
  · rw [hreact, nextConnection]
    exact List.getElem?_concat_length
  · rw [talk_nil]
    exact ⟨rfl, rfl, fun _ => rfl⟩
  · rw [hturn.policy?_eq, hpolicy]
  · rw [session?, hreact]
    exact List.getElem?_concat_length
  · rw [talk_nil]
    exact ⟨rfl, rfl, rfl, rfl⟩

/-- What happens elsewhere makes no difference. -/
lemma Follows.of_other (h : service.Follows number session policy peer stream heard)
    (hstop : event ≠ .stop) (hother : event.connection? ≠ some number) :
    (service.react event).Follows number session policy peer stream heard := by
  obtain ⟨c, hc, hlike⟩ := h.exists_connection
  obtain ⟨hpolicy, s, hs, hat⟩ := h.hasNoted
  have hturn := service.turn_react hstop
  obtain ⟨hc', hs'⟩ := hturn.keeps h.numbered hc rfl hother hs
  exact ⟨hturn.isNumbered h.numbered, ⟨c, hc', hlike⟩, hturn.policy?_eq.trans hpolicy, s, hs', hat⟩

/-- The peer takes the first frame that it has not read. -/
lemma Follows.read (h : service.Follows number session policy peer stream heard) :
    (service.read number).2.Follows number session policy peer stream
      (heard ++ (service.read number).1.toList.flatMap Frame.wrap) := by
  obtain ⟨c, hc, hopen, hunread, hreceived⟩ := h.exists_connection
  have hnumber : number < service.conversations.length := (List.getElem?_eq_some_iff.mp hc).1
  have hnumbered := (service.turn_read number).isNumbered h.numbered
  have hread : service.read number = (c.read.1, { service with
      conversations := service.conversations.set number ⟨.challenges session, c.read.2⟩ }) := by
    rw [Service.read, hc]
  rw [hread] at hnumbered ⊢
  refine ⟨hnumbered, ⟨c.read.2, List.getElem?_set_self hnumber, ?_⟩, h.hasNoted⟩
  rw [← hunread, ← hopen, Connection.read]
  split
  · rename_i hnext
    obtain ⟨-, hfront⟩ := Frame.next_eq_frame_iff.mp hnext
    refine ⟨rfl, ?_, hreceived⟩
    simp [hfront]
  · exact ⟨rfl, by simp, hreceived⟩

/-- What arrives is taken as if it had come with everything before. -/
lemma Follows.write (h : service.Follows number session policy peer stream heard)
    (bytes : Bytes) :
    (service.write number bytes).Follows number session policy peer (stream ++ bytes) heard := by
  obtain ⟨c, hc, hopen, hunread, hreceived⟩ := h.exists_connection
  have hnoted := h.hasNoted
  have hnumber : number < service.conversations.length := (List.getElem?_eq_some_iff.mp hc).1
  have hnumbered := (service.turn_write number bytes).isNumbered h.numbered
  have hwrite : service.write number bytes =
      (c.write (acknowledge (.challenges session)) bytes service).2.putConnection number
        (.challenges session) (c.write (acknowledge (.challenges session)) bytes service).1 := by
    rw [Service.write, hc]
  rw [← hopen] at hnoted
  cases hstill : c.isOpen with
  | false =>
      -- The session has ended before, and what arrives now is lost.
      rw [Connection.write_of_closed hstill] at hwrite
      obtain ⟨hended, hsame⟩ := talk_append_of_closed (hopen.symm.trans hstill) bytes
      obtain ⟨hput, hpolicy, s, hs, hat⟩ := hnoted.putConnection c hnumber id
      rw [← hwrite] at hput hpolicy hs
      rw [hstill] at hat
      refine ⟨hnumbered, ⟨c, hput, hstill.trans hended.symm, hunread.trans hsame.symm, ?_⟩,
        hpolicy, s, hs, ?_⟩
      · simp [hstill]
      · rw [hended]
        exact hat.of_closed _
  | true =>
      have hlag : c.lag heard = (talk policy peer stream).1 := by
        rw [Connection.lag, hunread, hreceived hstill, hopen]
      have htalk := talk_append_of_isOpen hstill hlag bytes
      rw [Connection.write_of_isOpen hstill] at hwrite
      rw [hstill] at hnoted
      obtain ⟨hconnection, hserved⟩ := hnoted.serve (c.feed bytes)
      have hconversations := (hasActed_serve (.challenges session) (c.feed bytes) service).1
      obtain ⟨hput, hafter⟩ := hserved.putConnection
        ((c.feed bytes).serve (acknowledge (.challenges session)) service).1
        (hconversations ▸ hnumber) (fun _ => rfl)
      rw [← hwrite, hconnection] at hput hafter
      refine ⟨hnumbered, ⟨_, hput, ?_⟩, ?_⟩
      · rw [htalk]
        exact ⟨rfl, rfl, fun _ => rfl⟩
      · rw [htalk]
        exact hafter

/-! ## Any number of events -/

/-- What arrives on a connection in the course of events. -/
def arrived (number : Nat) (events : List Event) : Bytes :=
  events.flatMap fun
    | .write connection bytes => if connection = number then bytes else []
    | _ => []

/-- The frames that the peer of a connection reads in the course of events. -/
def framesRead (service : Service) (number : Nat) : List Event → List Bytes
  | [] => []
  | event :: events =>
    (if event = .read number then (service.read number).1.toList else []) ++
      (service.react event).framesRead number events

lemma length_of_mem_framesRead {events : List Event} {frame : Bytes}
    (h : frame ∈ service.framesRead number events) : frame.length ≤ Frame.limit := by
  induction events generalizing service with
  | nil => cases h
  | cons event events ih =>
      rw [framesRead, List.mem_append] at h
      rcases h with h | h
      · split_ifs at h with hread
        · rw [Option.mem_toList, Service.read] at h
          split at h
          · cases h
          · rename_i c hc
            dsimp only at h
            rw [Connection.read] at h
            split at h
            · rename_i hnext
              cases h
              exact (Frame.next_eq_frame_iff.mp hnext).1
            · cases h
        · cases h
      · exact ih h

/-- One event takes a session one step further, whatever it is about. -/
lemma Follows.react (h : service.Follows number session policy peer stream heard)
    (hstop : event ≠ .stop) (hhangUp : event ≠ .hangUp number) :
    (service.react event).Follows number session policy peer (stream ++ arrived number [event])
      (heard ++ (service.framesRead number [event]).flatMap Frame.wrap) := by
  by_cases hown : event.connection? = some number
  · cases event with
    | write connection bytes =>
        cases hown
        simpa [arrived, framesRead, Service.react] using h.write bytes
    | read connection =>
        cases hown
        simpa [arrived, framesRead, Service.react] using h.read
    | hangUp connection =>
        cases hown
        exact absurd rfl hhangUp
    | _ => cases hown
  · have harrived : arrived number [event] = [] := by
      cases event with
      | write connection bytes =>
          have hne : connection ≠ number := fun heq => hown (congrArg some heq)
          simp [arrived, hne]
      | _ => rfl
    have hnone : service.framesRead number [event] = [] := by
      have hread : event ≠ .read number := by
        rintro rfl
        exact hown rfl
      simp [framesRead, hread]
    rw [harrived, hnone, List.append_nil, List.flatMap_nil, List.append_nil]
    exact h.of_other hstop hown

lemma Follows.run {events : List Event}
    (h : service.Follows number session policy peer stream heard)
    (hevents : ∀ event ∈ events, event ≠ .stop ∧ event ≠ .hangUp number) :
    (service.run events).Follows number session policy peer (stream ++ arrived number events)
      (heard ++ (service.framesRead number events).flatMap Frame.wrap) := by
  induction events generalizing service stream heard with
  | nil => simpa [arrived, framesRead, Service.run] using h
  | cons event events ih =>
      rw [List.forall_mem_cons] at hevents
      have hmore := ih (h.react hevents.1.1 hevents.1.2) hevents.2
      simpa [arrived, framesRead, Service.run] using hmore

/-- **Every frame is acknowledged, as far as the acknowledgement can be sent.**  A client connects
to a service that has not stopped, does not hang up and sends any frames, in pieces of any size,
while anything else happens besides.  What it has read and what is there to be read are the answers
to its frames in their order, up to the first one whose answer is too large for a frame.  If there
is none, the session goes on and holds the challenges of every request that was accepted; otherwise
it ends and holds nothing.  All is well only in the answer to a request that passes the checks.  An
answer that is too large refuses a request, which has at most 98 octets less than a frame may have;
whatever the policy, there are such requests. -/
theorem acknowledges_in_order {config : Configuration} {start : Service}
    (hstart : Service.start config = .ok start) (hpolicy : config.challenges? = some policy)
    (peer : IpAddress) {before events : List Event} (hbefore : .stop ∉ before)
    (hevents : ∀ event ∈ events, event ≠ .stop ∧ event ≠ .hangUp (start.run before).nextConnection)
    (hsize : ∀ payload ∈ payloads, payload.length ≤ Frame.limit)
    (hrest : Frame.next rest = .incomplete)
    (harrived : arrived (start.run before).nextConnection events =
      payloads.flatMap Frame.wrap ++ rest) :
    let number := (start.run before).nextConnection
    let opened := (start.run before).react (.connectChallenges peer)
    let service := opened.run events
    let answered := payloads.takeWhile (fits policy peer)
    (∃ session c s pending,
      service.conversations[number]? = some ⟨.challenges session, c⟩ ∧
      service.session? session = some s ∧
      opened.framesRead number events ++ pending = answered.map (reply policy peer) ∧
      c.unread = pending.flatMap Frame.wrap ∧
      (c.isOpen = true ↔ answered = payloads) ∧ s.isOpen = c.isOpen ∧
      s.held.map Registration.challenges =
        if c.isOpen then payloads.filterMap (accepted? policy peer) else []) ∧
    (∀ payload, (answer policy peer payload).isOk = true ↔
      ∃ request, (Json.parse? payload).bind ChallengeRequest.ofJson? = some request ∧
        request.check policy peer = .ok ()) ∧
    (∀ payload, fits policy peer payload = false →
      Frame.limit < payload.length + 99 ∧
      ∃ request failure, (Json.parse? payload).bind ChallengeRequest.ofJson? = some request ∧
        request.check policy peer = .error failure) ∧
    ∃ payload : Bytes, payload.length ≤ Frame.limit ∧ fits policy peer payload = false := by
  intro number opened service answered
  refine ⟨?_, fun payload => isOk_answer_iff, fun payload => refused_of_not_fits,
    exists_not_fits policy peer⟩
  have hstarted : start.policy? = some policy := by
    obtain ⟨zones, -, rfl⟩ := Except.map_eq_ok.mp hstart
    rw [policy?, hpolicy]
    rfl
  obtain ⟨hnumbered, hkept⟩ := (isNumbered_start hstart).run fun event hevent heq =>
    hbefore (heq ▸ hevent)
  obtain ⟨session, hopened⟩ := follows_connect hnumbered (hkept.trans hstarted) peer
  have hfollows := hopened.run hevents
  rw [List.nil_append, List.nil_append, harrived] at hfollows
  obtain ⟨hunread, hopen, hnoted⟩ := serve_note policy peer hsize hrest [] []
  obtain ⟨c, hc, hlike, hheard, -⟩ := hfollows.exists_connection
  obtain ⟨-, s, hs, hat⟩ := hfollows.hasNoted
  have hread : ∀ frame ∈ opened.framesRead number events, frame.length ≤ Frame.limit :=
    fun frame => length_of_mem_framesRead
  have hsent : ∀ frame ∈ answered.map (reply policy peer), frame.length ≤ Frame.limit := by
    intro frame hframe
    obtain ⟨payload, hpayload, rfl⟩ := List.mem_map.mp hframe
    have hfits : fits policy peer payload = true := List.mem_takeWhile_imp hpayload
    exact of_decide_eq_true hfits
  obtain ⟨pending, hpending, hleft⟩ := Frame.exists_append_of_flatMap hread hsent
    (hheard.trans hunread)
  refine ⟨session, c, s, pending, hc, hs, hpending.symm, hleft, ?_, ?_, ?_⟩
  · rw [hlike]
    exact hopen
  · rw [hlike]
    exact hat.isOpen_eq
  · rw [hat.held_eq, hlike]
    split_ifs with hstill
    · rw [talk, hnoted (hopen.mp hstill), List.nil_append]
    · rfl

/-- A service that only takes challenges. -/
def quietConfig : Configuration where
  listen := []
  challenges? := some ChallengeListener.openPolicy

/-- The service when nothing has happened yet. -/
def quietService : Service where
  config := quietConfig
  zones := {}
  servers := []
  pool := .start [] 64
  challenges? := some { policy := ChallengeListener.openPolicy }

/-- The second of two clients sends a request in two pieces, and then a frame that is no request and
the beginning of another frame.  Meanwhile the first client sends the same and hangs up. -/
def busyRun : List Event :=
  let frame := Frame.wrap ChallengeListener.sharedFrame
  [.write 1 (frame.take 6), .write 0 frame, .write 1 (frame.drop 6), .read 1, .hangUp 0,
    .write 1 (Frame.wrap [123] ++ [0, 0])]

/-- In the busy run both frames are answered, the second with a refusal, and the request is held. -/
theorem acknowledges_in_order_busyRun :
    let peer := .v4 (.ofOctets 192 0 2 1)
    let opened := (quietService.run [.connectChallenges peer]).react (.connectChallenges peer)
    let value := List.replicate 43 'A'
    ∃ session c s pending,
      (opened.run busyRun).conversations[1]? = some ⟨.challenges session, c⟩ ∧
      (opened.run busyRun).session? session = some s ∧
      opened.framesRead 1 busyRun ++ pending =
        [Ack.ok.toJson.print, (Ack.ofFailure .invalidJson).toJson.print] ∧
      c.unread = pending.flatMap Frame.wrap ∧ c.isOpen = true ∧ s.isOpen = true ∧
      s.held.map Registration.challenges = [[⟨['*', '.', 'a'], value⟩, ⟨['a'], value⟩]] := by
  intro peer opened value
  let payloads := [ChallengeListener.sharedFrame, [123]]
  have hstart : start quietConfig = .ok quietService := rfl
  have hpolicy : quietConfig.challenges? = some ChallengeListener.openPolicy := rfl
  have hbefore : .stop ∉ [Event.connectChallenges peer] := by decide
  have hevents : ∀ event ∈ busyRun, event ≠ .stop ∧
      event ≠ .hangUp (quietService.run [.connectChallenges peer]).nextConnection := by
    decide +kernel
  have hsize : ∀ payload ∈ payloads, payload.length ≤ Frame.limit := by decide
  have hrest : Frame.next [0, 0] = .incomplete := by decide
  have harrived : arrived (quietService.run [.connectChallenges peer]).nextConnection busyRun =
      payloads.flatMap Frame.wrap ++ [0, 0] := by
    decide +kernel
  have hanswered : payloads.takeWhile (fits ChallengeListener.openPolicy peer) = payloads := by
    decide +kernel
  have hreplies : payloads.map (reply ChallengeListener.openPolicy peer) =
      [Ack.ok.toJson.print, (Ack.ofFailure .invalidJson).toJson.print] := by
    decide +kernel
  have haccepted : payloads.filterMap (accepted? ChallengeListener.openPolicy peer) =
      [[⟨['*', '.', 'a'], value⟩, ⟨['a'], value⟩]] := by
    decide +kernel
  obtain ⟨⟨session, c, s, pending, hc, hs, hread, hleft, hopen, hstill, hheld⟩, -⟩ :=
    acknowledges_in_order hstart hpolicy peer hbefore hevents hsize hrest harrived
  have hgoing : c.isOpen = true := hopen.mpr hanswered
  rw [hanswered, hreplies] at hread
  rw [hgoing, haccepted] at hheld
  exact ⟨session, c, s, pending, hc, hs, hread, hleft, hgoing, hstill.trans hgoing, hheld⟩

end Service

end Nameserver

import Mathlib
import Nameserver.Forwarding.Pool
import Nameserver.Proofs.Forwarding.Belonging

/-!
# What is relayed

The answers that a pool sends to clients are datagrams that a worker has heard, as much of them as
fits into the buffer, and nothing is done to them (`Pool.relays_play`).  Of each it was checked that
it belongs to the query and that its code is neither a server failure nor a refusal.

**What is not checked.**  Nothing asks whether a datagram is a response at all.  A query that comes
back to the worker that has sent it is passed on to the client and uses up the ticket:
`Pool.relays_what_it_hears`.
-/

namespace Nameserver

namespace Exchange

variable {forwarder : SocketAddress} {query bytes datagram : Bytes} {arrival : Arrival}

/-- The code of a datagram lets it pass as an answer. -/
def IsWelcome (datagram : Bytes) : Prop :=
  rcodeOf datagram ≠ Rcode.servFail.code ∧ rcodeOf datagram ≠ Rcode.refused.code

instance (datagram : Bytes) : Decidable (IsWelcome datagram) :=
  inferInstanceAs (Decidable (_ ∧ _))

/-- An exchange ends with an answer when a datagram comes that belongs to the query and is
welcome. -/
lemma ending?_eq_ok_iff :
    ending? forwarder query arrival = some (.ok datagram) ↔
      ∃ bytes, arrival = .datagram bytes ∧ datagram = bytes.take bufferSize ∧
        belongs query datagram = true ∧ IsWelcome datagram := by
  cases arrival with
  | datagram bytes =>
      simp only [ending?, judge, Arrival.datagram.injEq, exists_eq_left', IsWelcome, ← not_or]
      split_ifs with hbelongs hrcode
      · simp only [Option.some.injEq, reduceCtorEq, false_iff]
        rintro ⟨rfl, -, hwelcome⟩
        exact hwelcome hrcode
      · simp only [Option.some.injEq, Except.ok.injEq]
        constructor
        · rintro rfl
          exact ⟨rfl, hbelongs, hrcode⟩
        · rintro ⟨rfl, -⟩
          rfl
      · simp only [false_iff]
        rintro ⟨rfl, hbelongs', -⟩
        exact hbelongs hbelongs'
  | timeout => simp [ending?]
  | broken => simp [ending?]

end Exchange

lemma Header.decode_append {message : Bytes} {h : Header} (hdecode : decode message = .ok h)
    (rest : Bytes) : decode (message ++ rest) = .ok h := by
  unfold decode at hdecode
  split at hdecode
  · exact hdecode
  · cases hdecode
  · cases hdecode

/-- An answer adds itself to the replies, or nothing. -/
lemma Forwarded.mem_replies_answer {q : Forwarded} {heard : Bytes} {reply : Relay}
    (h : reply ∈ (q.answer heard).replies) : reply ∈ q.replies ∨ reply = .answer heard := by
  unfold Forwarded.answer at h
  dsimp only at h
  split_ifs at h
  · simpa using h
  · exact .inl h

namespace Pool

variable {pool : Pool} {i k w : Nat} {query datagram : Bytes} {action : Action}
  {q : Forwarded}

/-- The pool has sent a datagram as the answer to a query. -/
def Relays (pool : Pool) (i : Nat) (query datagram : Bytes) : Prop :=
  ∃ q, pool.queries[i]? = some q ∧ q.query = query ∧ .answer datagram ∈ q.replies

/-! ## Steps that bring no answer -/

/-- The change of a query adds nothing to its replies, or the error reply. -/
def IsSilent (f : Forwarded → Forwarded) : Prop :=
  ∀ q, (f q).query = q.query ∧
    ((f q).replies = q.replies ∨ (f q).replies = q.replies ++ [.servFail])

/-- Of the queries at most one changes, and silently. -/
def IsSilentStep (pool pool' : Pool) : Prop :=
  ∃ k f, IsSilent f ∧ pool'.queries = pool.queries.modify k f

lemma isSilent_of_replies {f : Forwarded → Forwarded}
    (h : ∀ q, (f q).query = q.query ∧ (f q).replies = q.replies) : IsSilent f :=
  fun q => ⟨(h q).1, .inl (h q).2⟩

lemma isSilent_settle : IsSilent Forwarded.settle := by
  intro q
  unfold Forwarded.settle
  split_ifs
  · exact ⟨rfl, .inr rfl⟩
  · exact ⟨rfl, .inl rfl⟩

lemma isSilent_claimFailure : IsSilent Forwarded.claimFailure := by
  intro q
  unfold Forwarded.claimFailure
  split_ifs
  · exact ⟨rfl, .inr rfl⟩
  · exact ⟨rfl, .inl rfl⟩

lemma isSilentStep_of_queries {pool' : Pool} (h : pool'.queries = pool.queries) :
    pool.IsSilentStep pool' :=
  ⟨0, id, fun _ => ⟨rfl, .inl rfl⟩, h.trans (List.modify_id 0 _).symm⟩

lemma isSilentStep_offer : pool.IsSilentStep (pool.offer k) := by
  unfold offer
  split
  · split
    · split
      · exact ⟨k, .accept, isSilent_of_replies fun _ => ⟨rfl, rfl⟩, rfl⟩
      · exact ⟨k, .refuse, isSilent_of_replies fun _ => ⟨rfl, rfl⟩, rfl⟩
    · exact isSilentStep_of_queries rfl
  · exact isSilentStep_of_queries rfl

/-- The caller of a query does its next step when it is its turn. -/
lemma isSilentStep_caller {f : Forwarded → Forwarded} (hsilent : IsSilent f)
    (turn : Forwarded → Prop) [DecidablePred turn] :
    pool.IsSilentStep (match pool.queries[k]? with
      | some q => if turn q then pool.modifyQuery k f else pool
      | none => pool) := by
  split
  · split_ifs
    · exact ⟨k, f, hsilent, rfl⟩
    · exact isSilentStep_of_queries rfl
  · exact isSilentStep_of_queries rfl

lemma queries_take : (pool.take w).queries = pool.queries := by
  unfold take
  split <;> rfl

lemma queries_look : (pool.look w).queries = pool.queries := by
  unfold look
  split
  · split <;> rfl
  · rfl

lemma queries_stop : (pool.stop w).queries = pool.queries := by
  unfold stop
  split <;> rfl

lemma isSilentStep_countFailure : pool.IsSilentStep (pool.countFailure w) := by
  unfold countFailure
  split
  · split
    · exact ⟨_, .countFailure, isSilent_of_replies fun _ => ⟨rfl, rfl⟩, rfl⟩
    · exact isSilentStep_of_queries rfl
  · exact isSilentStep_of_queries rfl

lemma isSilentStep_claimFailure : pool.IsSilentStep (pool.claimFailure w) := by
  unfold claimFailure
  split
  · split
    · exact ⟨_, .claimFailure, isSilent_claimFailure, rfl⟩
    · exact isSilentStep_of_queries rfl
  · exact isSilentStep_of_queries rfl

lemma IsSilentStep.relays {pool' : Pool} (hstep : pool.IsSilentStep pool')
    (h : pool'.Relays i query datagram) : pool.Relays i query datagram := by
  obtain ⟨k, f, hsilent, hqueries⟩ := hstep
  obtain ⟨q', hq', rfl, hmem⟩ := h
  rw [hqueries, List.getElem?_modify] at hq'
  obtain ⟨q, hq, rfl⟩ := Option.map_eq_some_iff.mp hq'
  split_ifs at hmem ⊢
  · obtain ⟨hquery, hreplies⟩ := hsilent q
    refine ⟨q, hq, hquery.symm, ?_⟩
    rcases hreplies with heq | heq
    · rwa [heq] at hmem
    · simpa [heq] using hmem
  · exact ⟨q, hq, rfl, hmem⟩

/-! ## All steps -/

lemma relays_enter {bytes : Bytes} (h : (pool.enter bytes).Relays i query datagram) :
    pool.Relays i query datagram := by
  obtain ⟨q, hq, hquery, hmem⟩ := h
  simp only [enter, List.getElem?_append] at hq
  split_ifs at hq with hi
  · exact ⟨q, hq, hquery, hmem⟩
  · rw [List.getElem?_singleton] at hq
    split_ifs at hq
    cases hq
    unfold Forwarded.ofQuery at hmem
    split at hmem <;> cases hmem

lemma relays_hear {arrival : Arrival} (h : (pool.hear w arrival).Relays i query datagram) :
    pool.Relays i query datagram ∨
      ∃ bytes, arrival = .datagram bytes ∧ datagram = bytes.take bufferSize ∧
        Exchange.belongs query datagram = true ∧ Exchange.IsWelcome datagram := by
  unfold hear at h
  split at h
  · rename_i forwarder k _ _
    split at h
    · rename_i q hq
      split at h
      · exact .inl h
      · rename_i heard hending
        obtain ⟨q', hq', rfl, hmem⟩ := h
        simp only [modifyQuery, turn, modifyWorker, List.getElem?_modify] at hq'
        obtain ⟨q'', hq'', rfl⟩ := Option.map_eq_some_iff.mp hq'
        split_ifs at hmem ⊢ with hk
        · obtain rfl : q = q'' := Option.some.inj (hq.symm.trans (hk ▸ hq''))
          rcases Forwarded.mem_replies_answer hmem with hold | hnew
          · exact .inl ⟨q, hq'', rfl, hold⟩
          · cases hnew
            exact .inr (Exchange.ending?_eq_ok_iff.mp hending)
        · exact .inl ⟨q'', hq'', rfl, hmem⟩
      · exact .inl h
    · exact .inl h
  · exact .inl h

/-- An action relays nothing but what a worker hears. -/
lemma relays_act (h : (pool.act action).Relays i query datagram) :
    pool.Relays i query datagram ∨
      ∃ w bytes, action = .hear w (.datagram bytes) ∧ datagram = bytes.take bufferSize ∧
        Exchange.belongs query datagram = true ∧ Exchange.IsWelcome datagram := by
  cases action with
  | enter bytes => exact .inl (relays_enter h)
  | hear w arrival =>
      rcases relays_hear h with hold | ⟨bytes, rfl, hheard⟩
      · exact .inl hold
      · exact .inr ⟨w, bytes, rfl, hheard⟩
  | offer k => exact .inl (isSilentStep_offer.relays h)
  | countRefusal k =>
      have hsilent : IsSilent .countRefusal := isSilent_of_replies fun _ => ⟨rfl, rfl⟩
      exact .inl ((isSilentStep_caller hsilent (·.caller = .refused)).relays h)
  | claimRefusal k =>
      have hsilent : IsSilent .claimRefusal := isSilent_of_replies fun _ => ⟨rfl, rfl⟩
      exact .inl ((isSilentStep_caller hsilent (·.caller = .claiming)).relays h)
  | settle k =>
      exact .inl ((isSilentStep_caller isSilent_settle
        fun q => q.asked = pool.workers.length ∧ q.caller = .asking).relays h)
  | take w => exact .inl ((isSilentStep_of_queries queries_take).relays h)
  | look w => exact .inl ((isSilentStep_of_queries queries_look).relays h)
  | countFailure w => exact .inl (isSilentStep_countFailure.relays h)
  | claimFailure w => exact .inl (isSilentStep_claimFailure.relays h)
  | stop w => exact .inl ((isSilentStep_of_queries queries_stop).relays h)

/-- All that was relayed was heard before. -/
lemma relays_play {actions : List Action} (h : (pool.play actions).Relays i query datagram) :
    pool.Relays i query datagram ∨
      ∃ w bytes, .hear w (.datagram bytes) ∈ actions ∧ datagram = bytes.take bufferSize ∧
        Exchange.belongs query datagram = true ∧ Exchange.IsWelcome datagram := by
  induction actions generalizing pool with
  | nil => exact .inl h
  | cons action actions ih =>
      rcases ih h with hact | ⟨w, bytes, hmem, hheard⟩
      · rcases relays_act hact with hold | ⟨w, bytes, rfl, hheard⟩
        · exact .inl hold
        · exact .inr ⟨w, bytes, List.mem_cons_self, hheard⟩
      · exact .inr ⟨w, bytes, List.mem_cons_of_mem _ hmem, hheard⟩

lemma not_relays_start (forwarders : List SocketAddress) (depth : Nat) :
    ¬ (start forwarders depth).Relays i query datagram := by
  rintro ⟨q, hq, -⟩
  cases hq

lemma heard_of_relays {forwarders : List SocketAddress} {depth : Nat} {actions : List Action}
    (h : ((start forwarders depth).play actions).Relays i query datagram) :
    ∃ w bytes, .hear w (.datagram bytes) ∈ actions ∧ datagram = bytes.take bufferSize ∧
      Exchange.belongs query datagram = true ∧ Exchange.IsWelcome datagram :=
  (relays_play h).resolve_left (not_relays_start forwarders depth)

/-- What is relayed for a query that was parsed has the header that it was sent with. -/
lemma header_of_relays {forwarders : List SocketAddress} {depth : Nat} {actions : List Action}
    {request : Request} (hparse : Request.parse query = .ok request)
    (h : ((start forwarders depth).play actions).Relays i query datagram) :
    ∃ w bytes h, .hear w (.datagram bytes) ∈ actions ∧ datagram = bytes.take bufferSize ∧
      Exchange.belongs query datagram = true ∧ Exchange.IsWelcome datagram ∧
      Header.decode bytes = .ok h ∧ Header.decode datagram = .ok h := by
  obtain ⟨w, bytes, hheard, rfl, hbelongs, hwelcome⟩ := heard_of_relays h
  obtain ⟨header, hdecode⟩ := Exchange.exists_decode_of_belongs hparse hbelongs
  have hwhole := Header.decode_append hdecode (bytes.drop bufferSize)
  rw [List.take_append_drop] at hwhole
  exact ⟨w, bytes, header, hheard, rfl, hbelongs, hwelcome, hwhole, hdecode⟩

/-- A worker that waits passes on whatever belongs to its query and is welcome, if it is the first
to reply. -/
lemma hear_welcome {worker : Worker} {bytes : Bytes} (hw : pool.workers[w]? = some worker)
    (hwaiting : worker.activity = .waiting i) (hq : pool.queries[i]? = some q)
    (hfirst : q.ticket.redeemed = false)
    (hbelongs : Exchange.belongs q.query (bytes.take bufferSize) = true)
    (hwelcome : Exchange.IsWelcome (bytes.take bufferSize)) :
    (pool.hear w (.datagram bytes)).queries[i]? =
      some { q with
        ticket := { q.ticket with redeemed := true }
        replies := q.replies ++ [.answer (bytes.take bufferSize)] } := by
  have hending : Exchange.ending? worker.forwarder q.query (.datagram bytes) =
      some (.ok (bytes.take bufferSize)) :=
    Exchange.ending?_eq_ok_iff.mpr ⟨bytes, rfl, rfl, hbelongs, hwelcome⟩
  -- `hear` matches on the worker as a whole
  obtain ⟨forwarder, queue, activity⟩ := worker
  cases hwaiting
  unfold hear
  simp only [hw, hq, hending, modifyQuery, turn, modifyWorker, List.getElem?_modify]
  simp [Forwarded.answer, Ticket.redeem, hfirst]

/-- **Relayed as heard.**  Whatever was relayed for a query that was parsed is a datagram that some
worker has heard, cut to the size of the buffer.  It has a header, which is as it was sent, so it is
a response if and only if the sender has marked it as one.  And a worker that waits passes on
anything that belongs to the query, as long as its code is neither a server failure nor a refusal:
also what is not marked as a response. -/
theorem relays_what_it_hears (forwarders : List SocketAddress) (depth : Nat)
    (actions : List Action) :
    let pool := (start forwarders depth).play actions
    (∀ (i : Nat) (q : Forwarded) (request : Request) (datagram : Bytes),
      pool.queries[i]? = some q → Request.parse q.query = .ok request →
      .answer datagram ∈ q.replies →
      ∃ w bytes h, .hear w (.datagram bytes) ∈ actions ∧ datagram = bytes.take bufferSize ∧
        Exchange.belongs q.query datagram = true ∧ Exchange.IsWelcome datagram ∧
        Header.decode bytes = .ok h ∧ Header.decode datagram = .ok h) ∧
    (∀ (w i : Nat) (worker : Worker) (q : Forwarded) (bytes : Bytes),
      pool.workers[w]? = some worker → worker.activity = .waiting i →
      pool.queries[i]? = some q → q.ticket.redeemed = false →
      Exchange.belongs q.query (bytes.take bufferSize) = true →
      Exchange.IsWelcome (bytes.take bufferSize) →
      (pool.hear w (.datagram bytes)).queries[i]? =
        some { q with
          ticket := { q.ticket with redeemed := true }
          replies := q.replies ++ [.answer (bytes.take bufferSize)] }) := by
  intro pool
  refine ⟨?_, fun w i worker q bytes hw hwaiting hq hfirst => hear_welcome hw hwaiting hq hfirst⟩
  intro i q request datagram hq hparse hmem
  exact header_of_relays hparse ⟨q, hq, rfl, hmem⟩

/-- A query for the address of `a`. -/
def plainQuery : Bytes := [0, 7, 1, 0, 0, 1, 0, 0, 0, 0, 0, 0, 1, 97, 0, 0, 1, 0, 1]

/-- A query is sent on, and its forwarder has not answered. -/
def waitingRun : List Action := [.enter plainQuery, .offer 0, .settle 0, .take 0, .look 0]

/-- The forwarder sends the query back as it is.  The client gets it, and the ticket is gone. -/
theorem relays_what_it_hears_waitingRun :
    let pool := (start [⟨.v4 (.ofOctets 192 0 2 1), 53, 0⟩] 1).play waitingRun
    let q : Forwarded :=
      { query := plainQuery, ticket := ⟨true, 1⟩, caller := .settled, asked := 1
        replies := [.answer plainQuery] }
    (pool.hear 0 (.datagram plainQuery)).queries[0]? = some q ∧
      ∃ h, Header.decode plainQuery = .ok h ∧ h.isResponse = false := by
  intro pool q
  have hheard := (relays_what_it_hears [⟨.v4 (.ofOctets 192 0 2 1), 53, 0⟩] 1 waitingRun).2 0 0
    ⟨⟨.v4 (.ofOctets 192 0 2 1), 53, 0⟩, [], .waiting 0⟩
    { query := plainQuery, ticket := ⟨false, 1⟩, caller := .settled, asked := 1 }
    plainQuery (by decide) rfl (by decide) rfl (by decide) (by decide)
  exact ⟨hheard, _, rfl, rfl⟩

end Pool

end Nameserver

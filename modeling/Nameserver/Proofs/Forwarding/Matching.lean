import Mathlib
import Nameserver.Proofs.Forwarding.Relays

/-!
# Which datagram decides an exchange

A worker keeps its socket from one exchange to the next, so what it hears while it waits may have
been meant for a query that it gave up long ago, or for nobody.

**A match.**  A datagram matches a query that was parsed if it has the same id and the same
question, octet for octet (`Request.Matches`).  The first thing a worker hears that is not a
datagram that fails to match is the end of its exchange, and nothing that came before it has left a
trace: `Exchange.run_eq_some_iff` for an exchange on its own, `Waits.play`, `Waits.hear_answer` and
`Waits.hear_failure` for a worker in the pool, whatever the other workers and all callers do
meanwhile.

**No other question.**  Since an answer goes to a client only at the end of an exchange, it matches
the query of that client, also when ids are used again: `Pool.first_match_decides`.
-/

namespace Nameserver

/-- A datagram has the id of a request, and its question right behind the header. -/
def Request.Matches (request : Request) (datagram : Bytes) : Prop :=
  Header.idOf? datagram = some request.header.id ∧
    request.question.encode <+: datagram.drop headerSize

instance (request : Request) (datagram : Bytes) : Decidable (request.Matches datagram) :=
  inferInstanceAs (Decidable (_ ∧ _))

namespace Exchange

variable {query datagram : Bytes} {request : Request} {forwarder : SocketAddress}
  {arrival : Arrival} {arrivals rest : List Arrival} {result : Except Failure Bytes}

/-- What arrives is a datagram that does not match. -/
inductive IsVain (request : Request) : Arrival → Prop where
  | datagram {bytes : Bytes} (hother : ¬ request.Matches (bytes.take bufferSize)) :
    IsVain request (.datagram bytes)

/-- What else arrives ends the exchange, with this result. -/
inductive Decides (forwarder : SocketAddress) (request : Request) :
    Arrival → Except Failure Bytes → Prop where
  | answered {bytes : Bytes} {header : Header} (hmatches : request.Matches (bytes.take bufferSize))
      (hdecode : Header.decode (bytes.take bufferSize) = .ok header)
      (hrcode : header.rcode ≠ Rcode.servFail.code ∧ header.rcode ≠ Rcode.refused.code) :
    Decides forwarder request (.datagram bytes) (.ok (bytes.take bufferSize))
  | rejected {bytes : Bytes} {header : Header} (hmatches : request.Matches (bytes.take bufferSize))
      (hdecode : Header.decode (bytes.take bufferSize) = .ok header)
      (hrcode : header.rcode = Rcode.servFail.code ∨ header.rcode = Rcode.refused.code) :
    Decides forwarder request (.datagram bytes) (.error (.forwarderRejected forwarder header.rcode))
  | timeout : Decides forwarder request .timeout (.error (.forwarderTimeout forwarder))
  | broken : Decides forwarder request .broken (.error .io)

/-- The comparison that a worker makes finds the datagrams that match. -/
lemma belongs_iff_matches (hparse : Request.parse query = .ok request) :
    belongs query datagram = true ↔ request.Matches datagram := by
  rw [belongs_iff hparse, Request.Matches]
  refine and_congr_right fun _ => ?_
  constructor
  · intro hquestion
    have hpos := (isAsked_of_parse hparse).length_pos
    have hlength := length_of_question? hquestion
    rw [← List.take_append_drop headerSize datagram,
      question?_append_iff (List.length_take_of_le (by omega))] at hquestion
    exact hquestion.2
  · intro hprefix
    have hpos := (isAsked_of_parse hparse).length_pos
    have hlength := hprefix.length_le
    rw [List.length_drop] at hlength
    rw [← List.take_append_drop headerSize datagram,
      question?_append_iff (List.length_take_of_le (by omega))]
    exact ⟨isAsked_of_parse hparse, hprefix⟩

lemma matches_self (hparse : Request.parse query = .ok request) : request.Matches query :=
  (belongs_iff_matches hparse).mp (by simp [belongs])

/-- The wait goes on as long as nothing comes but datagrams that do not match. -/
lemma ending?_eq_none_iff (hparse : Request.parse query = .ok request) :
    ending? forwarder query arrival = none ↔ IsVain request arrival := by
  cases arrival with
  | datagram bytes =>
      simp only [ending?, ite_eq_right_iff, reduceCtorEq, imp_false, belongs_iff_matches hparse]
      constructor
      · exact .datagram
      · rintro ⟨hother⟩
        exact hother
  | timeout =>
      simp only [ending?, reduceCtorEq, false_iff]
      rintro ⟨⟩
  | broken =>
      simp only [ending?, reduceCtorEq, false_iff]
      rintro ⟨⟩

lemma rcodeOf_of_decode {header : Header} (hdecode : Header.decode datagram = .ok header) :
    rcodeOf datagram = header.rcode := by
  simp only [rcodeOf, hdecode]

lemma ending?_eq_some_iff (hparse : Request.parse query = .ok request) :
    ending? forwarder query arrival = some result ↔ Decides forwarder request arrival result := by
  cases arrival with
  | datagram bytes =>
      simp only [ending?, belongs_iff_matches hparse, judge]
      constructor
      · intro h
        by_cases hmatches : request.Matches (bytes.take bufferSize)
        · obtain ⟨header, hdecode⟩ :=
            exists_decode_of_belongs hparse ((belongs_iff_matches hparse).mpr hmatches)
          simp only [if_pos hmatches, rcodeOf_of_decode hdecode, Option.some.injEq] at h
          subst h
          split_ifs with hrcode
          · exact .rejected hmatches hdecode hrcode
          · exact .answered hmatches hdecode (not_or.mp hrcode)
        · rw [if_neg hmatches] at h
          cases h
      · rintro (⟨hmatches, hdecode, hrcode⟩ | ⟨hmatches, hdecode, hrcode⟩)
        · simp [hmatches, rcodeOf_of_decode hdecode, hrcode]
        · simp [hmatches, rcodeOf_of_decode hdecode, hrcode]
  | timeout =>
      simp only [ending?, Option.some.injEq]
      constructor
      · rintro rfl
        exact .timeout
      · rintro ⟨⟩
        rfl
  | broken =>
      simp only [ending?, Option.some.injEq]
      constructor
      · rintro rfl
        exact .broken
      · rintro ⟨⟩
        rfl

lemma isVain_or_decides (hparse : Request.parse query = .ok request) :
    IsVain request arrival ∨ ∃ result, Decides forwarder request arrival result := by
  cases hending : ending? forwarder query arrival with
  | none => exact .inl ((ending?_eq_none_iff hparse).mp hending)
  | some result => exact .inr ⟨result, (ending?_eq_some_iff hparse).mp hending⟩

/-! ## An exchange on its own -/

lemma run_vain {vain : List Arrival} (hparse : Request.parse query = .ok request)
    (hvain : ∀ a ∈ vain, IsVain request a) :
    run forwarder query (vain ++ arrivals) = run forwarder query arrivals := by
  induction vain with
  | nil => rfl
  | cons first vain ih =>
      rw [List.forall_mem_cons] at hvain
      rw [List.cons_append, run, (ending?_eq_none_iff hparse).mpr hvain.1]
      exact ih hvain.2

lemma run_decides (hparse : Request.parse query = .ok request)
    (hdecides : Decides forwarder request arrival result) :
    run forwarder query (arrival :: rest) = some (result, rest) := by
  rw [run, (ending?_eq_some_iff hparse).mpr hdecides]

/-- An exchange has a result once something comes that is not in vain, and leaves what comes after
that to the next one. -/
lemma run_eq_some_iff (hparse : Request.parse query = .ok request) :
    run forwarder query arrivals = some (result, rest) ↔
      ∃ vain arrival, arrivals = vain ++ arrival :: rest ∧ (∀ a ∈ vain, IsVain request a) ∧
        Decides forwarder request arrival result := by
  constructor
  · intro h
    induction arrivals with
    | nil => cases h
    | cons first arrivals ih =>
        rw [run] at h
        cases hending : ending? forwarder query first with
        | none =>
            rw [hending] at h
            obtain ⟨vain, arrival, rfl, hvain, hdecides⟩ := ih h
            have hfirst := (ending?_eq_none_iff hparse).mp hending
            exact ⟨first :: vain, arrival, rfl, List.forall_mem_cons.mpr ⟨hfirst, hvain⟩, hdecides⟩
        | some ended =>
            rw [hending] at h
            cases h
            exact ⟨[], first, rfl, by simp, (ending?_eq_some_iff hparse).mp hending⟩
  · rintro ⟨vain, arrival, rfl, hvain, hdecides⟩
    rw [run_vain hparse hvain, run_decides hparse hdecides]

end Exchange

/-- An answer is the reply if nobody has replied, and changes nothing otherwise. -/
lemma Forwarded.answer_eq (datagram : Bytes) :
    (fun q : Forwarded => if q.ticket.redeemed then q
      else { q with
        ticket := { q.ticket with redeemed := true }
        replies := q.replies ++ [.answer datagram] }) = (·.answer datagram) := by
  funext q
  obtain ⟨query, ⟨redeemed, outstanding⟩, caller, asked, callerReplies, replies⟩ := q
  cases redeemed with
  | false => rfl
  | true => rfl

namespace Pool

variable {pool : Pool} {w v i k : Nat} {query datagram : Bytes} {action : Action}
  {actions : List Action} {arrival : Arrival} {request : Request}

/-- A worker has sent a query on and waits for an answer. -/
def Waits (pool : Pool) (w i : Nat) (query : Bytes) : Prop :=
  pool.workers[w]?.map (·.activity) = some (.waiting i) ∧
    pool.queries[i]?.map (·.query) = some query

instance (pool : Pool) (w i : Nat) (query : Bytes) : Decidable (pool.Waits w i query) :=
  inferInstanceAs (Decidable (_ ∧ _))

/-- What a worker hears in a run. -/
def heardBy (w : Nat) (actions : List Action) : List Arrival :=
  actions.filterMap fun
    | .hear v arrival => if v = w then some arrival else none
    | _ => none

/-! ## What leaves a worker waiting -/

/-- A worker that does something else is another worker. -/
lemma Waits.ne {worker : Worker} (h : pool.Waits w i query) (hv : pool.workers[v]? = some worker)
    (hactivity : worker.activity ≠ .waiting i) : v ≠ w := by
  rintro rfl
  rw [Waits, hv] at h
  exact hactivity (Option.some.inj h.1)

lemma map_getElem?_modify {α β : Type} {g : α → β} {f : α → α} {xs : List α}
    (hf : k = i → ∀ x, g (f x) = g x) : (xs.modify k f)[i]?.map g = xs[i]?.map g := by
  rw [List.getElem?_modify]
  cases xs[i]? with
  | none => rfl
  | some x =>
      simp only [Option.map_eq_map, Option.map_some]
      split_ifs with hk
      · rw [hf hk]
      · rfl

lemma Waits.modifyWorker (h : pool.Waits w i query) (f : Worker → Worker)
    (hf : v = w → ∀ worker, (f worker).activity = worker.activity) :
    (pool.modifyWorker v f).Waits w i query :=
  ⟨(map_getElem?_modify hf).trans h.1, h.2⟩

lemma Waits.modifyQuery (h : pool.Waits w i query) (f : Forwarded → Forwarded)
    (hf : ∀ q, (f q).query = q.query) : (pool.modifyQuery k f).Waits w i query :=
  ⟨h.1, (map_getElem?_modify fun _ => hf).trans h.2⟩

/-- Another worker may turn to anything. -/
lemma Waits.turn {worker : Worker} (h : pool.Waits w i query)
    (hv : pool.workers[v]? = some worker) (hactivity : worker.activity ≠ .waiting i)
    (activity : Activity) : (pool.turn v activity).Waits w i query :=
  h.modifyWorker _ fun hvw => absurd hvw (h.ne hv hactivity)

lemma Waits.enter (h : pool.Waits w i query) (bytes : Bytes) :
    (pool.enter bytes).Waits w i query := by
  obtain ⟨q, hq, hquery⟩ := Option.map_eq_some_iff.mp h.2
  refine ⟨h.1, ?_⟩
  rw [Pool.enter, List.getElem?_append_left (List.getElem?_eq_some_iff.mp hq).1]
  exact h.2

lemma Waits.offer (h : pool.Waits w i query) : (pool.offer k).Waits w i query := by
  unfold Pool.offer
  split
  · split
    · split_ifs
      · refine Waits.modifyQuery ?_ .accept fun _ => rfl
        exact h.modifyWorker _ fun _ _ => rfl
      · exact h.modifyQuery .refuse fun _ => rfl
    · exact h
  · exact h

/-- The caller of a query does its next step when it is its turn. -/
lemma Waits.caller (h : pool.Waits w i query) (f : Forwarded → Forwarded)
    (hf : ∀ q, (f q).query = q.query) (turn : Forwarded → Prop) [DecidablePred turn] :
    (match pool.queries[k]? with
      | some q => if turn q then pool.modifyQuery k f else pool
      | none => pool).Waits w i query := by
  split
  · split_ifs
    · exact h.modifyQuery f hf
    · exact h
  · exact h

lemma Waits.take (h : pool.Waits w i query) : (pool.take v).Waits w i query := by
  unfold Pool.take
  split
  · rename_i hv
    exact h.modifyWorker _ fun hvw => absurd hvw (h.ne hv (by simp))
  · exact h

lemma Waits.look (h : pool.Waits w i query) : (pool.look v).Waits w i query := by
  unfold Pool.look
  split
  · rename_i hv
    split
    · exact h.turn hv (by simp) _
    · exact h
  · exact h

lemma Waits.hear (h : pool.Waits w i query) (hvw : v ≠ w) :
    (pool.hear v arrival).Waits w i query := by
  unfold Pool.hear
  split
  · split
    · split
      · exact h
      · exact (h.modifyWorker _ fun heq => absurd heq hvw).modifyQuery _ fun _ => rfl
      · exact h.modifyWorker _ fun heq => absurd heq hvw
    · exact h
  · exact h

lemma Waits.countFailure (h : pool.Waits w i query) : (pool.countFailure v).Waits w i query := by
  unfold Pool.countFailure
  split
  · rename_i hv
    split
    · exact (h.turn hv (by simp) _).modifyQuery .countFailure fun _ => rfl
    · exact h
  · exact h

lemma Waits.claimFailure (h : pool.Waits w i query) : (pool.claimFailure v).Waits w i query := by
  unfold Pool.claimFailure
  split
  · rename_i hv
    split
    · exact (h.turn hv (by simp) _).modifyQuery .claimFailure fun _ => rfl
    · exact h
  · exact h

lemma Waits.stop (h : pool.Waits w i query) : (pool.stop v).Waits w i query := by
  unfold Pool.stop
  split
  · rename_i hv
    exact h.modifyWorker _ fun hvw => absurd hvw (h.ne hv (by simp))
  · exact h

/-- A worker that waits goes on waiting, whatever is done, unless it hears something. -/
lemma Waits.act (h : pool.Waits w i query) (hear : ∀ arrival, action ≠ .hear w arrival) :
    (pool.act action).Waits w i query := by
  cases action with
  | enter bytes => exact h.enter bytes
  | offer k => exact h.offer
  | countRefusal k => exact h.caller .countRefusal (fun _ => rfl) (·.caller = .refused)
  | claimRefusal k => exact h.caller .claimRefusal (fun _ => rfl) (·.caller = .claiming)
  | settle k =>
      exact h.caller .settle (fun _ => rfl)
        fun q => q.asked = pool.workers.length ∧ q.caller = .asking
  | take v => exact h.take
  | look v => exact h.look
  | hear v arrival => exact h.hear fun hvw => hear arrival (hvw ▸ rfl)
  | countFailure v => exact h.countFailure
  | claimFailure v => exact h.claimFailure
  | stop v => exact h.stop

/-! ## What a waiting worker hears -/

lemma Waits.hear_eq (h : pool.Waits w i query) (arrival : Arrival) :
    ∃ forwarder, pool.hear w arrival = match Exchange.ending? forwarder query arrival with
      | none => pool
      | some (.ok datagram) => (pool.turn w .idle).modifyQuery i (·.answer datagram)
      | some (.error _) => pool.turn w (.failing i) := by
  obtain ⟨hactivity, hquery⟩ := h
  obtain ⟨⟨forwarder, queue, activity⟩, hw, rfl⟩ := Option.map_eq_some_iff.mp hactivity
  obtain ⟨q, hq, rfl⟩ := Option.map_eq_some_iff.mp hquery
  refine ⟨forwarder, ?_⟩
  rcases hending : Exchange.ending? forwarder q.query arrival with _ | (failure | datagram) <;>
    simp only [Pool.hear, hw, hq, hending]

/-- What comes in vain is thrown away. -/
lemma Waits.hear_vain (h : pool.Waits w i query) (hparse : Request.parse query = .ok request)
    (hvain : Exchange.IsVain request arrival) : pool.hear w arrival = pool := by
  obtain ⟨forwarder, hhear⟩ := h.hear_eq arrival
  rw [hhear, (Exchange.ending?_eq_none_iff hparse).mpr hvain]

/-- What ends the exchange with an answer gives it to the query. -/
lemma Waits.hear_answer {forwarder : SocketAddress} (h : pool.Waits w i query)
    (hparse : Request.parse query = .ok request)
    (hdecides : Exchange.Decides forwarder request arrival (.ok datagram)) :
    pool.hear w arrival = (pool.turn w .idle).modifyQuery i (·.answer datagram) := by
  obtain ⟨worker, hhear⟩ := h.hear_eq arrival
  cases hdecides with
  | answered hmatches hdecode hrcode =>
      rw [hhear, (Exchange.ending?_eq_some_iff hparse).mpr (.answered hmatches hdecode hrcode)]

/-- What ends it otherwise is a failure. -/
lemma Waits.hear_failure {forwarder : SocketAddress} {failure : Failure}
    (h : pool.Waits w i query) (hparse : Request.parse query = .ok request)
    (hdecides : Exchange.Decides forwarder request arrival (.error failure)) :
    pool.hear w arrival = pool.turn w (.failing i) := by
  obtain ⟨worker, hhear⟩ := h.hear_eq arrival
  rw [hhear]
  cases hdecides with
  | rejected hmatches hdecode hrcode =>
      rw [(Exchange.ending?_eq_some_iff hparse).mpr (.rejected hmatches hdecode hrcode)]
  | timeout => rw [(Exchange.ending?_eq_some_iff hparse).mpr .timeout]
  | broken => rw [(Exchange.ending?_eq_some_iff hparse).mpr .broken]

/-- A worker goes on waiting as long as all it hears is in vain, whatever else is done. -/
lemma Waits.play (h : pool.Waits w i query) (hparse : Request.parse query = .ok request)
    (hvain : ∀ arrival ∈ heardBy w actions, Exchange.IsVain request arrival) :
    (pool.play actions).Waits w i query := by
  induction actions generalizing pool with
  | nil => exact h
  | cons action actions ih =>
      by_cases hear : ∃ arrival, action = .hear w arrival
      · obtain ⟨arrival, rfl⟩ := hear
        have hsame : pool.hear w arrival = pool :=
          h.hear_vain hparse (hvain arrival (by simp [heardBy]))
        refine ih ?_ fun a ha => hvain a ?_
        · rwa [Pool.act, hsame]
        · simp only [heardBy, List.filterMap_cons, if_true]
          exact List.mem_cons_of_mem _ ha
      · refine ih (h.act (by simpa using hear)) fun a ha => hvain a ?_
        simp only [heardBy, List.filterMap_cons]
        split
        · exact ha
        · exact List.mem_cons_of_mem _ ha

/-! ## Where answers come from -/

lemma hear_eq_self (h : ∀ i query, ¬ pool.Waits w i query) : pool.hear w arrival = pool := by
  unfold Pool.hear
  split
  · rename_i hw
    split
    · rename_i hq
      exact absurd ⟨by rw [hw]; rfl, by rw [hq]; rfl⟩ (h _ _)
    · rfl
  · rfl

/-- What is relayed when a worker hears something was heard for that query. -/
lemma waits_of_relays (hnew : (pool.hear w arrival).Relays i query datagram)
    (hold : ¬ pool.Relays i query datagram) : pool.Waits w i query := by
  by_cases hwaits : ∃ k asked, pool.Waits w k asked
  · obtain ⟨k, asked, hwaits⟩ := hwaits
    obtain ⟨forwarder, hhear⟩ := hwaits.hear_eq arrival
    rw [hhear] at hnew
    split at hnew
    · exact absurd hnew hold
    · rename_i heard _
      obtain ⟨q, hq, rfl, hmem⟩ := hnew
      by_cases hk : k = i
      · have hsame : (pool.queries.modify k (·.answer heard))[i]?.map (·.query) =
            pool.queries[i]?.map (·.query) := map_getElem?_modify fun _ _ => rfl
        exact ⟨hk ▸ hwaits.1, hsame.symm.trans (congrArg (Option.map (·.query)) hq)⟩
      · have hother : (pool.queries.modify k (·.answer heard))[i]? = pool.queries[i]? :=
          List.getElem?_modify_ne _ _ hk
        exact absurd ⟨q, hother.symm.trans hq, rfl, hmem⟩ hold
    · exact absurd hnew hold
  · simp only [not_exists] at hwaits
    rw [hear_eq_self hwaits] at hnew
    exact absurd hnew hold

/-- Whatever a pool relays for a query, one worker has heard while it waited for an answer to it. -/
lemma exists_hear_of_relays {forwarders : List SocketAddress} {depth : Nat}
    (h : ((start forwarders depth).play actions).Relays i query datagram) :
    ∃ before w bytes after, actions = before ++ .hear w (.datagram bytes) :: after ∧
      ((start forwarders depth).play before).Waits w i query ∧
      datagram = bytes.take bufferSize ∧ Exchange.belongs query datagram = true ∧
      Exchange.IsWelcome datagram := by
  induction actions using List.reverseRecOn with
  | nil => exact absurd h (not_relays_start forwarders depth)
  | append_singleton actions action ih =>
      by_cases hold : ((start forwarders depth).play actions).Relays i query datagram
      · obtain ⟨before, w, bytes, after, rfl, hheard⟩ := ih hold
        exact ⟨before, w, bytes, after ++ [action], by simp, hheard⟩
      · rw [Pool.play, List.foldl_concat] at h
        obtain ⟨w, bytes, rfl, hheard⟩ := (relays_act h).resolve_left hold
        exact ⟨actions, w, bytes, [], rfl, waits_of_relays h hold, hheard⟩

/-- **The first match decides.**  The exchange of a query that was parsed goes on as long as nothing
comes but datagrams with another id or another question.  Its result is that of the first thing to
come that is not one of these, and what comes later is left to the next exchange.

In a pool, whatever has happened before and whatever the others do meanwhile, a worker that waits
for the query throws such datagrams away without a trace.  An answer goes to the client as received,
if nobody has replied so far; whatever else ends the exchange is a failure.  And every answer that
was sent for the query matches it, and was heard by a worker that waited for an answer to it. -/
theorem first_match_decides {query : Bytes} {request : Request}
    (hparse : Request.parse query = .ok request) :
    request.Matches query ∧
    (∀ forwarder arrivals result rest,
      Exchange.run forwarder query arrivals = some (result, rest) ↔
        ∃ vain arrival, arrivals = vain ++ arrival :: rest ∧
          (∀ a ∈ vain, Exchange.IsVain request a) ∧
          Exchange.Decides forwarder request arrival result) ∧
    (∀ forwarder arrival, Exchange.IsVain request arrival ∨
      ∃ result, Exchange.Decides forwarder request arrival result) ∧
    ∀ (forwarders : List SocketAddress) (depth : Nat) (history : List Action),
      let pool := (start forwarders depth).play history
      (∀ (w i : Nat) (actions : List Action), pool.Waits w i query →
        (∀ arrival ∈ heardBy w actions, Exchange.IsVain request arrival) →
        let later := pool.play actions
        later.Waits w i query ∧
        (∀ arrival, Exchange.IsVain request arrival → later.hear w arrival = later) ∧
        (∀ forwarder arrival datagram,
          Exchange.Decides forwarder request arrival (.ok datagram) →
          later.hear w arrival = (later.turn w .idle).modifyQuery i fun q =>
            if q.ticket.redeemed then q
            else { q with
              ticket := { q.ticket with redeemed := true }
              replies := q.replies ++ [.answer datagram] }) ∧
        ∀ forwarder arrival failure,
          Exchange.Decides forwarder request arrival (.error failure) →
          later.hear w arrival = later.turn w (.failing i)) ∧
      ∀ (i : Nat) (datagram : Bytes), pool.Relays i query datagram →
        request.Matches datagram ∧
          ∃ before w bytes after, history = before ++ .hear w (.datagram bytes) :: after ∧
            ((start forwarders depth).play before).Waits w i query ∧
            datagram = bytes.take bufferSize ∧ Exchange.IsWelcome datagram := by
  refine ⟨Exchange.matches_self hparse, fun _ _ _ _ => Exchange.run_eq_some_iff hparse,
    fun _ _ => Exchange.isVain_or_decides hparse, fun forwarders depth history => ⟨?_, ?_⟩⟩
  · intro w i actions hwaits hvain
    have hlater := hwaits.play hparse hvain
    refine ⟨hlater, fun arrival => hlater.hear_vain hparse, ?_, ?_⟩
    · intro forwarder arrival datagram hdecides
      rw [hlater.hear_answer hparse hdecides, ← Forwarded.answer_eq]
    · intro forwarder arrival failure hdecides
      exact hlater.hear_failure hparse hdecides
  · intro i datagram hrelays
    obtain ⟨before, w, bytes, after, hsplit, hwaits, hcut, hbelongs, hwelcome⟩ :=
      exists_hear_of_relays hrelays
    exact ⟨(Exchange.belongs_iff_matches hparse).mp hbelongs, before, w, bytes, after, hsplit,
      hwaits, hcut, hwelcome⟩

/-- Another query of the same id. -/
def laterQuery : Bytes := [0, 7, 1, 0, 0, 1, 0, 0, 0, 0, 0, 0, 1, 98, 0, 0, 1, 0, 1]

/-- A query is given up, and one of the same id is sent on. -/
def reusedRun : List Action :=
  waitingRun ++ [.hear 0 .timeout, .countFailure 0, .claimFailure 0, .enter laterQuery, .offer 1,
    .settle 1, .take 0, .look 0]

/-- An answer to the query that was given up. -/
def lateAnswer : Bytes := [0, 7, 129, 128, 0, 1, 0, 0, 0, 0, 0, 0, 1, 97, 0, 0, 1, 0, 1]

/-- An answer to the later query. -/
def timelyAnswer : Bytes := [0, 7, 129, 128, 0, 1, 0, 0, 0, 0, 0, 0, 1, 98, 0, 0, 1, 0, 1]

/-- The answer to the first query comes while the worker waits for one to the second, and is not
taken for it. -/
theorem first_match_decides_reusedRun :
    let pool := (start [⟨.v4 (.ofOctets 192 0 2 1), 53, 0⟩] 1).play reusedRun
    let later := pool.play [.hear 0 (.datagram lateAnswer)]
    pool.Waits 0 1 laterQuery ∧ later.Waits 0 1 laterQuery ∧
      (later.hear 0 (.datagram timelyAnswer)).queries.map (·.replies) =
        [[.servFail], [.answer timelyAnswer]] := by
  intro pool later
  obtain ⟨request, hparse⟩ : ∃ request, Request.parse laterQuery = .ok request := ⟨_, rfl⟩
  have hwaits : pool.Waits 0 1 laterQuery := by decide
  have hvain : ∀ arrival ∈ heardBy 0 [.hear 0 (.datagram lateAnswer)],
      Exchange.IsVain request arrival := by
    intro arrival harrival
    cases List.mem_singleton.mp harrival
    cases hparse
    exact .datagram (by decide)
  have hdecides : Exchange.Decides ⟨.v4 (.ofOctets 192 0 2 1), 53, 0⟩ request
      (.datagram timelyAnswer) (.ok timelyAnswer) := by
    cases hparse
    exact .answered (by decide) rfl (by decide)
  obtain ⟨hlater, -, hanswer, -⟩ := ((first_match_decides hparse).2.2.2
    [⟨.v4 (.ofOctets 192 0 2 1), 53, 0⟩] 1 reusedRun).1 0 1 _ hwaits hvain
  refine ⟨hwaits, hlater, ?_⟩
  rw [hanswer _ _ _ hdecides]
  decide

end Pool

end Nameserver

import Mathlib
import Nameserver.Forwarding.Pool

/-!
# How a forwarded query stands

The pool is a picture of all workers and all queries.  What decides about the replies to *one* query
is much less: the query itself, which parts in it are still to be counted off, who is asking for the
right to reply, and how the parts that are over have ended.  That is its `Standing`.

**From actions to changes.**  `Pool.standing_act` says what an action in the pool can do to the
standing of one query: one of the few things that `Standing.Change` lists.  Everything about replies
is proved of these changes and never of the pool again.

**Parts.**  Every worker has one part in every query.  It ends when the worker's queue refuses the
query, when the worker finds it answered, or with an exchange; a part that ends without an answer is
counted off later.  `Pool.endings` lists the parts that end when actions are taken.
-/

namespace Nameserver

/-- How a worker's part in a query ends. -/
inductive Outcome where
  /-- The queue of the worker was full or closed. -/
  | refused
  /-- The exchange has brought nothing that can be passed on. -/
  | failed
  /-- Someone had replied before the worker came to the query. -/
  | late
  /-- The exchange has brought an answer. -/
  | answered
deriving DecidableEq, Repr

/-- The end of a worker's part in a query. -/
structure Ending where
  query : Nat
  worker : Nat
  outcome : Outcome
deriving DecidableEq, Repr

/-- The query that a worker is busy with. -/
def Activity.query? : Activity → Option Nat
  | .holding query | .waiting query | .failing query | .claiming query => some query
  | .idle | .stopped => none

namespace Worker

/-- How many copies of a query a worker has that wait, or that it works on. -/
def copies (query : Nat) (worker : Worker) : Nat :=
  worker.queue.count query +
    if worker.activity = .holding query ∨ worker.activity = .waiting query then 1 else 0

/-- How many copies of a query a worker has to count off. -/
def failures (query : Nat) (worker : Worker) : Nat :=
  if worker.activity = .failing query then 1 else 0

/-- How often a worker claims the right to reply to a query. -/
def claims (query : Nat) (worker : Worker) : Nat :=
  if worker.activity = .claiming query then 1 else 0

end Worker

namespace Pool

/-- The part that an action ends, if it ends one. -/
def ending? (pool : Pool) : Action → Option Ending
  | .offer query =>
    match pool.queries[query]? with
    | some q =>
      match q.caller, pool.workers[q.asked]? with
      | .asking, some worker =>
        if worker.accepts pool.depth then none else some ⟨query, q.asked, .refused⟩
      | _, _ => none
    | none => none
  | .look worker =>
    match pool.workers[worker]? with
    | some { activity := .holding query, .. } =>
      match pool.queries[query]? with
      | some q => if q.ticket.redeemed then some ⟨query, worker, .late⟩ else none
      | none => none
    | _ => none
  | .hear worker arrival =>
    match pool.workers[worker]? with
    | some { forwarder, activity := .waiting query, .. } =>
      match pool.queries[query]? with
      | some q =>
        match Exchange.ending? forwarder q.query arrival with
        | none => none
        | some (.ok _) => some ⟨query, worker, .answered⟩
        | some (.error _) => some ⟨query, worker, .failed⟩
      | none => none
    | _ => none
  | _ => none

/-- The parts that end when actions are taken, in order. -/
def endings (pool : Pool) : List Action → List Ending
  | [] => []
  | action :: actions => (pool.ending? action).toList ++ (pool.act action).endings actions

/-- Whether an action ends a worker while queries wait for it.  These get lost. -/
def loses (pool : Pool) : Action → Bool
  | .stop worker =>
    match pool.workers[worker]? with
    | some { activity := .idle, queue, .. } => !queue.isEmpty
    | _ => false
  | _ => false

/-- Whether no action loses a query when they are taken one after the other. -/
def isLossless (pool : Pool) : List Action → Bool
  | [] => true
  | action :: actions => !pool.loses action && (pool.act action).isLossless actions

end Pool

/-- What workers have to do with a query. -/
structure Shares where
  /-- How many copies of it each worker has that wait, or that it works on. -/
  copies : List Nat
  /-- How many copies each worker has to count off. -/
  failures : List Nat
  /-- How often each worker claims the right to reply. -/
  claims : List Nat
  /-- The workers whose part in it is over, and how it ended. -/
  ended : List (Nat × Outcome)

/-- How a query stands. -/
structure Standing extends Shares where
  /-- The query, once it has come. -/
  query? : Option Forwarded

/-- What an action can do to the standing of a query. -/
inductive Standing.Change (s : Standing) : Standing → Prop where
  | same : Change s s
  | enter (query : Bytes) (hnone : s.query? = none) :
    Change s { s with query? := some (.ofQuery query s.copies.length) }
  /-- The next worker takes a copy. -/
  | accept {q : Forwarded} {n : Nat} (hq : s.query? = some q) (hcaller : q.caller = .asking)
      (hcopies : s.copies[q.asked]? = some n) :
    Change s
      { s with query? := some q.accept, copies := s.copies.set q.asked (n + 1) }
  | refuse {q : Forwarded} (hq : s.query? = some q) (hcaller : q.caller = .asking)
      (hasked : q.asked < s.copies.length) :
    Change s
      { s with query? := some q.refuse, ended := s.ended ++ [(q.asked, .refused)] }
  /-- The caller counts off the part of the worker that has refused. -/
  | countRefusal {q : Forwarded} (hq : s.query? = some q) (hcaller : q.caller = .refused) :
    Change s { s with query? := some q.countRefusal }
  /-- The caller asks for the right to reply. -/
  | claimRefusal {q : Forwarded} (hq : s.query? = some q) (hcaller : q.caller = .claiming) :
    Change s { s with query? := some q.claimRefusal }
  /-- The caller sees whether it has to reply. -/
  | settle {q : Forwarded} (hq : s.query? = some q) (hasked : q.asked = s.copies.length)
      (hcaller : q.caller = .asking) :
    Change s { s with query? := some q.settle }
  /-- A worker finds the query answered. -/
  | late {q : Forwarded} {w n m : Nat} (hq : s.query? = some q)
      (hcopy : s.copies[w]? = some (n + 1)) (hfailure : s.failures[w]? = some m)
      (hredeemed : q.ticket.redeemed = true) :
    Change s
      { s with
        copies := s.copies.set w n
        failures := s.failures.set w (m + 1)
        ended := s.ended ++ [(w, .late)] }
  /-- The exchange of a worker fails. -/
  | fail {q : Forwarded} {w n m : Nat} (hq : s.query? = some q)
      (hcopy : s.copies[w]? = some (n + 1)) (hfailure : s.failures[w]? = some m) :
    Change s
      { s with
        copies := s.copies.set w n
        failures := s.failures.set w (m + 1)
        ended := s.ended ++ [(w, .failed)] }
  /-- The exchange of a worker brings an answer. -/
  | answer {q : Forwarded} {w n : Nat} (datagram : Bytes) (hq : s.query? = some q)
      (hcopy : s.copies[w]? = some (n + 1)) :
    Change s
      { s with
        query? := some (q.answer datagram)
        copies := s.copies.set w n
        ended := s.ended ++ [(w, .answered)] }
  /-- A worker counts off its part. -/
  | countFailure {q : Forwarded} {w n : Nat} (hq : s.query? = some q)
      (hfailure : s.failures[w]? = some (n + 1)) (hclaim : s.claims[w]? = some 0) :
    Change s
      { s with
        query? := some q.countFailure
        failures := s.failures.set w n
        claims := s.claims.set w (if q.ticket.countOff.1 then 1 else 0) }
  /-- A worker claims the right to reply. -/
  | claimFailure {q : Forwarded} {w n : Nat} (hq : s.query? = some q)
      (hclaim : s.claims[w]? = some (n + 1)) :
    Change s { s with query? := some q.claimFailure, claims := s.claims.set w n }

/-! ## Actions are changes -/

namespace Pool

variable {pool : Pool} {past : List Ending} {i w k : Nat}

/-- How a query stands after some parts have ended. -/
def standing (pool : Pool) (past : List Ending) (i : Nat) : Standing where
  query? := pool.queries[i]?
  copies := pool.workers.map (Worker.copies i)
  failures := pool.workers.map (Worker.failures i)
  claims := pool.workers.map (Worker.claims i)
  ended := past.filterMap fun e => if e.query = i then some (e.worker, e.outcome) else none

/-- Whether the workers of two pools have the same to do with a query. -/
def SameShares (pool' pool : Pool) (i : Nat) : Prop :=
  ∀ share ∈ [Worker.copies i, Worker.failures i, Worker.claims i],
    pool'.workers.map share = pool.workers.map share

/-- A query that nobody touches stands as before, when no worker's share in it changes. -/
lemma standing_same {pool' : Pool} {past' : List Ending}
    (hq : pool'.queries[i]? = pool.queries[i]?) (hshares : pool'.SameShares pool i)
    (he : ∀ e ∈ past', e.query ≠ i) :
    (pool.standing past i).Change (pool'.standing (past ++ past') i) := by
  have hnone : past'.filterMap
      (fun e => if e.query = i then some (e.worker, e.outcome) else none) = [] :=
    List.filterMap_eq_nil_iff.2 fun e he' => if_neg (he e he')
  simp only [SameShares, List.forall_mem_cons, List.not_mem_nil, false_implies, implies_true,
    and_true] at hshares
  obtain ⟨hcopies, hfailures, hclaims⟩ := hshares
  have hsame : pool'.standing (past ++ past') i = pool.standing past i := by
    simp only [standing, hq, hcopies, hfailures, hclaims, List.filterMap_append, hnone,
      List.append_nil]
  rw [hsame]
  exact .same

/-- The same for an action that ends no part. -/
lemma standing_kept {pool' : Pool} (hq : pool'.queries[i]? = pool.queries[i]?)
    (hshares : pool'.SameShares pool i) :
    (pool.standing past i).Change (pool'.standing past i) := by
  have hsame : (pool.standing past i).Change (pool'.standing (past ++ []) i) :=
    standing_same hq hshares (by simp)
  rwa [List.append_nil] at hsame

/-- What is read off the workers after one of them has changed. -/
lemma map_modify {worker : Worker} {f : Worker → Worker} (share : Worker → Nat)
    (hw : pool.workers[w]? = some worker) :
    (pool.workers.modify w f).map share = (pool.workers.map share).set w (share (f worker)) := by
  obtain ⟨hlt, rfl⟩ := List.getElem?_eq_some_iff.1 hw
  refine List.ext_getElem? fun n => ?_
  simp only [List.getElem?_map, List.getElem?_modify, List.getElem?_set, List.length_map]
  rcases eq_or_ne w n with rfl | hn
  · simp [hlt]
  · simp [hn]

lemma set_same {ns : List Nat} {n : Nat} (hn : ns[w]? = some n) : ns.set w n = ns := by
  obtain ⟨hlt, rfl⟩ := List.getElem?_eq_some_iff.1 hn
  exact List.set_getElem_self hlt

lemma map_modify_same {worker : Worker} {f : Worker → Worker} {share : Worker → Nat}
    (hw : pool.workers[w]? = some worker) (hshare : share (f worker) = share worker) :
    (pool.workers.modify w f).map share = pool.workers.map share := by
  rw [map_modify share hw, hshare]
  exact set_same (by simp [hw])

/-- A worker that keeps its share in a query keeps all shares. -/
lemma sameShares_modify {worker : Worker} {f : Worker → Worker}
    (hw : pool.workers[w]? = some worker) (hcopies : (f worker).copies i = worker.copies i)
    (hfailures : (f worker).failures i = worker.failures i)
    (hclaims : (f worker).claims i = worker.claims i) :
    (pool.modifyWorker w f).SameShares pool i := by
  simp only [SameShares, List.forall_mem_cons, List.not_mem_nil, false_implies, implies_true,
    and_true]
  exact ⟨map_modify_same hw hcopies, map_modify_same hw hfailures, map_modify_same hw hclaims⟩

lemma standing_enter {query : Bytes} :
    (pool.standing past i).Change ((pool.enter query).standing past i) := by
  rcases lt_trichotomy i pool.queries.length with hi | rfl | hi
  · exact standing_kept (List.getElem?_append_left hi) fun _ _ => rfl
  · have hnone : (pool.standing past pool.queries.length).query? = none := by simp [standing]
    have hnew := Standing.Change.enter query hnone
    simpa [standing, enter] using hnew
  · refine standing_kept ?_ fun _ _ => rfl
    have hlen : pool.queries.length + 1 ≤ i := hi
    simp [enter, List.getElem?_eq_none, hlen, hi.le]

/-- A query that is put into the queue of a worker is one more copy of it. -/
lemma copies_enqueue (worker : Worker) (i k : Nat) :
    Worker.copies i { worker with queue := worker.queue ++ [k] }
      = worker.copies i + if k = i then 1 else 0 := by
  simp only [Worker.copies, List.count_append, List.count_singleton, beq_iff_eq]
  omega

lemma standing_offer :
    (pool.standing past i).Change
      ((pool.offer k).standing (past ++ (pool.ending? (.offer k)).toList) i) := by
  cases hq : pool.queries[k]? with
  | none => simpa [offer, ending?, hq] using .same
  | some q =>
    cases hw : pool.workers[q.asked]? with
    | none => simpa [offer, ending?, hq, hw] using .same
    | some worker =>
      cases hcaller : q.caller
      case asking =>
        have hcopy : (pool.standing past k).copies[q.asked]? = some (worker.copies k) := by
          simp [standing, hw]
        cases haccepts : worker.accepts pool.depth with
        | true =>
          simp only [offer, ending?, hq, hw, hcaller, haccepts, if_true]
          rcases eq_or_ne k i with rfl | hk
          · have hcopies := map_modify (f := fun v => { v with queue := v.queue ++ [k] })
              (Worker.copies k) hw
            have hfailures : (pool.workers.modify q.asked
                fun v => { v with queue := v.queue ++ [k] }).map (Worker.failures k)
                  = pool.workers.map (Worker.failures k) := map_modify_same hw rfl
            have hclaims : (pool.workers.modify q.asked
                fun v => { v with queue := v.queue ++ [k] }).map (Worker.claims k)
                  = pool.workers.map (Worker.claims k) := map_modify_same hw rfl
            rw [copies_enqueue, if_pos rfl] at hcopies
            have haccept := Standing.Change.accept (s := pool.standing past k) hq hcaller hcopy
            simpa [standing, modifyQuery, modifyWorker, hq, hcopies, hfailures, hclaims]
              using haccept
          · refine standing_same ?_ ?_ (by simp)
            · simp [modifyQuery, modifyWorker, hk]
            · exact sameShares_modify hw (by simp [copies_enqueue, hk]) rfl rfl
        | false =>
          simp only [offer, ending?, hq, hw, hcaller, haccepts, Bool.false_eq_true, if_false]
          rcases eq_or_ne k i with rfl | hk
          · have hlt := (List.getElem?_eq_some_iff.1 hcopy).1
            have hrefuse := Standing.Change.refuse (s := pool.standing past k) hq hcaller hlt
            simpa [standing, modifyQuery, hq] using hrefuse
          · exact standing_same (by simp [modifyQuery, hk]) (fun _ _ => rfl) (by simpa using hk)
      all_goals simpa [offer, ending?, hq, hw, hcaller] using .same

/-- What a caller does to its query changes the standing of that query only. -/
lemma standing_modifyQuery {q : Forwarded} {f : Forwarded → Forwarded}
    (hq : pool.queries[k]? = some q)
    (hchange : ∀ s : Standing, s.query? = some q → s.copies.length = pool.workers.length →
      s.Change { s with query? := some (f q) }) :
    (pool.standing past i).Change ((pool.modifyQuery k f).standing past i) := by
  rcases eq_or_ne k i with rfl | hk
  · have hown := hchange (pool.standing past k) hq (by simp [standing])
    simpa [standing, modifyQuery, hq] using hown
  · exact standing_kept (by simp [modifyQuery, hk]) fun _ _ => rfl

lemma standing_countRefusal :
    (pool.standing past i).Change ((pool.countRefusal k).standing past i) := by
  cases hq : pool.queries[k]? with
  | none => simpa [countRefusal, hq] using .same
  | some q =>
    by_cases hcaller : q.caller = .refused
    · simp only [countRefusal, hq, if_pos hcaller]
      exact standing_modifyQuery hq fun s hs _ => .countRefusal hs hcaller
    · simpa only [countRefusal, hq, if_neg hcaller] using .same

lemma standing_claimRefusal :
    (pool.standing past i).Change ((pool.claimRefusal k).standing past i) := by
  cases hq : pool.queries[k]? with
  | none => simpa [claimRefusal, hq] using .same
  | some q =>
    by_cases hcaller : q.caller = .claiming
    · simp only [claimRefusal, hq, if_pos hcaller]
      exact standing_modifyQuery hq fun s hs _ => .claimRefusal hs hcaller
    · simpa only [claimRefusal, hq, if_neg hcaller] using .same

lemma standing_settle :
    (pool.standing past i).Change ((pool.settle k).standing past i) := by
  cases hq : pool.queries[k]? with
  | none => simpa [settle, hq] using .same
  | some q =>
    by_cases h : q.asked = pool.workers.length ∧ q.caller = .asking
    · simp only [settle, hq, if_pos h]
      exact standing_modifyQuery hq fun s hs hlength => .settle hs (h.1.trans hlength.symm) h.2
    · simpa only [settle, hq, if_neg h] using .same

lemma standing_take : (pool.standing past i).Change ((pool.take w).standing past i) := by
  simp only [take]
  split
  · rename_i forwarder k queue hw
    refine standing_kept rfl (sameShares_modify hw ?_ ?_ ?_)
    · simp [Worker.copies, List.count_cons]
    · simp [Worker.failures]
    · simp [Worker.claims]
  · exact .same

/-- What a worker that is busy with a query does changes the standing of that query only. -/
lemma standing_turn {worker : Worker} {q : Forwarded} (past : List Ending) (i : Nat)
    (activity : Activity) (f : Forwarded → Forwarded) (outcomes : List Outcome)
    (hw : pool.workers[w]? = some worker) (hq : pool.queries[k]? = some q)
    (hold : worker.activity.query? = some k) (hnew : ∀ j, k ≠ j → activity.query? ≠ some j)
    (hchange : ∀ s : Standing, s.query? = some q → s.copies[w]? = some (worker.copies k) →
      s.failures[w]? = some (worker.failures k) → s.claims[w]? = some (worker.claims k) →
      s.Change
        { query? := some (f q)
          copies := s.copies.set w (Worker.copies k { worker with activity })
          failures := s.failures.set w (Worker.failures k { worker with activity })
          claims := s.claims.set w (Worker.claims k { worker with activity })
          ended := s.ended ++ outcomes.map fun outcome => (w, outcome) }) :
    (pool.standing past i).Change
      (((pool.turn w activity).modifyQuery k f).standing
        (past ++ outcomes.map fun outcome => ⟨k, w, outcome⟩) i) := by
  rcases eq_or_ne k i with rfl | hk
  · have hown := hchange (pool.standing past k) hq (by simp [standing, hw])
      (by simp [standing, hw]) (by simp [standing, hw])
    have hended : (outcomes.map fun outcome => (⟨k, w, outcome⟩ : Ending)).filterMap
        (fun e => if e.query = k then some (e.worker, e.outcome) else none)
          = outcomes.map fun outcome => (w, outcome) := by
      rw [List.filterMap_map]
      simp
    have hshare (share : Worker → Nat) := map_modify (f := fun v => { v with activity }) share hw
    simpa [standing, modifyQuery, turn, modifyWorker, hq, hshare, hended] using hown
  · have hother : ∀ a : Activity, a.query? ≠ some i →
        a ≠ .holding i ∧ a ≠ .waiting i ∧ a ≠ .failing i ∧ a ≠ .claiming i := by
      intro a ha
      refine ⟨?_, ?_, ?_, ?_⟩ <;> rintro rfl <;> exact ha rfl
    obtain ⟨ho₁, ho₂, ho₃, ho₄⟩ := hother worker.activity (by simp [hold, hk])
    obtain ⟨hn₁, hn₂, hn₃, hn₄⟩ := hother activity (hnew i hk)
    refine standing_same ?_ (sameShares_modify hw ?_ ?_ ?_) (by simp [hk])
    · simp [modifyQuery, turn, modifyWorker, hk]
    · simp [Worker.copies, ho₁, ho₂, hn₁, hn₂]
    · simp [Worker.failures, ho₃, hn₃]
    · simp [Worker.claims, ho₄, hn₄]

lemma standing_look :
    (pool.standing past i).Change
      ((pool.look w).standing (past ++ (pool.ending? (.look w)).toList) i) := by
  rcases hw : pool.workers[w]? with _ | ⟨forwarder, queue, _ | k | _ | _ | _ | _⟩
  case some.holding =>
    cases hq : pool.queries[k]? with
    | none => simpa [look, ending?, hw, hq] using .same
    | some q =>
      cases hredeemed : q.ticket.redeemed with
      | true =>
        have hlate := standing_turn past i (.failing k) id [.late] hw hq rfl
          (by simp [Activity.query?]) ?_
        · rw [modifyQuery, List.modify_id] at hlate
          simpa [look, ending?, hw, hq, hredeemed] using hlate
        · intro s hs hcopy hfailure hclaim
          simp only [Worker.copies, Worker.failures, Worker.claims, true_or, if_true, if_false,
            or_self, reduceCtorEq, add_zero] at hcopy hfailure hclaim ⊢
          rw [set_same hclaim, id, ← hs]
          exact .late hs hcopy hfailure hredeemed
      | false =>
        have hsend := standing_turn past i (.waiting k) id [] hw hq rfl
          (by simp [Activity.query?]) ?_
        · rw [modifyQuery, List.modify_id] at hsend
          simpa [look, ending?, hw, hq, hredeemed] using hsend
        · intro s hs hcopy hfailure hclaim
          simp only [Worker.copies, Worker.failures, Worker.claims, true_or, or_true, if_true,
            if_false, reduceCtorEq] at hcopy hfailure hclaim ⊢
          rw [set_same hcopy, set_same hfailure, set_same hclaim, id, ← hs]
          simpa using .same
  all_goals simpa [look, ending?, hw] using .same

lemma standing_hear {arrival : Arrival} :
    (pool.standing past i).Change
      ((pool.hear w arrival).standing (past ++ (pool.ending? (.hear w arrival)).toList) i) := by
  rcases hw : pool.workers[w]? with _ | ⟨forwarder, queue, _ | _ | k | _ | _ | _⟩
  case some.waiting =>
    cases hq : pool.queries[k]? with
    | none => simpa [hear, ending?, hw, hq] using .same
    | some q =>
      rcases he : Exchange.ending? forwarder q.query arrival with _ | _ | datagram
      · simpa [hear, ending?, hw, hq, he] using .same
      · have hfail := standing_turn past i (.failing k) id [.failed] hw hq rfl
          (by simp [Activity.query?]) ?_
        · rw [modifyQuery, List.modify_id] at hfail
          simpa [hear, ending?, hw, hq, he] using hfail
        · intro s hs hcopy hfailure hclaim
          simp only [Worker.copies, Worker.failures, Worker.claims, or_true, if_true, if_false,
            or_self, reduceCtorEq, add_zero] at hcopy hfailure hclaim ⊢
          rw [set_same hclaim, id, ← hs]
          exact .fail hs hcopy hfailure
      · have hanswer := standing_turn past i .idle (·.answer datagram) [.answered] hw hq rfl
          (by simp [Activity.query?]) ?_
        · simpa [hear, ending?, hw, hq, he] using hanswer
        · intro s hs hcopy hfailure hclaim
          simp only [Worker.copies, Worker.failures, Worker.claims, or_true, if_true, if_false,
            or_self, reduceCtorEq, add_zero] at hcopy hfailure hclaim ⊢
          rw [set_same hfailure, set_same hclaim]
          exact .answer datagram hs hcopy
  all_goals simpa [hear, ending?, hw] using .same

lemma standing_countFailure :
    (pool.standing past i).Change ((pool.countFailure w).standing past i) := by
  rcases hw : pool.workers[w]? with _ | ⟨forwarder, queue, _ | _ | _ | k | _ | _⟩
  case some.failing =>
    cases hq : pool.queries[k]? with
    | none => simpa [countFailure, hw, hq] using .same
    | some q =>
      have hcount := standing_turn past i
        (if q.ticket.countOff.1 then .claiming k else .idle) .countFailure [] hw hq rfl ?_ ?_
      · simpa [countFailure, hw, hq] using hcount
      · cases q.ticket.countOff.1 <;> simp [Activity.query?]
      · intro s hs hcopy hfailure hclaim
        have hchange := Standing.Change.countFailure (n := 0) hs (by simpa [Worker.failures]
          using hfailure) (by simpa [Worker.claims] using hclaim)
        simp only [Worker.copies, Worker.failures, Worker.claims, if_false, or_self,
          reduceCtorEq, add_zero] at hcopy ⊢
        cases hlast : q.ticket.countOff.1 <;>
          simpa [hlast, set_same hcopy] using hchange
  all_goals simpa [countFailure, hw] using .same

lemma standing_claimFailure :
    (pool.standing past i).Change ((pool.claimFailure w).standing past i) := by
  rcases hw : pool.workers[w]? with _ | ⟨forwarder, queue, _ | _ | _ | _ | k | _⟩
  case some.claiming =>
    cases hq : pool.queries[k]? with
    | none => simpa [claimFailure, hw, hq] using .same
    | some q =>
      have hclaim := standing_turn past i .idle .claimFailure [] hw hq rfl
        (by simp [Activity.query?]) ?_
      · simpa [claimFailure, hw, hq] using hclaim
      · intro s hs hcopy hfailure hclaim
        simp only [Worker.copies, Worker.failures, Worker.claims, if_true, if_false, or_self,
          reduceCtorEq, add_zero] at hcopy hfailure hclaim ⊢
        rw [set_same hcopy, set_same hfailure]
        simpa using Standing.Change.claimFailure (n := 0) hs hclaim
  all_goals simpa [claimFailure, hw] using .same

lemma standing_stop (hloses : pool.loses (.stop w) = false) :
    (pool.standing past i).Change ((pool.stop w).standing past i) := by
  rcases hw : pool.workers[w]? with _ | ⟨forwarder, queue, _ | _ | _ | _ | _ | _⟩
  case some.idle =>
    have hqueue : queue = [] := by simpa [loses, hw] using hloses
    simp only [stop, hw]
    refine standing_kept rfl (sameShares_modify hw ?_ ?_ ?_)
    · simp [Worker.copies, hqueue]
    · simp [Worker.failures]
    · simp [Worker.claims]
  all_goals simpa only [stop, hw] using .same

/-- **An action changes the standing of a query in one of a few ways**, as long as it loses none. -/
theorem standing_act {action : Action} (hloses : pool.loses action = false) :
    (pool.standing past i).Change
      ((pool.act action).standing (past ++ (pool.ending? action).toList) i) := by
  cases action with
  | enter query => simpa [act, ending?] using standing_enter
  | offer k => exact standing_offer
  | countRefusal k => simpa [act, ending?] using standing_countRefusal
  | claimRefusal k => simpa [act, ending?] using standing_claimRefusal
  | settle k => simpa [act, ending?] using standing_settle
  | take w => simpa [act, ending?] using standing_take
  | look w => exact standing_look
  | hear w arrival => exact standing_hear
  | countFailure w => simpa [act, ending?] using standing_countFailure
  | claimFailure w => simpa [act, ending?] using standing_claimFailure
  | stop w => simpa [act, ending?] using standing_stop hloses

end Pool

end Nameserver

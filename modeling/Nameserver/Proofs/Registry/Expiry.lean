import Mathlib
import Nameserver.Proofs.Registry.Postings
import Nameserver.Session.MailKey

/-!
# How long mail keys are kept

A `Timeline` is a registry of mail keys with its clock, the sweepers that are at work on it, and a
log of all that was done to it.  Its events are announcements, whether they come as calls or in
frames, look-ups, sweeps, sweepers that start or stop, and time that passes.

**One invariant.**  `Timeline.IsSound` says what a registry has in terms of the log alone: for every
provider the key of its latest announcement, unless a sweep has come when that was too old.  It is
kept by every event (`Timeline.IsSound.step`) and so holds after all runs.

**Sweepers.**  A sweeper takes its turns at fixed times (`Sweeper.turns`), the first when it starts.
A registry does not tell in which order sweeps were made (`MailKeyRegistry.get?_sweptAll`), so their
times are all that is needed of them.

The result is `Timeline.keeps_latest`.
-/

namespace Nameserver

namespace Table

variable {α β : Type} [DecidableEq α] {t : Table α β}

omit [DecidableEq α] in
lemma IsKeyed.filter (h : t.IsKeyed) (P : α × β → Bool) : Table.IsKeyed (t.filter P) :=
  h.sublist (List.filter_sublist.map _)

/-- Of values that are filtered, each is found as before or not at all. -/
lemma IsKeyed.get?_filter (h : t.IsKeyed) (P : β → Bool) (k : α) :
    get? (t.filter fun e => P e.2) k = (get? t k).filter P := by
  ext v
  rw [← (h.filter _).mem_iff, List.mem_filter, h.mem_iff, Option.filter_eq_some_iff]

end Table

namespace MailKeyRegistry

variable {registry : MailKeyRegistry} {key : MailKey} {interval time : Nat} {p : Text}

/-- The key was announced more than five refresh intervals before this time.  What 64 bits of
seconds cannot count is never over. -/
def Outlives (interval time : Nat) (key : MailKey) : Prop :=
  5 * interval < 2 ^ 64 * second ∧ key.announced + 5 * interval < time

lemma isFresh_iff : registry.isFresh time key = true ↔
    ¬ Outlives registry.refreshInterval time key := by
  have hage : registry.refreshInterval * expiryIntervals = 5 * registry.refreshInterval :=
    Nat.mul_comm ..
  have hlimit : 5 * registry.refreshInterval / second < UInt64.size ↔
      5 * registry.refreshInterval < 2 ^ 64 * second := Nat.div_lt_iff_lt_mul (by decide)
  simp only [isFresh, maxAge?, Outlives, hage, hlimit]
  split
  · rename_i age hlimited
    split_ifs at hlimited with hfinite
    cases hlimited
    simp only [hfinite, true_and, decide_eq_true_eq]
    omega
  · rename_i hunlimited
    split_ifs at hunlimited with hfinite
    exact iff_of_true rfl fun hover => hfinite hover.1

/-! ## Sweeps -/

/-- The registry after a sweep. -/
def swept (registry : MailKeyRegistry) (time : Nat) : MailKeyRegistry := (registry.sweep time).2

@[simp] lemma refreshInterval_swept : (registry.swept time).refreshInterval =
    registry.refreshInterval := rfl

lemma isKeyed_swept (h : registry.keys.IsKeyed) (time : Nat) :
    (registry.swept time).keys.IsKeyed := h.filter _

lemma get?_swept (h : registry.keys.IsKeyed) : (registry.swept time).keys.get? p = some key ↔
    registry.keys.get? p = some key ∧ ¬ Outlives registry.refreshInterval time key := by
  rw [← isFresh_iff, swept, sweep, h.get?_filter, Option.filter_eq_some_iff]

/-- A sweep counts what it removes, and leaves everything else as it is. -/
lemma sweep_counts (h : registry.keys.IsKeyed) (time : Nat) :
    ∃ gone : Finset Text, (registry.sweep time).1 = gone.card ∧
      ∀ p, (p ∈ gone ↔ registry.keys.get? p ≠ none ∧ (registry.swept time).keys.get? p = none) ∧
        (p ∉ gone → (registry.swept time).keys.get? p = registry.keys.get? p) := by
  set old := registry.keys.filter fun e => !registry.isFresh time e.2 with hold
  have hkeyed : Table.IsKeyed old := h.filter _
  have hget (p : Text) : (registry.swept time).keys.get? p =
      (registry.keys.get? p).filter (registry.isFresh time) := h.get?_filter _ p
  have hmem (p : Text) : p ∈ old.map Prod.fst ↔
      ∃ key, registry.keys.get? p = some key ∧ registry.isFresh time key = false := by
    simp [hold, h.mem_iff]
  refine ⟨(old.map Prod.fst).toFinset, ?_, fun p => ?_⟩
  · rw [List.toFinset_card_of_nodup hkeyed, List.length_map, sweep,
      List.length_eq_length_filter_add (l := registry.keys) fun e => registry.isFresh time e.2]
    exact Nat.add_sub_cancel_left _ _
  · rw [List.mem_toFinset, hmem, hget]
    cases registry.keys.get? p with
    | none => simp
    | some key => cases hfresh : registry.isFresh time key <;> simp [hfresh]

/-- The registry after sweeps at these times. -/
def sweptAll (registry : MailKeyRegistry) (times : List Nat) : MailKeyRegistry :=
  times.foldl swept registry

lemma sweptAll_cons (times : List Nat) :
    registry.sweptAll (time :: times) = (registry.swept time).sweptAll times := rfl

lemma sweptAll_append (times times' : List Nat) :
    registry.sweptAll (times ++ times') = (registry.sweptAll times).sweptAll times' :=
  List.foldl_append

@[simp] lemma refreshInterval_sweptAll (times : List Nat) :
    (registry.sweptAll times).refreshInterval = registry.refreshInterval := by
  induction times generalizing registry with
  | nil => rfl
  | cons time times ih => exact ih

lemma isKeyed_sweptAll (h : registry.keys.IsKeyed) (times : List Nat) :
    (registry.sweptAll times).keys.IsKeyed := by
  induction times generalizing registry with
  | nil => exact h
  | cons time times ih => exact ih (isKeyed_swept h time)

/-- In whatever order sweeps come, they leave the keys that none of them finds too old. -/
lemma get?_sweptAll (h : registry.keys.IsKeyed) (times : List Nat) :
    (registry.sweptAll times).keys.get? p = some key ↔
      registry.keys.get? p = some key ∧
        ∀ time ∈ times, ¬ Outlives registry.refreshInterval time key := by
  induction times generalizing registry with
  | nil => simp [sweptAll]
  | cons time times ih =>
      rw [sweptAll_cons, ih (isKeyed_swept h time), get?_swept h, refreshInterval_swept,
        List.forall_mem_cons, and_assoc]

end MailKeyRegistry

/-! ## Sweepers -/

namespace Sweeper

open MailKeyRegistry

variable {sweeper : Sweeper} {now stop : Nat}

/-- When a sweeper takes its turns up to the time `stop`. -/
def turns (sweeper : Sweeper) (now stop : Nat) : List Nat :=
  (List.range ((stop + interval - sweeper.due) / interval)).map fun n =>
    max now (sweeper.due + n * interval)

lemma interval_pos : 0 < interval := by decide

lemma turns_eq_nil (h : stop < sweeper.due) : sweeper.turns now stop = [] := by
  have hpos := interval_pos
  have hnone : (stop + interval - sweeper.due) / interval = 0 := Nat.div_eq_of_lt (by omega)
  rw [turns, hnone]
  rfl

lemma turns_eq_cons (h : sweeper.due ≤ stop) : sweeper.turns now stop =
    max now sweeper.due :: sweeper.next.turns (max now sweeper.due) stop := by
  have hcount : (stop + interval - sweeper.due) / interval =
      (stop + interval - sweeper.next.due) / interval + 1 := by
    rw [← Nat.add_div_right _ interval_pos, next]
    congr 1
    dsimp only
    omega
  rw [turns, turns, hcount, List.range_succ_eq_map, List.map_cons, List.map_map, Nat.zero_mul,
    Nat.add_zero]
  congr 1
  refine List.map_congr_left fun n _ => ?_
  simp only [Function.comp_apply, next, Nat.succ_mul]
  omega

lemma mem_turns_le {time : Nat} (hnow : now ≤ stop) (h : time ∈ sweeper.turns now stop) :
    time ≤ stop := by
  obtain ⟨n, hn, rfl⟩ := List.mem_map.mp h
  have hle : (n + 1) * interval ≤ stop + interval - sweeper.due :=
    (Nat.le_div_iff_mul_le interval_pos).mp (List.mem_range.mp hn)
  have hpos := interval_pos
  rw [Nat.succ_mul] at hle
  omega

/-- What a sweeper does to a registry are its turns. -/
lemma runUntil_registry (sweeper : Sweeper) (registry : MailKeyRegistry) (now stop : Nat) :
    (sweeper.runUntil registry now stop).2 = registry.sweptAll (sweeper.turns now stop) := by
  fun_induction runUntil sweeper registry now stop with
  | case1 sweeper registry now hdue time ih =>
      rw [ih, turns_eq_cons hdue, sweptAll_cons]
      rfl
  | case2 sweeper registry now hdue =>
      rw [turns_eq_nil (not_le.mp hdue)]
      rfl

/-- Afterwards a sweeper waits for its next turn, one interval after the last if it has had one. -/
lemma runUntil_sweeper (registry : MailKeyRegistry) (stop : Nat) (h : now ≤ sweeper.due) :
    stop < (sweeper.runUntil registry now stop).1.due ∧
      ((sweeper.runUntil registry now stop).1 = sweeper ∨
        ∃ time ∈ sweeper.turns now stop,
          (sweeper.runUntil registry now stop).1.due = time + interval) := by
  fun_induction runUntil sweeper registry now stop with
  | case1 sweeper registry now hdue time ih =>
      have htime : time = sweeper.due := max_eq_right h
      have hpos := interval_pos
      obtain ⟨hstop, hturn⟩ := ih (by rw [htime, next]; dsimp only; omega)
      refine ⟨hstop, .inr ?_⟩
      rw [turns_eq_cons hdue]
      rcases hturn with hsame | ⟨turn, hmem, hturn⟩
      · refine ⟨time, List.mem_cons_self, ?_⟩
        rw [hsame, htime]
        rfl
      · exact ⟨turn, List.mem_cons_of_mem _ hmem, hturn⟩
  | case2 sweeper registry now hdue => exact ⟨not_le.mp hdue, .inl rfl⟩

lemma runAllUntil_registry (sweepers : List Sweeper) (registry : MailKeyRegistry) (now stop : Nat) :
    (runAllUntil sweepers registry now stop).2 =
      registry.sweptAll (sweepers.flatMap fun sweeper => sweeper.turns now stop) := by
  induction sweepers generalizing registry with
  | nil => rfl
  | cons sweeper sweepers ih =>
      rw [runAllUntil]
      dsimp only
      rw [ih, runUntil_registry, List.flatMap_cons, sweptAll_append]

lemma runAllUntil_sweepers {sweepers : List Sweeper} (registry : MailKeyRegistry)
    (h : ∀ sweeper ∈ sweepers, now ≤ sweeper.due) :
    ∀ sweeper' ∈ (runAllUntil sweepers registry now stop).1, stop < sweeper'.due ∧
      (sweeper' ∈ sweepers ∨
        ∃ time ∈ sweepers.flatMap fun sweeper => sweeper.turns now stop,
          sweeper'.due = time + interval) := by
  induction sweepers generalizing registry with
  | nil =>
      intro sweeper' hmem
      cases hmem
  | cons sweeper sweepers ih =>
      intro sweeper' hmem
      rw [runAllUntil] at hmem
      dsimp only at hmem
      rw [List.flatMap_cons]
      rcases List.mem_cons.mp hmem with rfl | hmem
      · obtain ⟨hstop, hturn⟩ := runUntil_sweeper registry stop (h _ List.mem_cons_self)
        refine ⟨hstop, ?_⟩
        rcases hturn with hsame | ⟨time, htime, hnext⟩
        · rw [hsame]
          exact .inl List.mem_cons_self
        · exact .inr ⟨time, List.mem_append_left _ htime, hnext⟩
      · obtain ⟨hstop, hturn⟩ :=
          ih _ (fun other hother => h other (List.mem_cons_of_mem _ hother)) sweeper' hmem
        refine ⟨hstop, ?_⟩
        rcases hturn with hsame | ⟨time, htime, hnext⟩
        · exact .inl (List.mem_cons_of_mem _ hsame)
        · exact .inr ⟨time, List.mem_append_right _ htime, hnext⟩

end Sweeper

/-! ## Timelines -/

/-- What is done to a registry. -/
inductive MailKeyRegistry.Deed where
  | store (provider publicKey : Text)
  | sweep
deriving DecidableEq, Repr

open MailKeyRegistry (Deed Outlives)

/-- A registry over time. -/
structure Timeline where
  now : Nat
  registry : MailKeyRegistry
  /-- The sweepers that are at work. -/
  sweepers : List Sweeper := []
  /-- All that was done, and when, the last first. -/
  log : List (Nat × Deed) := []

namespace Timeline

/-- What can happen to a registry. -/
inductive Event where
  | store (provider publicKey : Text)
  /-- A frame comes from a mail signer. -/
  | announce (payload : Bytes)
  /-- A key is looked up, which changes nothing. -/
  | lookup (provider : Text)
  | sweep
  | pass (duration : Nat)
  /-- Another sweeper starts, and takes its first turn. -/
  | watch
  /-- A sweeper stops. -/
  | rest (sweeper : Nat)
deriving DecidableEq, Repr

/-- The deeds that are sweeps at these times. -/
def sweepDeeds (times : List Nat) : List (Nat × Deed) := times.map fun time => (time, .sweep)

/-- What happens to the registry, and what the log has of it. -/
def step (t : Timeline) : Event → Timeline
  | .store provider publicKey =>
    { t with
      registry := t.registry.store t.now provider publicKey
      log := (t.now, .store provider publicKey) :: t.log }
  | .announce payload =>
    { t with
      registry := (t.registry.receive t.now payload).2
      log := match MailKeyAnnouncement.ofFrame payload with
        | .error _ => t.log
        | .ok announcement =>
          (t.now, .store announcement.provider announcement.publicKey) :: t.log }
  | .lookup _ => t
  | .sweep =>
    { t with registry := (t.registry.sweep t.now).2, log := (t.now, .sweep) :: t.log }
  | .pass duration =>
    let stop := t.now + duration
    let (sweepers, registry) := Sweeper.runAllUntil t.sweepers t.registry t.now stop
    { now := stop
      registry
      sweepers
      log := sweepDeeds (t.sweepers.flatMap fun sweeper => sweeper.turns t.now stop) ++ t.log }
  | .watch =>
    let (sweeper, registry) := (Sweeper.start t.now).runUntil t.registry t.now t.now
    { t with
      registry
      sweepers := sweeper :: t.sweepers
      log := sweepDeeds ((Sweeper.start t.now).turns t.now t.now) ++ t.log }
  | .rest sweeper => { t with sweepers := t.sweepers.eraseIdx sweeper }

/-- What becomes of a new registry. -/
def run (interval start : Nat) (events : List Event) : Timeline :=
  events.foldl step { now := start, registry := { refreshInterval := interval } }

/-- The key that a deed brings for a provider. -/
def keyFor? (p : Text) : Nat × Deed → Option MailKey
  | (time, .store provider publicKey) =>
    if provider.lower = p then some ⟨publicKey, time⟩ else none
  | (_, .sweep) => none

/-- The latest key that was announced for a provider, with the time of its announcement. -/
def latest? (t : Timeline) (p : Text) : Option MailKey := t.log.findSome? (keyFor? p)

/-- The times at which there were sweeps. -/
def sweeps (t : Timeline) : List Nat :=
  t.log.filterMap fun
    | (_, .store _ _) => none
    | (time, .sweep) => some time

variable {t : Timeline} {p : Text} {key : MailKey}

/-- What the log says about the registry and the sweepers. -/
structure IsSound (t : Timeline) : Prop where
  keyed : t.registry.keys.IsKeyed
  past : ∀ deed ∈ t.log, deed.1 ≤ t.now
  held : ∀ p key, t.registry.keys.get? p = some key ↔
    t.latest? p = some key ∧ ∀ time ∈ t.sweeps, ¬ Outlives t.registry.refreshInterval time key
  due : ∀ sweeper ∈ t.sweepers,
    t.now < sweeper.due ∧ ∃ time ∈ t.sweeps, sweeper.due = time + Sweeper.interval

/-! ## What the log says -/

lemma mem_sweeps {time : Nat} : time ∈ t.sweeps ↔ (time, .sweep) ∈ t.log := by
  rw [sweeps, List.mem_filterMap]
  constructor
  · rintro ⟨⟨_, _ | _⟩, hmem, heq⟩
    · cases heq
    · cases heq
      exact hmem
  · exact fun hmem => ⟨_, hmem, rfl⟩

lemma IsSound.sweep_le (h : t.IsSound) {time : Nat} (htime : time ∈ t.sweeps) : time ≤ t.now :=
  h.past _ (mem_sweeps.mp htime)

/-! ## What is kept -/

lemma latest?_step_store (t : Timeline) (provider publicKey : Text) :
    (t.step (.store provider publicKey)).latest? p =
      if provider.lower = p then some ⟨publicKey, t.now⟩ else t.latest? p := by
  simp only [step, latest?, List.findSome?_cons, keyFor?]
  split_ifs <;> rfl

/-- After an announcement. -/
lemma IsSound.announced (h : t.IsSound) (provider publicKey : Text) :
    (t.step (.store provider publicKey)).IsSound where
  keyed := h.keyed.insert _ _
  past := by
    intro deed hdeed
    rcases List.mem_cons.mp hdeed with rfl | hdeed
    · exact le_rfl
    · exact h.past deed hdeed
  held := by
    intro p key
    have hget : (t.step (.store provider publicKey)).registry.keys.get? p =
        if p = provider.lower then some ⟨publicKey, t.now⟩ else t.registry.keys.get? p :=
      Table.get?_insert ..
    rw [hget, latest?_step_store]
    by_cases hp : provider.lower = p
    · subst hp
      rw [if_pos rfl, if_pos rfl]
      refine ⟨fun heq => ⟨heq, ?_⟩, And.left⟩
      rintro time htime ⟨-, hlate⟩
      -- all sweeps so far were made by now
      cases heq
      have hle : time ≤ t.now := h.sweep_le htime
      dsimp only at hlate
      omega
    · rw [if_neg (Ne.symm hp), if_neg hp]
      exact h.held p key
  due := h.due

/-- The timeline at a later time, after sweeps, and with these sweepers at work. -/
def afterSweeps (t : Timeline) (now : Nat) (times : List Nat) (sweepers : List Sweeper) :
    Timeline where
  now := now
  registry := t.registry.sweptAll times
  sweepers := sweepers
  log := sweepDeeds times ++ t.log

lemma latest?_afterSweeps (now : Nat) (times : List Nat) (sweepers : List Sweeper) :
    (t.afterSweeps now times sweepers).latest? p = t.latest? p := by
  have hnone : (sweepDeeds times).findSome? (keyFor? p) = none := by
    simp [sweepDeeds, keyFor?]
  rw [latest?, afterSweeps, List.findSome?_append, hnone, Option.none_or, latest?]

lemma sweeps_afterSweeps (now : Nat) (times : List Nat) (sweepers : List Sweeper) :
    (t.afterSweeps now times sweepers).sweeps = times ++ t.sweeps := by
  simp [sweeps, afterSweeps, sweepDeeds, List.filterMap_append, List.filterMap_map]

/-- The sweepers have to wait for their turns, after those that they have had before or now. -/
lemma IsSound.afterSweeps (h : t.IsSound) {now : Nat} {times : List Nat} {sweepers : List Sweeper}
    (hnow : t.now ≤ now) (htimes : ∀ time ∈ times, time ≤ now)
    (hdue : ∀ sweeper ∈ sweepers, now < sweeper.due ∧
      (sweeper ∈ t.sweepers ∨ ∃ time ∈ times, sweeper.due = time + Sweeper.interval)) :
    (t.afterSweeps now times sweepers).IsSound where
  keyed := MailKeyRegistry.isKeyed_sweptAll h.keyed times
  past := by
    intro deed hdeed
    rcases List.mem_append.mp hdeed with hdeed | hdeed
    · obtain ⟨time, htime, rfl⟩ := List.mem_map.mp hdeed
      exact htimes time htime
    · exact (h.past deed hdeed).trans hnow
  held := by
    intro p key
    rw [latest?_afterSweeps, sweeps_afterSweeps, Timeline.afterSweeps,
      MailKeyRegistry.get?_sweptAll h.keyed, h.held, List.forall_mem_append,
      MailKeyRegistry.refreshInterval_sweptAll]
    tauto
  due := by
    intro sweeper hsweeper
    obtain ⟨hlt, hturn⟩ := hdue sweeper hsweeper
    refine ⟨hlt, ?_⟩
    rw [sweeps_afterSweeps]
    rcases hturn with hold | ⟨time, htime, hnext⟩
    · obtain ⟨-, time, htime, hnext⟩ := h.due sweeper hold
      exact ⟨time, List.mem_append_right _ htime, hnext⟩
    · exact ⟨time, List.mem_append_left _ htime, hnext⟩

/-- A frame is an announcement or nothing. -/
lemma step_announce (t : Timeline) (payload : Bytes) :
    t.step (.announce payload) =
      match MailKeyAnnouncement.ofFrame payload with
      | .error _ => t
      | .ok announcement => t.step (.store announcement.provider announcement.publicKey) := by
  cases hframe : MailKeyAnnouncement.ofFrame payload with
  | error failure => simp [step, MailKeyRegistry.receive, hframe]
  | ok announcement => simp [step, MailKeyRegistry.receive, hframe]

lemma step_pass (t : Timeline) (duration : Nat) :
    t.step (.pass duration) = t.afterSweeps (t.now + duration)
      (t.sweepers.flatMap fun sweeper => sweeper.turns t.now (t.now + duration))
      (Sweeper.runAllUntil t.sweepers t.registry t.now (t.now + duration)).1 := by
  rw [afterSweeps, ← Sweeper.runAllUntil_registry]
  rfl

lemma step_watch (t : Timeline) :
    t.step .watch = t.afterSweeps t.now ((Sweeper.start t.now).turns t.now t.now)
      (((Sweeper.start t.now).runUntil t.registry t.now t.now).1 :: t.sweepers) := by
  rw [afterSweeps, ← Sweeper.runUntil_registry]
  rfl

/-- Every event keeps the log true. -/
lemma IsSound.step (h : t.IsSound) (event : Event) : (t.step event).IsSound := by
  cases event with
  | store provider publicKey => exact h.announced provider publicKey
  | announce payload =>
      rw [step_announce]
      split
      · exact h
      · exact h.announced _ _
  | lookup provider => exact h
  | sweep =>
      show (t.afterSweeps t.now [t.now] t.sweepers).IsSound
      refine h.afterSweeps le_rfl (by simp) fun sweeper hsweeper => ?_
      exact ⟨(h.due sweeper hsweeper).1, .inl hsweeper⟩
  | pass duration =>
      rw [step_pass]
      refine h.afterSweeps (Nat.le_add_right ..) ?_
        (Sweeper.runAllUntil_sweepers _ fun sweeper hsweeper => (h.due sweeper hsweeper).1.le)
      intro time htime
      obtain ⟨sweeper, -, hturn⟩ := List.mem_flatMap.mp htime
      exact Sweeper.mem_turns_le (Nat.le_add_right ..) hturn
  | watch =>
      rw [step_watch]
      refine h.afterSweeps le_rfl (fun time => Sweeper.mem_turns_le le_rfl) ?_
      intro sweeper hsweeper
      rcases List.mem_cons.mp hsweeper with rfl | hsweeper
      · obtain ⟨hlt, hturn⟩ := Sweeper.runUntil_sweeper t.registry t.now
          (le_refl (Sweeper.start t.now).due)
        refine ⟨hlt, .inr (hturn.resolve_left fun hsame => ?_)⟩
        -- its first turn is due when it starts
        rw [hsame] at hlt
        exact lt_irrefl _ hlt
      · exact ⟨(h.due sweeper hsweeper).1, .inl hsweeper⟩
  | rest sweeper =>
      exact { h with due := fun other hother => h.due other (List.mem_of_mem_eraseIdx hother) }

/-- The invariant holds after all events. -/
theorem isSound_run (interval start : Nat) (events : List Event) :
    (run interval start events).IsSound := by
  induction events using List.reverseRecOn with
  | nil =>
      exact {
        keyed := List.nodup_nil
        past := fun _ hdeed => nomatch hdeed
        held := fun p key => by simp [run, latest?]
        due := fun _ hsweeper => nomatch hsweeper }
  | append_singleton events event ih =>
      rw [run, List.foldl_concat]
      exact ih.step event

lemma refreshInterval_step (t : Timeline) (event : Event) :
    (t.step event).registry.refreshInterval = t.registry.refreshInterval := by
  cases event with
  | announce payload =>
      rw [step_announce]
      split <;> rfl
  | pass duration =>
      rw [step_pass]
      exact MailKeyRegistry.refreshInterval_sweptAll _
  | watch =>
      rw [step_watch]
      exact MailKeyRegistry.refreshInterval_sweptAll _
  | _ => rfl

lemma refreshInterval_run (interval start : Nat) (events : List Event) :
    (run interval start events).registry.refreshInterval = interval := by
  induction events using List.reverseRecOn with
  | nil => rfl
  | append_singleton events event ih =>
      rw [run, List.foldl_concat, refreshInterval_step]
      exact ih

/-- While a sweeper is at work, the last sweep was no longer ago than its interval. -/
lemma IsSound.exists_sweep (h : t.IsSound) (hsweepers : t.sweepers ≠ []) :
    ∃ time ∈ t.sweeps, t.now < time + Sweeper.interval := by
  obtain ⟨sweeper, hsweeper⟩ := List.exists_mem_of_ne_nil _ hsweepers
  obtain ⟨hlt, time, htime, hdue⟩ := h.due sweeper hsweeper
  exact ⟨time, htime, hdue ▸ hlt⟩

/-- **How long mail keys are kept.**  Let anything happen to a new registry, on a clock that never
goes back.
* It has the key of the latest announcement of a provider, with the time of that announcement,
  unless a sweep came more than five refresh intervals later, and then it has none.  If five
  intervals are more than 64 bits of seconds can count, no sweep comes too late.
* A sweep counts what it removes, and leaves everything else as it is.
* A provider whose latest announcement is no older than five intervals is there, whatever sweeps
  there were.
* While a sweeper is at work, a provider is gone once its latest announcement is more than five
  intervals and a minute ago. -/
theorem keeps_latest (interval start : Nat) (events : List Event) :
    let t := run interval start events
    (∀ p key, t.registry.keys.get? p = some key ↔
      t.latest? p = some key ∧ ∀ time ∈ t.sweeps, ¬ Outlives interval time key) ∧
    (∀ time, ∃ gone : Finset Text, (t.registry.sweep time).1 = gone.card ∧
      ∀ p, (p ∈ gone ↔ t.registry.keys.get? p ≠ none ∧
          (t.registry.sweep time).2.keys.get? p = none) ∧
        (p ∉ gone → (t.registry.sweep time).2.keys.get? p = t.registry.keys.get? p)) ∧
    (∀ p key, t.latest? p = some key → ¬ Outlives interval t.now key →
      t.registry.keys.get? p = some key) ∧
    ∀ p key, t.latest? p = some key → t.sweepers ≠ [] → 5 * interval < 2 ^ 64 * second →
      key.announced + 5 * interval + 60 * second < t.now → t.registry.keys.get? p = none := by
  intro t
  have hsound : t.IsSound := isSound_run interval start events
  have hheld (p : Text) (key : MailKey) : t.registry.keys.get? p = some key ↔
      t.latest? p = some key ∧ ∀ time ∈ t.sweeps, ¬ Outlives interval time key := by
    rw [hsound.held, refreshInterval_run]
  refine ⟨hheld, MailKeyRegistry.sweep_counts hsound.keyed, ?_, ?_⟩
  · intro p key hlatest hnow
    refine (hheld p key).mpr ⟨hlatest, ?_⟩
    rintro time htime ⟨hfinite, hlate⟩
    exact hnow ⟨hfinite, hlate.trans_le (hsound.sweep_le htime)⟩
  · intro p key hlatest hsweepers hfinite hlate
    obtain ⟨time, htime, hrecent⟩ := hsound.exists_sweep hsweepers
    have hinterval : Sweeper.interval = 60 * second := rfl
    rw [Option.eq_none_iff_forall_ne_some]
    intro key' hget
    obtain ⟨hlatest', hkept⟩ := (hheld p key').mp hget
    cases hlatest.symm.trans hlatest'
    exact hkept time htime ⟨hfinite, by omega⟩

/-- With an interval of a minute, a key is there after five minutes and a sweep; six minutes and a
moment later it is gone if a sweeper is at work. -/
theorem keeps_latest_minutes :
    let announcement := Event.store "Mail".toList "AAAA".toList
    let key : MailKey := ⟨"AAAA".toList, 0⟩
    let swept := run (60 * second) 0 [announcement, .pass (300 * second), .sweep]
    let watched := run (60 * second) 0 [.watch, announcement, .pass (360 * second + 1)]
    (swept.latest? "mail".toList = some key ∧
      swept.registry.keys.get? "mail".toList = some key) ∧
    watched.latest? "mail".toList = some key ∧ watched.sweepers ≠ [] ∧
      watched.registry.keys.get? "mail".toList = none := by
  intro announcement key swept watched
  have hswept : swept.latest? "mail".toList = some key := rfl
  have hwatched : watched.latest? "mail".toList = some key :=
    (congrArg (latest? · _) (step_pass ..)).trans (latest?_afterSweeps ..)
  have hsweepers : watched.sweepers ≠ [] := List.cons_ne_nil _ _
  have hminutes : swept.now = 300 * second := Nat.zero_add _
  have hmoment : watched.now = 360 * second + 1 := Nat.zero_add _
  obtain ⟨-, -, hfresh, -⟩ :=
    keeps_latest (60 * second) 0 [announcement, .pass (300 * second), .sweep]
  obtain ⟨-, -, -, hgone⟩ :=
    keeps_latest (60 * second) 0 [.watch, announcement, .pass (360 * second + 1)]
  refine ⟨⟨hswept, hfresh _ _ hswept ?_⟩, hwatched, hsweepers,
    hgone _ _ hwatched hsweepers (by decide) ?_⟩
  · rintro ⟨-, hlate⟩
    rw [hminutes] at hlate
    exact absurd hlate (by decide)
  · rw [hmoment]
    decide

end Timeline

end Nameserver

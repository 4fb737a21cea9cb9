import Mathlib
import Nameserver.Registry.Challenge

/-!
# What a challenge registry shows

A registry is a table of lists, but what it means is a set of postings: a value that is shown for a
domain on behalf of a registration.  `ChallengeRegistry.IsTidy` says that the table has nothing else
in it, no domain without a value and nothing twice, so that the postings can be read off entry by
entry (`mem_postings`).

Registering and unregistering go through a list of challenges one by one.  Seen through the
postings, they add those of a registration and take them away (`mem_postings_register`,
`mem_postings_unregister`), also where two challenges of one registration come to the same posting.
-/

namespace Nameserver

namespace Table

variable {α β : Type} [DecidableEq α] {t : Table α β} {k l : α} {v : β}

/-- Every key has one entry. -/
def IsKeyed (t : Table α β) : Prop := (t.map Prod.fst).Nodup

lemma IsKeyed.erase (h : t.IsKeyed) (k : α) : (erase t k).IsKeyed :=
  h.sublist (List.filter_sublist.map _)

lemma IsKeyed.insert (h : t.IsKeyed) (k : α) (v : β) : (insert t k v).IsKeyed := by
  refine List.nodup_cons.mpr ⟨?_, h.erase k⟩
  intro hk
  obtain ⟨e, he, rfl⟩ := List.mem_map.mp hk
  simp [Table.erase] at he

/-- Where keys have one entry, all entries are found. -/
lemma IsKeyed.mem_iff (h : t.IsKeyed) : (k, v) ∈ t ↔ get? t k = some v := by
  induction t with
  | nil => simp
  | cons e t ih =>
      obtain ⟨hfirst, hrest⟩ := List.nodup_cons.mp h
      rw [List.mem_cons, get?_cons, ih hrest]
      split_ifs with hk
      · subst hk
        have hnone : get? t e.1 ≠ some v := by
          intro hget
          exact hfirst (List.mem_map.mpr ⟨(e.1, v), (ih hrest).mpr hget, rfl⟩)
        simp only [Prod.ext_iff, true_and, hnone, or_false, Option.some.injEq]
        exact eq_comm
      · simp [Prod.ext_iff, hk]

end Table

/-- A value that is shown for a domain, and the registration that it belongs to. -/
@[ext]
structure Posting where
  domain : Text
  id : RegistrationId
  value : Text
deriving DecidableEq, Repr

/-- What a registration has to be shown. -/
def Registration.postings (g : Registration) : List Posting :=
  g.challenges.map fun c => ⟨c.baseDomain, g.id, c.value⟩

lemma Registration.id_of_mem_postings {g : Registration} {p : Posting} (h : p ∈ g.postings) :
    p.id = g.id := by
  obtain ⟨c, -, rfl⟩ := List.mem_map.mp h
  rfl

namespace ChallengeRegistry

variable {registry : ChallengeRegistry} {domain : Text} {entry : RegistrationId × Text}
  {id : RegistrationId} {challenges : List Challenge} {p : Posting}

/-- What a registry shows. -/
def postings (registry : ChallengeRegistry) : List Posting :=
  registry.pending.flatMap fun e => e.2.map fun entry => ⟨e.1, entry.1, entry.2⟩

/-- Every domain stands in the table once, with at least one value, and with no value twice. -/
structure IsTidy (registry : ChallengeRegistry) : Prop where
  keyed : registry.pending.IsKeyed
  ne_nil : ∀ {domain entries}, registry.pending.get? domain = some entries → entries ≠ []
  nodup : ∀ domain, (registry.entries domain).Nodup

lemma isTidy_empty : ({} : ChallengeRegistry).IsTidy where
  keyed := List.nodup_nil
  ne_nil := by
    intro domain entries h
    cases h
  nodup := fun _ => List.nodup_nil

/-! ## Reading the table -/

lemma IsTidy.mem_postings (h : registry.IsTidy) :
    p ∈ registry.postings ↔ (p.id, p.value) ∈ registry.entries p.domain := by
  constructor
  · intro hp
    obtain ⟨e, he, hp⟩ := List.mem_flatMap.mp hp
    obtain ⟨entry, hentry, rfl⟩ := List.mem_map.mp hp
    rwa [entries, h.keyed.mem_iff.mp he]
  · intro hp
    unfold entries at hp
    cases hget : registry.pending.get? p.domain with
    | none => simp [hget] at hp
    | some entries =>
        rw [hget, Option.getD_some] at hp
        exact List.mem_flatMap.mpr
          ⟨_, h.keyed.mem_iff.mpr hget, List.mem_map.mpr ⟨_, hp, rfl⟩⟩

lemma IsTidy.entries_of_mem (h : registry.IsTidy) {e : Text × List (RegistrationId × Text)}
    (he : e ∈ registry.pending) : registry.entries e.1 = e.2 := by
  rw [entries, h.keyed.mem_iff.mp he, Option.getD_some]

/-- The postings of one domain are its entries. -/
lemma IsTidy.filter_postings (h : registry.IsTidy) (domain : Text) :
    registry.postings.filter (·.domain = domain) =
      (registry.entries domain).map fun entry => ⟨domain, entry.1, entry.2⟩ := by
  -- only the keys matter here, and unlike `h` they pass to the rest of the table
  obtain ⟨table, nextId⟩ := registry
  have hkeyed : Table.IsKeyed table := h.keyed
  clear h
  unfold postings entries
  dsimp only
  induction table with
  | nil => rfl
  | cons e table ih =>
      obtain ⟨hfirst, hrest⟩ := List.nodup_cons.mp hkeyed
      rw [List.flatMap_cons, List.filter_append, ih hrest, Table.get?_cons]
      split_ifs with hdomain
      · subst hdomain
        have hnone : Table.get? table e.1 = none := by
          rw [Option.eq_none_iff_forall_not_mem]
          intro entries hget
          exact hfirst (List.mem_map.mpr ⟨_, (Table.IsKeyed.mem_iff hrest).mpr hget, rfl⟩)
        simp [hnone, List.filter_map, Function.comp_def]
      · have hother : e.1 ≠ domain := fun heq => hdomain heq.symm
        simp [List.filter_map, Function.comp_def, hother]

lemma IsTidy.nodup_postings (h : registry.IsTidy) : registry.postings.Nodup := by
  refine List.nodup_flatMap.mpr ⟨?_, ?_⟩
  · intro e he
    rw [← h.entries_of_mem he]
    refine (h.nodup e.1).map fun x y hxy => ?_
    simpa [Prod.ext_iff] using hxy
  · refine (List.pairwise_map.mp h.keyed).imp ?_
    intro e e' hne p hp hp'
    obtain ⟨_, -, rfl⟩ := List.mem_map.mp hp
    obtain ⟨_, -, heq⟩ := List.mem_map.mp hp'
    exact hne (congrArg Posting.domain heq).symm

lemma size_eq_length (registry : ChallengeRegistry) :
    registry.size = registry.postings.length := by
  simp [size, postings, List.length_flatMap]

lemma IsTidy.values_eq (h : registry.IsTidy) (domain : Text) :
    registry.values domain =
      (registry.postings.filter (·.domain = Text.normalize domain)).map Posting.value := by
  rw [h.filter_postings, values, List.map_map]
  rfl

lemma IsTidy.pending_eq_nil (h : registry.IsTidy) (hnone : registry.postings = []) :
    registry.pending = [] := by
  rw [List.eq_nil_iff_forall_not_mem]
  intro e he
  have hentries : e.2 = [] := by
    simpa using List.flatMap_eq_nil_iff.mp hnone e he
  exact h.ne_nil (h.keyed.mem_iff.mp he) hentries

/-! ## Changing the table -/

lemma entries_add (registry : ChallengeRegistry) (domain other : Text)
    (entry : RegistrationId × Text) :
    (registry.add domain entry).entries other =
      if other = domain then
        if entry ∈ registry.entries domain then registry.entries domain
        else registry.entries domain ++ [entry]
      else registry.entries other := by
  unfold add
  dsimp only
  rw [entries, Table.get?_insert]
  split_ifs <;> rfl

lemma entries_remove (registry : ChallengeRegistry) (domain other : Text)
    (entry : RegistrationId × Text) :
    (registry.remove domain entry).entries other =
      if other = domain then (registry.entries domain).filter (· ≠ entry)
      else registry.entries other := by
  unfold remove
  split
  · rename_i hleft
    rw [entries, Table.get?_erase, hleft]
    split_ifs <;> rfl
  · rw [entries, Table.get?_insert]
    split_ifs <;> rfl

lemma IsTidy.add (h : registry.IsTidy) (domain : Text) (entry : RegistrationId × Text) :
    (registry.add domain entry).IsTidy where
  keyed := h.keyed.insert _ _
  ne_nil := by
    intro other entries hget
    rw [ChallengeRegistry.add, Table.get?_insert] at hget
    split_ifs at hget with hother hmem
    · cases hget
      exact List.ne_nil_of_mem hmem
    · cases hget
      exact List.append_ne_nil_of_right_ne_nil _ (List.cons_ne_nil _ _)
    · exact h.ne_nil hget
  nodup := by
    intro other
    rw [entries_add]
    split_ifs with hother hmem
    · exact h.nodup domain
    · exact List.nodup_append.mpr ⟨h.nodup domain, List.nodup_singleton entry, by
        intro x hx y hy
        rw [List.mem_singleton.mp hy]
        exact fun heq => hmem (heq ▸ hx)⟩
    · exact h.nodup other

lemma IsTidy.remove (h : registry.IsTidy) (domain : Text) (entry : RegistrationId × Text) :
    (registry.remove domain entry).IsTidy where
  keyed := by
    unfold ChallengeRegistry.remove
    split
    · exact h.keyed.erase _
    · exact h.keyed.insert _ _
  ne_nil := by
    intro other entries hget
    unfold ChallengeRegistry.remove at hget
    split at hget
    · rw [Table.get?_erase] at hget
      split_ifs at hget
      exact h.ne_nil hget
    · rename_i hne
      rw [Table.get?_insert] at hget
      split_ifs at hget
      · cases hget
        exact hne
      · exact h.ne_nil hget
  nodup := by
    intro other
    rw [entries_remove]
    split_ifs
    · exact (h.nodup domain).filter _
    · exact h.nodup other

lemma IsTidy.mem_postings_add (h : registry.IsTidy) :
    p ∈ (registry.add domain entry).postings ↔
      p ∈ registry.postings ∨ p = ⟨domain, entry.1, entry.2⟩ := by
  have hp : p = ⟨domain, entry.1, entry.2⟩ ↔ p.domain = domain ∧ (p.id, p.value) = entry := by
    simp [Posting.ext_iff, Prod.ext_iff]
  rw [(h.add domain entry).mem_postings, h.mem_postings, entries_add, hp]
  split_ifs with hdomain hmem
  · rw [← hdomain] at hmem
    refine hdomain ▸ ⟨.inl, ?_⟩
    rintro (hold | ⟨-, rfl⟩)
    exacts [hold, hmem]
  · simp [hdomain]
  · simp [hdomain]

lemma IsTidy.mem_postings_remove (h : registry.IsTidy) :
    p ∈ (registry.remove domain entry).postings ↔
      p ∈ registry.postings ∧ p ≠ ⟨domain, entry.1, entry.2⟩ := by
  have hp : p = ⟨domain, entry.1, entry.2⟩ ↔ p.domain = domain ∧ (p.id, p.value) = entry := by
    simp [Posting.ext_iff, Prod.ext_iff]
  rw [(h.remove domain entry).mem_postings, h.mem_postings, entries_remove, Ne, hp]
  split_ifs with hdomain
  · simp [hdomain]
  · simp [hdomain]

/-! ## Registering and unregistering

A registration is added and taken away challenge by challenge.  The order makes no difference to
the postings, and neither does it whether two of its challenges come to the same one. -/

lemma nextId_remove (registry : ChallengeRegistry) (domain : Text)
    (entry : RegistrationId × Text) :
    (registry.remove domain entry).nextId = registry.nextId := by
  unfold remove
  split <;> rfl

lemma nextId_register (registry : ChallengeRegistry) (id : RegistrationId)
    (challenges : List Challenge) :
    (registry.register id challenges).nextId = registry.nextId := by
  induction challenges generalizing registry with
  | nil => rfl
  | cons c challenges ih => exact ih _

lemma nextId_unregister (registry : ChallengeRegistry) (id : RegistrationId)
    (challenges : List Challenge) :
    (registry.unregister id challenges).nextId = registry.nextId := by
  induction challenges generalizing registry with
  | nil => rfl
  | cons c challenges ih => exact (ih _).trans (nextId_remove ..)

lemma IsTidy.register (h : registry.IsTidy) (id : RegistrationId) (challenges : List Challenge) :
    (registry.register id challenges).IsTidy := by
  induction challenges generalizing registry with
  | nil => exact h
  | cons c challenges ih => exact ih (h.add _ _)

lemma IsTidy.unregister (h : registry.IsTidy) (id : RegistrationId)
    (challenges : List Challenge) : (registry.unregister id challenges).IsTidy := by
  induction challenges generalizing registry with
  | nil => exact h
  | cons c challenges ih => exact ih (h.remove _ _)

lemma IsTidy.mem_postings_register (h : registry.IsTidy) :
    p ∈ (registry.register id challenges).postings ↔
      p ∈ registry.postings ∨ p ∈ (⟨id, challenges⟩ : Registration).postings := by
  induction challenges generalizing registry with
  | nil => simp [ChallengeRegistry.register, Registration.postings]
  | cons c challenges ih =>
      have hrest := ih (h.add c.baseDomain (id, c.value))
      rw [h.mem_postings_add] at hrest
      exact hrest.trans (by simp [Registration.postings, or_assoc])

lemma IsTidy.mem_postings_unregister (h : registry.IsTidy) :
    p ∈ (registry.unregister id challenges).postings ↔
      p ∈ registry.postings ∧ p ∉ (⟨id, challenges⟩ : Registration).postings := by
  induction challenges generalizing registry with
  | nil => simp [ChallengeRegistry.unregister, Registration.postings]
  | cons c challenges ih =>
      have hrest := ih (h.remove c.baseDomain (id, c.value))
      rw [h.mem_postings_remove] at hrest
      exact hrest.trans (by simp [Registration.postings, and_assoc])

end ChallengeRegistry

end Nameserver

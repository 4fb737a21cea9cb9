import Mathlib
import Nameserver.Proofs.Zone.Names
import Nameserver.Zone.Store

/-!
# Zones of a store

A store holds the zones that its descriptions stand for, each under its apex
(`ZoneStore.get?_eq_some_iff`), so every zone that it finds was made of one of them.  What always
holds of a zone that was made so holds of all zones that are found; that its mail exchanges are in
order is an example (`ZoneStore.pairwise_exchanges`).
-/

namespace Nameserver

section Sorting

variable {α : Type} (le : α → α → Bool)

lemma insertBy_eq_orderedInsert (a : α) (bs : List α) :
    insertBy le a bs = bs.orderedInsert (fun a b => le a b = true) a := by
  induction bs with
  | nil => rfl
  | cons b bs ih => rw [insertBy, List.orderedInsert_cons, ih]

/-- The sort is the insertion sort of the library, whose lemmas therefore hold of it. -/
lemma sortBy_eq_insertionSort (as : List α) :
    sortBy le as = as.insertionSort fun a b => le a b = true := by
  induction as with
  | nil => rfl
  | cons a as ih => rw [List.insertionSort_cons, ← ih, ← insertBy_eq_orderedInsert]; rfl

end Sorting

namespace Zone

/-! ## Mail exchanges in order -/

/-- What exchanges are ordered by: the name, then the preference. -/
def exchangeRank (x : Text × UInt16) : Text ×ₗ Nat := toLex (x.1, x.2.toNat)

lemma exchangeLe_iff {x y : Text × UInt16} :
    exchangeLe x y = true ↔ exchangeRank x ≤ exchangeRank y := by
  simp [exchangeLe, exchangeRank, Prod.Lex.toLex_le_toLex, UInt16.le_iff_toNat_le]

instance : Std.Total fun x y => exchangeLe x y = true where
  total x y := by
    rw [exchangeLe_iff, exchangeLe_iff]
    exact le_total _ _

instance : IsTrans (Text × UInt16) fun x y => exchangeLe x y = true where
  trans x y z hxy hyz := by
    rw [exchangeLe_iff] at hxy hyz ⊢
    exact hxy.trans hyz

/-- The exchanges of a zone are in order from the start. -/
lemma pairwise_exchanges_of_ofConfig {config : ZoneConfig} {zone : Zone}
    (h : ofConfig config = .ok zone) :
    zone.exchanges.Pairwise fun x y => exchangeLe x y = true := by
  simp only [ofConfig, bind, Except.bind, pure, Except.pure] at h
  repeat' split at h
  all_goals cases h
  rw [sortBy_eq_insertionSort]
  exact List.pairwise_insertionSort _ _

end Zone

namespace ZoneStore

variable {configs : List ZoneConfig} {store : ZoneStore} {zone : Zone} {name : Text}

/-- A zone is added if its apex is new. -/
lemma insert_eq_ok_iff {store' : ZoneStore} :
    store.insert zone = .ok store' ↔
      store.zones.get? zone.apex = none ∧ store' = ⟨store.zones.insert zone.apex zone⟩ := by
  unfold insert
  split
  · rename_i hget
    simp [hget]
  · rename_i hget
    simp [hget, eq_comm]

/-- A store that more zones are added to has them beside those it had. -/
lemma get?_of_foldlM {start : ZoneStore} {apex : Text}
    (h : configs.foldlM (fun store config => do store.insert (← Zone.ofConfig config)) start =
      .ok store) :
    store.zones.get? apex = some zone ↔ start.zones.get? apex = some zone ∨
      zone.apex = apex ∧ ∃ config ∈ configs, Zone.ofConfig config = .ok zone := by
  induction configs generalizing start with
  | nil =>
      cases h
      simp
  | cons config configs ih =>
      rw [List.foldlM_cons, Except.bind_eq_ok] at h
      obtain ⟨next, hinsert, h⟩ := h
      obtain ⟨first, hfirst, hinsert⟩ := Except.bind_eq_ok.mp hinsert
      obtain ⟨hnew, rfl⟩ := insert_eq_ok_iff.mp hinsert
      rw [ih h, Table.get?_insert, List.exists_mem_cons_iff, hfirst, Except.ok.injEq]
      split_ifs with hapex
      · subst hapex
        simp only [hnew, Option.some.injEq, reduceCtorEq, false_or]
        constructor
        · rintro (rfl | ⟨hapex, hmem⟩)
          · exact ⟨rfl, .inl rfl⟩
          · exact ⟨hapex, .inr hmem⟩
        · rintro ⟨hapex, rfl | hmem⟩
          · exact .inl rfl
          · exact .inr ⟨hapex, hmem⟩
      · refine or_congr_right (and_congr_right fun hzone => ?_)
        have hother : first ≠ zone := by
          rintro rfl
          exact hapex hzone.symm
        simp [hother]

/-- A store holds the zones of all descriptions, each under its apex. -/
theorem get?_eq_some_iff {apex : Text} (h : ofConfigs configs = .ok store) :
    store.zones.get? apex = some zone ↔
      zone.apex = apex ∧ ∃ config ∈ configs, Zone.ofConfig config = .ok zone := by
  rw [get?_of_foldlM h, Table.get?_nil]
  simp

/-- A zone that is found was made of one of the descriptions. -/
theorem exists_config (h : ofConfigs configs = .ok store) (hfind : store.find? name = some zone) :
    ∃ config ∈ configs, Zone.ofConfig config = .ok zone := by
  obtain ⟨apex, -, hzone⟩ := List.exists_of_findSome?_eq_some hfind
  exact ((get?_eq_some_iff h).mp hzone).2

/-- The exchanges of a zone that is found are in order. -/
theorem pairwise_exchanges (h : ofConfigs configs = .ok store)
    (hfind : store.find? name = some zone) :
    zone.exchanges.Pairwise fun x y => Zone.exchangeLe x y = true := by
  obtain ⟨config, -, hconfig⟩ := exists_config h hfind
  exact Zone.pairwise_exchanges_of_ofConfig hconfig

end ZoneStore

end Nameserver

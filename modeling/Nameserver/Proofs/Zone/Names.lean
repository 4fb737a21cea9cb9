import Mathlib
import Nameserver.Proofs.Message.Names
import Nameserver.Proofs.Text.Parts
import Nameserver.Zone.Store

/-!
# Names in a zone

All names of a zone have been checked when it was made (`Zone.ofConfig`), and are in normal form.
`Zone.IsName` says so of one name, and `Zone.IsNamed` of the apex and of the names that aliases
stand for, which are all that look-ups start from or come to.

**From checks to facts.**  A description is read step by step, and the first step that fails ends
it.  `Zone.made_of_ofConfig` collects what every step has given.
-/

namespace Nameserver

/-! ## Steps that may fail -/

section Steps

variable {ε α β : Type}

lemma Except.bind_eq_ok {x : Except ε α} {f : α → Except ε β} {b : β} :
    x >>= f = .ok b ↔ ∃ a, x = .ok a ∧ f a = .ok b := by
  cases x with
  | error e => simp [bind, Except.bind]
  | ok a => simp [bind, Except.bind]

lemma Except.map_eq_ok {x : Except ε α} {f : α → β} {b : β} :
    x.map f = .ok b ↔ ∃ a, x = .ok a ∧ f a = b := by
  cases x with
  | error e => simp [Except.map]
  | ok a => simp [Except.map]

lemma Except.pure_eq_ok {a b : α} : (pure a : Except ε α) = .ok b ↔ a = b := by
  simp [pure, Except.pure]

lemma exists_of_mem_mapM {f : α → Except ε β} {as : List α} {bs : List β} {b : β}
    (h : as.mapM f = .ok bs) (hb : b ∈ bs) : ∃ a ∈ as, f a = .ok b := by
  induction as generalizing bs with
  | nil =>
      rw [List.mapM_nil, Except.pure_eq_ok] at h
      subst h
      cases hb
  | cons a as ih =>
      rw [List.mapM_cons, Except.bind_eq_ok] at h
      obtain ⟨first, hfirst, h⟩ := h
      obtain ⟨others, hothers, h⟩ := Except.bind_eq_ok.mp h
      rw [Except.pure_eq_ok] at h
      subst h
      rcases List.mem_cons.mp hb with rfl | hb
      · exact ⟨a, List.mem_cons_self, hfirst⟩
      · obtain ⟨a', hmem, ha'⟩ := ih hothers hb
        exact ⟨a', List.mem_cons_of_mem _ hmem, ha'⟩

end Steps

/-- What a table holds is one of the entries that it was made of. -/
lemma Table.mem_of_get?_ofEntries {α β : Type} [DecidableEq α] {entries : List (α × β)} {k : α}
    {v : β} (h : (ofEntries entries).get? k = some v) : (k, v) ∈ entries := by
  induction entries using List.reverseRecOn with
  | nil => cases h
  | append_singleton entries e ih =>
      rw [ofEntries, List.foldl_concat, get?_insert] at h
      split_ifs at h with hk
      · cases h
        subst hk
        exact List.mem_append_right _ (List.mem_singleton_self _)
      · exact List.mem_append_left _ (ih h)

namespace Zone

variable {config : ZoneConfig} {zone : Zone} {apex key name : Text}

/-! ## Checked names -/

/-- A name in normal form that can be written on the wire. -/
structure IsName (name : Text) : Prop where
  normal : Text.IsNormal name
  labels : ∀ part ∈ Text.parts name, part ≠ [] ∧ Utf8.size part ≤ Name.maxLabel
  fits : Name.size name ≤ Name.maxSize

lemma IsName.ne_nil (h : IsName name) : name ≠ [] := by
  rintro rfl
  exact (h.labels [] (by simp [Text.parts])).1 rfl

lemma defect?_eq_none_iff :
    defect? name = none ↔ (∀ part ∈ Text.parts name, part ≠ [] ∧ Utf8.size part ≤ Name.maxLabel) ∧
      Name.size name ≤ Name.maxSize := by
  unfold defect?
  split_ifs with hempty hlabel hlong hsize
  · rw [List.isEmpty_iff] at hempty
    simp [hempty, Text.parts]
  · obtain ⟨part, hpart, hnil⟩ := List.any_eq_true.mp hlabel
    simp only [false_iff, not_and]
    intro hlabels
    exact absurd (List.isEmpty_iff.mp hnil) (hlabels part hpart).1
  · obtain ⟨part, hpart, hlt⟩ := List.any_eq_true.mp hlong
    simp only [false_iff, not_and]
    intro hlabels
    exact absurd (hlabels part hpart).2 (by simpa using hlt)
  · simp [hsize]
  · simp only [List.any_eq_true, List.isEmpty_iff, decide_eq_true_eq, not_exists, not_and,
      not_lt] at hlabel hlong
    exact ⟨fun _ => ⟨fun part hpart => ⟨hlabel part hpart, hlong part hpart⟩, not_lt.mp hsize⟩,
      fun _ => rfl⟩

lemma isName_of_valid {result : Text} (h : valid name = .ok result) (hnormal : Text.IsNormal name) :
    IsName result := by
  unfold valid at h
  split at h
  · rename_i hdefect
    cases h
    obtain ⟨hlabels, hfits⟩ := defect?_eq_none_iff.mp hdefect
    exact ⟨hnormal, hlabels, hfits⟩
  · cases h

/-- A key is completed to a name in normal form. -/
lemma isNormal_complete (hapex : IsName apex) (key : Text) : Text.IsNormal (complete apex key) := by
  have hkey := Text.isNormal_normalize key
  unfold complete
  dsimp only
  split_ifs
  · exact hapex.normal
  · exact hkey
  · refine ⟨?_, ?_⟩
    · rw [Text.lower_append, hkey.lower]
      show _ ++ '.' :: apex.lower = _
      rw [hapex.normal.lower]
    · obtain ⟨front, c, hlast⟩ := (List.eq_nil_or_concat' apex).resolve_left hapex.ne_nil
      have hnot := hapex.normal.last
      have hsplit : Text.normalize key ++ '.' :: (front ++ [c]) =
          Text.normalize key ++ '.' :: front ++ [c] := by simp
      rw [hlast, List.getLast?_concat] at hnot
      rwa [hlast, hsplit, List.getLast?_concat]

lemma isName_of_qualify (hapex : IsName apex) (h : qualify apex key = .ok name) : IsName name :=
  isName_of_valid h (isNormal_complete hapex key)

/-- What a completed table holds comes from one of the keys of the description. -/
lemma exists_key_of_qualifyTable {α β : Type} {value : α → Except Failure β} {t : Table Text α}
    {u : Table Text β} {b : β} (h : qualifyTable apex value t = .ok u)
    (hget : u.get? name = some b) :
    ∃ key a, (key, a) ∈ t ∧ qualify apex key = .ok name ∧ value a = .ok b := by
  obtain ⟨entries, hentries, rfl⟩ := Except.map_eq_ok.mp h
  obtain ⟨⟨key, a⟩, hmem, hmade⟩ :=
    exists_of_mem_mapM hentries (Table.mem_of_get?_ofEntries hget)
  obtain ⟨full, hfull, hmade⟩ := Except.bind_eq_ok.mp hmade
  obtain ⟨made, hvalue, hmade⟩ := Except.bind_eq_ok.mp hmade
  cases Except.pure_eq_ok.mp hmade
  exact ⟨key, a, hmem, hfull, hvalue⟩

/-! ## Zones -/

/-- The apex of a zone and the targets of its aliases are names in normal form. -/
structure IsNamed (zone : Zone) : Prop where
  apex : IsName zone.apex
  target : ∀ name target, zone.alias? name = some target → IsName target

/-- What the description says about apex and aliases is what the zone has. -/
lemma made_of_ofConfig (h : ofConfig config = .ok zone) :
    valid (Text.normalize config.domain) = .ok zone.apex ∧
      qualifyTable zone.apex (qualify zone.apex) config.aliases = .ok zone.aliases := by
  obtain ⟨apex, hapex, h⟩ := Except.bind_eq_ok.mp h
  obtain ⟨exchanges, -, h⟩ := Except.bind_eq_ok.mp h
  obtain ⟨primary, -, h⟩ := Except.bind_eq_ok.mp h
  obtain ⟨admin, -, h⟩ := Except.bind_eq_ok.mp h
  obtain ⟨nameservers, -, h⟩ := Except.bind_eq_ok.mp h
  obtain ⟨addresses, -, h⟩ := Except.bind_eq_ok.mp h
  obtain ⟨aliases, haliases, h⟩ := Except.bind_eq_ok.mp h
  obtain ⟨texts, -, h⟩ := Except.bind_eq_ok.mp h
  cases h
  exact ⟨hapex, haliases⟩

/-- A zone that is made has names in normal form where look-ups come to. -/
theorem isNamed_of_ofConfig (h : ofConfig config = .ok zone) : zone.IsNamed := by
  obtain ⟨hdomain, haliases⟩ := made_of_ofConfig h
  have hapex : IsName zone.apex := isName_of_valid hdomain (Text.isNormal_normalize _)
  refine ⟨hapex, ?_⟩
  intro name target halias
  obtain ⟨key, a, -, -, htarget⟩ := exists_key_of_qualifyTable haliases halias
  exact isName_of_qualify hapex htarget

end Zone

end Nameserver

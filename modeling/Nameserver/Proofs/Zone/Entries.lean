import Mathlib
import Nameserver.Proofs.Zone.Names

/-!
# What becomes of the entries of a description

The tables of a description have no order of their own.  Whether a zone can be made of them does
not depend on the order in which they are gone through, and neither does anything that the zone has
besides its tables: `Zone.ofConfig_eq_ok_iff` splits the making of a zone into a check of names,
`ZoneConfig.IsUsable`, and the zone that comes out, `ZoneConfig.made`.

**Disputes.**  Different keys may be completed to one name, such as a key in upper case and the same
key in lower case.  A zone has room for one of their entries, and takes the last one.  So an entry
is safe exactly if all entries of its name agree with it, and of those that disagree any may be the
one that is left (`Zone.keeps_undisputed_entries`).  Nothing is said about this to the operator,
while a store refuses two zones that come out under one apex.
-/

namespace Nameserver

/-! ## Steps that fail one by one -/

section Steps

variable {ε α β : Type} {f : α → Except ε β} {P : α → Prop} {g : α → β}

/-- If a step succeeds for what `P` admits and gives `g`, so do all steps together. -/
lemma mapM_eq_ok_iff (hf : ∀ a b, f a = .ok b ↔ P a ∧ b = g a) {as : List α} {bs : List β} :
    as.mapM f = .ok bs ↔ (∀ a ∈ as, P a) ∧ bs = as.map g := by
  induction as generalizing bs with
  | nil =>
      rw [List.mapM_nil, Except.pure_eq_ok]
      simp [eq_comm]
  | cons a as ih =>
      rw [List.mapM_cons, Except.bind_eq_ok]
      simp only [Except.bind_eq_ok, Except.pure_eq_ok, hf, ih, List.forall_mem_cons, List.map_cons]
      constructor
      · rintro ⟨_, ⟨ha, rfl⟩, _, ⟨has, rfl⟩, rfl⟩
        exact ⟨⟨ha, has⟩, rfl⟩
      · rintro ⟨⟨ha, has⟩, rfl⟩
        exact ⟨_, ⟨ha, rfl⟩, _, ⟨has, rfl⟩, rfl⟩

end Steps

namespace Table

variable {α β : Type} [DecidableEq α] {entries : List (α × β)} {e : α × β} {k : α} {v : β}

lemma get?_ofEntries_concat :
    (ofEntries (entries ++ [e])).get? k =
      if k = e.1 then some e.2 else (ofEntries entries).get? k := by
  rw [ofEntries, List.foldl_concat, get?_insert]
  rfl

/-- Every key of the entries is in the table. -/
lemma exists_get?_ofEntries (h : (k, v) ∈ entries) : ∃ w, (ofEntries entries).get? k = some w := by
  induction entries using List.reverseRecOn with
  | nil => cases h
  | append_singleton entries e ih =>
      rw [get?_ofEntries_concat]
      split_ifs with hk
      · exact ⟨_, rfl⟩
      · refine ih ((List.mem_append.mp h).resolve_right fun hlast => hk ?_)
        exact congrArg Prod.fst (List.mem_singleton.mp hlast)

end Table

namespace Zone

/-- The entries of a table under their full names, where all of them can be used. -/
def completed {α β : Type} (apex : Text) (value : α → β) (t : Table Text α) : Table Text β :=
  Table.ofEntries (t.map fun e => (complete apex e.1, value e.2))

section Tables

variable {α β : Type} {apex name key : Text} {value : α → β} {t u : Table Text α} {a : α} {b : β}

lemma valid_eq_ok_iff {result : Text} :
    valid name = .ok result ↔ defect? name = none ∧ result = name := by
  unfold valid
  split
  · rename_i hdefect
    simp [hdefect, eq_comm]
  · rename_i hdefect
    simp [hdefect]

lemma qualify_eq_ok_iff :
    qualify apex key = .ok name ↔ defect? (complete apex key) = none ∧ name = complete apex key :=
  valid_eq_ok_iff

/-- A table is completed if its keys, and what its values are made of, can be used. -/
lemma qualifyTable_eq_ok_iff {check : α → Except Failure β} {P : α → Prop}
    (hcheck : ∀ a b, check a = .ok b ↔ P a ∧ b = value a) {made : Table Text β} :
    qualifyTable apex check t = .ok made ↔
      (∀ e ∈ t, defect? (complete apex e.1) = none ∧ P e.2) ∧ made = completed apex value t := by
  have hentry (e : Text × α) (made : Text × β) :
      (do
        let name ← qualify apex e.1
        let b ← check e.2
        return (name, b)) = Except.ok made ↔
      (defect? (complete apex e.1) = none ∧ P e.2) ∧ made = (complete apex e.1, value e.2) := by
    simp only [Except.bind_eq_ok, Except.pure_eq_ok, qualify_eq_ok_iff, hcheck]
    constructor
    · rintro ⟨_, ⟨hname, rfl⟩, _, ⟨hvalue, rfl⟩, rfl⟩
      exact ⟨⟨hname, hvalue⟩, rfl⟩
    · rintro ⟨⟨hname, hvalue⟩, rfl⟩
      exact ⟨_, ⟨hname, rfl⟩, _, ⟨hvalue, rfl⟩, rfl⟩
  rw [qualifyTable, Except.map_eq_ok]
  simp only [mapM_eq_ok_iff hentry]
  constructor
  · rintro ⟨_, ⟨hall, rfl⟩, rfl⟩
    exact ⟨hall, rfl⟩
  · rintro ⟨hall, rfl⟩
    exact ⟨_, ⟨hall, rfl⟩, rfl⟩

/-- What is under a name comes from an entry of that name. -/
lemma exists_entry_of_completed (h : (completed apex value t).get? name = some b) :
    ∃ key a, (key, a) ∈ t ∧ complete apex key = name ∧ value a = b := by
  obtain ⟨⟨key, a⟩, hmem, heq⟩ := List.mem_map.mp (Table.mem_of_get?_ofEntries h)
  cases heq
  exact ⟨key, a, hmem, rfl, rfl⟩

/-- Under the name of an entry there is something. -/
lemma exists_completed (apex : Text) (value : α → β) (h : (key, a) ∈ t) :
    ∃ b, (completed apex value t).get? (complete apex key) = some b :=
  Table.exists_get?_ofEntries (List.mem_map_of_mem (f := fun e => (complete apex e.1, value e.2)) h)

lemma completed_concat (e : Text × α) :
    (completed apex value (t ++ [e])).get? (complete apex e.1) = some (value e.2) := by
  rw [completed, List.map_append, List.map_singleton, Table.get?_ofEntries_concat, if_pos rfl]

end Tables

end Zone

/-! ## Making a zone -/

namespace ZoneConfig

open Zone

variable {config config' : ZoneConfig}

/-- The apex of the zone that is described. -/
def apex (config : ZoneConfig) : Text := Text.normalize config.domain

/-- The mailbox of the administrator as a name. -/
def adminName (config : ZoneConfig) : Text :=
  Text.normalize (config.admin.map fun c => if c = '@' then '.' else c)

/-- All names of the description can be used. -/
structure IsUsable (config : ZoneConfig) : Prop where
  apex : defect? config.apex = none
  exchanges : ∀ e ∈ config.exchanges, defect? (Text.normalize e.1) = none
  primary : defect? (Text.normalize config.primary) = none
  admin : defect? config.adminName = none
  nameservers : ∀ host ∈ config.nameservers, defect? (Text.normalize host) = none
  addresses : ∀ e ∈ config.addresses, defect? (complete config.apex e.1) = none
  aliases : ∀ e ∈ config.aliases, defect? (complete config.apex e.1) = none ∧
    defect? (complete config.apex e.2) = none
  texts : ∀ e ∈ config.texts, defect? (complete config.apex e.1) = none

/-- The zone that is described, if all names can be used. -/
def made (config : ZoneConfig) : Zone where
  apex := config.apex
  serial := config.serial
  primary := Text.normalize config.primary
  admin := config.adminName
  ttl := config.ttl
  nameservers := config.nameservers.map Text.normalize
  addresses := completed config.apex id config.addresses
  aliases := completed config.apex (complete config.apex) config.aliases
  texts := completed config.apex id config.texts
  exchanges := sortBy exchangeLe (config.exchanges.map fun e => (Text.normalize e.1, e.2))

/-- The same description, with its tables gone through in another order. -/
def IsReordered (config config' : ZoneConfig) : Prop :=
  ∃ addresses aliases texts exchanges,
    addresses.Perm config.addresses ∧ aliases.Perm config.aliases ∧ texts.Perm config.texts ∧
      exchanges.Perm config.exchanges ∧
      config' = { config with addresses, aliases, texts, exchanges }

end ZoneConfig

namespace Zone

variable {config config' : ZoneConfig} {zone : Zone}

/-- A zone is made if all names can be used, and then it is the one that is described. -/
theorem ofConfig_eq_ok_iff : ofConfig config = .ok zone ↔ config.IsUsable ∧ zone = config.made := by
  have hexchange (e : Text × UInt16) (made : Text × UInt16) :
      (do return (← valid (Text.normalize e.1), e.2)) = Except.ok made ↔
        defect? (Text.normalize e.1) = none ∧ made = (Text.normalize e.1, e.2) := by
    simp only [Except.bind_eq_ok, Except.pure_eq_ok, valid_eq_ok_iff]
    constructor
    · rintro ⟨_, ⟨hname, rfl⟩, rfl⟩
      exact ⟨hname, rfl⟩
    · rintro ⟨hname, rfl⟩
      exact ⟨_, ⟨hname, rfl⟩, rfl⟩
  have hhost (host made : Text) : valid (Text.normalize host) = .ok made ↔
      defect? (Text.normalize host) = none ∧ made = Text.normalize host := valid_eq_ok_iff
  have hplain {α : Type} (a b : α) : (.ok a : Except Failure α) = .ok b ↔ True ∧ b = id a := by
    simp [eq_comm]
  have htarget (apex target made : Text) : qualify apex target = .ok made ↔
      defect? (complete apex target) = none ∧ made = complete apex target := qualify_eq_ok_iff
  simp only [ofConfig, Except.bind_eq_ok, Except.pure_eq_ok, valid_eq_ok_iff,
    mapM_eq_ok_iff hexchange, mapM_eq_ok_iff hhost, qualifyTable_eq_ok_iff hplain,
    qualifyTable_eq_ok_iff (htarget _), and_true]
  constructor
  · rintro ⟨_, ⟨hapex, rfl⟩, _, ⟨hexchanges, rfl⟩, _, ⟨hprimary, rfl⟩, _, ⟨hadmin, rfl⟩, _,
      ⟨hnameservers, rfl⟩, _, ⟨haddresses, rfl⟩, _, ⟨haliases, rfl⟩, _, ⟨htexts, rfl⟩, rfl⟩
    exact ⟨⟨hapex, hexchanges, hprimary, hadmin, hnameservers, haddresses, haliases, htexts⟩, rfl⟩
  · rintro ⟨husable, rfl⟩
    exact ⟨_, ⟨husable.apex, rfl⟩, _, ⟨husable.exchanges, rfl⟩, _, ⟨husable.primary, rfl⟩, _,
      ⟨husable.admin, rfl⟩, _, ⟨husable.nameservers, rfl⟩, _, ⟨husable.addresses, rfl⟩, _,
      ⟨husable.aliases, rfl⟩, _, ⟨husable.texts, rfl⟩, rfl⟩

end Zone

namespace ZoneConfig

open Zone

variable {α β : Type} {config config' : ZoneConfig} {zone : Zone}

lemma IsReordered.apex_eq (h : config.IsReordered config') : config'.apex = config.apex := by
  obtain ⟨_, _, _, _, -, -, -, -, rfl⟩ := h
  rfl

/-- The order of its tables does not make a description unusable. -/
lemma IsUsable.reorder (h : config.IsUsable) (hreorder : config.IsReordered config') :
    config'.IsUsable := by
  obtain ⟨addresses, aliases, texts, exchanges, haddresses, haliases, htexts, hexchanges, rfl⟩ :=
    hreorder
  exact { h with
    addresses := fun e he => h.addresses e (haddresses.mem_iff.mp he)
    aliases := fun e he => h.aliases e (haliases.mem_iff.mp he)
    texts := fun e he => h.texts e (htexts.mem_iff.mp he)
    exchanges := fun e he => h.exchanges e (hexchanges.mem_iff.mp he) }

/-! ## What is left of an entry -/

/-- Whatever the order of its tables, a zone is made of the description, and `held` has this value
under the name. -/
def AlwaysHolds (config : ZoneConfig) (held : Zone → Table Text β) (name : Text) (b : β) : Prop :=
  ∀ config', config.IsReordered config' →
    ∃ zone, Zone.ofConfig config' = .ok zone ∧ (held zone).get? name = some b

/-- In some order of its tables, a zone is made of the description, and `held` has this value under
the name. -/
def MayHold (config : ZoneConfig) (held : Zone → Table Text β) (name : Text) (b : β) : Prop :=
  ∃ config' zone, config.IsReordered config' ∧ Zone.ofConfig config' = .ok zone ∧
    (held zone).get? name = some b

/-- A table of a description, and the table that a zone has instead. -/
structure Column (α β : Type) where
  entries : ZoneConfig → Table Text α
  held : Zone → Table Text β
  /-- What a zone with this apex makes of a value. -/
  value : Text → α → β
  /-- The description with other entries in this table. -/
  replace : ZoneConfig → Table Text α → ZoneConfig
  held_made : ∀ config,
    held config.made = completed config.apex (value config.apex) (entries config)
  perm : ∀ {config config' : ZoneConfig}, config.IsReordered config' →
    (entries config').Perm (entries config)
  entries_replace : ∀ config t, entries (replace config t) = t
  reordered_replace : ∀ {config : ZoneConfig} {t : Table Text α}, t.Perm (entries config) →
    config.IsReordered (replace config t)

namespace Column

/-- The addresses of names. -/
def addresses : Column (List Ipv4Address) (List Ipv4Address) where
  entries := ZoneConfig.addresses
  held := Zone.addresses
  value := fun _ => id
  replace := fun config t => { config with addresses := t }
  held_made := fun _ => rfl
  perm := by
    rintro config _ ⟨_, _, _, _, hperm, -, -, -, rfl⟩
    exact hperm
  entries_replace := fun _ _ => rfl
  reordered_replace := fun hperm => ⟨_, _, _, _, hperm, .refl _, .refl _, .refl _, rfl⟩

/-- The names that aliases stand for. -/
def aliases : Column Text Text where
  entries := ZoneConfig.aliases
  held := Zone.aliases
  value := complete
  replace := fun config t => { config with aliases := t }
  held_made := fun _ => rfl
  perm := by
    rintro config _ ⟨_, _, _, _, -, hperm, -, -, rfl⟩
    exact hperm
  entries_replace := fun _ _ => rfl
  reordered_replace := fun hperm => ⟨_, _, _, _, .refl _, hperm, .refl _, .refl _, rfl⟩

/-- The texts of names. -/
def texts : Column (List Text) (List Text) where
  entries := ZoneConfig.texts
  held := Zone.texts
  value := fun _ => id
  replace := fun config t => { config with texts := t }
  held_made := fun _ => rfl
  perm := by
    rintro config _ ⟨_, _, _, _, -, -, hperm, -, rfl⟩
    exact hperm
  entries_replace := fun _ _ => rfl
  reordered_replace := fun hperm => ⟨_, _, _, _, .refl _, .refl _, hperm, .refl _, rfl⟩

variable {column : Column α β} {key : Text} {a : α}

/-- Under the name of an entry, a zone has the value of some entry of this name. -/
lemma exists_held (husable : config.IsUsable) (hreorder : config.IsReordered config')
    (hmem : (key, a) ∈ column.entries config) :
    ∃ zone key' a', Zone.ofConfig config' = .ok zone ∧ (key', a') ∈ column.entries config ∧
      complete config.apex key' = complete config.apex key ∧
      (column.held zone).get? (complete config.apex key) = some (column.value config.apex a') := by
  have hmade := Zone.ofConfig_eq_ok_iff.mpr ⟨husable.reorder hreorder, rfl⟩
  obtain ⟨b, hget⟩ := exists_completed config.apex (column.value config.apex)
    ((column.perm hreorder).mem_iff.mpr hmem)
  obtain ⟨key', a', hmem', hname, rfl⟩ := exists_entry_of_completed hget
  refine ⟨_, key', a', hmade, (column.perm hreorder).mem_iff.mp hmem', hname, ?_⟩
  rw [column.held_made, hreorder.apex_eq, hget]

/-- An entry that is gone through last is held. -/
lemma mayHold (husable : config.IsUsable) (hmem : (key, a) ∈ column.entries config) :
    config.MayHold column.held (complete config.apex key) (column.value config.apex a) := by
  obtain ⟨before, after, hsplit⟩ := List.append_of_mem hmem
  have hperm : (before ++ after ++ [(key, a)]).Perm (column.entries config) := by
    rw [hsplit, List.append_assoc]
    exact (List.perm_append_singleton _ _).append_left before
  have hreorder := column.reordered_replace hperm
  refine ⟨_, _, hreorder, Zone.ofConfig_eq_ok_iff.mpr ⟨husable.reorder hreorder, rfl⟩, ?_⟩
  rw [column.held_made, column.entries_replace, hreorder.apex_eq, completed_concat]

/-- An entry is always held if all entries of its name agree with it. -/
lemma alwaysHolds_iff (husable : config.IsUsable) (hmem : (key, a) ∈ column.entries config) :
    config.AlwaysHolds column.held (complete config.apex key) (column.value config.apex a) ↔
      ∀ key' a', (key', a') ∈ column.entries config →
        complete config.apex key' = complete config.apex key →
        column.value config.apex a' = column.value config.apex a := by
  constructor
  · intro halways key' a' hmem' hname
    obtain ⟨config', zone, hreorder, hzone, hget⟩ := column.mayHold husable hmem'
    obtain ⟨zone', hzone', hget'⟩ := halways config' hreorder
    rw [hzone'] at hzone
    cases hzone
    rw [hname, hget'] at hget
    exact (Option.some.inj hget).symm
  · intro hagree config' hreorder
    obtain ⟨zone, key', a', hzone, hmem', hname, hget⟩ := exists_held husable hreorder hmem
    exact ⟨zone, hzone, by rw [hget, hagree key' a' hmem' hname]⟩

end Column

/-- What becomes of the entries of a table.  Each has a name.  It is always held exactly if all
entries of this name agree with it, there is an order in which it is, and in any order one of the
entries of its name is. -/
def Settled (config : ZoneConfig) (apex : Text) (entries : Table Text α)
    (held : Zone → Table Text β) (value : α → β) : Prop :=
  ∀ key a, (key, a) ∈ entries → ∃ name, qualify apex key = .ok name ∧
    (config.AlwaysHolds held name (value a) ↔ ∀ key' a', (key', a') ∈ entries →
      qualify apex key' = .ok name → value a' = value a) ∧
    config.MayHold held name (value a) ∧
    ∀ config', config.IsReordered config' →
      ∃ zone key' a', Zone.ofConfig config' = .ok zone ∧ (key', a') ∈ entries ∧
        qualify apex key' = .ok name ∧ (held zone).get? name = some (value a')

lemma Column.settled (column : Column α β) (husable : config.IsUsable)
    (hkeys : ∀ e ∈ column.entries config, defect? (complete config.apex e.1) = none) :
    config.Settled config.apex (column.entries config) column.held (column.value config.apex) := by
  have hname {key key' : Text} {a' : α} (hmem : (key', a') ∈ column.entries config) :
      qualify config.apex key' = .ok (complete config.apex key) ↔
        complete config.apex key' = complete config.apex key := by
    rw [qualify_eq_ok_iff, and_iff_right (hkeys _ hmem), eq_comm]
  intro key a hmem
  refine ⟨complete config.apex key, (hname hmem).mpr rfl, ?_, column.mayHold husable hmem, ?_⟩
  · rw [column.alwaysHolds_iff husable hmem]
    refine forall₃_congr fun key' a' hmem' => ?_
    rw [hname hmem']
  · intro config' hreorder
    obtain ⟨zone, key', a', hzone, hmem', heq, hget⟩ := exists_held husable hreorder hmem
    exact ⟨zone, key', a', hzone, hmem', (hname hmem').mpr heq, hget⟩

end ZoneConfig

namespace Zone

/-- **What is left of a description.**  If a zone is made of a description, one is made of it in
every order of its tables.  An entry for addresses, an alias or texts is then held under its full
name, whatever the order, exactly if no entry of this name disagrees with it.  Of entries that
disagree, every one is held in some order, and in each order one of them is. -/
theorem keeps_undisputed_entries {config : ZoneConfig} {zone : Zone}
    (h : ofConfig config = .ok zone) :
    (∀ config', config.IsReordered config' → ∃ zone', ofConfig config' = .ok zone') ∧
      config.Settled zone.apex config.addresses Zone.addresses id ∧
      config.Settled zone.apex config.aliases Zone.aliases (complete zone.apex) ∧
      config.Settled zone.apex config.texts Zone.texts id := by
  obtain ⟨husable, rfl⟩ := ofConfig_eq_ok_iff.mp h
  exact ⟨fun config' hreorder => ⟨_, ofConfig_eq_ok_iff.mpr ⟨husable.reorder hreorder, rfl⟩⟩,
    ZoneConfig.Column.addresses.settled husable husable.addresses,
    ZoneConfig.Column.aliases.settled husable fun e he => (husable.aliases e he).1,
    ZoneConfig.Column.texts.settled husable husable.texts⟩

/-- A zone with a key that is written twice, with and without an upper case letter. -/
def disputedConfig : ZoneConfig where
  domain := "a".toList
  primary := "a".toList
  admin := "a".toList
  serial := 1
  addresses := [("b".toList, [.ofOctets 10 0 0 1]), ("B".toList, [.ofOctets 10 0 0 2])]

/-- A zone is made of it, in which either entry may be missing. -/
theorem keeps_undisputed_entries_disputed :
    ∃ zone name, ofConfig disputedConfig = .ok zone ∧
      qualify zone.apex "b".toList = .ok name ∧ qualify zone.apex "B".toList = .ok name ∧
      ¬ disputedConfig.AlwaysHolds Zone.addresses name [.ofOctets 10 0 0 1] ∧
      ¬ disputedConfig.AlwaysHolds Zone.addresses name [.ofOctets 10 0 0 2] := by
  obtain ⟨zone, hzone, hapex⟩ : ∃ zone, ofConfig disputedConfig = .ok zone ∧
      zone.apex = "a".toList := ⟨_, rfl, rfl⟩
  have hlower : qualify zone.apex "b".toList = .ok "b.a".toList := by rw [hapex]; rfl
  have hupper : qualify zone.apex "B".toList = .ok "b.a".toList := by rw [hapex]; rfl
  obtain ⟨-, haddresses, -⟩ := keeps_undisputed_entries hzone
  have hfirst : ("b".toList, [.ofOctets 10 0 0 1]) ∈ disputedConfig.addresses := by
    simp [disputedConfig]
  have hsecond : ("B".toList, [.ofOctets 10 0 0 2]) ∈ disputedConfig.addresses := by
    simp [disputedConfig]
  refine ⟨zone, "b.a".toList, hzone, hlower, hupper, ?_, ?_⟩
  · obtain ⟨name, hname, halways, -⟩ := haddresses _ _ hfirst
    cases hname.symm.trans hlower
    intro hheld
    have hsame := halways.mp hheld _ _ hsecond hupper
    exact absurd hsame (by decide)
  · obtain ⟨name, hname, halways, -⟩ := haddresses _ _ hsecond
    cases hname.symm.trans hupper
    intro hheld
    have hsame := halways.mp hheld _ _ hfirst hlower
    exact absurd hsame (by decide)

end Zone

end Nameserver

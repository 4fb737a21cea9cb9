import Nameserver.Proofs.Zone.Entries
import Nameserver.Proofs.Zone.Store

/-!
# All names of a zone

The names of a description are brought into their full form and vetted one after the other:
`ZoneConfig.fullNames` lists them in the order in which they are looked at, and `Zone.ofConfig_eq`
says that making a zone is vetting this list.  So a description is refused exactly if one of its
full names cannot be written, and the refusal tells one that cannot.

**What a zone has.**  All names of a zone (`Zone.names`) come from that list, and therefore they are
in lower case, keep to the lengths and come back from the wire (`Name.IsHeld`).

**Where they are.**  A key is completed to the apex or to a name below it, and what is completed
stays as it is when it is completed again (`Zone.complete_of_isSameOrBelow`), so the names under
which a zone has its records are their own full forms.
-/

namespace Nameserver

/-! ## Names on the wire -/

namespace Name

/-- The lengths of labels and of the whole name are in bounds. -/
def KeepsLengths (name : Text) : Prop :=
  (∀ part ∈ Text.parts name, 1 ≤ Utf8.size part ∧ Utf8.size part ≤ 63) ∧ size name ≤ 255

/-- A name as a zone has it: without capitals, with dots between labels of 1 to 63 octets, of no
more than 255 octets on the wire, and read from there as it was written. -/
structure IsHeld (name : Text) : Prop where
  noCapitals : ∀ c ∈ name, ¬ ('A' ≤ c ∧ c ≤ 'Z')
  labelled : ∃ labels, labels ≠ [] ∧ name = Text.join labels ∧
    ∀ label ∈ labels, '.' ∉ label ∧ 1 ≤ Utf8.size label ∧ Utf8.size label ≤ 63
  /-- The whole name is short enough. -/
  fits : size name ≤ 255
  /-- Its size is what it takes on the wire. -/
  length_encode : (encode name).length = size name
  returns : Read.name { message := encode name } =
    .ok name { message := encode name, offset := size name }

end Name

lemma Utf8.one_le_size_iff {t : Text} : 1 ≤ Utf8.size t ↔ t ≠ [] := by
  rw [Utf8.size, Nat.one_le_iff_ne_zero, ne_eq, List.length_eq_zero_iff, Utf8.encode_eq_nil]

lemma Text.not_capital_of_lower {t : Text} (h : t.lower = t) {c : Char} (hc : c ∈ t) :
    ¬ ('A' ≤ c ∧ c ≤ 'Z') := by
  rintro ⟨hfirst, hlast⟩
  have hsame : c.toLower = c := List.map_inj_left.mp (h.trans t.map_id.symm) c hc
  have hnat := congrArg Char.toNat hsame
  have h₁ : 65 ≤ c.toNat := hfirst
  have h₂ : c.toNat ≤ 90 := hlast
  rw [Text.toNat_toLower, if_pos ⟨h₁, h₂⟩] at hnat
  omega

namespace Zone

open Name (KeepsLengths IsHeld)

variable {zone : Zone} {config : ZoneConfig} {apex key name : Text}

lemma defect?_eq_none_iff_keepsLengths : defect? name = none ↔ KeepsLengths name := by
  rw [defect?_eq_none_iff, KeepsLengths]
  simp only [Utf8.one_le_size_iff]
  rfl

lemma IsName.isHeld (h : IsName name) : IsHeld name where
  noCapitals := fun c hc => Text.not_capital_of_lower h.normal.lower hc
  labelled := by
    refine ⟨Text.parts name, Text.parts_ne_nil name, (Text.join_parts name).symm, ?_⟩
    intro label hlabel
    obtain ⟨hne, hlong⟩ := h.labels label hlabel
    exact ⟨Text.dot_not_mem_of_mem_parts hlabel, Utf8.one_le_size_iff.mpr hne, hlong⟩
  fits := h.fits
  length_encode := Name.length_encode name
  returns := by
    have hread := Read.yields_name (.inr h.labels) [] []
    simpa [Reader.between, Name.length_encode] using hread

/-! ## Completing names -/

/-- A key is completed to the apex or to a name below it. -/
lemma isSameOrBelow_complete (apex key : Text) :
    Text.isSameOrBelow (complete apex key) apex = true := by
  rw [Text.isSameOrBelow_iff]
  unfold complete
  dsimp only
  split_ifs with hroot hbelow
  · exact .inl rfl
  · rwa [Bool.or_eq_true, beq_iff_eq, List.isSuffixOf_iff_suffix] at hbelow
  · exact .inr (List.suffix_append _ _)

/-- A name in normal form that is the apex or below it is its own full form. -/
lemma complete_of_isSameOrBelow (hname : IsName name)
    (hbelow : Text.isSameOrBelow name apex = true) : complete apex name = name := by
  rw [Text.isSameOrBelow_iff] at hbelow
  unfold complete
  dsimp only
  rw [hname.normal.normalize_eq]
  split_ifs with hroot hfull
  · -- the mark of the apex is nothing that could be below an apex
    simp only [Bool.or_eq_true, List.isEmpty_iff, hname.ne_nil, beq_iff_eq, false_or] at hroot
    refine (hbelow.resolve_right ?_).symm
    rintro ⟨front, hfront⟩
    have hdot : '.' ∈ name := by
      rw [← hfront]
      simp
    simp [hroot] at hdot
  · rfl
  · refine absurd ?_ hfull
    rwa [Bool.or_eq_true, beq_iff_eq, List.isSuffixOf_iff_suffix]

/-- What is completed stays as it is when it is completed again. -/
lemma qualify_complete (h : IsName (complete apex key)) :
    qualify apex (complete apex key) = .ok (complete apex key) := by
  have hsame := complete_of_isSameOrBelow h (isSameOrBelow_complete apex key)
  exact qualify_eq_ok_iff.mpr ⟨by rw [hsame, defect?_eq_none_iff]; exact ⟨h.labels, h.fits⟩,
    hsame.symm⟩

end Zone

lemma Table.mem_of_mem_ofEntries {α β : Type} [DecidableEq α] {entries : List (α × β)} {e : α × β}
    (h : e ∈ ofEntries entries) : e ∈ entries := by
  induction entries using List.reverseRecOn with
  | nil => cases h
  | append_singleton entries last ih =>
      rw [ofEntries, List.foldl_concat, insert, List.mem_cons] at h
      rcases h with rfl | h
      · exact List.mem_append_right _ (List.mem_singleton_self _)
      · exact List.mem_append_left _ (ih (List.mem_of_mem_filter h))

/-! ## Vetting -/

namespace Zone

/-- Checks names one after the other, up to the first that cannot be written. -/
def vet : List Text → Except Failure Unit
  | [] => .ok ()
  | name :: names => valid name >>= fun _ => vet names

section Vetting

variable {α β γ : Type} {names : List Text} {name apex : Text} {failure : Failure}

lemma vet_append (names names' : List Text) :
    vet (names ++ names') = vet names >>= fun _ => vet names' := by
  induction names with
  | nil => rfl
  | cons name names ih =>
      rw [List.cons_append, vet, vet, ih]
      cases valid name <;> rfl

lemma vet_eq_ok_iff : vet names = .ok () ↔ ∀ name ∈ names, defect? name = none := by
  induction names with
  | nil => simp [vet]
  | cons name names ih =>
      rw [vet, Except.bind_eq_ok, List.forall_mem_cons, ← ih]
      simp only [valid_eq_ok_iff]
      simp

/-- Where vetting fails, one of the names cannot be written. -/
lemma exists_of_vet_eq_error (h : vet names = .error failure) :
    ∃ name ∈ names, ∃ defect, defect? name = some defect ∧ failure = .invalidName name defect := by
  induction names with
  | nil => cases h
  | cons name names ih =>
      rw [vet, valid] at h
      cases hdefect : defect? name with
      | some defect =>
          rw [hdefect] at h
          cases h
          exact ⟨name, List.mem_cons_self, defect, hdefect, rfl⟩
      | none =>
          rw [hdefect] at h
          obtain ⟨other, hmem, hother⟩ := ih h
          exact ⟨other, List.mem_cons_of_mem _ hmem, hother⟩

/-- A step that vets some names, and then goes on with a value. -/
def Vets (step : Except Failure α) (names : List Text) (a : α) : Prop :=
  step = (vet names).map fun _ => a

lemma vets_valid (name : Text) : Vets (valid name) [name] name := by
  unfold Vets vet valid
  cases defect? name <;> rfl

lemma vets_ok (a : α) : Vets (.ok a) [] a := rfl

lemma Vets.map {step : Except Failure α} {a : α} (h : Vets step names a) (f : α → β) :
    Vets (step.map f) names (f a) := by
  rw [Vets, h]
  cases vet names <;> rfl

lemma Vets.bind {step : Except Failure α} {a : α} {next : α → Except Failure β}
    {names' : List Text} {b : β} (h : Vets step names a) (h' : Vets (next a) names' b) :
    Vets (step >>= next) (names ++ names') b := by
  rw [Vets, vet_append, h]
  cases vet names with
  | error failure => rfl
  | ok _ => exact h'

lemma Vets.mapM {f : α → Except Failure β} {part : α → List Text} {g : α → β}
    (h : ∀ a, Vets (f a) (part a) (g a)) (as : List α) :
    Vets (as.mapM f) (as.flatMap part) (as.map g) := by
  induction as with
  | nil => exact vets_ok []
  | cons a as ih =>
      rw [List.mapM_cons, List.flatMap_cons, List.map_cons, ← List.append_nil (as.flatMap part)]
      exact (h a).bind (ih.bind (vets_ok _))

lemma vets_qualifyTable {value : α → Except Failure β} {part : α → List Text} {g : α → β}
    (h : ∀ a, Vets (value a) (part a) (g a)) (apex : Text) (t : Table Text α) :
    Vets (qualifyTable apex value t) (t.flatMap fun e => complete apex e.1 :: part e.2)
      (completed apex g t) := by
  refine Vets.map (Vets.mapM (fun e => ?_) t) Table.ofEntries
  rw [← List.append_nil (part e.2)]
  exact (vets_valid (complete apex e.1)).bind ((h e.2).bind (vets_ok _))

end Vetting

end Zone

namespace ZoneConfig

open Zone

variable {config : ZoneConfig} {name : Text}

/-- The names of a description that stand for themselves. -/
def hostNames (config : ZoneConfig) : List Text :=
  config.domain :: config.exchanges.map (·.1) ++
    [config.primary, config.admin.map fun c => if c = '@' then '.' else c] ++ config.nameservers

/-- The names of a description that may lack the apex. -/
def recordKeys (config : ZoneConfig) : List Text :=
  config.addresses.map (·.1) ++ config.aliases.flatMap (fun e => [e.1, e.2]) ++
    config.texts.map (·.1)

/-- All names of a description in their full form, in the order in which they are vetted. -/
def fullNames (config : ZoneConfig) : List Text :=
  config.hostNames.map Text.normalize ++ config.recordKeys.map (complete config.apex)

/-- Names that vetting lets pass are in normal form as well. -/
lemma isName_of_mem_fullNames (hvet : vet config.fullNames = .ok ()) (h : name ∈ config.fullNames) :
    IsName name := by
  rw [vet_eq_ok_iff] at hvet
  have hsound {other : Text} (hmem : other ∈ config.fullNames) (hnormal : Text.IsNormal other) :
      IsName other := by
    obtain ⟨hlabels, hfits⟩ := defect?_eq_none_iff.mp (hvet other hmem)
    exact ⟨hnormal, hlabels, hfits⟩
  have hapex : IsName config.apex :=
    hsound (by simp [fullNames, hostNames, apex]) (Text.isNormal_normalize _)
  refine hsound h ?_
  rcases List.mem_append.mp h with hhost | hkey
  · obtain ⟨host, -, rfl⟩ := List.mem_map.mp hhost
    exact Text.isNormal_normalize host
  · obtain ⟨key, -, rfl⟩ := List.mem_map.mp hkey
    exact isNormal_complete hapex key

end ZoneConfig

namespace Zone

open Name (KeepsLengths IsHeld)

variable {zone : Zone} {config : ZoneConfig} {name : Text}

/-- Making a zone is vetting its names. -/
theorem ofConfig_eq (config : ZoneConfig) :
    ofConfig config = (vet config.fullNames).map fun _ => config.made := by
  -- the names as the steps come to them
  have hnames : config.fullNames =
      [config.apex] ++ (config.exchanges.flatMap (fun e => [Text.normalize e.1]) ++
        ([Text.normalize config.primary] ++ ([config.adminName] ++
          (config.nameservers.flatMap (fun host => [Text.normalize host]) ++
            (config.addresses.flatMap (fun e => [complete config.apex e.1]) ++
              (config.aliases.flatMap
                  (fun e => [complete config.apex e.1, complete config.apex e.2]) ++
                (config.texts.flatMap (fun e => [complete config.apex e.1]) ++ []))))))) := by
    simp [ZoneConfig.fullNames, ZoneConfig.hostNames, ZoneConfig.recordKeys, ZoneConfig.apex,
      ZoneConfig.adminName, List.map_eq_flatMap, List.flatMap_assoc]
  have hplain {α : Type} (a : α) : Vets (.ok a) [] (id a) := vets_ok a
  have hexchange (e : Text × UInt16) :
      Vets (do return (← valid (Text.normalize e.1), e.2)) [Text.normalize e.1]
        (Text.normalize e.1, e.2) :=
    (vets_valid _).bind (vets_ok _)
  rw [hnames]
  exact (vets_valid config.apex).bind <| (Vets.mapM hexchange _).bind <| (vets_valid _).bind <|
    (vets_valid _).bind <| (Vets.mapM (fun host => vets_valid _) _).bind <|
    (vets_qualifyTable hplain _ _).bind <|
    (vets_qualifyTable (fun target => vets_valid _) _ _).bind <|
    (vets_qualifyTable hplain _ _).bind (vets_ok config.made)

lemma ofConfig_eq_ok_iff_vet :
    ofConfig config = .ok zone ↔ vet config.fullNames = .ok () ∧ zone = config.made := by
  rw [ofConfig_eq, Except.map_eq_ok]
  constructor
  · rintro ⟨_, hvet, rfl⟩
    exact ⟨hvet, rfl⟩
  · rintro ⟨hvet, rfl⟩
    exact ⟨(), hvet, rfl⟩

/-! ## The names of a zone -/

/-- The names under which a zone has its records, and those that its aliases stand for. -/
def recordNames (zone : Zone) : List Text :=
  zone.addresses.map (·.1) ++ zone.aliases.map (·.1) ++ zone.aliases.map (·.2) ++
    zone.texts.map (·.1)

/-- All names of a zone. -/
def names (zone : Zone) : List Text :=
  zone.apex :: zone.primary :: zone.admin :: zone.nameservers ++ zone.exchanges.map (·.1) ++
    zone.recordNames

lemma exists_of_mem_completed {α β : Type} {apex : Text} {value : α → β} {t : Table Text α}
    {e : Text × β} (h : e ∈ completed apex value t) :
    ∃ key a, (key, a) ∈ t ∧ e = (complete apex key, value a) := by
  obtain ⟨⟨key, a⟩, hmem, rfl⟩ := List.mem_map.mp (Table.mem_of_mem_ofEntries h)
  exact ⟨key, a, hmem, rfl⟩

/-- The names of records are completed from keys. -/
lemma exists_key_of_mem_recordNames (h : name ∈ config.made.recordNames) :
    ∃ key ∈ config.recordKeys, name = complete config.apex key := by
  simp only [recordNames, List.mem_append, List.mem_map] at h
  simp only [ZoneConfig.recordKeys, List.mem_append, List.mem_map, List.mem_flatMap]
  rcases h with ((⟨e, he, rfl⟩ | ⟨e, he, rfl⟩) | ⟨e, he, rfl⟩) | ⟨e, he, rfl⟩
  · obtain ⟨key, addresses, hmem, rfl⟩ := exists_of_mem_completed he
    exact ⟨key, .inl (.inl ⟨_, hmem, rfl⟩), rfl⟩
  · obtain ⟨key, target, hmem, rfl⟩ := exists_of_mem_completed he
    exact ⟨key, .inl (.inr ⟨_, hmem, by simp⟩), rfl⟩
  · obtain ⟨key, target, hmem, rfl⟩ := exists_of_mem_completed he
    exact ⟨target, .inl (.inr ⟨_, hmem, by simp⟩), rfl⟩
  · obtain ⟨key, texts, hmem, rfl⟩ := exists_of_mem_completed he
    exact ⟨key, .inr ⟨_, hmem, rfl⟩, rfl⟩

/-- All names of a zone are full names of its description. -/
lemma mem_fullNames_of_mem_names (h : name ∈ config.made.names) : name ∈ config.fullNames := by
  rw [ZoneConfig.fullNames, List.mem_append]
  rcases List.mem_append.mp h with hhost | hrecord
  · have hexchanges : config.made.exchanges.map (·.1) ⊆
        (config.exchanges.map (·.1)).map Text.normalize := by
      intro host hhost
      obtain ⟨e, he, rfl⟩ := List.mem_map.mp hhost
      rw [ZoneConfig.made, sortBy_eq_insertionSort, List.mem_insertionSort] at he
      obtain ⟨written, hmem, rfl⟩ := List.mem_map.mp he
      exact List.mem_map_of_mem (List.mem_map.mpr ⟨written, hmem, rfl⟩)
    left
    simp only [List.mem_append, List.mem_cons] at hhost
    simp only [ZoneConfig.hostNames, List.map_append, List.map_cons, List.mem_append, List.mem_cons]
    rcases hhost with (rfl | rfl | rfl | hhost) | hhost
    · exact .inl (.inl (.inl rfl))
    · exact .inl (.inr (.inl rfl))
    · exact .inl (.inr (.inr (.inl rfl)))
    · exact .inr hhost
    · exact .inl (.inl (.inr (hexchanges hhost)))
  · obtain ⟨key, hkey, rfl⟩ := exists_key_of_mem_recordNames hrecord
    exact .inr (List.mem_map_of_mem hkey)

lemma isName_of_mem_names (h : ofConfig config = .ok zone) (hname : name ∈ zone.names) :
    IsName name := by
  obtain ⟨hvet, rfl⟩ := ofConfig_eq_ok_iff_vet.mp h
  exact ZoneConfig.isName_of_mem_fullNames hvet (mem_fullNames_of_mem_names hname)

/-- **The names of a zone.**  All names of a zone that is made are in lower case, keep to the
lengths, and come back from the wire.  Its records and the targets of its aliases are at the apex or
below it, under names that are their own full forms, and its mail exchanges are in order.  A zone is
refused exactly if a full name of its description does not keep to the lengths, and the refusal
tells one that does not. -/
theorem holds_wire_names (config : ZoneConfig) :
    (∀ zone, ofConfig config = .ok zone →
      (∀ name ∈ zone.names, IsHeld name) ∧
      (∀ name ∈ zone.recordNames,
        zone.contains name = true ∧ qualify zone.apex name = .ok name) ∧
      zone.exchanges.Pairwise fun x y => x.1 ≤ y.1) ∧
    ((∃ name ∈ config.fullNames, ¬ KeepsLengths name) ↔
      ∃ name ∈ config.fullNames, ∃ defect, defect? name = some defect ∧
        ofConfig config = .error (.invalidName name defect)) := by
  constructor
  · intro zone hzone
    obtain ⟨hvet, rfl⟩ := ofConfig_eq_ok_iff_vet.mp hzone
    refine ⟨fun name hname => ?_, fun name hname => ?_, ?_⟩
    · exact (isName_of_mem_names hzone hname).isHeld
    · obtain ⟨key, hkey, rfl⟩ := exists_key_of_mem_recordNames hname
      have hfull : complete config.apex key ∈ config.fullNames :=
        List.mem_append_right _ (List.mem_map_of_mem hkey)
      exact ⟨isSameOrBelow_complete config.apex key,
        qualify_complete (ZoneConfig.isName_of_mem_fullNames hvet hfull)⟩
    · refine (pairwise_exchanges_of_ofConfig hzone).imp fun hle => ?_
      have hfirst := Prod.Lex.monotone_fst_ofLex (exchangeLe_iff.mp hle)
      exact hfirst
  · constructor
    · rintro ⟨name, hmem, hbroken⟩
      cases hvet : vet config.fullNames with
      | ok _ =>
          rw [← defect?_eq_none_iff_keepsLengths] at hbroken
          exact absurd (vet_eq_ok_iff.mp hvet name hmem) hbroken
      | error failure =>
          obtain ⟨first, hfirst, defect, hdefect, rfl⟩ := exists_of_vet_eq_error hvet
          exact ⟨first, hfirst, defect, hdefect, by rw [ofConfig_eq, hvet]; rfl⟩
    · rintro ⟨name, hmem, defect, hdefect, -⟩
      refine ⟨name, hmem, ?_⟩
      rw [← defect?_eq_none_iff_keepsLengths, hdefect]
      exact Option.some_ne_none defect

/-- A zone with names in every spelling that is taken. -/
def mixedConfig : ZoneConfig where
  domain := "A.".toList
  primary := "NS.a..".toList
  admin := "Host@A".toList
  serial := 1
  nameservers := ["Ns.a".toList]
  addresses := [("X".toList, [.ofOctets 10 0 0 1])]
  aliases := [("@".toList, "x.A".toList)]
  exchanges := [("Mail.a".toList, 10), ("Back.a".toList, 20)]

/-- The same zone with an alias for a label that is too long. -/
def longLabelConfig : ZoneConfig :=
  { mixedConfig with aliases := [("@".toList, List.replicate 64 'x')] }

/-- The one is made, with the target of the alias in full, and the other is refused. -/
theorem holds_wire_names_mixed :
    (∃ zone, ofConfig mixedConfig = .ok zone ∧ "x.a".toList ∈ zone.recordNames ∧
      IsHeld "x.a".toList ∧ zone.contains "x.a".toList = true ∧
      zone.exchanges = [("back.a".toList, 20), ("mail.a".toList, 10)]) ∧
    ∃ name defect, ofConfig longLabelConfig = .error (.invalidName name defect) := by
  obtain ⟨zone, hzone, hmem, hexchanges⟩ : ∃ zone, ofConfig mixedConfig = .ok zone ∧
      "x.a".toList ∈ zone.recordNames ∧
      zone.exchanges = [("back.a".toList, 20), ("mail.a".toList, 10)] :=
    ⟨_, rfl, by decide, rfl⟩
  obtain ⟨hmade, -⟩ := holds_wire_names mixedConfig
  obtain ⟨hheld, hrecords, -⟩ := hmade zone hzone
  refine ⟨⟨zone, hzone, hmem, hheld _ (List.mem_append_right _ hmem), (hrecords _ hmem).1,
    hexchanges⟩, ?_⟩
  have hlong : ¬ KeepsLengths (complete longLabelConfig.apex (List.replicate 64 'x')) := by
    rintro ⟨hparts, -⟩
    exact absurd (hparts (List.replicate 64 'x') (by decide +kernel)).2 (by decide +kernel)
  obtain ⟨-, hrefused⟩ := holds_wire_names longLabelConfig
  obtain ⟨name, -, defect, -, herror⟩ := hrefused.mp ⟨_, by decide +kernel, hlong⟩
  exact ⟨name, defect, herror⟩

end Zone

end Nameserver

import Mathlib
import Nameserver.Proofs.Message.Dotted
import Nameserver.Proofs.Zone.Store

/-!
# Which zone a name is in

A store tries a name and what stands behind each of its dots, longest first, and so finds the zone
of longest apex among those that the name is in (`ZoneStore.find?_eq_some_iff`).

**Labels.**  Zones are looked up by text, while a query has labels, any octets behind their lengths.
The text of a query has a dot where a label ends and nowhere else, so a name is in a zone if its
last labels are those of the apex (`Zone.contains_iff_labels`).

**Octets that are no text.**  What is ill-formed in a label is read as `U+FFFD`.  Every apex with
this character is therefore also matched by labels that are not its own
(`Zone.exists_labels_of_replaced`), and no other apex is.

The result is `ZoneStore.finds_by_labels`.
-/

namespace Nameserver

namespace Name

variable {name t : Text} {labels : List Bytes} {rest : Bytes}

/-! ## What is behind the dots -/

lemma mem_go_iff : t ∈ ancestors.go name ↔ '.' :: t <:+ name := by
  induction name with
  | nil => simp [ancestors.go]
  | cons c name ih =>
      rw [ancestors.go, List.suffix_cons_iff, List.cons.injEq]
      split_ifs with hc
      · simp [ih, hc]
      · simp [ih, Ne.symm hc]

/-- What a store tries are the name and all that it is below. -/
lemma mem_ancestors_iff : t ∈ ancestors name ↔ Text.isSameOrBelow name t = true := by
  rw [ancestors, List.mem_cons, mem_go_iff, Text.isSameOrBelow_iff, eq_comm]

lemma length_lt_of_mem_go (h : t ∈ ancestors.go name) : t.length < name.length :=
  (mem_go_iff.mp h).length_le

/-- It tries longer ones first. -/
lemma pairwise_ancestors (name : Text) :
    (ancestors name).Pairwise fun first second => second.length < first.length := by
  have hgo : (ancestors.go name).Pairwise fun first second => second.length < first.length := by
    induction name with
    | nil => exact List.Pairwise.nil
    | cons c name ih =>
        rw [ancestors.go]
        split_ifs
        · exact List.pairwise_cons.mpr ⟨fun t ht => length_lt_of_mem_go ht, ih⟩
        · exact ih
  exact List.pairwise_cons.mpr ⟨fun t ht => length_lt_of_mem_go ht, hgo⟩

/-! ## Labels without their case -/

/-- The labels with letters in lower case. -/
def lowered (labels : List Bytes) : List Bytes := labels.map (·.map Utf8.lowerOctet)

/-- A name that was read has the parts that its labels are read as. -/
lemma parts_lower_dotted (hne : labels ≠ []) (hdotless : AreDotless labels) :
    Text.parts (dotted labels).lower = (lowered labels).map Utf8.decodeLossy := by
  rw [Text.parts_lower, parts_dotted hne hdotless]
  simp only [lowered, List.map_map, List.map_inj_left, Function.comp_apply, Utf8.decodeLossy_lower,
    implies_true]

end Name

namespace Zone

variable {zone : Zone} {labels : List Bytes} {name : Text}

/-- The labels of an apex are its parts, and in lower case already. -/
lemma IsName.lowered_labels (h : IsName name) :
    Name.lowered (Name.labels name) = (Text.parts name).map Utf8.encode := by
  have hlower : (Text.parts name).map Text.lower = Text.parts name := by
    rw [← Text.parts_lower, h.normal.lower]
  conv_rhs => rw [← hlower]
  rw [Name.labels_eq_map h.labels, Name.lowered, List.map_map, List.map_map]
  exact List.map_congr_left fun part _ => (Utf8.encode_lower part).symm

/-- A name is in a zone if its last labels are those of the apex, whatever the case of letters.  The
labels have to be text, or the apex has no character that ill-formed octets are read as. -/
lemma contains_iff_labels (hzone : zone.IsNamed) (hdotless : Name.AreDotless labels)
    (hread : (∀ label ∈ labels, ∃ t, Utf8.encode t = label) ∨ '\uFFFD' ∉ zone.apex) :
    zone.contains (Name.dotted labels).lower = true ↔
      Name.lowered (Name.labels zone.apex) <:+ Name.lowered labels := by
  rw [contains, Text.isSameOrBelow_iff_parts, hzone.apex.lowered_labels]
  by_cases hroot : labels = []
  · subst hroot
    have hparts := Text.parts_ne_nil zone.apex
    constructor
    · intro hsuffix
      have hmem : [] ∈ Text.parts zone.apex := by
        rcases List.suffix_cons_iff.mp hsuffix with heq | hnil
        · rw [heq]
          exact List.mem_cons_self
        · exact absurd (List.suffix_nil.mp hnil) hparts
      exact absurd rfl (hzone.apex.labels [] hmem).1
    · intro hsuffix
      exact absurd (List.map_eq_nil_iff.mp (List.suffix_nil.mp hsuffix)) hparts
  · rw [Name.parts_lower_dotted hroot hdotless]
    constructor
    · intro hsuffix
      obtain ⟨last, hlast, hparts⟩ := List.suffix_map_iff.mp hsuffix
      -- octets that a part was read from are its own
      have hsame : ∀ octets ∈ last, Utf8.encode (Utf8.decodeLossy octets) = octets := by
        intro octets hoctets
        rcases hread with hread | hreplaced
        · obtain ⟨label, hlabel, rfl⟩ := List.mem_map.mp (hlast.subset hoctets)
          obtain ⟨t, rfl⟩ := hread label hlabel
          rw [← Utf8.encode_lower, Utf8.decodeLossy_encode]
        · refine Utf8.encode_of_decodeLossy rfl fun hc => hreplaced ?_
          refine Text.mem_of_mem_parts ?_ hc
          rw [hparts]
          exact List.mem_map_of_mem hoctets
      have hmap : (Text.parts zone.apex).map Utf8.encode = last := by
        rw [hparts, List.map_map]
        exact (List.map_congr_left hsame).trans (List.map_id last)
      rwa [hmap]
    · intro hsuffix
      rw [← Name.map_decodeLossy_encode (Text.parts zone.apex)]
      exact hsuffix.map _

/-- An apex with a character that ill-formed octets are read as is read from labels, too, that are
not those of the apex. -/
lemma exists_labels_of_replaced (hzone : zone.IsNamed) (hreplaced : '\uFFFD' ∈ zone.apex) :
    ∃ labels, Name.AreSized labels ∧ Name.AreDotless labels ∧ Name.dotted labels = zone.apex ∧
      ¬ Name.lowered (Name.labels zone.apex) <:+ Name.lowered labels := by
  refine ⟨(Text.parts zone.apex).map Utf8.damaged, ?sized, ?dotless, ?read, ?other⟩
  case sized =>
    intro label hlabel
    obtain ⟨part, hpart, rfl⟩ := List.mem_map.mp hlabel
    obtain ⟨hne, hsize⟩ := hzone.apex.labels part hpart
    have hmax : (Utf8.encode part).length ≤ 63 := hsize
    have hlength := Utf8.length_damaged part
    exact ⟨Utf8.damaged_ne_nil hne, by omega⟩
  case dotless =>
    intro label hlabel hdot
    obtain ⟨part, hpart, rfl⟩ := List.mem_map.mp hlabel
    have hoctet := Utf8.mem_encode_of_mem_damaged hdot (by decide)
    exact Text.dot_not_mem_of_mem_parts hpart (Utf8.dot_mem_encode_iff.mp hoctet)
  case read =>
    have hback : Utf8.decodeLossy ∘ Utf8.damaged = id := funext Utf8.decodeLossy_damaged
    rw [Name.dotted, List.map_map, hback, List.map_id, Text.join_parts]
  case other =>
    -- there are as many labels as in the apex, but the one with the character is too short
    intro hsuffix
    rw [hzone.apex.lowered_labels, Name.lowered, List.map_map] at hsuffix
    have hsame := List.map_inj_left.mp (hsuffix.eq_of_length (by simp))
    obtain ⟨part, hpart, hmem⟩ := Text.exists_part_of_mem hreplaced (by decide)
    have hlength := congrArg List.length (hsame part hpart)
    rw [Function.comp_apply, List.length_map, ← Utf8.length_damaged] at hlength
    have hcount := List.count_pos_iff.mpr hmem
    omega

end Zone

namespace ZoneStore

variable {configs : List ZoneConfig} {store : ZoneStore} {zone : Zone} {name : Text}

/-- A zone is found if it holds the name, and no zone of a longer apex does. -/
theorem find?_eq_some_iff (h : ofConfigs configs = .ok store) :
    store.find? name = some zone ↔
      (∃ config ∈ configs, Zone.ofConfig config = .ok zone) ∧ zone.contains name = true ∧
        ∀ config ∈ configs, ∀ other, Zone.ofConfig config = .ok other →
          other.contains name = true → other.apex.length ≤ zone.apex.length := by
  rw [find?, List.findSome?_eq_some_iff]
  constructor
  · rintro ⟨before, apex, after, hsplit, hget, hbefore⟩
    obtain ⟨rfl, hmade⟩ := (get?_eq_some_iff h).mp hget
    have hmem : zone.apex ∈ Name.ancestors name := by simp [hsplit]
    refine ⟨hmade, Name.mem_ancestors_iff.mp hmem, ?_⟩
    intro config hconfig other hother hcontains
    have hotherGet := (get?_eq_some_iff h).mpr ⟨rfl, config, hconfig, hother⟩
    have hotherMem := Name.mem_ancestors_iff.mpr hcontains
    have hpairwise := Name.pairwise_ancestors name
    rw [hsplit] at hotherMem hpairwise
    rcases List.mem_append.mp hotherMem with hbad | hotherMem
    · rw [hbefore _ hbad] at hotherGet
      cases hotherGet
    · rcases List.mem_cons.mp hotherMem with heq | hafter
      · exact le_of_eq (congrArg List.length heq)
      · have hafters := (List.pairwise_cons.mp (List.pairwise_append.mp hpairwise).2.1).1
        exact (hafters _ hafter).le
  · rintro ⟨hmade, hcontains, hlongest⟩
    obtain ⟨before, after, hsplit⟩ := List.append_of_mem (Name.mem_ancestors_iff.mpr hcontains)
    refine ⟨before, zone.apex, after, hsplit, (get?_eq_some_iff h).mpr ⟨rfl, hmade⟩, ?_⟩
    intro apex hapex
    by_contra hsome
    obtain ⟨other, hother⟩ := Option.ne_none_iff_exists'.mp hsome
    obtain ⟨rfl, config, hconfig, hmade⟩ := (get?_eq_some_iff h).mp hother
    have hmem : other.apex ∈ Name.ancestors name := by
      rw [hsplit]
      exact List.mem_append_left _ hapex
    have hpairwise := Name.pairwise_ancestors name
    rw [hsplit] at hpairwise
    have hlt := (List.pairwise_append.mp hpairwise).2.2 _ hapex _ List.mem_cons_self
    have hle := hlongest config hconfig other hmade (Name.mem_ancestors_iff.mp hmem)
    omega

/-- Nothing is found if no zone holds the name. -/
theorem find?_eq_none_iff (h : ofConfigs configs = .ok store) :
    store.find? name = none ↔
      ∀ config ∈ configs, ∀ zone, Zone.ofConfig config = .ok zone → zone.contains name = false := by
  rw [find?, List.findSome?_eq_none_iff]
  constructor
  · intro hnone config hconfig zone hmade
    by_contra hcontains
    rw [Bool.not_eq_false] at hcontains
    have hget := (get?_eq_some_iff h).mpr ⟨rfl, config, hconfig, hmade⟩
    rw [hnone _ (Name.mem_ancestors_iff.mpr hcontains)] at hget
    cases hget
  · intro hnone apex hapex
    by_contra hsome
    obtain ⟨zone, hzone⟩ := Option.ne_none_iff_exists'.mp hsome
    obtain ⟨rfl, config, hconfig, hmade⟩ := (get?_eq_some_iff h).mp hzone
    have hcontains := Name.mem_ancestors_iff.mp hapex
    rw [← Zone.contains, hnone config hconfig zone hmade] at hcontains
    cases hcontains

/-- **The zone of a name.**  A store finds the zone of longest apex among those that hold the name,
and nothing if there is none.  A name that was read is in a zone if its last labels are those of the
apex, whatever the case of letters; for labels that are no text this needs an apex without `U+FFFD`,
the character that ill-formed octets are read as.  A zone whose apex has this character also holds a
name whose labels are not below it. -/
theorem finds_by_labels (h : ofConfigs configs = .ok store) :
    (∀ name zone, store.find? name = some zone ↔
      (∃ config ∈ configs, Zone.ofConfig config = .ok zone) ∧ zone.contains name = true ∧
        ∀ config ∈ configs, ∀ other, Zone.ofConfig config = .ok other →
          other.contains name = true → other.apex.length ≤ zone.apex.length) ∧
    (∀ name, store.find? name = none ↔
      ∀ config ∈ configs, ∀ zone, Zone.ofConfig config = .ok zone →
        zone.contains name = false) ∧
    (∀ config ∈ configs, ∀ zone, Zone.ofConfig config = .ok zone →
      ∀ (before : Bytes) (labels : List Bytes) (rest : Bytes) (text : Text) (reader : Reader),
        Name.AreSized labels →
        Read.name { message := before ++ (Name.wire labels ++ rest), offset := before.length } =
          .ok text reader →
        (∀ label ∈ labels, ∃ t, Utf8.encode t = label) ∨ '\uFFFD' ∉ zone.apex →
        (zone.contains text.lower = true ↔
          Name.lowered (Name.labels zone.apex) <:+ Name.lowered labels)) ∧
    ∀ config ∈ configs, ∀ zone, Zone.ofConfig config = .ok zone → '\uFFFD' ∈ zone.apex →
      ∃ (labels : List Bytes) (text : Text) (reader : Reader),
        Name.AreSized labels ∧ Read.name { message := Name.wire labels } = .ok text reader ∧
          zone.contains text.lower = true ∧
          ¬ Name.lowered (Name.labels zone.apex) <:+ Name.lowered labels := by
  refine ⟨fun name zone => find?_eq_some_iff h, fun name => find?_eq_none_iff h, ?labels, ?other⟩
  case labels =>
    intro config _ zone hmade before labels rest text reader hsized hread hlabels
    obtain ⟨_, rest', ⟨labels', hsized', hdotless, rfl, rfl⟩, hsplit, -⟩ :=
      Read.accepts_name.sound hread
    obtain rfl := Read.wire_append_inj hsized hsized' hsplit
    exact Zone.contains_iff_labels (Zone.isNamed_of_ofConfig hmade) hdotless hlabels
  case other =>
    intro config _ zone hmade hreplaced
    have hzone := Zone.isNamed_of_ofConfig hmade
    obtain ⟨labels, hsized, hdotless, htext, hother⟩ :=
      Zone.exists_labels_of_replaced hzone hreplaced
    have hread := Read.accepts_name.complete ⟨labels, hsized, hdotless, rfl, htext.symm⟩ [] []
    rw [List.append_nil] at hread
    refine ⟨labels, zone.apex, _, hsized, hread, ?_, hother⟩
    rw [hzone.apex.normal.lower, Zone.contains, Text.isSameOrBelow_iff]
    exact .inl rfl

/-- A zone for a domain, without any names in it. -/
def emptyConfig (domain : String) : ZoneConfig :=
  { domain := domain.toList, primary := "ns".toList, admin := "hostmaster".toList, serial := 1 }

/-- Of two zones, one in the other, the inner one is found.  A third one has an apex that other
labels are read as. -/
theorem finds_by_labels_nested :
    ∃ store zone third,
      ofConfigs [emptyConfig "b", emptyConfig "A.b.", emptyConfig "c.\uFFFD"] = .ok store ∧
      store.find? "x.a.b".toList = some zone ∧ zone.apex = "a.b".toList ∧
      zone.contains "x.a.b".toList = true ∧
      Name.lowered (Name.labels zone.apex) <:+ Name.lowered [[88], [97], [66]] ∧
      Zone.ofConfig (emptyConfig "c.\uFFFD") = .ok third ∧ '\uFFFD' ∈ third.apex ∧
      ∃ (labels : List Bytes) (text : Text) (reader : Reader),
        Name.AreSized labels ∧ Read.name { message := Name.wire labels } = .ok text reader ∧
          third.contains text.lower = true ∧
          ¬ Name.lowered (Name.labels third.apex) <:+ Name.lowered labels := by
  obtain ⟨store, hstore⟩ : ∃ store,
      ofConfigs [emptyConfig "b", emptyConfig "A.b.", emptyConfig "c.\uFFFD"] = .ok store :=
    ⟨_, rfl⟩
  obtain ⟨zone, hfound, hapex⟩ : ∃ zone, store.find? "x.a.b".toList = some zone ∧
      zone.apex = "a.b".toList := by
    cases hstore
    exact ⟨_, rfl, rfl⟩
  obtain ⟨third, hthird, hreplaced⟩ : ∃ third, Zone.ofConfig (emptyConfig "c.\uFFFD") = .ok third ∧
      '\uFFFD' ∈ third.apex := ⟨_, rfl, by decide⟩
  have hsized : Name.AreSized [[88], [97], [66]] := by simp [Name.AreSized]
  have htext : ∀ label ∈ [[88], [97], [66]], Utf8.encode (Utf8.decodeLossy label) = label := by
    decide
  obtain ⟨hfind, -, hlabels, hother⟩ := finds_by_labels hstore
  obtain ⟨⟨config, hconfig, hmade⟩, hcontains, -⟩ := (hfind _ _).mp hfound
  have hsuffix := (hlabels config hconfig zone hmade [] [[88], [97], [66]] [] "X.a.B".toList _
    hsized rfl (.inl fun label hlabel => ⟨_, htext label hlabel⟩)).mp hcontains
  exact ⟨store, zone, third, hstore, hfound, hapex, hcontains, hsuffix, hthird, hreplaced,
    hother _ (by simp) third hthird hreplaced⟩

/-- An apex of `U+FFFD` is matched by a label that is ill-formed, and not that of the apex. -/
theorem finds_by_labels_replaced :
    ∃ store zone text reader, ofConfigs [emptyConfig "\uFFFD"] = .ok store ∧
      Name.AreSized [[0xFF]] ∧ Read.name { message := Name.wire [[0xFF]] } = .ok text reader ∧
      store.find? text.lower = some zone ∧
      ¬ Name.lowered (Name.labels zone.apex) <:+ Name.lowered [[0xFF]] := by
  have hstore : ofConfigs [emptyConfig "\uFFFD"] = .ok _ := rfl
  have hsized : Name.AreSized [[0xFF]] := by simp [Name.AreSized]
  exact ⟨_, _, _, _, hstore, hsized, rfl, rfl, by decide⟩

end ZoneStore

end Nameserver

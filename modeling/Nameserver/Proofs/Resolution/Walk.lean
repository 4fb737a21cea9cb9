import Nameserver.Proofs.Resolution.Filling

/-!
# Walks along aliases

From a name the aliases of a zone lead on and on: `Zone.walk zone name i` is the name after `i`
steps.  The walk is over where a name is no alias, or where it comes back to a name it has passed
(`Zone.IsStop`).  There are only finitely many aliases, so every walk has such a place
(`Zone.exists_isStop`), and the first of them is `Zone.walkEnd`.

**The resolver's walk.**  The resolver keeps the list of names it has passed.
`Resolver.chase_eq_addAll` says that from any place before the end it adds the aliases from there
on, and then what the end of the walk has to say.  That is the only place where it asks its sources
(`Resolver.chase_congr`).
-/

namespace Nameserver

namespace Zone

variable {zone : Zone} {name : Text} {k : Nat}

/-- The name to which the aliases lead after some steps.  A name that is no alias leads nowhere
else. -/
def walk (zone : Zone) (name : Text) : Nat → Text
  | 0 => name
  | n + 1 => (zone.alias? (walk zone name n)).getD (walk zone name n)

/-- The walk is over: the name is no alias, or it was passed before. -/
def IsStop (zone : Zone) (name : Text) (k : Nat) : Prop :=
  zone.alias? (zone.walk name k) = none ∨ ∃ i < k, zone.walk name i = zone.walk name k

instance (zone : Zone) (name : Text) : DecidablePred (zone.IsStop name) := fun _ =>
  inferInstanceAs (Decidable (_ ∨ _))

lemma mem_keys_of_get? {t : Table Text Text} {key : Text} (h : t.get? key ≠ none) :
    key ∈ t.map Prod.fst := by
  induction t with
  | nil => exact absurd rfl h
  | cons e t ih =>
      rw [Table.get?_cons] at h
      split_ifs at h with heq
      · rw [heq]
        exact List.mem_cons_self
      · exact List.mem_cons_of_mem _ (ih h)

/-- Every walk is over at some place, for there are only so many aliases. -/
theorem exists_isStop (zone : Zone) (name : Text) : ∃ k, zone.IsStop name k := by
  by_contra hnever
  simp only [IsStop, not_exists, not_or, not_and] at hnever
  have hinjective : Function.Injective (zone.walk name) := by
    intro i k heq
    rcases Nat.lt_trichotomy i k with hlt | rfl | hlt
    · exact absurd heq ((hnever k).2 i hlt)
    · rfl
    · exact absurd heq.symm ((hnever i).2 k hlt)
  have hkeys : ∀ k, zone.walk name k ∈ {key | key ∈ zone.aliases.map Prod.fst} :=
    fun k => mem_keys_of_get? (hnever k).1
  exact Set.infinite_of_injective_forall_mem hinjective hkeys (List.finite_toSet _)

/-- The number of steps to the end of a walk. -/
def walkEnd (zone : Zone) (name : Text) : Nat := Nat.find (zone.exists_isStop name)

lemma isStop_walkEnd (zone : Zone) (name : Text) : zone.IsStop name (zone.walkEnd name) :=
  Nat.find_spec (zone.exists_isStop name)

lemma not_isStop_of_lt (h : k < zone.walkEnd name) : ¬ zone.IsStop name k :=
  Nat.find_min (zone.exists_isStop name) h

/-- Before the end, the walk goes on from an alias to its target. -/
lemma alias?_walk_of_lt (h : k < zone.walkEnd name) :
    zone.alias? (zone.walk name k) = some (zone.walk name (k + 1)) := by
  have hstop := not_isStop_of_lt h
  cases halias : zone.alias? (zone.walk name k) with
  | none => exact absurd (.inl halias) hstop
  | some target => rw [walk, halias, Option.getD_some]

lemma walk_ne_of_lt (h : k < zone.walkEnd name) {i : Nat} (hi : i < k) :
    zone.walk name i ≠ zone.walk name k := by
  intro heq
  exact not_isStop_of_lt h (.inr ⟨i, hi, heq⟩)

/-- A walk that does not end at an alias is a dead end, any other comes back. -/
lemma walk_mem_of_alias? (h : zone.alias? (zone.walk name (zone.walkEnd name)) ≠ none) :
    ∃ i < zone.walkEnd name, zone.walk name i = zone.walk name (zone.walkEnd name) :=
  (zone.isStop_walkEnd name).resolve_left h

/-- The aliases lead from some name back to it. -/
def Revisits (zone : Zone) (name : Text) : Prop :=
  ∃ i k, i < k ∧ zone.walk name i = zone.walk name k ∧ zone.alias? (zone.walk name i) ≠ none

/-- A walk comes back unless its end is no alias. -/
lemma revisits_iff :
    zone.Revisits name ↔ zone.alias? (zone.walk name (zone.walkEnd name)) ≠ none := by
  constructor
  · rintro ⟨i, k, hlt, heq, halias⟩ hend
    -- from the end on, the walk stays where it is
    have hstays : ∀ n, zone.walk name (zone.walkEnd name + n) =
        zone.walk name (zone.walkEnd name) := by
      intro n
      induction n with
      | zero => rfl
      | succ n ih => rw [Nat.add_succ, walk, ih, hend, Option.getD_none]
    have hbefore : ∀ n, zone.alias? (zone.walk name n) ≠ none → n < zone.walkEnd name := by
      intro n hn
      by_contra hle
      obtain ⟨m, rfl⟩ := Nat.exists_eq_add_of_le (Nat.le_of_not_lt hle)
      rw [hstays] at hn
      exact hn hend
    exact walk_ne_of_lt (hbefore k (heq ▸ halias)) hlt heq
  · intro halias
    obtain ⟨i, hlt, heq⟩ := walk_mem_of_alias? halias
    exact ⟨i, _, hlt, heq, heq ▸ halias⟩

lemma walkEnd_eq_zero_iff : zone.walkEnd name = 0 ↔ zone.alias? name = none := by
  rw [walkEnd, Nat.find_eq_zero]
  simp [IsStop, walk]

end Zone

namespace Resolver

variable {sources : Sources} {zone : Zone} {query : UInt64} {type : RecordType} {name : Text}
  {wireName : Bytes}

/-- The octets of the name after some steps of a walk.  At its start they are those of the
question. -/
def walkOwner (zone : Zone) (name : Text) (wireName : Bytes) : Nat → Bytes
  | 0 => wireName
  | i + 1 => Name.encode (zone.walk name (i + 1))

/-- The record of the alias that a walk passes after some steps. -/
def aliasRecord (zone : Zone) (name : Text) (wireName : Bytes) (i : Nat) : Record :=
  { owner := walkOwner zone name wireName i
    ttl := zone.ttl
    data := .cname (zone.walk name (i + 1)) }

/-- The records of all aliases on a walk. -/
def aliasRecords (zone : Zone) (name : Text) (wireName : Bytes) : List Record :=
  (List.range (zone.walkEnd name)).map (aliasRecord zone name wireName)

/-- The records at the end of a walk, if the walk is no circle. -/
def endRecords (zone : Zone) (name : Text) (wireName : Bytes) (data : Text → List RecordData) :
    List Record :=
  let last := zone.walkEnd name
  if zone.alias? (zone.walk name last) = none then
    (data (zone.walk name last)).map fun data =>
      ⟨walkOwner zone name wireName last, zone.ttl, data⟩
  else []

/-- The code that a walk ends in: a failure if it is a circle. -/
def walkRcode (zone : Zone) (name : Text) : Rcode :=
  if zone.alias? (zone.walk name (zone.walkEnd name)) = none then .noError else .servFail

/-- The code that a client is told.  A failure is found at the end only, so a response that was full
before that has none. -/
def toldRcode (code : Rcode) (truncated : Bool) : Rcode :=
  if truncated = true ∧ code = .servFail then .noError else code

lemma walkRcode_eq_servFail_iff : walkRcode zone name = .servFail ↔ zone.Revisits name := by
  rw [Zone.revisits_iff, walkRcode]
  split_ifs with halias <;> simp [halias]

lemma toldRcode_false (code : Rcode) : toldRcode code false = code :=
  if_neg fun h => Bool.false_ne_true h.1

lemma toldRcode_of_ne {code : Rcode} (h : code ≠ .servFail) (truncated : Bool) :
    toldRcode code truncated = code :=
  if_neg fun hcut => h hcut.2

lemma toldRcode_walkRcode_true (zone : Zone) (name : Text) :
    toldRcode (walkRcode zone name) true = .noError := by
  unfold toldRcode walkRcode
  split_ifs <;> simp_all

/-! ## One step of the resolver -/

section Step

variable {followed : List Text} {owner : Bytes} {target : Text} {d : Draft}

lemma chase_of_end (halias : zone.alias? name = none) :
    chase sources zone query type followed name owner d =
      (.noError, d.addAnswers owner zone.ttl (dataAt sources zone query type name)) := by
  rw [chase]
  split
  · rfl
  · rename_i h
    rw [halias] at h
    cases h

lemma chase_of_circle (halias : zone.alias? name ≠ none) (hmem : name ∈ followed) :
    chase sources zone query type followed name owner d = (.servFail, d) := by
  rw [chase]
  split
  · rename_i h
    exact absurd h halias
  · rw [dif_pos hmem]

lemma chase_of_alias (halias : zone.alias? name = some target) (hnew : name ∉ followed) :
    chase sources zone query type followed name owner d =
      match d.addAnswer ⟨owner, zone.ttl, .cname target⟩ with
      | (false, d) => (.noError, d)
      | (true, d) =>
        if type = RecordType.cname then (.noError, d)
        else chase sources zone query type (name :: followed) target (Name.encode target) d := by
  rw [chase]
  split
  · rename_i h
    rw [halias] at h
    cases h
  · rename_i target' h
    rw [halias] at h
    cases h
    exact dif_neg hnew

end Step

/-! ## The whole walk

On its way the resolver has followed the names before the one it is at, and those are different from
it until the end. -/

section Follow

variable {i : Nat} {followed : List Text}

lemma mem_followed_succ (hfollowed : ∀ n, n ∈ followed ↔ ∃ k < i, zone.walk name k = n) (n : Text) :
    n ∈ zone.walk name i :: followed ↔ ∃ k < i + 1, zone.walk name k = n := by
  rw [List.mem_cons, hfollowed]
  constructor
  · rintro (rfl | ⟨k, hk, heq⟩)
    · exact ⟨i, Nat.lt_succ_self i, rfl⟩
    · exact ⟨k, Nat.lt_succ_of_lt hk, heq⟩
  · rintro ⟨k, hk, heq⟩
    rcases Nat.lt_succ_iff_lt_or_eq.mp hk with hlt | rfl
    · exact .inr ⟨k, hlt, heq⟩
    · exact .inl heq.symm

/-- Before the end of a walk, the resolver goes on if it could add the alias. -/
lemma chase_of_lt (htype : type ≠ RecordType.cname) (hlt : i < zone.walkEnd name)
    (hfollowed : ∀ n, n ∈ followed ↔ ∃ k < i, zone.walk name k = n) (d : Draft) :
    chase sources zone query type followed (zone.walk name i) (walkOwner zone name wireName i) d =
      match d.addAnswer (aliasRecord zone name wireName i) with
      | (false, d) => (.noError, d)
      | (true, d) => chase sources zone query type (zone.walk name i :: followed)
          (zone.walk name (i + 1)) (walkOwner zone name wireName (i + 1)) d := by
  have hnew : zone.walk name i ∉ followed := by
    rw [hfollowed]
    rintro ⟨k, hk, heq⟩
    exact Zone.walk_ne_of_lt hlt hk heq
  rw [chase_of_alias (Zone.alias?_walk_of_lt hlt) hnew]
  simp only [if_neg htype]
  rfl

/-- From any place of a walk, the resolver adds the aliases from there on and what the end has to
say.  It gets past the start only as long as nothing is left out. -/
lemma chase_eq_addAll (htype : type ≠ RecordType.cname) {rest : Nat}
    (hrest : i + rest = zone.walkEnd name)
    (hfollowed : ∀ n, n ∈ followed ↔ ∃ k < i, zone.walk name k = n) (d : Draft)
    (hwhole : 0 < i → d.header.truncated = false) :
    let result := chase sources zone query type followed (zone.walk name i)
      (walkOwner zone name wireName i) d
    result.2 = d.addAll ((List.range' i rest).map (aliasRecord zone name wireName) ++
      endRecords zone name wireName (dataAt sources zone query type)) ∧
    result.1 = toldRcode (walkRcode zone name) result.2.header.truncated := by
  induction rest generalizing i followed d with
  | zero =>
      rw [Nat.add_zero] at hrest
      subst hrest
      by_cases halias : zone.alias? (zone.walk name (zone.walkEnd name)) = none
      · rw [chase_of_end halias, endRecords, walkRcode, if_pos halias, if_pos halias]
        exact ⟨Draft.addAnswers_eq_addAll _ _ _ _, (@toldRcode_of_ne .noError (by decide) _).symm⟩
      · obtain ⟨k, hk, heq⟩ := Zone.walk_mem_of_alias? halias
        rw [chase_of_circle halias ((hfollowed _).mpr ⟨k, hk, heq⟩), endRecords, walkRcode,
          if_neg halias, if_neg halias]
        refine ⟨rfl, ?_⟩
        rw [hwhole (Nat.zero_lt_of_lt hk), toldRcode_false]
  | succ rest ih =>
      rw [chase_of_lt htype (by omega) hfollowed, List.range'_succ, List.map_cons, List.cons_append]
      split
      · rename_i d' hadd
        have hrefused : (d.addAnswer (aliasRecord zone name wireName i)).1 = false := by rw [hadd]
        have hmark := Draft.truncated_of_refused hrefused
        rw [Draft.addAll_of_refused hrefused, hadd]
        rw [hadd] at hmark
        refine ⟨rfl, ?_⟩
        rw [hmark, toldRcode_walkRcode_true]
      · rename_i d' hadd
        have hadded : (d.addAnswer (aliasRecord zone name wireName i)).1 = true := by rw [hadd]
        have hmark := Draft.truncated_of_added hadded
        rw [Draft.addAll_cons, hadd]
        rw [hadd] at hmark
        exact ih (by omega) (mem_followed_succ hfollowed) d' fun _ => hmark

/-- The sources count only where the walk ends, if it is no circle. -/
lemma chase_congr_of_walk {sources' : Sources} (htype : type ≠ RecordType.cname)
    (hdata : zone.alias? (zone.walk name (zone.walkEnd name)) = none →
      dataAt sources zone query type (zone.walk name (zone.walkEnd name)) =
        dataAt sources' zone query type (zone.walk name (zone.walkEnd name))) {rest : Nat}
    (hrest : i + rest = zone.walkEnd name)
    (hfollowed : ∀ n, n ∈ followed ↔ ∃ k < i, zone.walk name k = n) (d : Draft) :
    chase sources zone query type followed (zone.walk name i) (walkOwner zone name wireName i) d =
      chase sources' zone query type followed (zone.walk name i) (walkOwner zone name wireName i)
        d := by
  induction rest generalizing i followed d with
  | zero =>
      rw [Nat.add_zero] at hrest
      subst hrest
      by_cases halias : zone.alias? (zone.walk name (zone.walkEnd name)) = none
      · rw [chase_of_end halias, chase_of_end halias, hdata halias]
      · have hmem := (hfollowed _).mpr (Zone.walk_mem_of_alias? halias)
        rw [chase_of_circle halias hmem, chase_of_circle halias hmem]
  | succ rest ih =>
      rw [chase_of_lt htype (by omega) hfollowed, chase_of_lt htype (by omega) hfollowed]
      split
      · rfl
      · exact ih (by omega) (mem_followed_succ hfollowed) _

end Follow

lemma mem_followed_zero (n : Text) : n ∈ ([] : List Text) ↔ ∃ k < 0, zone.walk name k = n := by
  simp

/-- From the name in question, it adds all aliases and what the end has to say. -/
theorem chase_start (htype : type ≠ RecordType.cname) (d : Draft) :
    let result := chase sources zone query type [] name wireName d
    result.2 = d.addAll (aliasRecords zone name wireName ++
      endRecords zone name wireName (dataAt sources zone query type)) ∧
    result.1 = toldRcode (walkRcode zone name) result.2.header.truncated := by
  have h := @chase_eq_addAll sources zone query type name wireName 0 [] htype (zone.walkEnd name)
    (Nat.zero_add _) mem_followed_zero d (absurd · (Nat.lt_irrefl 0))
  rwa [← List.range_eq_range'] at h

/-- Asked for the alias itself, it adds the first one only. -/
theorem chase_cname (d : Draft) :
    chase sources zone query RecordType.cname [] name wireName d =
      (.noError, d.addAll ((aliasRecords zone name wireName).take 1)) := by
  cases halias : zone.alias? name with
  | none =>
      have hend : zone.walkEnd name = 0 := Zone.walkEnd_eq_zero_iff.mpr halias
      rw [chase_of_end halias, aliasRecords, hend]
      rfl
  | some target =>
      have hend : zone.walkEnd name ≠ 0 := by simp [Zone.walkEnd_eq_zero_iff, halias]
      obtain ⟨k, hk⟩ := Nat.exists_eq_succ_of_ne_zero hend
      have hfirst : (aliasRecords zone name wireName).take 1 =
          [⟨wireName, zone.ttl, .cname target⟩] := by
        rw [aliasRecords, hk, List.range_succ_eq_map]
        simp [aliasRecord, walkOwner, Zone.walk, halias]
      rw [chase_of_alias halias List.not_mem_nil, hfirst, Draft.addAll_cons, Draft.addAll_nil]
      split
      · rename_i d' hadd
        rw [hadd]
      · rename_i d' hadd
        rw [if_pos rfl, hadd]

/-- What is added depends on the sources only where the walk ends. -/
theorem chase_congr {sources' : Sources}
    (hdata : type ≠ RecordType.cname → zone.alias? (zone.walk name (zone.walkEnd name)) = none →
      dataAt sources zone query type (zone.walk name (zone.walkEnd name)) =
        dataAt sources' zone query type (zone.walk name (zone.walkEnd name))) (d : Draft) :
    chase sources zone query type [] name wireName d =
      chase sources' zone query type [] name wireName d := by
  by_cases htype : type = RecordType.cname
  · rw [htype, chase_cname, chase_cname]
  · exact chase_congr_of_walk htype (hdata htype) (Nat.zero_add _) mem_followed_zero d

end Resolver

end Nameserver

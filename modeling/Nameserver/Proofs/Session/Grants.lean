import Mathlib
import Nameserver.Configuration
import Nameserver.Proofs.Text.Parts
import Nameserver.Registry.Challenge

/-!
# What a peer is granted

A policy grants domains to networks.  `ChallengePolicy.grants_by_labels` says in terms of bits and
labels which peer may register a challenge for which domain.

**Networks.**  A network holds the addresses that agree with it in their leading bits
(`Network.Holds`).  A peer that is reported under the version 6 form of a version 4 address is taken
as that address, and no other peer is changed (`IpAddress.TakenAs`).

**Domains.**  A grant covers a domain if its labels are the last ones of the domain.  The root is
the exception.  It has no labels, so that by them it would cover everything, but what is below a
parent is told by the dot in front of the parent, and a name ends in no dot.  A grant for the root
covers the root only.
-/

namespace Nameserver

/-! ## Networks -/

/-- What two vectors of bits have in common in front. -/
lemma ushiftRight_eq_iff {w n : Nat} {x y : BitVec w} :
    x >>> (w - n) = y >>> (w - n) ↔ ∀ i < n, x.getMsbD i = y.getMsbD i := by
  constructor
  · intro h i hi
    by_cases hw : i < w
    · have hbit := congrArg (·.getLsbD (w - 1 - i - (w - n))) h
      have hplace : w - n + (w - 1 - i - (w - n)) = w - 1 - i := by omega
      simpa only [BitVec.getLsbD_ushiftRight, hplace, BitVec.getMsbD_eq_getLsbD, hw, decide_true,
        Bool.true_and] using hbit
    · simp [BitVec.getMsbD_eq_getLsbD, hw]
  · intro h
    apply BitVec.eq_of_getLsbD_eq
    intro j _
    rw [BitVec.getLsbD_ushiftRight, BitVec.getLsbD_ushiftRight]
    by_cases hw : w - n + j < w
    · have hbit := h (w - 1 - (w - n + j)) (by omega)
      have hplace : w - 1 - (w - 1 - (w - n + j)) = w - n + j := by omega
      have hlt : w - 1 - (w - n + j) < w := by omega
      simpa only [BitVec.getMsbD_eq_getLsbD, hplace, hlt, decide_true, Bool.true_and] using hbit
    · rw [BitVec.getLsbD_of_ge _ _ (by omega), BitVec.getLsbD_of_ge _ _ (by omega)]

/-- An address has the leading bits of a network. -/
def Network.Holds : Network → IpAddress → Prop
  | .v4 address length, .v4 ip => ∀ i < length, address.bits.getMsbD i = ip.bits.getMsbD i
  | .v6 address length, .v6 ip => ∀ i < length, address.bits.getMsbD i = ip.bits.getMsbD i
  | _, _ => False

lemma Network.contains_iff (network : Network) (ip : IpAddress) :
    network.contains ip = true ↔ network.Holds ip := by
  cases network <;> cases ip <;> simp [contains, Holds, ushiftRight_eq_iff]

/-! ## Addresses -/

/-- The version 6 form of a version 4 address. -/
def Ipv6Address.mapping (inner : Ipv4Address) : Ipv6Address :=
  ⟨0#80 ++ 0xFFFF#16 ++ inner.bits⟩

lemma Ipv6Address.toNat_mapping (inner : Ipv4Address) :
    (mapping inner).bits.toNat = 0xFFFF * 2 ^ 32 + inner.bits.toNat := by
  have hbits := inner.bits.isLt
  show (0#80 ++ 0xFFFF#16 ++ inner.bits).toNat = _
  rw [BitVec.toNat_append, ← Nat.shiftLeft_add_eq_or_of_lt hbits, Nat.shiftLeft_eq]
  rfl

lemma Ipv6Address.mapped?_eq_some_iff {ip : Ipv6Address} {inner : Ipv4Address} :
    ip.mapped? = some inner ↔ ip = mapping inner := by
  have hbits := inner.bits.isLt
  have hfront : ip.bits >>> 32 = 0xFFFF#128 ↔ ip.bits.toNat / 2 ^ 32 = 0xFFFF := by
    rw [← BitVec.toNat_inj, BitVec.toNat_ushiftRight, Nat.shiftRight_eq_div_pow]
    rfl
  have hinner : (⟨ip.bits.setWidth 32⟩ : Ipv4Address) = inner ↔
      ip.bits.toNat % 2 ^ 32 = inner.bits.toNat := by
    rw [← BitVec.toNat_setWidth, BitVec.toNat_inj]
    exact ⟨congrArg Ipv4Address.bits, fun h => by rw [h]⟩
  have hwhole : ip = mapping inner ↔ ip.bits.toNat = 0xFFFF * 2 ^ 32 + inner.bits.toNat := by
    rw [← toNat_mapping, BitVec.toNat_inj]
    exact ⟨congrArg bits, fun h => by cases ip; exact congrArg mk h⟩
  rw [hwhole, mapped?, Option.ite_none_right_eq_some, beq_iff_eq, hfront, Option.some.injEq, hinner]
  omega

/-- As which address a peer is taken. -/
inductive IpAddress.TakenAs : IpAddress → IpAddress → Prop where
  | v4 (ip : Ipv4Address) : TakenAs (.v4 ip) (.v4 ip)
  | mapped (inner : Ipv4Address) : TakenAs (.v6 (.mapping inner)) (.v4 inner)
  | v6 (ip : Ipv6Address) (h : ∀ inner, ip ≠ .mapping inner) : TakenAs (.v6 ip) (.v6 ip)

lemma IpAddress.takenAs_iff {peer address : IpAddress} :
    peer.TakenAs address ↔ address = peer.canonical := by
  constructor
  · intro h
    cases h with
    | v4 ip => rfl
    | mapped inner => rw [canonical, Ipv6Address.mapped?_eq_some_iff.mpr rfl]
    | v6 ip h =>
        have hnone : ip.mapped? = none := by
          rw [Option.eq_none_iff_forall_ne_some]
          intro inner hinner
          exact h inner (Ipv6Address.mapped?_eq_some_iff.mp hinner)
        rw [canonical, hnone]
  · rintro rfl
    cases peer with
    | v4 ip => exact .v4 ip
    | v6 ip =>
        cases hmapped : ip.mapped? with
        | none =>
            rw [canonical, hmapped]
            refine .v6 ip fun inner hinner => ?_
            rw [Ipv6Address.mapped?_eq_some_iff.mpr hinner] at hmapped
            cases hmapped
        | some inner =>
            rw [canonical, hmapped, Ipv6Address.mapped?_eq_some_iff.mp hmapped]
            exact .mapped inner

/-! ## Domains -/

/-- A domain at which a challenge is checked has no dot at its end. -/
lemma Challenge.getLast?_baseDomain (c : Challenge) : c.baseDomain.getLast? ≠ some '.' := by
  have hlast := (Text.isNormal_normalize c.domain).last
  cases hwildcard : Text.dropStart? (Text.normalize c.domain) ['*', '.'] with
  | none => simpa only [baseDomain, hwildcard, Option.getD_none] using hlast
  | some rest =>
      simp only [baseDomain, hwildcard, Option.getD_some]
      intro hdot
      obtain ⟨front, rfl⟩ := List.getLast?_eq_some_iff.mp hdot
      rw [Text.dropStart?_eq_some_iff.mp hwildcard] at hlast
      exact hlast (List.getLast?_eq_some_iff.mpr ⟨['*', '.'] ++ front, by simp⟩)

namespace ChallengePolicy

variable {policy : ChallengePolicy} {grants : Table Network (List Text)} {peer : IpAddress}

/-- A grant is for a network that holds the peer, and for a domain or one above it. -/
lemma mayUpdate_iff {d : Text} (hgrants : policy.grants? = some grants) :
    policy.mayUpdate peer d = true ↔
      ∃ network domains, (network, domains) ∈ grants ∧ network.contains peer.canonical = true ∧
        ∃ granted ∈ domains, d = Text.normalize granted ∨
          '.' :: Text.normalize granted <:+ d := by
  simp [mayUpdate, hgrants, List.any_eq_true, Text.isSameOrBelow_iff]

/-- **What a peer is granted.**  Some network holds the address that the peer is taken as, and is
granted a name whose labels are the last ones of the domain.  The root is granted for itself. -/
theorem grants_by_labels (hgrants : policy.grants? = some grants) (peer : IpAddress)
    (c : Challenge) :
    policy.mayUpdate peer c.baseDomain = true ↔
      ∃ network domains address granted, (network, domains) ∈ grants ∧
        peer.TakenAs address ∧ network.Holds address ∧ granted ∈ domains ∧
        Text.labels (Text.normalize granted) <:+ Text.labels c.baseDomain ∧
        (Text.normalize granted = [] → c.baseDomain = []) := by
  have hcovers : ∀ granted, c.baseDomain = Text.normalize granted ∨
      '.' :: Text.normalize granted <:+ c.baseDomain ↔
        Text.labels (Text.normalize granted) <:+ Text.labels c.baseDomain ∧
          (Text.normalize granted = [] → c.baseDomain = []) := by
    intro granted
    rw [← Text.isSameOrBelow_iff, Text.isSameOrBelow_iff_labels c.getLast?_baseDomain]
  rw [mayUpdate_iff hgrants]
  constructor
  · rintro ⟨network, domains, hmem, hcontains, granted, hgranted, hbelow⟩
    exact ⟨network, domains, _, granted, hmem, IpAddress.takenAs_iff.mpr rfl,
      (network.contains_iff _).mp hcontains, hgranted, (hcovers granted).mp hbelow⟩
  · rintro ⟨network, domains, address, granted, hmem, htaken, hholds, hgranted, hbelow⟩
    obtain rfl := IpAddress.takenAs_iff.mp htaken
    exact ⟨network, domains, hmem, (network.contains_iff _).mpr hholds, granted, hgranted,
      (hcovers granted).mpr hbelow⟩

/-- All addresses of version 4 are granted the root, and one network the names below `a`. -/
def rootPolicy : ChallengePolicy where
  listen := ⟨.v4 (.ofOctets 127 0 0 1), 853, 0⟩
  grants? := some [(.v4 (.ofOctets 0 0 0 0) 0, [['.']]), (.v4 (.ofOctets 10 0 0 0) 8, [['A', '.']])]

/-- A grant for the root covers no other name, one for `a` covers those below it. -/
theorem grants_by_labels_root :
    (∃ grants, rootPolicy.grants? = some grants ∧
      (Network.v4 (.ofOctets 0 0 0 0) 0, [['.']]) ∈ grants) ∧
    Text.labels (Text.normalize ['.']) <:+ Text.labels (Challenge.baseDomain ⟨['a'], []⟩) ∧
    rootPolicy.mayUpdate (.v4 (.ofOctets 127 0 0 1)) (Challenge.baseDomain ⟨['a'], []⟩) = false ∧
    rootPolicy.mayUpdate (.v6 (.mapping (.ofOctets 10 0 0 9)))
      (Challenge.baseDomain ⟨"*.b.a".toList, []⟩) = true := by
  refine ⟨⟨_, rfl, List.mem_cons_self⟩, by decide, ?refused, ?granted⟩
  case refused =>
    rw [← Bool.not_eq_true, grants_by_labels rfl]
    rintro ⟨network, domains, address, granted, hmem, htaken, hholds, hgranted, -, hroot⟩
    rcases List.mem_cons.mp hmem with heq | hmem
    · cases heq
      obtain rfl := List.mem_singleton.mp hgranted
      exact absurd (hroot (by decide)) (by decide)
    · cases List.mem_singleton.mp hmem
      cases htaken
      exact absurd (hholds 1 (by decide)) (by decide)
  case granted =>
    rw [grants_by_labels rfl]
    refine ⟨_, _, _, ['A', '.'], List.mem_cons_of_mem _ List.mem_cons_self, .mapped _, ?_,
      List.mem_cons_self, by decide, by decide⟩
    simp only [Network.Holds]
    decide

end ChallengePolicy

end Nameserver

import Mathlib
import Nameserver.Proofs.Resolution.Reference
import Nameserver.Server

/-!
# What a reply depends on

Of the dynamic sources a reply depends on one look-up at most: a reply about authority records on
the issuers of the name in question, and a reply about texts on the texts at the end of the walk.
All other replies are the same whatever the sources hold (`Server.exists_of_receive_ne`).
-/

namespace Nameserver

namespace Resolver

variable {sources sources' : Sources} {store : ZoneStore} {zone : Zone} {query : UInt64}
  {q : Question}

/-- A difference that sources make to the answers about a name of a zone. -/
def Differ (sources sources' : Sources) (zone : Zone) (q : Question) : Prop :=
  let last := zone.walk q.name (zone.walkEnd q.name)
  (q.type = RecordType.caa ∧ issuers sources q.name ≠ issuers sources' q.name) ∨
  (q.type = RecordType.txt ∧ zone.alias? last = none ∧
    texts sources zone last ≠ texts sources' zone last)

lemma resolve_congr (hsame : ¬ Differ sources sources' zone q) (d : Draft) :
    resolve { zones := store, sources } zone query q d =
      resolve { zones := store, sources := sources' } zone query q d := by
  simp only [Differ, not_or, not_and, ne_eq, not_not] at hsame
  obtain ⟨hissuers, htexts⟩ := hsame
  simp only [resolve]
  split_ifs with hsoa hapex hns hmx hcaa
  · rfl
  · rfl
  · rfl
  · rfl
  · rw [hissuers hcaa]
  · apply chase_congr
    intro _ hend
    simp only [dataAt]
    split_ifs with ha htxt
    · rfl
    · rw [htexts htxt hend]
    · rfl

lemma respond_congr {request : Request}
    (hsame : ∀ zone, store.find? request.question.name = some zone →
      ¬ Differ sources sources' zone request.question) (recursionAvailable : Bool) :
    respond { zones := store, sources } request query recursionAvailable =
      respond { zones := store, sources := sources' } request query recursionAvailable := by
  simp only [respond]
  cases hzone : store.find? request.question.name with
  | none => rfl
  | some zone => simp only [resolve_congr (hsame zone hzone)]

end Resolver

/-- If sources make a difference to a reply, they make it to the answers about a name of a zone. -/
theorem Server.exists_of_receive_ne {server : Server} {store : ZoneStore}
    {sources sources' : Sources} {source : IpAddress} {datagram : Bytes}
    (hne : (server.receive { zones := store, sources } source datagram).1 ≠
      (server.receive { zones := store, sources := sources' } source datagram).1) :
    ∃ request zone, Request.parse (datagram.take bufferSize) = .ok request ∧
      store.find? request.question.name = some zone ∧
      Resolver.Differ sources sources' zone request.question := by
  by_contra hsame
  apply hne
  simp only [receive, handle, dispose]
  cases hparse : Request.parse (datagram.take bufferSize) with
  | error fault => rfl
  | ok request =>
      have hzones : ∀ zone, store.find? request.question.name = some zone →
          ¬ Resolver.Differ sources sources' zone request.question := by
        intro zone hzone hdiffer
        exact hsame ⟨request, zone, hparse, hzone, hdiffer⟩
      simp only [Resolver.respond_congr hzones]
      rfl

end Nameserver

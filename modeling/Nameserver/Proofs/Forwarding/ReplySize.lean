import Nameserver.Proofs.Forwarding.Recognition

/-!
# How large replies are

A client says how large a reply it can take.  What the server writes itself keeps to that, and is
marked as truncated if anything was left out for it.  What it relays is passed on as it came: nobody
looks at its size, and where the buffer cuts it nobody marks it.  `Server.replies_within_limit` says
all of this for every way in which a client gets a reply.
-/

namespace Nameserver

variable {query reply : Bytes} {request : Request}

namespace Resolver

variable {records kept : List Record} {j : Journal}

lemma Holds.length_finish_le (h : Holds request records kept j) :
    j.draft.finish.length ≤ request.limit := by
  rw [Journal.length_finish]
  exact h.bounded.size_le

/-- What a reply consists of, and how it is marked. -/
lemma Holds.decode_finish (h : Holds request records kept j) :
    ∃ header, Header.decode j.draft.finish = .ok header ∧
      (header.truncated = true ↔ ¬ QuestionFits request ∨ kept ≠ records) ∧
      j.draft.finish.drop headerSize =
        (if QuestionFits request then request.question.encode else []) ++
          kept.flatMap Record.encode ++
          (if request.payload?.isSome then (Draft.optRecord (UInt16.ofNat request.limit)).encode
            else []) := by
  rw [h.finish_eq]
  refine ⟨_, Header.decode_encode _ _, h.truncated_iff, ?_⟩
  have hquestion : (if QuestionFits request then [Put.question request.question] else []).flatMap
      Put.encode = if QuestionFits request then request.question.encode else [] := by
    split_ifs
    · exact List.append_nil _
    · rfl
  have hoption : (if request.payload?.isSome then [Put.opt (UInt16.ofNat request.limit)]
      else []).flatMap Put.encode = if request.payload?.isSome
        then (Draft.optRecord (UInt16.ofNat request.limit)).encode else [] := by
    split_ifs
    · exact List.append_nil _
    · rfl
  rw [← j.draft.header.length_encode, List.drop_left, h.added_eq, List.flatMap_append,
    List.flatMap_append, hquestion, hoption, List.flatMap_map]
  rfl

end Resolver

/-- The part of a datagram that fits into the buffer keeps to a limit if the datagram does, or if
the limit is the buffer. -/
lemma length_take_le_iff {request : Request} (bytes : Bytes) :
    (bytes.take bufferSize).length ≤ request.limit ↔
      bytes.length ≤ request.limit ∨ request.limit = bufferSize := by
  have hbounds := request.limit_bounds
  rw [List.length_take]
  omega

namespace Server

/-- **How large replies are.**  Let a query be parsed.  A reply that the server writes itself keeps
to the limit of the request; it holds the question if that fits and the first of the records that
belong into it, and is marked as truncated exactly if this is not everything.  The error reply after
failed forwarding keeps to the limit as well.  A reply that is relayed is what a forwarder has sent,
cut to the size of the buffer and with the marks of the forwarder; it keeps to the limit if and only
if the forwarder does, or if the limit is the size of the buffer. -/
theorem replies_within_limit (hparse : Request.parse query = .ok request) :
    (∀ (config : Configuration) (configs : List ZoneConfig) (resolver : Resolver)
      (number : UInt64) (source : IpAddress) (reply : Bytes),
      ZoneStore.ofConfigs configs = .ok resolver.zones →
      dispose config resolver number source query = .replied reply →
      reply.length ≤ request.limit ∧
      ∃ h kept, Header.decode reply = .ok h ∧
        reply.drop headerSize =
          (if Resolver.QuestionFits request then request.question.encode else []) ++
            kept.flatMap Record.encode ++
            (if request.payload?.isSome then (Draft.optRecord (UInt16.ofNat request.limit)).encode
              else []) ∧
        kept <+: resolver.records number request.question ∧
        (h.truncated = true ↔ ¬ Resolver.QuestionFits request ∨
          kept ≠ resolver.records number request.question)) ∧
    (∀ (forwarders : List SocketAddress) (depth : Nat) (actions : List Pool.Action) (i : Nat)
      (q : Forwarded),
      ((Pool.start forwarders depth).play actions).queries[i]? = some q → q.query = query →
      (.servFail ∈ q.replies → ∃ reply, errorReply? query .servFail = some reply ∧
        reply.length ≤ request.limit) ∧
      ∀ datagram, .answer datagram ∈ q.replies →
        ∃ w bytes h, .hear w (.datagram bytes) ∈ actions ∧ datagram = bytes.take bufferSize ∧
          Header.decode bytes = .ok h ∧ Header.decode datagram = .ok h ∧
          (datagram.length ≤ request.limit ↔
            bytes.length ≤ request.limit ∨ request.limit = bufferSize)) := by
  constructor
  · intro config configs resolver number source reply hstore hreplied
    rw [eq_respond_of_replied hparse hreplied]
    obtain ⟨j, kept, hrespond, hholds⟩ := Resolver.exists_journal hstore request number
      (config.mayForward source)
    obtain ⟨h, hdecode, htruncated, hbody⟩ := hholds.decode_finish
    rw [hrespond]
    exact ⟨hholds.length_finish_le, h, kept, hdecode, hbody, hholds.longest.isPrefix, htruncated⟩
  · intro forwarders depth actions i q hq hquery
    constructor
    · intro _
      refine ⟨_, errorReply?_of_parse hparse .servFail, ?_⟩
      rw [Header.length_encode]
      exact le_trans (by decide) request.limit_bounds.1
    · intro datagram hmem
      obtain ⟨w, bytes, h, hheard, rfl, -, -, hwhole, hdecode⟩ :=
        Pool.header_of_relays hparse ⟨q, hq, hquery, hmem⟩
      exact ⟨w, bytes, h, hheard, rfl, hwhole, hdecode, length_take_le_iff bytes⟩

/-- An answer of 600 octets more than the question takes. -/
def largeAnswer : Bytes :=
  [0, 7, 129, 128, 0, 1, 0, 0, 0, 0, 0, 0, 1, 97, 0, 0, 1, 0, 1] ++ List.replicate 600 0

/-- A query that does not say how large a reply may be, and a large answer to it. -/
def largeRun : List Pool.Action := Pool.waitingRun ++ [.hear 0 (.datagram largeAnswer)]

/-- A client that takes 512 octets gets no more from a server that refuses its query, but in the
large run it gets more than that, without a mark. -/
theorem replies_within_limit_largeRun :
    let pool := (Pool.start openConfig.forwarders 1).play largeRun
    let q : Forwarded :=
      { query := Pool.plainQuery, ticket := ⟨true, 1⟩, caller := .settled, asked := 1
        replies := [.answer largeAnswer] }
    ∃ request, Request.parse Pool.plainQuery = .ok request ∧ request.limit = 512 ∧
      (∃ reply, dispose closedConfig { zones := {} } 0 plainClient Pool.plainQuery =
        .replied reply ∧ reply.length ≤ 512) ∧
      pool.queries[0]? = some q ∧ ¬ largeAnswer.length ≤ 512 ∧
      ∃ h, Header.decode largeAnswer = .ok h ∧ h.truncated = false := by
  intro pool q
  obtain ⟨request, hparse⟩ : ∃ request, Request.parse Pool.plainQuery = .ok request := ⟨_, rfl⟩
  have hlimit : request.limit = 512 := by
    cases hparse
    rfl
  have hq : pool.queries[0]? = some q := by decide +kernel
  obtain ⟨hdirect, hrelayed⟩ := replies_within_limit hparse
  obtain ⟨w, bytes, h, -, -, -, hdecode, -⟩ :=
    (hrelayed openConfig.forwarders 1 largeRun 0 q hq rfl).2 largeAnswer List.mem_cons_self
  refine ⟨request, hparse, hlimit, ?_, hq, by decide +kernel, h, hdecode, ?_⟩
  · have hreplied : dispose closedConfig { zones := {} } 0 plainClient Pool.plainQuery =
        .replied [0, 7, 129, 5, 0, 1, 0, 0, 0, 0, 0, 0, 1, 97, 0, 0, 1, 0, 1] := by
      decide +kernel
    have hbound := (hdirect closedConfig [] { zones := {} } 0 plainClient _ rfl hreplied).1
    exact ⟨_, hreplied, hlimit ▸ hbound⟩
  · cases hdecode
    rfl

end Server

end Nameserver

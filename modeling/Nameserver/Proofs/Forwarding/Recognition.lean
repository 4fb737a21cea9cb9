import Nameserver.Proofs.Forwarding.Relays
import Nameserver.Proofs.Resolution.Replies
import Nameserver.Server

/-!
# Servers behind servers

The forwarder of a server may be a server of the same kind.  `Server.recognises_replies` says which
of its replies belong to the query that they reply to, so that the worker that has sent it on takes
them for what they are.

**Recognised.**  Every reply has the id of the query.  What the other server writes itself repeats
the question whenever it fits, and is recognised exactly then.  What it relays was recognised by its
own workers, by the same test.

**Not recognised.**  The error reply of a server that could not work a query out is only a header.
The worker throws it away and waits until its time is up.
-/

namespace Nameserver

variable {query reply : Bytes} {request : Request}

namespace Resolver

variable {records kept : List Record} {j : Journal}

/-- Where the question does not fit, only the extension record can be behind the header. -/
lemma Holds.length_body_le (h : Holds request records kept j) (hfits : ¬ QuestionFits request) :
    (j.added.flatMap Put.encode).length ≤ optSize := by
  have hkept : kept = [] := by
    by_contra hne
    have hall := h.longest.fits_kept hne
    unfold QuestionFits at hfits
    omega
  rw [h.added_eq, if_neg hfits, hkept]
  split_ifs
  · exact (Put.opt (UInt16.ofNat request.limit)).length_encode.le
  · exact Nat.zero_le _

lemma Holds.question?_iff (h : Holds request records kept j)
    (hparse : Request.parse query = .ok request) :
    Exchange.question? j.draft.finish = some request.question.encode ↔ QuestionFits request := by
  have hasked := Exchange.isAsked_of_parse hparse
  rw [h.finish_eq, Exchange.question?_append_iff j.draft.header.length_encode]
  constructor
  · rintro ⟨-, hfront⟩
    by_contra hfits
    -- a question that does not fit is much longer than the eleven octets that may be there instead
    have hbounds := request.limit_bounds
    have hroom := room_le request
    have hshort := hfront.length_le.trans (h.length_body_le hfits)
    unfold QuestionFits at hfits
    have hsizes : headerSize = 12 ∧ optSize = 11 ∧ defaultLimit = 512 := ⟨rfl, rfl, rfl⟩
    omega
  · intro hfits
    refine ⟨hasked, ?_⟩
    rw [h.added_eq, if_pos hfits, List.append_assoc, List.singleton_append, List.flatMap_cons]
    exact List.prefix_append _ _

/-- A reply that a resolver writes itself is recognised if it repeats the question, which it does
if that fits. -/
lemma Holds.recognised (h : Holds request records kept j)
    (hparse : Request.parse query = .ok request) :
    Header.idOf? j.draft.finish = Header.idOf? query ∧
      (Exchange.belongs query j.draft.finish = true ↔ QuestionFits request) := by
  have hid : Header.idOf? j.draft.finish = some request.header.id := by
    rw [Draft.finish, Header.idOf?_encode, h.id_eq]
  refine ⟨hid.trans (Exchange.idOf?_of_parse hparse).symm, ?_⟩
  rw [Exchange.belongs_iff hparse, h.question?_iff hparse]
  exact and_iff_right hid

end Resolver

/-- The error reply to a query that was parsed is a header with its id. -/
lemma errorReply?_of_parse (hparse : Request.parse query = .ok request) (rcode : Rcode) :
    errorReply? query rcode = some ((Header.responseTo request.header).withRcode rcode).encode := by
  rw [errorReply?, Exchange.idOf?_of_parse hparse, Exchange.decode_of_parse hparse]
  rfl

namespace Exchange

/-- The error reply has the id of the query, but not its question. -/
lemma not_belongs_errorReply (hparse : Request.parse query = .ok request) {rcode : Rcode}
    (hreply : errorReply? query rcode = some reply) :
    Header.idOf? reply = Header.idOf? query ∧ ¬ belongs query reply = true := by
  rw [errorReply?_of_parse hparse, Option.some.injEq] at hreply
  subst hreply
  constructor
  · rw [idOf?_of_parse hparse, ← List.append_nil (Header.encode _), Header.idOf?_encode]
    rfl
  · intro hbelongs
    have hshort := length_of_question? ((belongs_iff hparse).mp hbelongs).2
    have hpos := (isAsked_of_parse hparse).length_pos
    rw [Header.length_encode] at hshort
    omega

end Exchange

namespace Server

variable {config : Configuration} {resolver : Resolver} {number : UInt64} {source : IpAddress}

/-- What is forwarded was parsed. -/
lemma parse_of_forwarded (h : dispose config resolver number source query = .forwarded) :
    ∃ request, Request.parse query = .ok request := by
  unfold dispose at h
  split at h
  · split at h <;> cases h
  · rename_i request hparse
    exact ⟨request, hparse⟩

/-- A query that was parsed is forwarded or gets a reply from the resolver. -/
lemma forwarded_or_replied (hparse : Request.parse query = .ok request) :
    dispose config resolver number source query = .forwarded ∨
      dispose config resolver number source query =
        .replied (resolver.respond request number (config.mayForward source)) := by
  rw [dispose, hparse]
  dsimp only
  split_ifs
  · exact .inl rfl
  · exact .inr rfl

/-- What a server replies itself to a query that was parsed comes from the resolver. -/
lemma eq_respond_of_replied (hparse : Request.parse query = .ok request)
    (h : dispose config resolver number source query = .replied reply) :
    reply = resolver.respond request number (config.mayForward source) := by
  rcases forwarded_or_replied hparse with hother | hreplied
  · cases hother.symm.trans h
  · cases hreplied.symm.trans h
    rfl

/-- **Which replies are recognised.**  Let a server forward a query, and another server, of whatever
configuration, reply to it.  The reply has the id of the query.  If the other server has written it
from its zones, or to refuse, then it belongs to the query exactly if there was room for the
question.  Answers that it relays belong to the query; the error reply after failed forwarding does
not. -/
theorem recognises_replies (hforwarded : dispose config resolver number source query = .forwarded) :
    ∃ request, Request.parse query = .ok request ∧
      (∀ (config' : Configuration) (configs : List ZoneConfig) (resolver' : Resolver)
        (number' : UInt64) (source' : IpAddress),
        ZoneStore.ofConfigs configs = .ok resolver'.zones →
        dispose config' resolver' number' source' query = .forwarded ∨
        ∃ reply, dispose config' resolver' number' source' query = .replied reply ∧
          Header.idOf? reply = Header.idOf? query ∧
          (Exchange.belongs query reply = true ↔ Resolver.QuestionFits request)) ∧
      (∀ (forwarders : List SocketAddress) (depth : Nat) (actions : List Pool.Action) (i : Nat)
        (q : Forwarded) (relay : Relay),
        ((Pool.start forwarders depth).play actions).queries[i]? = some q → q.query = query →
        relay ∈ q.replies →
        ∃ reply, relay.datagram? query = some reply ∧
          Header.idOf? reply = Header.idOf? query ∧
          (Exchange.belongs query reply = true ↔ relay ≠ .servFail)) := by
  obtain ⟨request, hparse⟩ := parse_of_forwarded hforwarded
  refine ⟨request, hparse, ?_, ?_⟩
  · intro config' configs resolver' number' source' hstore
    refine (forwarded_or_replied hparse).imp_right fun hreplied => ⟨_, hreplied, ?_⟩
    obtain ⟨j, kept, hrespond, hholds⟩ := Resolver.exists_journal hstore request number'
      (config'.mayForward source')
    rw [hrespond]
    exact hholds.recognised hparse
  · intro forwarders depth actions i q relay hq hquery hrelay
    cases relay with
    | answer datagram =>
        obtain ⟨w, bytes, -, -, hbelongs, -⟩ := Pool.heard_of_relays ⟨q, hq, hquery, hrelay⟩
        have hid := ((Exchange.belongs_iff hparse).mp hbelongs).1
        exact ⟨datagram, rfl, hid.trans (Exchange.idOf?_of_parse hparse).symm, by simp [hbelongs]⟩
    | servFail =>
        have hreply := errorReply?_of_parse hparse .servFail
        obtain ⟨hid, hnot⟩ := Exchange.not_belongs_errorReply hparse hreply
        exact ⟨_, hreply, hid, by simp [hnot]⟩

/-- A server that forwards the queries of everybody. -/
def openConfig : Configuration where
  listen := []
  forwarders := [⟨.v4 (.ofOctets 192 0 2 1), 53, 0⟩]
  forwardFor := [.v4 (.ofOctets 0 0 0 0) 0]

/-- A server that forwards nothing. -/
def closedConfig : Configuration where
  listen := []

/-- A client in the network that everybody is in. -/
def plainClient : IpAddress := .v4 (.ofOctets 192 0 2 2)

/-- A server that forwards nothing refuses a short query, and is understood. -/
theorem recognises_replies_plainQuery :
    dispose openConfig { zones := {} } 0 plainClient Pool.plainQuery = .forwarded ∧
      ∃ reply, dispose closedConfig { zones := {} } 0 plainClient Pool.plainQuery = .replied reply ∧
        Exchange.belongs Pool.plainQuery reply = true := by
  have hforwarded : dispose openConfig { zones := {} } 0 plainClient Pool.plainQuery =
      .forwarded := by
    decide +kernel
  obtain ⟨request, hparse, hdirect, -⟩ := recognises_replies hforwarded
  have hfits : Resolver.QuestionFits request := by
    cases hparse
    decide
  refine ⟨hforwarded, ?_⟩
  rcases hdirect closedConfig [] { zones := {} } 0 plainClient rfl with hother | hother
  · exact absurd hother (by decide +kernel)
  · obtain ⟨reply, hreplied, -, hbelongs⟩ := hother
    exact ⟨reply, hreplied, hbelongs.mpr hfits⟩

/-- A query that is sent on, and never answered. -/
def unansweredRun : List Pool.Action :=
  [.enter Pool.plainQuery, .offer 0, .settle 0, .take 0, .look 0, .hear 0 .timeout, .countFailure 0,
    .claimFailure 0]

/-- A query with a question that leaves no room for anything else. -/
def longQuery : Bytes :=
  [0, 7, 1, 0, 0, 1, 0, 0, 0, 0, 0, 0] ++ 250 :: List.replicate 250 97 ++
    250 :: List.replicate 250 97 ++ [0, 0, 1, 0, 1]

/-- Neither a server that has asked in vain nor one that has no room for the question is
understood. -/
theorem replies_not_recognised :
    (dispose openConfig { zones := {} } 0 plainClient Pool.plainQuery = .forwarded ∧
      ∃ q reply,
        ((Pool.start openConfig.forwarders 1).play unansweredRun).queries[0]? = some q ∧
        q.query = Pool.plainQuery ∧ q.replies = [.servFail] ∧
        Relay.servFail.datagram? Pool.plainQuery = some reply ∧
        Exchange.question? reply ≠ Exchange.question? Pool.plainQuery) ∧
    dispose openConfig { zones := {} } 0 plainClient longQuery = .forwarded ∧
      ∃ reply, dispose closedConfig { zones := {} } 0 plainClient longQuery = .replied reply ∧
        Exchange.question? reply ≠ Exchange.question? longQuery := by
  refine ⟨⟨by decide +kernel, ⟨Pool.plainQuery, ⟨true, 0⟩, .settled, 1, false, [.servFail]⟩,
    [0, 7, 129, 2, 0, 0, 0, 0, 0, 0, 0, 0], by decide, rfl, rfl, by decide, by decide⟩,
    by decide +kernel, [0, 7, 131, 5, 0, 0, 0, 0, 0, 0, 0, 0], by decide +kernel,
    by decide +kernel⟩

end Server

end Nameserver

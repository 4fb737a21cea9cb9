import Nameserver.Proofs.Forwarding.Recognition
import Nameserver.Proofs.Resolution.Layout
import Nameserver.Proofs.Zone.Finding

/-!
# What becomes of a datagram

A server forwards a datagram, replies to it or drops it, and `Server.handles_datagrams` says when.

**Replies.**  There are three ways to write a reply: from a zone or to refuse, for a datagram that
has a header, and for one that has only an id.  All of them come out as responses that have the id
of the datagram, and as much of its header as it has (`RespondsTo`).

**No loops.**  A server drops whatever is marked as a response, in all of its states.  So it does
not answer what another server replies.
-/

namespace Nameserver

variable {datagram message : Bytes} {h : Header}

/-! ## Responses -/

/-- A message is marked as a response and has a whole header. -/
def IsResponse (message : Bytes) : Prop :=
  headerSize ≤ message.length ∧ (message.getD 2 0).toNat.testBit 7 = true

/-- A message is a response with the id of a datagram, and with its operation and its wish for
recursion if it has a whole header. -/
structure RespondsTo (message datagram : Bytes) : Prop where
  isResponse : IsResponse message
  id : message.take 2 = datagram.take 2
  opcode : headerSize ≤ datagram.length →
    (message.getD 2 0).toNat / 8 % 16 = (datagram.getD 2 0).toNat / 8 % 16
  recursionDesired : headerSize ≤ datagram.length →
    (message.getD 2 0).toNat.testBit 0 = (datagram.getD 2 0).toNat.testBit 0

lemma getD_take {n : Nat} (hn : 2 < n) (message : Bytes) :
    (message.take n).getD 2 0 = message.getD 2 0 := by
  simp [List.getD, hn]

lemma getD_take_headerSize (message : Bytes) :
    (message.take headerSize).getD 2 0 = message.getD 2 0 :=
  getD_take (by decide) message

/-- The part of a response that fits into the buffer is still one. -/
lemma IsResponse.take (h : IsResponse message) : IsResponse (message.take bufferSize) := by
  refine ⟨?_, (congrArg (fun octet : UInt8 => octet.toNat.testBit 7)
    (getD_take (by decide) message)).trans h.2⟩
  rw [List.length_take]
  exact le_min (by decide) h.1

namespace Header

/-- A header is read exactly where it is spelled out. -/
lemma decode_iff : decode message = .ok h ↔ h.Spells (message.take headerSize) := by
  by_cases hlen : headerSize ≤ message.length
  · have hiff := @decode_append_iff h _ (message.drop headerSize) (List.length_take_of_le hlen)
    rwa [List.take_append_drop] at hiff
  · constructor
    · intro hdecode
      rw [decode_of_short (Nat.not_le.mp hlen)] at hdecode
      cases hdecode
    · intro hspells
      have htake := hspells.length
      rw [List.length_take] at htake
      omega

lemma Spells.le_length (hspells : h.Spells (message.take headerSize)) :
    headerSize ≤ message.length := by
  have htake := hspells.length
  rw [List.length_take] at htake
  omega

lemma idOf?_eq_some_iff {id : UInt16} : idOf? message = some id ↔ message.take 2 = encode16 id := by
  rw [encode16_iff, eq_comm (a := id)]
  match message with
  | [] => simp [idOf?]
  | [_] => simp [idOf?]
  | high :: low :: rest =>
    have hword : word high low = UInt16.ofNat (decodeNat [high, low]) := by
      rw [← toNat_word, UInt16.ofNat_toNat]
    simp [idOf?, hword]

end Header

lemma Header.opcode_and_mask (hdecode : Header.decode message = .ok h) :
    h.opcode &&& 0x0F = h.opcode := by
  have hspells := Header.decode_iff.mp hdecode
  apply UInt8.toNat_inj.mp
  rw [Header.toNat_rcode, hspells.opcode, Nat.mod_mod]

/-- A message responds to a datagram if its header is that of a response, with the id of the
datagram and what else is left of its header. -/
lemma respondsTo_encode (h : Header) (rest : Bytes) (hresponse : h.isResponse = true)
    (hid : Header.idOf? datagram = some h.id)
    (hecho : ∀ h', Header.decode datagram = .ok h' →
      h.opcode = h'.opcode ∧ h.recursionDesired = h'.recursionDesired) :
    RespondsTo (h.encode ++ rest) datagram := by
  have hdecode := Header.decode_encode h rest
  have hspells := Header.decode_iff.mp hdecode
  have hfields : headerSize ≤ datagram.length → ∃ h' : Header,
      h'.Spells (datagram.take headerSize) ∧ h.opcode &&& 0x0F = h'.opcode ∧
        h.recursionDesired = h'.recursionDesired := by
    intro hlen
    obtain ⟨h', hspells'⟩ := Request.exists_spells hlen
    have hdecode' := Header.decode_iff.mpr hspells'
    obtain ⟨hopcode, hdesired⟩ := hecho h' hdecode'
    exact ⟨h', hspells', by rw [hopcode, Header.opcode_and_mask hdecode'], hdesired⟩
  refine ⟨⟨hspells.le_length, ?_⟩, ?_, ?_, ?_⟩
  · rw [← getD_take_headerSize, ← hspells.isResponse, hresponse]
  · rw [Header.idOf?_eq_some_iff.mp (Header.idOf?_of_decode hdecode),
      Header.idOf?_eq_some_iff.mp hid]
  · intro hlen
    obtain ⟨h', hspells', hopcode, -⟩ := hfields hlen
    rw [← getD_take_headerSize, ← getD_take_headerSize datagram, ← hspells.opcode,
      ← hspells'.opcode, hopcode]
  · intro hlen
    obtain ⟨h', hspells', -, hdesired⟩ := hfields hlen
    rw [← getD_take_headerSize, ← getD_take_headerSize datagram, ← hspells.recursionDesired,
      ← hspells'.recursionDesired, hdesired]

/-! ## What is parsed -/

namespace Request

/-- What is dropped without a word has no id, or is a response. -/
lemma isDropped_iff : IsDropped datagram ↔ datagram.length < 2 ∨ IsResponse datagram := by
  refine or_congr_right ?_
  constructor
  · rintro ⟨h, hspells, hresponse⟩
    refine ⟨hspells.le_length, ?_⟩
    rw [← getD_take_headerSize, ← hspells.isResponse, hresponse]
  · rintro ⟨hlen, hbit⟩
    obtain ⟨h, hspells⟩ := exists_spells hlen
    refine ⟨h, hspells, ?_⟩
    show h.isResponse = true
    rw [hspells.isResponse, getD_take_headerSize, hbit]

lemma parse_of_isResponse (h : IsResponse message) : parse message = .error .notAQuery := by
  obtain ⟨header, hspells⟩ := exists_spells h.1
  rw [parse_of_spells hspells, hspells.isResponse, getD_take_headerSize, h.2]
  rfl

/-- A datagram that was parsed is not dropped. -/
lemma not_isDropped_of_parse {request : Request} (hparse : parse datagram = .ok request) :
    ¬ IsDropped datagram := by
  rw [isDropped_iff]
  rintro (hshort | hresponse)
  · rw [parse, Header.decode_of_short (hshort.trans (by decide))] at hparse
    cases hparse
  · rw [parse_of_isResponse hresponse] at hparse
    cases hparse

end Request

/-! ## Replies -/

/-- An error reply responds to the datagram, even if that is only a fragment of a header. -/
lemma respondsTo_errorReply {rcode : Rcode} (hreply : errorReply? datagram rcode = some message) :
    RespondsTo message datagram := by
  obtain ⟨id, hid, rfl⟩ := Option.map_eq_some_iff.mp hreply
  cases hheader : Header.decode datagram with
  | error fault =>
      rw [← List.append_nil (Header.encode _)]
      refine respondsTo_encode _ [] rfl hid ?_
      intro h' hdecode
      cases hheader.symm.trans hdecode
  | ok h =>
      have hid := Header.idOf?_of_decode hheader
      rw [← List.append_nil (Header.encode _)]
      refine respondsTo_encode _ [] rfl hid ?_
      intro h' hdecode
      cases hheader.symm.trans hdecode
      exact ⟨rfl, rfl⟩

lemma exists_errorReply (hid : 2 ≤ datagram.length) (rcode : Rcode) :
    ∃ reply, errorReply? datagram rcode = some reply := by
  match datagram, hid with
  | _ :: _ :: _, _ => exact ⟨_, rfl⟩

namespace Server

variable {configs : List ZoneConfig} {resolver : Resolver} {request : Request} {number : UInt64}
  {source : IpAddress} {config : Configuration}

/-- What a resolver writes responds to the datagram. -/
lemma respondsTo_respond (hstore : ZoneStore.ofConfigs configs = .ok resolver.zones)
    (hparse : Request.parse datagram = .ok request) (recursionAvailable : Bool) :
    RespondsTo (resolver.respond request number recursionAvailable) datagram := by
  rw [Resolver.respond_eq_encode hstore, Reply.encode_eq_puts]
  refine respondsTo_encode _ _ rfl (Exchange.idOf?_of_parse hparse) ?_
  intro h' hdecode
  cases (Exchange.decode_of_parse hparse).symm.trans hdecode
  exact ⟨rfl, rfl⟩

lemma respondsTo_reply (hstore : ZoneStore.ofConfigs configs = .ok resolver.zones)
    {callerReplies : Bool}
    (hreply : (dispose config resolver number source datagram).reply? datagram callerReplies =
      some message) : RespondsTo message datagram := by
  cases hparse : Request.parse datagram with
  | ok request =>
      rcases forwarded_or_replied hparse with hforwarded | hreplied
      · rw [hforwarded, Disposition.reply?] at hreply
        split_ifs at hreply
        exact respondsTo_errorReply hreply
      · rw [hreplied] at hreply
        cases hreply
        exact respondsTo_respond hstore hparse _
  | error fault =>
      rw [dispose, hparse] at hreply
      dsimp only at hreply
      split at hreply
      · rename_i reply hbind
        cases hreply
        obtain ⟨rcode, -, herror⟩ := Option.bind_eq_some_iff.mp hbind
        exact respondsTo_errorReply herror
      · cases hreply

/-! ## Dispositions -/

lemma dispose_of_isResponse (h : IsResponse message) :
    dispose config resolver number source message = .dropped := by
  rw [dispose, Request.parse_of_isResponse h]
  rfl

/-- What has no id, and what is a response, is dropped, and nothing else. -/
lemma dropped_iff :
    dispose config resolver number source datagram = .dropped ↔ Request.IsDropped datagram := by
  cases hparse : Request.parse datagram with
  | ok request =>
      have hkept := Request.not_isDropped_of_parse hparse
      rcases @forwarded_or_replied datagram request config resolver number source hparse with
        hforwarded | hreplied
      · simp [hforwarded, hkept]
      · simp [hreplied, hkept]
  | error fault =>
      obtain ⟨rule, hbroken, hrcode⟩ := Request.firstBroken_of_parse hparse
      have hnone := Request.rcode?_eq_none_iff hbroken
      rw [← hrcode] at hnone
      rw [← hnone, dispose, hparse]
      cases hfault : fault.rcode? with
      | none => simp [hfault]
      | some rcode =>
          have hid : ¬ datagram.length < 2 := by
            intro hshort
            cases hfault.symm.trans (hnone.mpr (.inl hshort))
          obtain ⟨reply, hreply⟩ := exists_errorReply (Nat.not_lt.mp hid) rcode
          simp [hfault, hreply]

/-- A datagram is forwarded if it is a query about a name in no zone, its client wants other servers
asked, and the configuration allows it for the address of the client. -/
lemma forwarded_iff (hstore : ZoneStore.ofConfigs configs = .ok resolver.zones) :
    dispose config resolver number source datagram = .forwarded ↔
      ∃ request, Request.parse datagram = .ok request ∧
        (∀ zoneConfig ∈ configs, ∀ zone, Zone.ofConfig zoneConfig = .ok zone →
          zone.contains request.question.name = false) ∧
        request.header.recursionDesired = true ∧ config.forwarders ≠ [] ∧
        ∃ network ∈ config.forwardFor, network.contains source.canonical = true := by
  cases hparse : Request.parse datagram with
  | error fault =>
      rw [dispose, hparse]
      dsimp only
      split <;> simp
  | ok request =>
      have hlocal : resolver.isLocal request = false ↔
          ∀ zoneConfig ∈ configs, ∀ zone, Zone.ofConfig zoneConfig = .ok zone →
            zone.contains request.question.name = false := by
        rw [Resolver.isLocal, Option.isSome_eq_false_iff, Option.isNone_iff_eq_none,
          ZoneStore.find?_eq_none_iff hstore]
      have hpermitted : config.mayForward source = true ↔ config.forwarders ≠ [] ∧
          ∃ network ∈ config.forwardFor, network.contains source.canonical = true := by
        simp [Configuration.mayForward]
      have hgate : (!resolver.isLocal request && request.header.recursionDesired &&
          config.mayForward source) = true ↔ resolver.isLocal request = false ∧
            request.header.recursionDesired = true ∧ config.mayForward source = true := by
        simp [and_assoc]
      rw [hlocal, hpermitted] at hgate
      rw [dispose, hparse]
      dsimp only
      constructor
      · intro hforwarded
        split_ifs at hforwarded with hall
        exact ⟨request, rfl, hgate.mp hall⟩
      · rintro ⟨_, heq, hall⟩
        cases heq
        rw [if_pos (hgate.mpr hall)]

/-- **What becomes of a datagram.**  A server forwards a datagram if it is a query about a name in
no zone, its client wants other servers asked, and the configuration allows it for the address of
the client.  It drops a datagram that has no id or is a response, and no other.  What it replies is
a response with the id of the datagram and as much of its header as it has, and every server drops
that. -/
theorem handles_datagrams (hstore : ZoneStore.ofConfigs configs = .ok resolver.zones)
    (server : Server) (source : IpAddress) (datagram : Bytes) :
    let disposition := (server.handle resolver source datagram).1
    (disposition = .forwarded ↔ ∃ request, Request.parse datagram = .ok request ∧
      (∀ config ∈ configs, ∀ zone, Zone.ofConfig config = .ok zone →
        zone.contains request.question.name = false) ∧
      request.header.recursionDesired = true ∧ server.config.forwarders ≠ [] ∧
      ∃ network ∈ server.config.forwardFor, network.contains source.canonical = true) ∧
    (disposition = .dropped ↔ datagram.length < 2 ∨ IsResponse datagram) ∧
    (∀ callerReplies reply, disposition.reply? datagram callerReplies = some reply →
      RespondsTo reply datagram ∧ Request.parse reply = .error .notAQuery ∧
      ∀ (server' : Server) (resolver' : Resolver) (source' : IpAddress),
        (server'.handle resolver' source' reply).1 = .dropped ∧
        (server'.receive resolver' source' reply).1 = .dropped) := by
  refine ⟨forwarded_iff hstore, dropped_iff.trans Request.isDropped_iff, ?_⟩
  intro callerReplies reply hreply
  have hresponds := respondsTo_reply hstore hreply
  refine ⟨hresponds, Request.parse_of_isResponse hresponds.isResponse, ?_⟩
  intro server' resolver' source'
  exact ⟨dispose_of_isResponse hresponds.isResponse,
    dispose_of_isResponse hresponds.isResponse.take⟩

/-- A server with one zone forwards a query for a name beside it.  Of a header that was cut short it
echoes the id, and nobody answers to that. -/
theorem handles_datagrams_fragment :
    let server : Server := { config := openConfig }
    ∃ resolver : Resolver, ZoneStore.ofConfigs [ZoneStore.emptyConfig "b"] = .ok resolver.zones ∧
      (server.handle resolver plainClient Pool.plainQuery).1 = .forwarded ∧
      ∃ reply, (server.handle resolver plainClient [0, 7, 1]).1 = .replied reply ∧
        reply.take 2 = [0, 7] ∧ (server.handle resolver plainClient reply).1 = .dropped := by
  intro server
  obtain ⟨zone, hmade, happart⟩ : ∃ zone, Zone.ofConfig (ZoneStore.emptyConfig "b") = .ok zone ∧
      zone.contains ['a'] = false := ⟨_, rfl, rfl⟩
  obtain ⟨resolver, hstore⟩ : ∃ resolver : Resolver,
      ZoneStore.ofConfigs [ZoneStore.emptyConfig "b"] = .ok resolver.zones := ⟨{ zones := _ }, rfl⟩
  have houtside : ∀ config ∈ [ZoneStore.emptyConfig "b"], ∀ other,
      Zone.ofConfig config = .ok other → other.contains ['a'] = false := by
    intro config hconfig other hother
    rw [List.mem_singleton.mp hconfig, hmade] at hother
    cases hother
    exact happart
  obtain ⟨hforwarded, -, -⟩ := handles_datagrams hstore server plainClient Pool.plainQuery
  obtain ⟨-, -, hreplies⟩ := handles_datagrams hstore server plainClient [0, 7, 1]
  have hreplied : (server.handle resolver plainClient [0, 7, 1]).1 =
      .replied [0, 7, 128, 1, 0, 0, 0, 0, 0, 0, 0, 0] := rfl
  obtain ⟨hresponds, -, hdropped⟩ := hreplies false _ (by rw [hreplied]; rfl)
  exact ⟨resolver, hstore,
    hforwarded.mpr ⟨_, rfl, houtside, rfl, by decide, _, List.mem_cons_self, rfl⟩,
    _, hreplied, hresponds.id, (hdropped server resolver plainClient).1⟩

end Server

end Nameserver

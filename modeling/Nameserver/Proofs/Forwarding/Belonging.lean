import Mathlib
import Nameserver.Forwarding.Exchange
import Nameserver.Proofs.Message.Grammar
import Nameserver.Proofs.Message.Transcript

/-!
# What belongs to a query

A worker tells by the id and the question whether a datagram belongs to its query.  Both are
compared as octets, and neither side is parsed as a whole.

**The question.**  `Exchange.question?` gives back the octets of a question that stands behind the
header, whatever comes after it.  A query that was parsed has its own question there, so a datagram
belongs to it if it has the same id and repeats that question (`Exchange.belongs_iff`).  What
belongs to a parsed query is therefore long enough to have a header.
-/

namespace Nameserver

/-- Header and id are read alike. -/
lemma Header.idOf?_of_decode {message : Bytes} {h : Header} (hdecode : decode message = .ok h) :
    idOf? message = some h.id := by
  unfold decode at hdecode
  split at hdecode
  · cases hdecode
    rfl
  · cases hdecode
  · cases hdecode

lemma Header.idOf?_encode (h : Header) (rest : Bytes) : idOf? (h.encode ++ rest) = some h.id :=
  (idOf?_of_decode (decode_encode h rest)).trans rfl

lemma Header.exists_decode {message : Bytes} (hlen : headerSize ≤ message.length) :
    ∃ h, decode message = .ok h := by
  obtain ⟨h, hdecode, -⟩ :=
    decode_of_length (List.length_take_of_le hlen) (message.drop headerSize)
  rw [List.take_append_drop] at hdecode
  exact ⟨h, hdecode⟩

namespace Exchange

variable {front rest message question : Bytes}

/-- The octets are a name with four octets behind it, as a question is. -/
def IsAsked (octets : Bytes) : Prop :=
  ∃ name four, Name.IsWire name ∧ four.length = 4 ∧ octets = name ++ four

lemma accepts_asked :
    (Read.wireName >>= fun _ => Read.skip 4).Accepts fun bytes _ => IsAsked bytes :=
  (Read.accepts_wireName.bind fun _ => Read.accepts_skip 4).congr fun bytes u => by
    constructor
    · rintro ⟨name, four, ⟨labels, hsized, hname⟩, hfour, rfl⟩
      exact ⟨name, name, four, ⟨rfl, labels, hsized, hname⟩, hfour, rfl⟩
    · rintro ⟨_, name, four, ⟨-, labels, hsized, hname⟩, hfour, rfl⟩
      exact ⟨name, four, ⟨labels, hsized, hname⟩, hfour, rfl⟩

/-- The question of a message is what stands behind the header and looks like one. -/
lemma question?_append_iff (hfront : front.length = headerSize) :
    question? (front ++ rest) = some question ↔ IsAsked question ∧ question <+: rest := by
  have hreader : { message := front ++ rest, offset := headerSize } =
      Reader.between front rest := by
    rw [Reader.between, hfront]
  have hcut (octets rest' : Bytes) :
      ((front ++ (octets ++ rest')).take (front ++ octets).length).drop headerSize = octets := by
    rw [← List.append_assoc, List.take_left, ← hfront, List.drop_left]
  unfold question?
  dsimp only
  rw [hreader]
  constructor
  · intro h
    split at h
    · rename_i hread
      obtain ⟨octets, rest', hasked, rfl, rfl⟩ := accepts_asked.sound hread
      rw [Reader.offset_between, hcut, Option.some.injEq] at h
      subst h
      exact ⟨hasked, rest', rfl⟩
    · cases h
  · rintro ⟨hasked, rest', rfl⟩
    have hread := accepts_asked.complete (a := ()) hasked front rest'
    rw [hread]
    dsimp only
    rw [Reader.offset_between, hcut]

lemma IsAsked.length_pos (h : IsAsked question) : 0 < question.length := by
  obtain ⟨name, four, -, hfour, rfl⟩ := h
  rw [List.length_append]
  omega

/-- A message with a question is longer than a header. -/
lemma length_of_question? (h : question? message = some question) :
    question.length ≤ message.length - headerSize := by
  unfold question? at h
  dsimp only at h
  split at h
  · cases h
    rw [List.length_drop, List.length_take]
    omega
  · cases h

variable {query datagram : Bytes} {request : Request}

lemma isAsked_of_parse (hparse : Request.parse query = .ok request) :
    IsAsked request.question.encode := by
  obtain ⟨q, hsound, -, rfl⟩ := Request.parse_eq_ok.mp hparse
  refine ⟨_, _, ⟨q.name, hsound.sized, rfl⟩, ?_, List.append_assoc ..⟩
  simp

/-- A query that was parsed repeats what it was parsed as. -/
lemma question?_of_parse (hparse : Request.parse query = .ok request) :
    question? query = some request.question.encode := by
  obtain ⟨q, hsound, ⟨hspells, hcontent⟩, rfl⟩ := Request.parse_eq_ok.mp hparse
  rw [← List.take_append_drop headerSize query, question?_append_iff hspells.length]
  refine ⟨isAsked_of_parse hparse, List.IsPrefix.trans ?_ hcontent⟩
  exact ⟨q.passed.flatMap Entry.encode ++ q.additionals.flatMap Entry.encode, by
    simp [Query.content, Query.request, Question.encode]⟩

lemma decode_of_parse (hparse : Request.parse query = .ok request) :
    Header.decode query = .ok request.header := by
  obtain ⟨q, -, ⟨hspells, -⟩, rfl⟩ := Request.parse_eq_ok.mp hparse
  have hdecode : Header.decode (query.take headerSize ++ query.drop headerSize) = .ok q.header :=
    (Header.decode_append_iff hspells.length).mpr hspells
  rwa [List.take_append_drop] at hdecode

lemma idOf?_of_parse (hparse : Request.parse query = .ok request) :
    Header.idOf? query = some request.header.id :=
  Header.idOf?_of_decode (decode_of_parse hparse)

/-- A datagram belongs to a parsed query if it has the same id and repeats the question. -/
lemma belongs_iff (hparse : Request.parse query = .ok request) :
    belongs query datagram = true ↔
      Header.idOf? datagram = some request.header.id ∧
        question? datagram = some request.question.encode := by
  rw [belongs, idOf?_of_parse hparse, question?_of_parse hparse, Bool.and_eq_true,
    decide_eq_true_iff, decide_eq_true_iff]

/-- What belongs to a parsed query has a header. -/
lemma exists_decode_of_belongs (hparse : Request.parse query = .ok request)
    (hbelongs : belongs query datagram = true) : ∃ h, Header.decode datagram = .ok h := by
  have hlength := length_of_question? ((belongs_iff hparse).mp hbelongs).2
  have hpos := (isAsked_of_parse hparse).length_pos
  exact Header.exists_decode (by omega)

end Exchange

end Nameserver

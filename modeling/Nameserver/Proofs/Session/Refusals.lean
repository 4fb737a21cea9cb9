import Mathlib
import Nameserver.Proofs.Json.Printing
import Nameserver.Proofs.Session.Influence
import Nameserver.Proofs.Text.Parts
import Nameserver.Session.Frame

/-!
# How long a refusal is

A refusal repeats the domain that it is about, so it can be longer than the request was.

* **`ChallengeRequest.length_reply_le`** — but not by much: at most 99 octets are added to those of
  the request, whatever has to be escaped in it.  So any frame with that much room is answered
  (`ChallengeRequest.refused_of_not_fits`).
* **`ChallengeRequest.length_reply_longRequest`** — and no bound holds that adds nothing: a request
  for one long domain comes back in a refusal that is longer.  So there are frames that may be sent
  and cannot be answered (`ChallengeRequest.exists_not_fits`).
-/

namespace Nameserver

open Json (escaped)

/-! ## Texts in quotes -/

/-- The octets that a text takes inside a string. -/
def Text.writtenSize (t : Text) : Nat := ((Utf8.encode t).flatMap escaped).length

namespace Text

variable {t u : Text}

@[simp] lemma writtenSize_append (t u : Text) :
    (t ++ u).writtenSize = t.writtenSize + u.writtenSize := by
  rw [writtenSize, Utf8.encode_append, List.flatMap_append, List.length_append]
  rfl

lemma writtenSize_cons (c : Char) (t : Text) :
    writtenSize (c :: t) = writtenSize [c] + t.writtenSize :=
  writtenSize_append [c] t

lemma length_escaped_lowerOctet (b : UInt8) :
    (escaped (Utf8.lowerOctet b)).length = (escaped b).length := by
  have hplain : ∀ b : UInt8, 65 ≤ b.toNat → b.toNat ≤ 122 → b ≠ 92 → escaped b = [b] := by
    intro b hlow hhigh hslash
    refine Json.escaped_of_plain (by omega) ?_ hslash
    rintro rfl
    exact absurd hlow (by decide)
  have hlower := Utf8.toNat_lowerOctet b
  split_ifs at hlower with hcase
  · have hslash : b ≠ 92 := by
      rintro rfl
      exact absurd hcase.2 (by decide)
    have hslash' : Utf8.lowerOctet b ≠ 92 := by
      intro heq
      rw [heq] at hlower
      have : (92 : UInt8).toNat = 92 := rfl
      omega
    rw [hplain b hcase.1 (by omega) hslash, hplain _ (by omega) (by omega) hslash']
    rfl
  · rw [UInt8.toNat_inj.mp hlower]

lemma writtenSize_lower (t : Text) : t.lower.writtenSize = t.writtenSize := by
  rw [writtenSize, Utf8.encode_lower, writtenSize]
  induction Utf8.encode t with
  | nil => rfl
  | cons b bytes ih =>
      rw [List.map_cons, List.flatMap_cons, List.length_append, ih, length_escaped_lowerOctet,
        List.flatMap_cons, List.length_append]

lemma writtenSize_normalize_le (t : Text) : (normalize t).writtenSize ≤ t.writtenSize := by
  obtain ⟨dots, hdots⟩ : dropTrailingDots t <+: t := by
    rw [dropTrailingDots, ← List.rdropWhile]
    exact List.rdropWhile_prefix _ t
  have hsize := writtenSize_append (dropTrailingDots t) dots
  rw [hdots] at hsize
  rw [normalize, writtenSize_lower]
  omega

/-- Digits are written as they are. -/
lemma writtenSize_toDigits {base : Nat} (n : Nat) (h : 1 < base) (hle : base ≤ 16) :
    writtenSize (Nat.toDigits base n) = (Nat.toDigits base n).length := by
  have hdigit : ∀ d < 16, writtenSize [Nat.digitChar d] = 1 := by decide
  induction n using Nat.strong_induction_on with
  | _ n ih =>
    rw [Nat.toDigits_eq_if h]
    split_ifs with hlt
    · exact hdigit n (by omega)
    · have hsmaller : n / base < n := Nat.div_lt_self (by omega) h
      have hlast : n % base < 16 := (Nat.mod_lt n (by omega)).trans_le hle
      rw [writtenSize_append, hdigit _ hlast, ih _ hsmaller, List.length_append]
      rfl

end Text

/-! ## Addresses -/

lemma Ipv4Address.writtenSize_text_le (ip : Ipv4Address) : ip.text.writtenSize ≤ 15 := by
  have hoctet : ∀ b : UInt8, (Text.ofNat b.toNat).writtenSize ≤ 3 := by
    intro b
    rw [Text.ofNat, Text.writtenSize_toDigits _ (by decide) (by decide)]
    exact Nat.toDigits_length 10 b.toNat 3 (by decide) (b.toNat_lt.trans_le (by decide))
  have hdot : ∀ t : Text, Text.writtenSize ('.' :: t) = 1 + t.writtenSize :=
    Text.writtenSize_cons '.'
  obtain ⟨bits⟩ := ip
  simp only [text, octets, List.map_cons, List.map_nil, Text.join, Text.writtenSize_append, hdot]
  have h₁ := hoctet ⟨bits.extractLsb' 24 8⟩
  have h₂ := hoctet ⟨bits.extractLsb' 16 8⟩
  have h₃ := hoctet ⟨bits.extractLsb' 8 8⟩
  have h₄ := hoctet ⟨bits.extractLsb' 0 8⟩
  omega

lemma Ipv6Address.writtenSize_groupsText_le {groups : List Nat}
    (h : ∀ group ∈ groups, group < 0x10000) :
    (groupsText groups).writtenSize ≤ 5 * groups.length := by
  have hgroup : ∀ group < 0x10000, (Text.writtenSize (Nat.toDigits 16 group)) ≤ 4 := by
    intro group hlt
    rw [Text.writtenSize_toDigits _ (by decide) (by decide)]
    exact Nat.toDigits_length 16 group 4 (by decide) hlt
  induction groups with
  | nil => exact Nat.zero_le _
  | cons group groups ih =>
      rw [List.forall_mem_cons] at h
      have hfirst := hgroup group h.1
      have hmore := ih h.2
      have hcolon : Text.writtenSize [':'] = 1 := rfl
      cases groups with
      | nil =>
          have hsingle : groupsText [group] = Nat.toDigits 16 group := List.append_nil _
          rw [hsingle, List.length_singleton]
          omega
      | cons next groups =>
          have hcons : groupsText (group :: next :: groups) =
              Nat.toDigits 16 group ++ [':'] ++ groupsText (next :: groups) :=
            List.intercalate_cons_cons
          rw [hcons, Text.writtenSize_append, Text.writtenSize_append, hcolon, List.length_cons]
          omega

lemma Ipv6Address.writtenSize_text_le (ip : Ipv6Address) : ip.text.writtenSize ≤ 42 := by
  have hlt : ∀ group ∈ ip.groups, group < 0x10000 := by
    intro group hgroup
    obtain ⟨shift, -, rfl⟩ := List.mem_map.mp hgroup
    exact BitVec.isLt _
  have hlength : ip.groups.length = 8 := rfl
  unfold text
  split
  · rename_i inner hmapped
    have hinner := inner.writtenSize_text_le
    have hstart : Text.writtenSize "::ffff:".toList = 7 := by decide
    rw [Text.writtenSize_append, hstart]
    omega
  · dsimp only
    generalize longestZeroRun ip.groups = run
    obtain ⟨start, length⟩ := run
    dsimp only
    split_ifs with hrun
    · have hfront := writtenSize_groupsText_le fun group hgroup =>
        hlt group (List.mem_of_mem_take (i := start) hgroup)
      have hback := writtenSize_groupsText_le fun group hgroup =>
        hlt group (List.mem_of_mem_drop (i := start + length) hgroup)
      have hcolons : Text.writtenSize [':', ':'] = 2 := rfl
      rw [List.length_take, hlength] at hfront
      rw [List.length_drop, hlength] at hback
      rw [Text.writtenSize_append, Text.writtenSize_append, hcolons]
      omega
    · have hall := writtenSize_groupsText_le hlt
      rw [hlength] at hall
      omega

lemma IpAddress.writtenSize_text_le (ip : IpAddress) : ip.text.writtenSize ≤ 42 := by
  cases ip with
  | v4 ip => exact ip.writtenSize_text_le.trans (by decide)
  | v6 ip => exact ip.writtenSize_text_le

/-! ## Acknowledgements -/

/-- A refusal is its reason in a string, in an object. -/
lemma Ack.length_print_ofFailure (failure : Failure) :
    (Ack.ofFailure failure).toJson.print.length = failure.message.writtenSize + 12 := by
  simp only [Ack.ofFailure, Ack.toJson, Json.ofFields, Json.ofText, List.map_cons, List.map_nil,
    Json.print, Json.printFields, Json.quoted, List.cons_append, List.length_cons,
    List.length_append, List.length_nil, Text.writtenSize]
  have hkey : ((Utf8.encode "error".toList).flatMap escaped).length = 5 := by decide
  omega

lemma Failure.writtenSize_quoted (t : Text) : (quoted t).writtenSize = t.writtenSize + 4 := by
  have hquote : Text.writtenSize ['"'] = 2 := rfl
  rw [quoted, List.cons_append, Text.writtenSize_cons, Text.writtenSize_append, hquote]
  omega

namespace Failure

lemma writtenSize_emptyDomain (name : Text) :
    (message (.invalidName name .emptyDomain)).writtenSize = name.writtenSize + 38 := by
  have hmessage : message (.invalidName name .emptyDomain) = "invalid domain name ".toList ++
      quoted name ++ ": ".toList ++ NameDefect.emptyDomain.message.toList := rfl
  have hfront : Text.writtenSize "invalid domain name ".toList = 20 := by decide +kernel
  have hbetween : Text.writtenSize ": ".toList = 2 := by decide +kernel
  have hback : Text.writtenSize NameDefect.emptyDomain.message.toList = 12 := by decide +kernel
  rw [hmessage, Text.writtenSize_append, Text.writtenSize_append, Text.writtenSize_append,
    writtenSize_quoted, hfront, hbetween, hback]
  ring

lemma writtenSize_forbidden (peer : IpAddress) (domain : Text) :
    (message (.forbidden peer domain)).writtenSize =
      peer.text.writtenSize + domain.writtenSize + 53 := by
  have hmessage : message (.forbidden peer domain) = "IP ".toList ++ peer.text ++
      " is not authorized to register challenges for ".toList ++ quoted domain := rfl
  have hfront : Text.writtenSize "IP ".toList = 3 := by decide +kernel
  have hbetween :
      Text.writtenSize " is not authorized to register challenges for ".toList = 46 := by
    decide +kernel
  rw [hmessage, Text.writtenSize_append, Text.writtenSize_append, Text.writtenSize_append,
    writtenSize_quoted, hfront, hbetween]
  ring

lemma writtenSize_invalidChallenge (domain : Text) :
    (message (.invalidChallenge domain)).writtenSize = domain.writtenSize + 59 := by
  have hmessage : message (.invalidChallenge domain) = "TXT value for ".toList ++
      quoted domain ++ " is not a valid DNS-01 challenge response".toList := rfl
  have hfront : Text.writtenSize "TXT value for ".toList = 14 := by decide +kernel
  have hback : Text.writtenSize " is not a valid DNS-01 challenge response".toList = 41 := by
    decide +kernel
  rw [hmessage, Text.writtenSize_append, Text.writtenSize_append, writtenSize_quoted, hfront,
    hback]
  ring

end Failure

lemma Challenge.writtenSize_baseDomain_le (c : Challenge) :
    c.baseDomain.writtenSize ≤ c.domain.writtenSize := by
  refine le_trans ?_ (Text.writtenSize_normalize_le c.domain)
  rw [baseDomain]
  cases hrest : Text.dropStart? (Text.normalize c.domain) ['*', '.'] with
  | none => exact le_rfl
  | some rest =>
      rw [Text.dropStart?_eq_some_iff.mp hrest, Text.writtenSize_append]
      exact Nat.le_add_left _ _

lemma exists_of_forM_eq_error {ε α : Type} {f : α → Except ε Unit} {xs : List α} {e : ε}
    (h : forM xs f = .error e) : ∃ x ∈ xs, f x = .error e := by
  induction xs with
  | nil => cases h
  | cons x xs ih =>
      rw [List.forM_cons] at h
      cases hx : f x with
      | error e' =>
          rw [hx] at h
          cases h
          exact ⟨x, List.mem_cons_self, hx⟩
      | ok u =>
          rw [hx] at h
          obtain ⟨x', hmem, hx'⟩ := ih h
          exact ⟨x', List.mem_cons_of_mem _ hmem, hx'⟩

lemma Json.length_of_text? {j : Json} {t : Text} (h : Json.text? j = some t) :
    j.print.length = t.writtenSize + 2 := by
  cases j with
  | str bytes =>
      rw [Text.writtenSize, Utf8.encode_of_decode? h, Json.print_str, Json.quoted,
        List.length_append, List.length_cons, List.length_singleton]
  | _ => cases h

lemma Challenge.writtenSize_domain_le {j : Json} {c : Challenge} (h : ofJson? j = some c) :
    c.domain.writtenSize + 4 ≤ j.print.length := by
  unfold ofJson? at h
  split at h
  · rename_i domain value hrecord
    obtain ⟨d, hd, h⟩ := Option.bind_eq_some_iff.mp h
    obtain ⟨v, hv, heq⟩ := Option.bind_eq_some_iff.mp h
    cases heq
    obtain ⟨part, rfl, htext⟩ := Option.bind_eq_some_iff.mp hd
    have hpart := Json.length_of_record? hrecord List.mem_cons_self
    rw [Json.length_of_text? htext] at hpart
    exact hpart
  · cases h

namespace ChallengeRequest

variable {policy : ChallengePolicy} {peer : IpAddress} {payload : Bytes} {j : Json}
  {failure : Failure} {request : ChallengeRequest} {c : Challenge}

/-- The domain of a challenge stands in the document of its request. -/
lemma writtenSize_domain_le (h : ofJson? j = some request) (hc : c ∈ request.challenges) :
    c.domain.writtenSize + 8 ≤ j.print.length := by
  unfold ofJson? at h
  split at h
  · rename_i challenges hrecord
    obtain ⟨list, hlist, heq⟩ := Option.bind_eq_some_iff.mp h
    cases heq
    obtain ⟨items, rfl, hitems⟩ := Option.bind_eq_some_iff.mp hlist
    obtain ⟨item, hitem, hsize⟩ := Json.length_of_list? hitems hc
    have hdomain := Challenge.writtenSize_domain_le hitem
    have houter := Json.length_of_record? hrecord List.mem_cons_self
    omega
  · cases h

/-- What can be wrong with a request. -/
lemma exists_of_check_eq_error (h : request.check policy peer = .error failure) :
    failure = .emptyChallengeSet ∨
      ∃ c ∈ request.challenges, checkChallenge policy peer c = .error failure := by
  rw [check, List.forM_eq_forM] at h
  split_ifs at h with hempty
  · cases h
    exact .inl rfl
  · exact .inr (exists_of_forM_eq_error h)

/-- What can be wrong with a challenge. -/
lemma cases_of_checkChallenge (h : checkChallenge policy peer c = .error failure) :
    failure = .invalidName c.domain .emptyDomain ∨ failure = .forbidden peer c.baseDomain ∨
      failure = .invalidChallenge c.domain := by
  unfold checkChallenge at h
  split_ifs at h with hempty hforbidden
  · cases h
    exact .inl rfl
  · cases h
    exact .inr (.inl rfl)
  · split at h
    · cases h
    · cases h
      exact .inr (.inr rfl)

lemma writtenSize_message_le (h : checkChallenge policy peer c = .error failure) :
    failure.message.writtenSize ≤ c.domain.writtenSize + 95 := by
  have hbase := c.writtenSize_baseDomain_le
  have hpeer := peer.writtenSize_text_le
  rcases cases_of_checkChallenge h with rfl | rfl | rfl
  · rw [Failure.writtenSize_emptyDomain]
    omega
  · rw [Failure.writtenSize_forbidden]
    omega
  · rw [Failure.writtenSize_invalidChallenge]
    omega

/-- The acknowledgement of a frame. -/
def answer (policy : ChallengePolicy) (peer : IpAddress) (payload : Bytes) : Ack :=
  match ofFrame policy peer payload with
  | .ok _ => .ok
  | .error failure => .ofFailure failure

/-- The payload that answers a frame. -/
def reply (policy : ChallengePolicy) (peer : IpAddress) (payload : Bytes) : Bytes :=
  (answer policy peer payload).toJson.print

/-- Whether the payload that answers a frame may be sent. -/
def fits (policy : ChallengePolicy) (peer : IpAddress) (payload : Bytes) : Bool :=
  (reply policy peer payload).length ≤ Frame.limit

lemma answer_of_no_request (h : (Json.parse? payload).bind ofJson? = none) :
    answer policy peer payload = .ofFailure .invalidJson := by
  rw [answer, ofFrame, h]

lemma answer_of_check_ok (h : (Json.parse? payload).bind ofJson? = some request)
    (hcheck : request.check policy peer = .ok ()) : answer policy peer payload = .ok := by
  rw [answer, ofFrame, h]
  dsimp only
  rw [hcheck]
  rfl

lemma answer_of_check_error (h : (Json.parse? payload).bind ofJson? = some request)
    (hcheck : request.check policy peer = .error failure) :
    answer policy peer payload = .ofFailure failure := by
  rw [answer, ofFrame, h]
  dsimp only
  rw [hcheck]
  rfl

/-- All is well if a frame holds a request that passes. -/
lemma isOk_answer_iff : (answer policy peer payload).isOk = true ↔
    ∃ request, (Json.parse? payload).bind ofJson? = some request ∧
      request.check policy peer = .ok () := by
  cases hdecode : (Json.parse? payload).bind ofJson? with
  | none =>
      rw [answer_of_no_request hdecode]
      simp [Ack.isOk, Ack.ofFailure]
  | some request =>
      cases hcheck : request.check policy peer with
      | ok u =>
          rw [answer_of_check_ok hdecode hcheck]
          simp [Ack.isOk, Ack.ok, hcheck]
      | error failure =>
          rw [answer_of_check_error hdecode hcheck]
          simp [Ack.isOk, Ack.ofFailure, hcheck]

/-- A reply is short, or repeats a domain. -/
lemma reply_cases (policy : ChallengePolicy) (peer : IpAddress) (payload : Bytes) :
    (reply policy peer payload).length ≤ 40 ∨
    ∃ request c failure, (Json.parse? payload).bind ofJson? = some request ∧
      (c ∈ request.challenges ∧ checkChallenge policy peer c = .error failure) ∧
      request.check policy peer = .error failure ∧
      (reply policy peer payload).length = failure.message.writtenSize + 12 := by
  rw [reply]
  cases hdecode : (Json.parse? payload).bind ofJson? with
  | none =>
      rw [answer_of_no_request hdecode]
      exact .inl (by decide +kernel)
  | some request =>
      cases hcheck : request.check policy peer with
      | ok u =>
          rw [answer_of_check_ok hdecode hcheck]
          exact .inl (by decide)
      | error failure =>
          rw [answer_of_check_error hdecode hcheck]
          rcases exists_of_check_eq_error hcheck with rfl | ⟨c, hc, hfailure⟩
          · exact .inl (by decide +kernel)
          · exact .inr ⟨request, c, failure, rfl, ⟨hc, hfailure⟩, hcheck,
              Ack.length_print_ofFailure _⟩

/-- **A refusal is not much longer** than the request that it refuses. -/
theorem length_reply_le (policy : ChallengePolicy) (peer : IpAddress) (payload : Bytes) :
    (reply policy peer payload).length ≤ max 40 (payload.length + 99) := by
  rcases reply_cases policy peer payload with hsmall | ⟨request, c, failure, hdecode,
    ⟨hc, hfailure⟩, -, hlength⟩
  · exact hsmall.trans (le_max_left _ _)
  · obtain ⟨j, hparse, hrequest⟩ := Option.bind_eq_some_iff.mp hdecode
    have hmessage := writtenSize_message_le hfailure
    have hdomain := writtenSize_domain_le hrequest hc
    have hprint := Json.length_print_le hparse
    exact le_max_of_le_right (by omega)

/-! ## One long domain -/

/-- A request for a domain of `n` letters, with an empty value. -/
def longRequest (n : Nat) : Bytes :=
  [91, 91, 91, 34] ++ List.replicate n 97 ++ 34 :: [44, 34, 34, 93, 93, 93]

lemma length_longRequest (n : Nat) : (longRequest n).length = n + 11 := by
  simp [longRequest]

end ChallengeRequest

namespace Json

lemma stringBody_plain {bytes : Bytes} (h : ∀ b ∈ bytes, 32 ≤ b.toNat ∧ b ≠ 34 ∧ b ≠ 92)
    (rest : Bytes) :
    stringBody (bytes ++ 34 :: rest) = some (bytes.map .octet, bytes.length + 1) := by
  induction bytes with
  | nil =>
      rw [List.nil_append, stringBody.eq_def]
      rfl
  | cons b bytes ih =>
      rw [List.forall_mem_cons] at h
      obtain ⟨⟨hle, hquote, hslash⟩, hmore⟩ := h
      have hcontrol : ¬ b < 32 := by
        rw [UInt8.lt_iff_toNat_lt]
        exact Nat.not_lt.mpr hle
      rw [List.cons_append, stringBody.eq_def]
      simp [hquote, hcontrol, hslash, ih hmore]

lemma assemble_octets (bytes : Bytes) : Piece.assemble (bytes.map .octet) = bytes := by
  induction bytes with
  | nil => rfl
  | cons b bytes ih => rw [List.map_cons, Piece.assemble, ih]

lemma scanAfter_length (bytes rest : Bytes) :
    Token.scanAfter bytes.length (bytes ++ rest) = Token.scan rest := by
  induction bytes with
  | nil => rfl
  | cons b bytes ih => exact ih

/-- A string without escapes is read as it is. -/
lemma scan_string {bytes : Bytes} (h : ∀ b ∈ bytes, 32 ≤ b.toNat ∧ b ≠ 34 ∧ b ≠ 92)
    (rest : Bytes) :
    Token.scan (34 :: (bytes ++ 34 :: rest)) = (Token.scan rest).map (.string bytes :: ·) := by
  have hfirst : Token.first? 34 (bytes ++ 34 :: rest) =
      some (.string bytes, bytes.length + 1) := by
    rw [Token.first?]
    simp [stringBody_plain h, assemble_octets]
  have hskip := scanAfter_length (bytes ++ [34]) rest
  rw [List.length_append, List.length_singleton, List.append_assoc, List.singleton_append] at hskip
  rw [Token.scan, Token.scanAfter, if_neg (by decide), hfirst]
  exact congrArg (Option.map _) hskip

end Json

namespace ChallengeRequest

lemma scan_longRequest (n : Nat) : Json.Token.scan (longRequest n) =
    some [.openArray, .openArray, .openArray, .string (List.replicate n 97), .comma, .string [],
      .closeArray, .closeArray, .closeArray] := by
  have hplain : ∀ b ∈ List.replicate n (97 : UInt8), 32 ≤ b.toNat ∧ b ≠ 34 ∧ b ≠ 92 := by
    intro b hb
    rw [List.eq_of_mem_replicate hb]
    decide
  have hdomain := Json.scan_string hplain [44, 34, 34, 93, 93, 93]
  have hvalue : Json.Token.scan [44, 34, 34, 93, 93, 93] =
      some [.comma, .string [], .closeArray, .closeArray, .closeArray] := by rfl
  have hopen : ∀ rest, Json.Token.scan (91 :: rest) =
      (Json.Token.scan rest).map (Json.Token.openArray :: ·) := fun rest => rfl
  rw [hvalue] at hdomain
  rw [longRequest, List.append_assoc, List.cons_append, List.cons_append, List.cons_append,
    List.cons_append, List.nil_append, hopen, hopen, hopen, hdomain]
  rfl

lemma parse?_longRequest (n : Nat) : (Json.parse? (longRequest n)).bind ofJson? =
    some ⟨[⟨List.replicate n 'a', []⟩]⟩ := by
  have hencode : ∀ n, Utf8.encode (List.replicate n 'a') = List.replicate n 97 := by
    intro n
    induction n with
    | zero => rfl
    | succ n ih => rw [List.replicate_succ, Utf8.encode_cons, ih]; rfl
  have hdecode : Utf8.decode? (List.replicate n 97) = some (List.replicate n 'a') := by
    rw [← hencode, Utf8.decode?_encode]
  have hparse : Json.parse? (longRequest n) =
      some (.arr [.arr [.arr [.str (List.replicate n 97), .str []]]]) := by
    rw [Json.parse?, scan_longRequest]
    rfl
  have hchallenge : Challenge.ofJson? (.arr [.str (List.replicate n 97), .str []]) =
      some ⟨List.replicate n 'a', []⟩ := by
    simp [Challenge.ofJson?, Json.record?, Challenge.fieldNames, Json.required?, Json.text?,
      hdecode]
    rfl
  rw [hparse, Option.bind_some, ofJson?]
  simp [Json.record?, Json.required?, Json.list?, hchallenge]

lemma baseDomain_letters (n : Nat) (value : Text) :
    Challenge.baseDomain ⟨List.replicate n 'a', value⟩ = List.replicate n 'a' := by
  have hnormal : Text.IsNormal (List.replicate n 'a') := by
    refine ⟨?_, fun hdot => ?_⟩
    · rw [Text.lower, List.map_replicate]
      rfl
    · have hmem := List.eq_of_mem_replicate (List.mem_of_getLast? hdot)
      exact absurd hmem (by decide)
  have hplain : Text.dropStart? (List.replicate n 'a') ['*', '.'] = none := by
    refine Option.eq_none_iff_forall_ne_some.mpr fun rest hrest => ?_
    have hstar : '*' ∈ List.replicate n 'a' := by
      rw [Text.dropStart?_eq_some_iff.mp hrest]
      exact List.mem_cons_self
    exact absurd (List.eq_of_mem_replicate hstar) (by decide)
  rw [Challenge.baseDomain]
  dsimp only
  rw [hnormal.normalize_eq, hplain, Option.getD_none]

lemma writtenSize_letters (n : Nat) : Text.writtenSize (List.replicate n 'a') = n := by
  have hletter : Text.writtenSize ['a'] = 1 := rfl
  induction n with
  | zero => rfl
  | succ n ih =>
      rw [List.replicate_succ, Text.writtenSize_cons, ih, hletter, Nat.add_comm]

/-- **A refusal is longer** than the request that it refuses, where that is for one long domain. -/
theorem length_reply_longRequest (policy : ChallengePolicy) (peer : IpAddress) {n : Nat}
    (h : 0 < n) : n + 65 ≤ (reply policy peer (longRequest n)).length := by
  obtain ⟨failure, hcheck, hlength⟩ : ∃ failure,
      checkChallenge policy peer ⟨List.replicate n 'a', []⟩ = .error failure ∧
        n + 53 ≤ failure.message.writtenSize := by
    have hempty : (List.replicate n 'a').isEmpty = false := by
      rw [List.isEmpty_eq_false_iff, ne_eq, List.replicate_eq_nil_iff]
      omega
    rw [checkChallenge, baseDomain_letters, hempty]
    by_cases hmay : policy.mayUpdate peer (List.replicate n 'a') = true
    · refine ⟨.invalidChallenge (List.replicate n 'a'), by simp [hmay]; rfl, ?_⟩
      rw [Failure.writtenSize_invalidChallenge, writtenSize_letters]
      omega
    · refine ⟨.forbidden peer (List.replicate n 'a'), by simp [hmay], ?_⟩
      rw [Failure.writtenSize_forbidden, writtenSize_letters]
      omega
  have hrequest : check policy peer ⟨[⟨List.replicate n 'a', []⟩]⟩ = .error failure := by
    rw [check, if_neg (by simp), List.forM_eq_forM, List.forM_cons, hcheck]
    rfl
  rw [reply, answer_of_check_error (parse?_longRequest n) hrequest, Ack.length_print_ofFailure]
  omega

/-- Some requests that may be sent cannot be answered. -/
theorem exists_not_fits (policy : ChallengePolicy) (peer : IpAddress) :
    ∃ payload : Bytes, payload.length ≤ Frame.limit ∧ fits policy peer payload = false := by
  refine ⟨longRequest 65480, ?_, ?_⟩
  · rw [length_longRequest]
    decide
  · have hlength := length_reply_longRequest policy peer (n := 65480) (by decide)
    rw [fits, decide_eq_false_iff_not, Frame.limit]
    omega

/-- What cannot be answered is a request that is refused, and has hardly any room in its frame. -/
lemma refused_of_not_fits (h : fits policy peer payload = false) :
    Frame.limit < payload.length + 99 ∧
    ∃ request failure, (Json.parse? payload).bind ofJson? = some request ∧
      request.check policy peer = .error failure := by
  have hlimit : Frame.limit = 65536 := rfl
  have hlength := length_reply_le policy peer payload
  rw [fits, decide_eq_false_iff_not] at h
  refine ⟨by omega, ?_⟩
  rcases reply_cases policy peer payload with hsmall | ⟨request, c, failure, hdecode, -, hcheck,
    -⟩
  · omega
  · exact ⟨request, failure, hdecode, hcheck⟩

end ChallengeRequest

end Nameserver

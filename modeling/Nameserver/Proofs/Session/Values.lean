import Nameserver.Proofs.Text.Base64
import Nameserver.Session.Message

/-!
# Values that are shown

The value of a challenge and the key of a mail provider are texts in base64, each in its own
variant.  `Base64.accepts_spellings` says that the checks accept the spellings and nothing else.

**Challenges.**  A value spells a digest, which has a fixed size, so all values have the same size.
Digests and values are in one-to-one correspondence: neither another ending nor a filler gives a
second value for a digest.

**Keys.**  Of a key it is only asked that it spells something.
-/

namespace Nameserver

/-- The value of a challenge is accepted if it spells a digest. -/
lemma Challenge.checkValue_eq_ok_iff (c : Challenge) :
    c.checkValue = .ok () ↔
      ∃ digest, digest.length = digestSize ∧
        Base64.Spells Base64.urlSafe (Utf8.encode c.value) digest := by
  unfold checkValue
  constructor
  · intro h
    split at h
    · cases h
    · rename_i digest hdecode
      split_ifs at h with hsize
      exact ⟨digest, hsize, (Base64.decode?_eq_some_iff Base64.isClear_urlSafe).mp hdecode⟩
  · rintro ⟨digest, hsize, hspells⟩
    rw [(Base64.decode?_eq_some_iff Base64.isClear_urlSafe).mpr hspells]
    exact if_pos hsize

/-- The key of a provider is accepted if it spells something. -/
lemma MailKeyAnnouncement.checkKey_eq_ok_iff (announcement : MailKeyAnnouncement) :
    announcement.checkKey = .ok () ↔
      ∃ key, key ≠ [] ∧
        Base64.Spells Base64.standard (Utf8.encode announcement.publicKey) key := by
  unfold checkKey
  constructor
  · intro h
    split_ifs at h with hempty
    split at h
    · rename_i key hdecode
      refine ⟨key, ?_, (Base64.decode?_eq_some_iff Base64.isClear_standard).mp hdecode⟩
      rintro rfl
      have hkey : Utf8.encode announcement.publicKey = [] := Base64.eq_encode_of_decode? hdecode
      exact hempty (List.isEmpty_iff.mpr (Utf8.encode_eq_nil.mp hkey))
    · cases h
  · rintro ⟨key, hne, hspells⟩
    have hdecode := (Base64.decode?_eq_some_iff Base64.isClear_standard).mpr hspells
    have hkey : announcement.publicKey.isEmpty ≠ true := by
      intro hempty
      rw [List.isEmpty_iff.mp hempty] at hdecode
      exact hne (Option.some.inj hdecode).symm
    rw [if_neg hkey, hdecode]

namespace Base64

/-- **Checks accept spellings.**  A challenge is accepted with the spelling of a digest, of which
there is one for each digest, and a mail key with the spelling of anything but nothing. -/
theorem accepts_spellings :
    (∀ c : Challenge, c.checkValue = .ok () ↔
      ∃ digest, digest.length = digestSize ∧ Spells urlSafe (Utf8.encode c.value) digest) ∧
    (∀ c : Challenge, c.checkValue = .ok () →
      c.value.length = 43 ∧ ∃! digest, Spells urlSafe (Utf8.encode c.value) digest) ∧
    (∀ digest : Bytes, digest.length = digestSize →
      ∃! value : Text, Spells urlSafe (Utf8.encode value) digest) ∧
    ∀ announcement : MailKeyAnnouncement, announcement.checkKey = .ok () ↔
      ∃ key, key ≠ [] ∧ Spells standard (Utf8.encode announcement.publicKey) key := by
  refine ⟨Challenge.checkValue_eq_ok_iff, ?accepted,
    fun digest _ => existsUnique_spells isClear_urlSafe digest,
    MailKeyAnnouncement.checkKey_eq_ok_iff⟩
  intro c haccepted
  obtain ⟨digest, hsize, hspells⟩ := c.checkValue_eq_ok_iff.mp haccepted
  constructor
  · rw [← Utf8.length_encode_of_ascii (hspells.lt_of_mem isClear_urlSafe),
      hspells.length_text rfl, hsize]
    rfl
  · exact ⟨digest, hspells, fun digest' hspells' =>
      (hspells.octets_unique isClear_urlSafe hspells').symm⟩

/-- A value that is shown, and the same with another bit in the place of a zero at its end. -/
theorem accepts_spellings_zeros :
    let c : Challenge := ⟨['a'], "LPsIwTo7o8BoG0-vjCyGQGBWSVIPxI-i_X336eUOQZo".toList⟩
    let c' : Challenge := ⟨['a'], "LPsIwTo7o8BoG0-vjCyGQGBWSVIPxI-i_X336eUOQZp".toList⟩
    c.checkValue = .ok () ∧ c.value.length = 43 ∧
      (∃! digest, Spells urlSafe (Utf8.encode c.value) digest) ∧
      (¬ ∃ digest, digest.length = digestSize ∧ Spells urlSafe (Utf8.encode c'.value) digest) ∧
      (∃! value : Text, Spells urlSafe (Utf8.encode value) (List.replicate 32 255)) ∧
      ∃ key, key ≠ [] ∧ Spells standard (Utf8.encode "/w==".toList) key := by
  intro c c'
  have haccepted : c.checkValue = .ok () := rfl
  have hrefused : c'.checkValue = .error .invalidEncoding := rfl
  have hkey : (⟨['m'], "/w==".toList⟩ : MailKeyAnnouncement).checkKey = .ok () := rfl
  obtain ⟨hsize, hdigest⟩ := accepts_spellings.2.1 c haccepted
  refine ⟨haccepted, hsize, hdigest, ?_, accepts_spellings.2.2.1 _ rfl,
    (accepts_spellings.2.2.2 _).mp hkey⟩
  rw [← accepts_spellings.1 c', hrefused]
  rintro ⟨⟩

end Base64

end Nameserver

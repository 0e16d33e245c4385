import Radius.Packet.Authenticator
import Radius.Packet.MessageAuthenticator

/-!
Fields that are sealed with a hash of what stands outside them: the Message-Authenticator at any
place of a packet, and the authenticator in the header. What such a field held before has no part in
its hash. So the octets outside the field determine what it is filled with, and of all octets that
agree with them there, exactly those that are filled in this way are accepted.
-/

namespace Radius

namespace Octets

/-- Equal at every place outside a field. Nothing is said of the octets of the field, not even how
many there are if nothing stands behind them. -/
def AgreeOutside (offset count : Nat) (left right : Octets) : Prop :=
  ∀ place, place < offset ∨ offset + count ≤ place → left[place]? = right[place]?

section Agreement

variable {offset count : Nat} {left right octets patch : Octets}

theorem AgreeOutside.refl (offset count : Nat) (octets : Octets) :
    AgreeOutside offset count octets octets :=
  fun _ _ => rfl

theorem AgreeOutside.take_eq (agree : AgreeOutside offset count left right) :
    left.take offset = right.take offset := by
  refine List.ext_getElem? fun place => ?_
  rw [List.getElem?_take, List.getElem?_take]
  split
  · rename_i before
    exact agree place (.inl before)
  · rfl

theorem AgreeOutside.drop_eq (agree : AgreeOutside offset count left right) :
    left.drop (offset + count) = right.drop (offset + count) := by
  refine List.ext_getElem? fun place => ?_
  rw [List.getElem?_drop, List.getElem?_drop]
  exact agree _ (.inr (Nat.le_add_right ..))

theorem overwrite_congr (agree : AgreeOutside offset patch.length left right) :
    left.overwrite offset patch = right.overwrite offset patch := by
  rw [overwrite, overwrite, agree.take_eq, agree.drop_eq]

theorem agreeOutside_overwrite (patch : Octets) (inside : offset ≤ octets.length) :
    AgreeOutside offset patch.length octets (octets.overwrite offset patch) := by
  have front : (octets.take offset).length = offset := List.length_take_of_le inside
  intro place outside
  rw [overwrite, List.append_assoc]
  rcases outside with before | behind
  · rw [List.getElem?_append_left (by omega), List.getElem?_take_of_lt before]
  · rw [List.getElem?_append_right (by omega), List.getElem?_append_right (by omega),
      List.getElem?_drop]
    congr 1
    omega

theorem length_overwrite (within : offset + patch.length ≤ octets.length) :
    (octets.overwrite offset patch).length = octets.length := by
  rw [overwrite, List.length_append, List.length_append, List.length_take, List.length_drop]
  omega

theorem field_overwrite (patch : Octets) (inside : offset ≤ octets.length) :
    ((octets.overwrite offset patch).drop offset).take patch.length = patch := by
  have front : (octets.take offset).length = offset := List.length_take_of_le inside
  rw [overwrite, List.append_assoc, List.drop_left' front, List.take_left]

theorem overwrite_of_field (holds : (octets.drop offset).take patch.length = patch) :
    octets.overwrite offset patch = octets := by
  have parts := List.take_append_drop patch.length (octets.drop offset)
  rw [holds, List.drop_drop] at parts
  rw [overwrite, List.append_assoc, parts, List.take_append_drop]

end Agreement

end Octets

open Octets

/-- Octets that hold a digest in a field, compared with all octets that agree with them outside it:
no others pass the check. -/
structure SealedWith (offset : Nat) (digest : Digest) (check : Octets → Bool)
    (octets filled : Octets) : Prop where
  outside : AgreeOutside offset 16 octets filled
  length_eq : filled.length = octets.length
  holds : (filled.drop offset).take 16 = digest.octets
  accepted : check filled = true
  only : ∀ other, AgreeOutside offset 16 octets other → check other = true → other = filled

theorem SealedWith.check_iff {offset : Nat} {digest : Digest} {check : Octets → Bool}
    {octets filled other : Octets} (seals : SealedWith offset digest check octets filled)
    (agree : AgreeOutside offset 16 octets other) : check other = true ↔ other = filled := by
  constructor
  · exact seals.only other agree
  · rintro rfl
    exact seals.accepted

/-- A field of sixteen octets, with a hash for it that is the same whatever the field holds. -/
structure HashField where
  offset : Nat
  digest : Octets → Digest
  blind : ∀ {left right : Octets}, AgreeOutside offset 16 left right → digest left = digest right

namespace HashField

variable (field : HashField) {octets other : Octets}

def fill (octets : Octets) : Octets := octets.overwrite field.offset (field.digest octets).octets

def Holds (octets : Octets) : Prop :=
  (octets.drop field.offset).take 16 = (field.digest octets).octets

variable {field}

theorem agreeOutside_fill (inside : field.offset ≤ octets.length) :
    AgreeOutside field.offset 16 octets (field.fill octets) := by
  have agree := agreeOutside_overwrite (field.digest octets).octets inside
  rwa [OctetField.length_octets] at agree

theorem fill_congr (agree : AgreeOutside field.offset 16 octets other) :
    field.fill octets = field.fill other := by
  rw [fill, fill, field.blind agree]
  apply overwrite_congr
  rwa [OctetField.length_octets]

theorem within_of_holds (holds : field.Holds octets) : field.offset + 16 ≤ octets.length := by
  have length := congrArg List.length holds
  rw [List.length_take, List.length_drop, OctetField.length_octets] at length
  omega

theorem guarded_iff_holds (field : HashField) :
    field.offset + 16 ≤ octets.length ∧ field.Holds octets ↔ field.Holds octets :=
  and_iff_right_of_imp within_of_holds

theorem holds_fill (inside : field.offset ≤ octets.length) : field.Holds (field.fill octets) := by
  have written := field_overwrite (field.digest octets).octets inside
  rw [OctetField.length_octets] at written
  rw [Holds, ← field.blind (agreeOutside_fill inside)]
  exact written

theorem fill_of_holds (holds : field.Holds octets) : field.fill octets = octets := by
  apply overwrite_of_field
  rw [OctetField.length_octets]
  exact holds

theorem sealedWith_fill (field : HashField) {check : Octets → Bool}
    (checks : ∀ other, check other = true ↔ field.Holds other)
    (within : field.offset + 16 ≤ octets.length) :
    SealedWith field.offset (field.digest octets) check octets (field.fill octets) := by
  have inside : field.offset ≤ octets.length := Nat.le_of_add_right_le within
  have outside := agreeOutside_fill inside
  have holds := holds_fill inside
  constructor
  case outside => exact outside
  case length_eq => exact length_overwrite (by rwa [OctetField.length_octets])
  case holds =>
    rw [field.blind outside]
    exact holds
  case accepted => exact (checks _).mpr holds
  case only =>
    -- octets that hold their hash are left as they are by filling it in, which looks outside only
    intro other agree passes
    rw [fill_congr agree, fill_of_holds ((checks other).mp passes)]

end HashField

namespace MessageAuthenticator

/-- A packet signed at a place. Whatever the field there holds, signing fills in the keyed hash of the
packet with a blank field, and verifying at any position answers whether this was filled in. -/
structure SignedAt (mac : Octets → Octets → Digest) (secret : Octets) (offset : Nat)
    (octets blank signed : Octets) : Prop where
  unsigned : AgreeOutside offset 16 octets blank
  zeros : (blank.drop offset).take 16 = List.replicate 16 0
  seals : SealedWith offset (mac secret blank) (fun other => verify mac other secret offset) octets
    signed
  signs : ∀ other, AgreeOutside offset 16 octets other → offset + 16 ≤ other.length →
    signWithin mac other secret offset = .ok signed
  again : signWithin mac signed secret offset = .ok signed
  answers : offset + 16 < positionLimit → ∀ other, AgreeOutside offset 16 octets other →
    verifyAt mac other secret offset = .ok (decide (other = signed))

section Signing

variable (mac : Octets → Octets → Digest) (secret : Octets) (offset : Nat) {octets : Octets}

def hashField : HashField where
  offset
  digest octets := expected mac octets secret offset
  blind agree := by rw [expected, expected, overwrite_congr agree]

theorem verify_iff_holds :
    verify mac octets secret offset = true ↔ (hashField mac secret offset).Holds octets := by
  rw [verify, decide_eq_true_eq]
  exact (hashField mac secret offset).guarded_iff_holds

theorem signWithin_eq_fill (within : offset + 16 ≤ octets.length) :
    signWithin mac octets secret offset = .ok ((hashField mac secret offset).fill octets) :=
  if_neg (Nat.not_lt.mpr within)

theorem verifyAt_eq_verify (counted : offset + 16 < positionLimit) :
    verifyAt mac octets secret offset = .ok (verify mac octets secret offset) :=
  if_neg (Nat.not_le.mpr counted)

theorem signedAt_fill (within : offset + 16 ≤ octets.length) :
    SignedAt mac secret offset octets (octets.overwrite offset (List.replicate 16 0))
      ((hashField mac secret offset).fill octets) := by
  have inside : offset ≤ octets.length := Nat.le_of_add_right_le within
  have seals := (hashField mac secret offset).sealedWith_fill
    (fun other => verify_iff_holds mac secret offset) within
  have signs (other : Octets) (agree : AgreeOutside offset 16 octets other)
      (room : offset + 16 ≤ other.length) : signWithin mac other secret offset =
        .ok ((hashField mac secret offset).fill octets) := by
    rw [signWithin_eq_fill mac secret offset room]
    exact congrArg Except.ok (HashField.fill_congr agree).symm
  constructor
  case unsigned => exact agreeOutside_overwrite (List.replicate 16 0) inside
  case zeros => exact field_overwrite (List.replicate 16 0) inside
  case seals => exact seals
  case signs => exact signs
  case again => exact signs _ seals.outside (seals.length_eq ▸ within)
  case answers =>
    intro counted other agree
    rw [verifyAt_eq_verify mac secret offset counted]
    refine congrArg Except.ok (Bool.eq_iff_iff.mpr ?_)
    rw [decide_eq_true_eq]
    exact seals.check_iff agree

end Signing

end MessageAuthenticator

namespace Authenticator

/-- A packet with an authenticator that is a hash. Whatever the header holds there, the same hash is
calculated, and the packet with this hash written into the header is the one that is accepted. -/
structure HashedInto (calculate : Octets → Except Fault Digest) (check : Octets → Bool)
    (digest : Digest) (octets hashed : Octets) : Prop where
  calculates : ∀ other, AgreeOutside 4 16 octets other → 20 ≤ other.length →
    calculate other = .ok digest
  written : write octets digest = hashed
  seals : SealedWith 4 digest check octets hashed

section Hashing

variable (hash : Octets → Digest) (request : Authenticator) (secret : Octets) {octets : Octets}

def hashField : HashField where
  offset := 4
  digest octets := responseHash hash octets request secret
  blind agree := by
    have front := agree.take_eq
    have behind := agree.drop_eq
    rw [responseHash, responseHash, offset, front, Packet.headerLength, behind]

theorem verifyResponse_iff_holds :
    verifyResponse hash octets request secret = true ↔
      (hashField hash request secret).Holds octets := by
  rw [verifyResponse, decide_eq_true_eq]
  exact (hashField hash request secret).guarded_iff_holds

theorem calculateResponse_eq_digest (whole : 20 ≤ octets.length) :
    calculateResponse hash octets request secret =
      .ok ((hashField hash request secret).digest octets) :=
  if_neg (Nat.not_lt.mpr whole)

theorem hashedInto_fill (whole : 20 ≤ octets.length) :
    HashedInto (fun other => calculateResponse hash other request secret)
      (fun other => verifyResponse hash other request secret)
      (hash (octets.take 4 ++ request.octets ++ octets.drop 20 ++ secret)) octets
      ((hashField hash request secret).fill octets) := by
  constructor
  case calculates =>
    intro other agree enough
    rw [calculateResponse_eq_digest hash request secret enough]
    exact congrArg Except.ok ((hashField hash request secret).blind agree).symm
  case written => rfl
  case seals =>
    exact (hashField hash request secret).sealedWith_fill
      (fun other => verifyResponse_iff_holds hash request secret) whole

end Hashing

end Authenticator

open MessageAuthenticator Authenticator in
/-- The octets outside a sealed field determine the one value that is filled in and accepted there,
for a Message-Authenticator at any place of a packet and for the authenticators of responses and of
hashed requests. -/
theorem sealed_field_determined (mac : Octets → Octets → Digest) (hash : Octets → Digest)
    (secret : Octets) :
    (∀ octets offset, offset + 16 ≤ octets.length →
      ∃ blank signed, SignedAt mac secret offset octets blank signed) ∧
    (∀ octets request, 20 ≤ octets.length → ∃ hashed,
      HashedInto (fun other => calculateResponse hash other request secret)
        (fun other => verifyResponse hash other request secret)
        (hash (octets.take 4 ++ request.octets ++ octets.drop 20 ++ secret)) octets hashed) ∧
    ∀ octets, 20 ≤ octets.length → ∃ hashed,
      HashedInto (fun other => calculateRequest hash other secret)
        (fun other => verifyRequest hash other secret)
        (hash (octets.take 4 ++ List.replicate 16 0 ++ octets.drop 20 ++ secret)) octets hashed := by
  refine ⟨fun octets offset within => ?_, fun octets request whole => ?_, fun octets whole => ?_⟩
  · exact ⟨_, _, signedAt_fill mac secret offset within⟩
  · exact ⟨_, hashedInto_fill hash request secret whole⟩
  · exact ⟨_, hashedInto_fill hash (OctetField.zero 16) secret whole⟩

/-- A response that lets a user log in to a host, under the secret `xyzzy5461`. -/
def loginReply : Octets :=
  [0x02, 0x00, 0x00, 0x26, 0x86, 0xFE, 0x22, 0x0E, 0x76, 0x24, 0xBA, 0x2A, 0x10, 0x05, 0xF6, 0xBF,
    0x9B, 0x55, 0xE0, 0xB2, 0x06, 0x06, 0x00, 0x00, 0x00, 0x01, 0x0F, 0x06, 0x00, 0x00, 0x00, 0x00,
    0x0E, 0x06, 0xC0, 0xA8, 0x01, 0x03]

def loginAuthenticator : Authenticator where
  octets := [0x0F, 0x40, 0x3F, 0x94, 0x73, 0x97, 0x80, 0x57, 0xBD, 0x83, 0xD5, 0xCB, 0x98, 0xF4,
    0x22, 0x7A]
  length_octets := rfl

def loginSecret : Octets := [120, 121, 122, 122, 121, 53, 52, 54, 49]

open MessageAuthenticator Authenticator in
/-- The response is the accepted one among those like it. It is not signed at a place in the middle
of its header. -/
theorem sealed_field_determined_loginReply :
    (2 + 16 ≤ loginReply.length ∧ ∃ blank signed,
      SignedAt hmacMd5 loginSecret 2 loginReply blank signed ∧ signed ≠ loginReply) ∧
    (20 ≤ loginReply.length ∧
      HashedInto (fun other => calculateResponse md5 other loginAuthenticator loginSecret)
        (fun other => verifyResponse md5 other loginAuthenticator loginSecret)
        (md5 (loginReply.take 4 ++ loginAuthenticator.octets ++ loginReply.drop 20 ++ loginSecret))
        loginReply loginReply) ∧
    ∃ hashed, HashedInto (fun other => calculateRequest md5 other loginSecret)
      (fun other => verifyRequest md5 other loginSecret)
      (md5 (loginReply.take 4 ++ List.replicate 16 0 ++ loginReply.drop 20 ++ loginSecret))
      loginReply hashed := by
  have laws := sealed_field_determined hmacMd5 md5 loginSecret
  have within : 2 + 16 ≤ loginReply.length := by decide
  have whole : 20 ≤ loginReply.length := by decide
  have unverified : verify hmacMd5 loginReply loginSecret 2 = false := by decide +kernel
  have verified : verifyResponse md5 loginReply loginAuthenticator loginSecret = true := by
    decide +kernel
  obtain ⟨blank, signed, law⟩ := laws.1 loginReply 2 within
  obtain ⟨hashed, answer⟩ := laws.2.1 loginReply loginAuthenticator whole
  have different : signed ≠ loginReply := by
    rintro rfl
    exact Bool.false_ne_true (unverified.symm.trans law.seals.accepted)
  have same := answer.seals.only loginReply (AgreeOutside.refl 4 16 loginReply) verified
  exact ⟨⟨within, blank, signed, law, different⟩, ⟨whole, same ▸ answer⟩,
    laws.2.2 loginReply whole⟩

end Radius

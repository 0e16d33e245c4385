import Radius.Proofs.Arrival
import Radius.Proofs.SentLength

/-!
The blocks of a hidden value. A block is hidden with the hash of the secret and of the hidden block
before it, so hiding relates blocks to blocks, and both directions compute that relation. A user
password is filled with zeros to whole blocks when it is hidden and loses its zeros when it is
revealed. So a password comes back without the zeros at its end, and what was revealed is hidden
again as the blocks that were received, up to the last one that holds anything but zeros.
-/

namespace Radius

namespace KeyStream

/-- Blocks of sixteen octets, of which the last may be shorter, each beside its hidden form: the
block combined with the hash of the secret and the hidden block before it. -/
inductive Chained (hash : Octets → Digest) (secret : Octets) :
    (previous plain cipher : Octets) → Prop
  | done {previous : Octets} : Chained hash secret previous [] []
  | block {previous block hidden plain cipher : Octets} (filled : block ≠ [])
      (bound : block.length ≤ 16) (ends : block.length < 16 → plain = [])
      (hides : hidden = Octets.xor block (hash (secret ++ previous)).octets)
      (chain : Chained hash secret hidden plain cipher) :
      Chained hash secret previous (block ++ plain) (hidden ++ cipher)

variable {hash : Octets → Digest} {secret seed block plain cipher : Octets}

theorem maskBlock_eq (bound : block.length ≤ 16) :
    maskBlock hash secret seed block = Octets.xor block (hash (secret ++ seed)).octets := by
  rw [maskBlock, blockKey, blockLength, List.take_of_length_le bound]

theorem take_block (bound : block.length ≤ 16) (ends : block.length < 16 → plain = []) :
    (block ++ plain).take blockLength = block ∧ (block ++ plain).drop blockLength = plain := by
  by_cases short : block.length < 16
  · rw [ends short, List.append_nil]
    exact ⟨List.take_of_length_le bound, List.drop_eq_nil_of_le bound⟩
  · have whole : block.length = blockLength := Nat.le_antisymm bound (Nat.le_of_not_lt short)
    exact ⟨List.take_left' whole, List.drop_left' whole⟩

theorem encrypt_block (filled : block ≠ []) (bound : block.length ≤ 16)
    (ends : block.length < 16 → plain = []) :
    encrypt hash secret seed (block ++ plain) =
      maskBlock hash secret seed block ++
        encrypt hash secret (maskBlock hash secret seed block) plain := by
  obtain ⟨front, back⟩ := take_block bound ends
  have masked : maskBlock hash secret seed (block ++ plain) = maskBlock hash secret seed block := by
    rw [← maskBlock_take, front]
  obtain ⟨first, rest, rfl⟩ := List.exists_cons_of_ne_nil filled
  rw [List.cons_append] at back masked ⊢
  rw [encrypt, masked, back]

theorem chained_encrypt (hash : Octets → Digest) (secret seed plain : Octets) :
    Chained hash secret seed plain (encrypt hash secret seed plain) := by
  fun_induction encrypt hash secret seed plain with
  | case1 => exact .done
  | case2 seed first rest hidden ih =>
      have bound : ((first :: rest).take blockLength).length ≤ 16 := by
        rw [List.length_take]
        exact Nat.min_le_left ..
      have ends : ((first :: rest).take blockLength).length < 16 →
          (first :: rest).drop blockLength = [] := by
        intro short
        rw [List.length_take, blockLength] at short
        exact List.drop_eq_nil_of_le (by rw [blockLength]; omega)
      have hides : hidden = Octets.xor ((first :: rest).take blockLength)
          (hash (secret ++ seed)).octets := by
        rw [← maskBlock_eq bound, maskBlock_take]
      have chained := Chained.block (by simp [blockLength]) bound ends hides ih
      rwa [List.take_append_drop] at chained

theorem encrypt_eq_iff :
    encrypt hash secret seed plain = cipher ↔ Chained hash secret seed plain cipher := by
  constructor
  · rintro rfl
    exact chained_encrypt hash secret seed plain
  · intro chained
    induction chained with
    | done => rw [encrypt]
    | block filled bound ends hides chain ih =>
        rw [encrypt_block filled bound ends, maskBlock_eq bound, ← hides, ih]

theorem decrypt_eq_iff :
    decrypt hash secret seed cipher = plain ↔ Chained hash secret seed plain cipher := by
  rw [← encrypt_eq_iff]
  constructor
  · rintro rfl
    exact encrypt_decrypt hash secret seed cipher
  · rintro rfl
    exact decrypt_encrypt hash secret seed plain

end KeyStream

namespace Octets

/-- What is left of the octets without the zeros at their end. -/
def Trims (octets kept : Octets) : Prop :=
  kept.getLast? ≠ some 0 ∧ ∃ count, octets = kept ++ List.replicate count 0

/-- The octets that are not zero stand in the first `count` blocks, and one in the last of them. -/
def FillsBlocks (octets : Octets) (count : Nat) : Prop :=
  (∀ index octet, octets[index]? = some octet → octet ≠ 0 → index / 16 < count) ∧
    (count ≠ 0 → ∃ index octet, octets[index]? = some octet ∧ octet ≠ 0 ∧ index / 16 + 1 = count)

end Octets

namespace Password

variable {octets kept : Octets}

theorem dropTrailingZeros_eq_self_iff :
    dropTrailingZeros octets = octets ↔ octets.getLast? ≠ some 0 := by
  rw [dropTrailingZeros_eq, List.rdropWhile_eq_self_iff]
  cases empty : octets.getLast? with
  | none => simp [List.getLast?_eq_none_iff.mp empty]
  | some last =>
      obtain ⟨front, rfl⟩ := List.getLast?_eq_some_iff.mp empty
      simp

theorem trims_iff : octets.Trims kept ↔ dropTrailingZeros octets = kept := by
  constructor
  · rintro ⟨ends, count, rfl⟩
    rw [dropTrailingZeros_append_zeros, dropTrailingZeros_eq_self_iff.mpr ends]
  · rintro rfl
    refine ⟨?_, dropTrailingZeros_append octets⟩
    exact dropTrailingZeros_eq_self_iff.mp (List.rdropWhile_idempotent ..)

theorem fillsBlocks_of_trims (trims : octets.Trims kept) :
    octets.FillsBlocks ((kept.length + 15) / 16) := by
  obtain ⟨ends, count, rfl⟩ := trims
  constructor
  · intro index octet found nonzero
    have within : index < kept.length := by
      by_contra behind
      rw [List.getElem?_append_right (Nat.le_of_not_lt behind)] at found
      exact nonzero (List.eq_of_mem_replicate (List.mem_of_getElem? found))
    omega
  · intro some
    have positive : 0 < kept.length := by omega
    -- the last octet that is kept is the last one that is not zero
    refine ⟨kept.length - 1, kept[kept.length - 1], ?_, ?_, by omega⟩
    · rw [List.getElem?_append_left (by omega), List.getElem?_eq_getElem]
    · intro zero
      rw [List.getLast?_eq_getElem?, List.getElem?_eq_getElem (by omega), zero] at ends
      exact ends rfl

section UserPassword

variable {exchange : Exchange} {plain cipher : Octets}

theorem hideUser_eq_error_iff {cause : AttributeError} :
    hideUser exchange plain = .error cause ↔
      128 < plain.length ∧ cause = .passwordTooLong plain.length 128 := by
  unfold hideUser maxUserPassword
  split
  · rename_i long
    simp [long, eq_comm]
  · rename_i short
    simp [short]

theorem hideUser_eq_ok_iff :
    hideUser exchange plain = .ok cipher ↔
      plain.length ≤ 128 ∧ KeyStream.Chained exchange.hash exchange.secret
        exchange.authenticator.octets (pad plain) cipher := by
  rw [← KeyStream.encrypt_eq_iff]
  unfold hideUser maxUserPassword
  split
  · rename_i long
    simp [Nat.not_le_of_lt long]
  · rename_i short
    simp [Nat.le_of_not_lt short]

theorem revealUser?_eq_some_iff :
    revealUser? exchange cipher = some plain ↔
      (cipher.length % 16 = 0 ∧ cipher.length ≤ 128) ∧
        ∃ opened, KeyStream.Chained exchange.hash exchange.secret exchange.authenticator.octets
          opened cipher ∧ opened.Trims plain := by
  simp only [← KeyStream.decrypt_eq_iff, trims_iff, exists_eq_left']
  unfold revealUser? KeyStream.blockLength maxUserPassword
  split
  · rename_i whole
    simp [whole]
  · rename_i partly
    simp [partly]

theorem padded_eq (length : Nat) : padded length = 16 * ((length + 15) / 16) := by
  unfold padded
  omega

theorem length_hideUser (hid : hideUser exchange plain = .ok cipher) :
    cipher.length = 16 * ((plain.length + 15) / 16) := by
  obtain ⟨-, chained⟩ := hideUser_eq_ok_iff.mp hid
  rw [← KeyStream.encrypt_eq_iff] at chained
  rw [← chained, KeyStream.length_encrypt, length_pad, padded_eq]

theorem trims_of_hideUser (hid : hideUser exchange plain = .ok cipher) :
    ∃ kept, revealUser? exchange cipher = some kept ∧ plain.Trims kept := by
  have whole := length_hideUser hid
  obtain ⟨short, chained⟩ := hideUser_eq_ok_iff.mp hid
  have trims : plain.Trims (dropTrailingZeros plain) := trims_iff.mpr rfl
  refine ⟨dropTrailingZeros plain, ?_, trims⟩
  refine revealUser?_eq_some_iff.mpr ⟨by omega, pad plain, chained, ?_⟩
  rw [trims_iff, pad, dropTrailingZeros_append_zeros]

theorem hideUser_of_revealUser? (revealed : revealUser? exchange cipher = some plain) :
    hideUser exchange plain = .ok (cipher.take (16 * ((plain.length + 15) / 16))) := by
  obtain ⟨⟨-, bound⟩, -⟩ := revealUser?_eq_some_iff.mp revealed
  have shorter := length_revealUser?_le revealed
  have hid : hideUser exchange plain = .ok (KeyStream.encrypt exchange.hash exchange.secret
      exchange.authenticator.octets (pad plain)) :=
    hideUser_eq_ok_iff.mpr ⟨Nat.le_trans shorter bound, KeyStream.chained_encrypt ..⟩
  have starts := hideUser_prefix revealed hid
  have front := List.prefix_iff_eq_take.mp starts
  rw [length_hideUser hid] at front
  rw [hid, front]

end UserPassword

end Password

/-- The filter of user passwords, for any hash. A password is hidden unless it is longer than 128
octets, in as few whole blocks as hold it, and comes back without the zeros at its end. Whole blocks
up to 128 octets are revealed, nothing else is, and what they reveal is hidden again as the blocks
up to the last one with an octet other than zero. -/
theorem Filter.userPassword_blocks (exchange : Exchange) (source : Entropy) :
    (∀ plain : Octets,
      ((∃ cause rest, Filter.userPassword.encode exchange plain source = (.error cause, rest)) ↔
        128 < plain.length) ∧
      (plain.length ≤ 128 → ∃ hidden kept,
        Filter.userPassword.encode exchange plain source = (.ok hidden, source) ∧
        hidden.length = (plain.length + 15) / 16 * 16 ∧
        Filter.userPassword.decode? exchange hidden = some kept ∧ plain.Trims kept ∧
        (kept = plain ↔ plain.getLast? ≠ some 0))) ∧
    ∀ cipher : Octets,
      ((Filter.userPassword.decode? exchange cipher).isSome ↔
        cipher.length % 16 = 0 ∧ cipher.length ≤ 128) ∧
      ∀ plain, Filter.userPassword.decode? exchange cipher = some plain →
        ∃ opened count, KeyStream.Chained exchange.hash exchange.secret
            exchange.authenticator.octets opened cipher ∧
          opened.Trims plain ∧ opened.FillsBlocks count ∧
          Filter.userPassword.encode exchange plain source =
            (.ok (cipher.take (16 * count)), source) := by
  have hides : ∀ plain result rest, Filter.userPassword.encode exchange plain source =
      (result, rest) ↔ Password.hideUser exchange plain = result ∧ source = rest :=
    fun plain result rest => Drawing.pair_eq_iff
  constructor
  · intro plain
    constructor
    · simp only [hides, Password.hideUser_eq_error_iff]
      constructor
      · rintro ⟨-, -, ⟨long, -⟩, -⟩
        exact long
      · intro long
        exact ⟨_, source, ⟨long, rfl⟩, rfl⟩
    · intro short
      have hid := Password.hideUser_eq_ok_iff.mpr
        ⟨short, KeyStream.chained_encrypt exchange.hash exchange.secret
          exchange.authenticator.octets (Password.pad plain)⟩
      obtain ⟨kept, revealed, trims⟩ := Password.trims_of_hideUser hid
      refine ⟨_, kept, (hides _ _ _).mpr ⟨hid, rfl⟩, ?_, revealed, trims, ?_⟩
      · rw [Password.length_hideUser hid, Nat.mul_comm]
      · rw [← Password.trims_iff.mp trims]
        exact Password.dropTrailingZeros_eq_self_iff
  · intro cipher
    constructor
    · rw [Option.isSome_iff_exists]
      constructor
      · rintro ⟨plain, revealed⟩
        exact (Password.revealUser?_eq_some_iff.mp revealed).1
      · intro whole
        exact ⟨_, Password.revealUser?_eq_some_iff.mpr
          ⟨whole, _, KeyStream.decrypt_eq_iff.mp rfl, Password.trims_iff.mpr rfl⟩⟩
    · intro plain revealed
      obtain ⟨-, opened, chained, trims⟩ := Password.revealUser?_eq_some_iff.mp revealed
      exact ⟨opened, _, chained, trims, Password.fillsBlocks_of_trims trims,
        (hides _ _ _).mpr ⟨Password.hideUser_of_revealUser? revealed, rfl⟩⟩

def Password.overfilled : Octets :=
  KeyStream.encrypt md5 [115] (List.replicate 16 0) (97 :: List.replicate 31 0)

theorem Filter.userPassword_blocks_zeros :
    (∃ hidden, Filter.userPassword.encode .sample [97, 0] (Entropy.cycle []) =
        (.ok hidden, Entropy.cycle []) ∧ hidden.length = 16 ∧
      Filter.userPassword.decode? .sample hidden = some [97]) ∧
    Password.overfilled.length = 32 ∧
      Filter.userPassword.decode? .sample Password.overfilled = some [97] ∧
      Filter.userPassword.encode .sample [97] (Entropy.cycle []) =
        (.ok (Password.overfilled.take 16), Entropy.cycle []) := by
  obtain ⟨hides, reveals⟩ := Filter.userPassword_blocks .sample (Entropy.cycle [])
  constructor
  · obtain ⟨hidden, kept, sent, whole, revealed, trims, -⟩ := (hides [97, 0]).2 (by decide)
    have same : kept = [97] := (Password.trims_iff.mp trims).symm.trans (by decide)
    exact ⟨hidden, sent, whole, same ▸ revealed⟩
  · have revealed : Filter.userPassword.decode? .sample Password.overfilled = some [97] := by
      decide +kernel
    obtain ⟨opened, count, chained, -, ⟨within, last⟩, again⟩ := (reveals _).2 _ revealed
    have same : opened = 97 :: List.replicate 31 0 :=
      (KeyStream.decrypt_eq_iff.mpr chained).symm.trans (KeyStream.decrypt_encrypt ..)
    subst same
    -- the octet in front is the only one that is not zero, so one block is filled
    have one : count = 1 := by
      have first := within 0 97 rfl (by decide)
      obtain ⟨index, octet, found, nonzero, ends⟩ := last (by omega)
      cases index with
      | zero => omega
      | succ index => exact absurd (List.eq_of_mem_replicate (List.mem_of_getElem? found)) nonzero
    rw [one] at again
    exact ⟨by decide +kernel, revealed, again⟩

end Radius

import Radius.Secret.Exchange

/-!
The key stream that hides values (RFC 2865 section 5.2). Each block of sixteen octets is combined
with the hash of the secret and the hidden block before it; the first block is keyed by a seed.
`decrypt_encrypt` and `encrypt_decrypt` say that the two directions undo each other, at every
length.
-/

namespace Radius.KeyStream

def blockLength : Nat := 16

def blockKey (hash : Octets → Digest) (secret previous : Octets) : Octets :=
  (hash (secret ++ previous)).octets

def maskBlock (hash : Octets → Digest) (secret previous octets : Octets) : Octets :=
  Octets.xor (octets.take blockLength) (blockKey hash secret previous)

def encrypt (hash : Octets → Digest) (secret seed plain : Octets) : Octets :=
  match plain with
  | [] => []
  | first :: rest =>
      let hidden := maskBlock hash secret seed (first :: rest)
      hidden ++ encrypt hash secret hidden ((first :: rest).drop blockLength)
termination_by plain.length
decreasing_by
  rw [List.length_drop, List.length_cons, blockLength]
  omega

def decrypt (hash : Octets → Digest) (secret seed cipher : Octets) : Octets :=
  match cipher with
  | [] => []
  | first :: rest =>
      maskBlock hash secret seed (first :: rest) ++
        decrypt hash secret ((first :: rest).take blockLength) ((first :: rest).drop blockLength)
termination_by cipher.length
decreasing_by
  rw [List.length_drop, List.length_cons, blockLength]
  omega

section Laws

variable (hash : Octets → Digest) (secret seed octets : Octets)

@[simp] theorem length_maskBlock :
    (maskBlock hash secret seed octets).length = min blockLength octets.length := by
  have key := (hash (secret ++ seed)).length_octets
  simp only [maskBlock, blockKey, Octets.length_xor, List.length_take, key, blockLength]
  omega

theorem length_encrypt : (encrypt hash secret seed octets).length = octets.length := by
  fun_induction encrypt hash secret seed octets with
  | case1 => rfl
  | case2 seed first rest hidden ih =>
      rw [List.length_append, ih, length_maskBlock, List.length_drop]
      omega

theorem length_decrypt : (decrypt hash secret seed octets).length = octets.length := by
  fun_induction decrypt hash secret seed octets with
  | case1 => rfl
  | case2 seed first rest ih =>
      rw [List.length_append, ih, length_maskBlock, List.length_drop]
      omega

theorem take_hidden (tail : Octets)
    (ends : octets.length < blockLength → tail = []) :
    (maskBlock hash secret seed octets ++ tail).take blockLength =
      maskBlock hash secret seed octets := by
  by_cases short : octets.length < blockLength
  · rw [ends short, List.append_nil, List.take_of_length_le]
    rw [length_maskBlock]
    omega
  · exact List.take_left' (by rw [length_maskBlock]; omega)

theorem drop_hidden (tail : Octets)
    (ends : octets.length < blockLength → tail = []) :
    (maskBlock hash secret seed octets ++ tail).drop blockLength = tail := by
  by_cases short : octets.length < blockLength
  · rw [ends short, List.append_nil, List.drop_eq_nil_of_le]
    rw [length_maskBlock]
    omega
  · exact List.drop_left' (by rw [length_maskBlock]; omega)

theorem maskBlock_maskBlock :
    maskBlock hash secret seed (maskBlock hash secret seed octets) = octets.take blockLength := by
  have key : (blockKey hash secret seed).length = blockLength :=
    (hash (secret ++ seed)).length_octets
  have whole : (maskBlock hash secret seed octets).take blockLength =
      maskBlock hash secret seed octets := by
    rw [List.take_of_length_le]
    rw [length_maskBlock]
    omega
  rw [maskBlock, whole, maskBlock, Octets.xor_xor_cancel]
  rw [List.length_take, key]
  omega

theorem maskBlock_take :
    maskBlock hash secret seed (octets.take blockLength) = maskBlock hash secret seed octets := by
  rw [maskBlock, maskBlock, List.take_take, Nat.min_self]

theorem maskBlock_append (tail : Octets) (ends : octets.length < blockLength → tail = []) :
    maskBlock hash secret seed (maskBlock hash secret seed octets ++ tail) =
      octets.take blockLength := by
  rw [← maskBlock_take, take_hidden hash secret seed octets tail ends, maskBlock_maskBlock]

theorem maskBlock_ne_nil (some : octets ≠ []) : maskBlock hash secret seed octets ≠ [] := by
  intro empty
  have none := congrArg List.length empty
  rw [length_maskBlock, blockLength, List.length_nil] at none
  exact some (List.length_eq_zero_iff.mp (by omega))

theorem decrypt_append (tail : Octets) (some : octets ≠ [])
    (ends : octets.length < blockLength → tail = []) :
    decrypt hash secret seed (maskBlock hash secret seed octets ++ tail) =
      octets.take blockLength ++
        decrypt hash secret (maskBlock hash secret seed octets) tail := by
  have filled := maskBlock_ne_nil hash secret seed octets some
  have front := take_hidden hash secret seed octets tail ends
  have back := drop_hidden hash secret seed octets tail ends
  have twice := maskBlock_append hash secret seed octets tail ends
  obtain ⟨first, rest, split⟩ := List.exists_cons_of_ne_nil filled
  rw [split, List.cons_append] at front back twice ⊢
  rw [decrypt, front, back, twice]

theorem decrypt_encrypt :
    decrypt hash secret seed (encrypt hash secret seed octets) = octets := by
  fun_induction encrypt hash secret seed octets with
  | case1 => simp [decrypt]
  | case2 seed first rest hidden ih =>
      have ends : (first :: rest).length < blockLength →
          encrypt hash secret hidden ((first :: rest).drop blockLength) = [] := by
        intro short
        rw [List.drop_eq_nil_of_le (by omega), encrypt]
      rw [decrypt_append hash secret seed (first :: rest) _ (by simp) ends, ih,
        List.take_append_drop]

theorem encrypt_append (tail : Octets) (some : octets ≠ [])
    (ends : octets.length < blockLength → tail = []) :
    encrypt hash secret seed (maskBlock hash secret seed octets ++ tail) =
      octets.take blockLength ++
        encrypt hash secret (octets.take blockLength) tail := by
  have filled := maskBlock_ne_nil hash secret seed octets some
  have back := drop_hidden hash secret seed octets tail ends
  have twice := maskBlock_append hash secret seed octets tail ends
  obtain ⟨first, rest, split⟩ := List.exists_cons_of_ne_nil filled
  rw [split, List.cons_append] at back twice ⊢
  rw [encrypt, back, twice]

theorem encrypt_decrypt :
    encrypt hash secret seed (decrypt hash secret seed octets) = octets := by
  fun_induction decrypt hash secret seed octets with
  | case1 => simp [encrypt]
  | case2 seed first rest ih =>
      have ends : (first :: rest).length < blockLength →
          decrypt hash secret ((first :: rest).take blockLength)
            ((first :: rest).drop blockLength) = [] := by
        intro short
        rw [List.drop_eq_nil_of_le (by omega), decrypt]
      rw [encrypt_append hash secret seed (first :: rest) _ (by simp) ends, ih,
        List.take_append_drop]

end Laws

end Radius.KeyStream

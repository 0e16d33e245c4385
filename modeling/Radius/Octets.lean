/-!
Octet strings. A packet and every part of one is a list of octets; a part whose width the protocol
fixes is an `OctetField`. Numbers travel most significant octet first: `ofBigEndian` reads back what
`bigEndian` writes, and `bigEndian` gives back what `ofBigEndian` has read.
-/

namespace Radius

abbrev Octets := List UInt8

structure OctetField (count : Nat) where
  octets : Octets
  length_octets : octets.length = count
deriving DecidableEq

namespace OctetField

def ofOctets? (count : Nat) (octets : Octets) : Option (OctetField count) :=
  if exact : octets.length = count then some ⟨octets, exact⟩ else none

def zero (count : Nat) : OctetField count :=
  ⟨List.replicate count 0, List.length_replicate⟩

theorem ofOctets?_octets {count : Nat} (field : OctetField count) :
    ofOctets? count field.octets = some field := by
  cases field with
  | mk octets exact => simp [ofOctets?, exact]

theorem octets_of_ofOctets? {count : Nat} {octets : Octets} {field : OctetField count}
    (read : ofOctets? count octets = some field) : field.octets = octets := by
  unfold ofOctets? at read
  split at read
  · cases read
    rfl
  · contradiction

theorem octets_inj {count : Nat} {left right : OctetField count} :
    left.octets = right.octets ↔ left = right := by
  cases left
  cases right
  simp

end OctetField

namespace Octets

/-- What an octet counts for that has `count` octets behind it. -/
def weight : (count : Nat) → Nat
  | 0 => 1
  | count + 1 => weight count * 256

theorem weight_pos (count : Nat) : 0 < weight count := by
  induction count with
  | zero => decide
  | succ count ih => exact Nat.mul_pos ih (by decide)

/-- The low `count` octets of `value`, most significant first. -/
def bigEndian : (count value : Nat) → Octets
  | 0, _ => []
  | count + 1, value => UInt8.ofNat (value / weight count) :: bigEndian count value

def ofBigEndian : Octets → Nat
  | [] => 0
  | octet :: rest => octet.toNat * weight rest.length + ofBigEndian rest

@[simp] theorem length_bigEndian (count value : Nat) : (bigEndian count value).length = count := by
  induction count with
  | zero => rfl
  | succ count ih => simp [bigEndian, ih]

theorem ofBigEndian_bigEndian (count value : Nat) :
    ofBigEndian (bigEndian count value) = value % weight count := by
  induction count with
  | zero => simp [bigEndian, ofBigEndian, weight, Nat.mod_one]
  | succ count ih =>
      have first : (UInt8.ofNat (value / weight count)).toNat = value / weight count % 256 := by simp
      rw [bigEndian, ofBigEndian, length_bigEndian, ih, first, weight, Nat.mod_mul, Nat.mul_comm,
        Nat.add_comm]

theorem ofBigEndian_lt (octets : Octets) : ofBigEndian octets < weight octets.length := by
  induction octets with
  | nil => exact Nat.one_pos
  | cons octet rest ih =>
      have small : octet.toNat + 1 ≤ 256 := octet.toNat_lt
      have scaled := Nat.mul_le_mul_right (weight rest.length) small
      rw [ofBigEndian, List.length_cons, weight]
      rw [Nat.add_mul, Nat.one_mul] at scaled
      omega

theorem bigEndian_add_mul (count high low : Nat) :
    bigEndian count (high * weight count + low) = bigEndian count low := by
  induction count generalizing high with
  | zero => rfl
  | succ count ih =>
      have split : high * weight (count + 1) = high * 256 * weight count := by
        rw [weight, Nat.mul_assoc, Nat.mul_comm 256]
      have quotient : (high * 256 * weight count + low) / weight count =
          high * 256 + low / weight count := by
        rw [Nat.add_comm, Nat.add_mul_div_right _ _ (weight_pos count), Nat.add_comm]
      have first : UInt8.ofNat (high * 256 + low / weight count) =
          UInt8.ofNat (low / weight count) := by
        apply UInt8.toNat_inj.mp
        simp only [UInt8.toNat_ofNat']
        omega
      rw [bigEndian, bigEndian, split, ih, quotient, first]

theorem bigEndian_ofBigEndian (octets : Octets) :
    bigEndian octets.length (ofBigEndian octets) = octets := by
  induction octets with
  | nil => rfl
  | cons octet rest ih =>
      have quotient : (octet.toNat * weight rest.length + ofBigEndian rest) / weight rest.length =
          octet.toNat := by
        rw [Nat.add_comm, Nat.add_mul_div_right _ _ (weight_pos rest.length),
          Nat.div_eq_of_lt (ofBigEndian_lt rest), Nat.zero_add]
      rw [List.length_cons, bigEndian, ofBigEndian, quotient, bigEndian_add_mul, ih,
        UInt8.ofNat_toNat]

/-- Octetwise exclusive or, as long as the shorter argument. -/
def xor (left right : Octets) : Octets :=
  List.zipWith (· ^^^ ·) left right

@[simp] theorem length_xor (left right : Octets) :
    (xor left right).length = min left.length right.length := by
  simp [xor]

theorem xor_xor_cancel (octets key : Octets) (covered : octets.length ≤ key.length) :
    xor (xor octets key) key = octets := by
  induction octets generalizing key with
  | nil => rfl
  | cons octet rest ih =>
      cases key with
      | nil => simp at covered
      | cons first key =>
          have tail := ih key (by simpa using covered)
          simp only [xor, List.zipWith_cons_cons] at tail ⊢
          rw [tail, UInt8.xor_assoc, UInt8.xor_self, UInt8.xor_zero]

def chunks (size : Nat) (positive : 0 < size) (octets : Octets) : List Octets :=
  match octets with
  | [] => []
  | first :: rest =>
      (first :: rest).take size :: chunks size positive ((first :: rest).drop size)
termination_by octets.length
decreasing_by
  rw [List.length_drop, List.length_cons]
  omega

theorem flatten_chunks (size : Nat) (positive : 0 < size) (octets : Octets) :
    (chunks size positive octets).flatten = octets := by
  fun_induction chunks size positive octets with
  | case1 => rfl
  | case2 first rest ih => rw [List.flatten_cons, ih, List.take_append_drop]

theorem length_le_of_mem_chunks {size : Nat} {positive : 0 < size} {octets chunk : Octets}
    (member : chunk ∈ chunks size positive octets) : chunk.length ≤ size := by
  fun_induction chunks size positive octets with
  | case1 => simp at member
  | case2 first rest ih =>
      rcases List.mem_cons.mp member with same | later
      · rw [same, List.length_take]
        exact Nat.min_le_left ..
      · exact ih later

def overwrite (octets : Octets) (offset : Nat) (patch : Octets) : Octets :=
  octets.take offset ++ patch ++ octets.drop (offset + patch.length)

end Octets

namespace Text

def utf8 (text : String) : Octets := text.toUTF8.data.toList

def ofUtf8? (octets : Octets) : Option String := String.fromUTF8? ⟨octets.toArray⟩

theorem ofUtf8?_utf8 (text : String) : ofUtf8? (utf8 text) = some text := by
  have valid : (⟨(utf8 text).toArray⟩ : ByteArray).IsValidUTF8 := text.isValidUTF8
  simp only [ofUtf8?, String.fromUTF8?, dif_pos valid]
  rfl

theorem utf8_of_ofUtf8? {octets : Octets} {text : String} (read : ofUtf8? octets = some text) :
    utf8 text = octets := by
  simp only [ofUtf8?, String.fromUTF8?] at read
  split at read
  · cases read
    rfl
  · contradiction

end Text

end Radius

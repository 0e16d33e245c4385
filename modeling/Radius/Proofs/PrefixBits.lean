import Radius.Value.Prefix

/-!
Address prefixes, bit by bit. Masking keeps the leading bits of the octets and clears all others, so
octets are their own mask exactly if no bit behind the leading ones is set. A prefix is built exactly
if its length is one that the address has and no bit of the address is set behind it.
-/

namespace Radius

namespace Octets

/-- The bit at the index, counted from the first bit of the first octet. No bit is set behind the
octets. -/
def bit (octets : Octets) (index : Nat) : Bool :=
  (octets.getD (index / 8) 0).toNat.testBit (7 - index % 8)

def ClearFrom (octets : Octets) (index : Nat) : Prop :=
  ∀ later, index ≤ later → octets.bit later = false

variable {octet : UInt8} {octets left right : Octets} {bits index : Nat}

theorem bit_nil (index : Nat) : bit [] index = false := by
  simp [bit]

theorem bit_cons_of_lt (within : index < 8) :
    bit (octet :: octets) index = octet.toNat.testBit (7 - index) := by
  rw [bit, Nat.div_eq_of_lt within, Nat.mod_eq_of_lt within, List.getD_cons_zero]

theorem bit_cons_add (octet : UInt8) (octets : Octets) (index : Nat) :
    bit (octet :: octets) (index + 8) = bit octets index := by
  rw [bit, Nat.add_div_right index (by decide), Nat.add_mod_right, List.getD_cons_succ, bit]

theorem octet_eq_of_bits {first second : UInt8}
    (alike : ∀ index < 8, first.toNat.testBit (7 - index) = second.toNat.testBit (7 - index)) :
    first = second := by
  apply UInt8.toNat_inj.mp
  apply Nat.eq_of_testBit_eq
  intro place
  by_cases within : place < 8
  · have same := alike (7 - place) (by omega)
    rwa [Nat.sub_sub_self (by omega)] at same
  · -- an octet has eight bits
    have large : 2 ^ 8 ≤ 2 ^ place := Nat.pow_le_pow_right (by decide) (Nat.le_of_not_lt within)
    rw [Nat.testBit_lt_two_pow (Nat.lt_of_lt_of_le first.toNat_lt large),
      Nat.testBit_lt_two_pow (Nat.lt_of_lt_of_le second.toNat_lt large)]

theorem eq_of_bits (width : left.length = right.length)
    (alike : ∀ index, left.bit index = right.bit index) : left = right := by
  induction left generalizing right with
  | nil => exact (List.length_eq_zero_iff.mp width.symm).symm
  | cons first left ih =>
      cases right with
      | nil => contradiction
      | cons second right =>
          have front : first = second := by
            apply octet_eq_of_bits
            intro index within
            have same := alike index
            rwa [bit_cons_of_lt within, bit_cons_of_lt within] at same
          have behind : left = right := by
            apply ih (Nat.succ.inj width)
            intro index
            have same := alike (index + 8)
            rwa [bit_cons_add, bit_cons_add] at same
          rw [front, behind]

theorem testBit_keepLeadingBits (bits : Nat) (octet : UInt8) (within : index < 8) :
    (keepLeadingBits bits octet).toNat.testBit (7 - index) =
      (decide (index < bits) && octet.toNat.testBit (7 - index)) := by
  have byte : 7 - index < 8 := by omega
  rw [keepLeadingBits, UInt8.toNat_ofNat', Nat.testBit_mod_two_pow, Nat.testBit_shiftLeft,
    Nat.testBit_shiftRight, decide_eq_true byte, Bool.true_and]
  by_cases kept : index < bits
  · have reached : 7 - index ≥ 8 - bits := by omega
    rw [decide_eq_true kept, decide_eq_true reached, Nat.add_sub_cancel' reached]
  · have cut : ¬7 - index ≥ 8 - bits := by omega
    rw [decide_eq_false kept, decide_eq_false cut, Bool.false_and, Bool.false_and]

theorem bit_maskOctets (bits : Nat) (octets : Octets) (index : Nat) :
    (maskOctets bits octets).bit index = (decide (index < bits) && octets.bit index) := by
  induction octets generalizing bits index with
  | nil => rw [maskOctets, bit_nil, Bool.and_false]
  | cons octet rest ih =>
      rw [maskOctets]
      by_cases within : index < 8
      · rw [bit_cons_of_lt within, bit_cons_of_lt within, testBit_keepLeadingBits bits octet within]
      · obtain ⟨later, rfl⟩ := Nat.exists_eq_add_of_le' (Nat.le_of_not_lt within)
        have shifted : (later < bits - 8) = (later + 8 < bits) := by
          apply propext
          omega
        rw [bit_cons_add, bit_cons_add, ih, decide_eq_decide.mpr (Iff.of_eq shifted)]

theorem maskOctets_eq_self_iff : maskOctets bits octets = octets ↔ octets.ClearFrom bits := by
  constructor
  · intro masked later behind
    rw [← masked, bit_maskOctets, decide_eq_false (Nat.not_lt.mpr behind), Bool.false_and]
  · intro clear
    apply eq_of_bits (length_maskOctets bits octets)
    intro index
    rw [bit_maskOctets]
    by_cases within : index < bits
    · rw [decide_eq_true within, Bool.true_and]
    · rw [clear index (Nat.le_of_not_lt within), Bool.and_false]

end Octets

theorem OctetField.mask_eq_self_iff {count : Nat} {field : OctetField count} {bits : Nat} :
    field.mask bits = field ↔ field.octets.ClearFrom bits := by
  rw [← Octets.maskOctets_eq_self_iff]
  cases field
  simp [OctetField.mask]

theorem checkPrefix_eq_ok_iff {prefixed : Type} {count : Nat} {address : OctetField count}
    {length most : UInt8} {built value : prefixed} :
    (if most < length then .error (.invalidPrefixLength length most)
      else if address.mask length.toNat ≠ address then .error (.unmaskedPrefix length)
      else .ok built : Except AttributeError prefixed) = .ok value ↔
      (length.toNat ≤ most.toNat ∧ address.octets.ClearFrom length.toNat) ∧ value = built := by
  have limit : most < length ↔ ¬length.toNat ≤ most.toNat :=
    UInt8.lt_iff_toNat_lt.trans Nat.not_le.symm
  rw [← OctetField.mask_eq_self_iff]
  simp only [limit]
  split
  · rename_i long
    simp [long]
  · rename_i short
    split
    · rename_i unmasked
      simp [unmasked]
    · rename_i masked
      simp [Decidable.of_not_not short, Decidable.of_not_not masked, eq_comm]

theorem Ipv4Prefix.make_eq_ok_iff {address : OctetField 4} {length : UInt8} {value : Ipv4Prefix} :
    make address length = .ok value ↔
      (length.toNat ≤ 32 ∧ address.octets.ClearFrom length.toNat) ∧ value = ⟨address, length⟩ :=
  checkPrefix_eq_ok_iff

theorem Ipv6Prefix.make_eq_ok_iff {address : OctetField 16} {length : UInt8} {value : Ipv6Prefix} :
    make address length = .ok value ↔
      (length.toNat ≤ 128 ∧ address.octets.ClearFrom length.toNat) ∧
        value = ⟨address, length, (length.toNat + 7) / 8⟩ :=
  checkPrefix_eq_ok_iff

end Radius

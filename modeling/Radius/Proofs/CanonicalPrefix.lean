import Mathlib.Algebra.Order.Floor.Div
import Mathlib.Data.List.GetD
import Mathlib.GroupTheory.GroupAction.Ring
import Radius.Proofs.Spelling
import Radius.Proofs.ValueBounds

/-!
Which octets are prefixes, and what masking makes of an address. Octets are read as a prefix exactly
if they are written as one: a zero, the length, and as many octets of an address as the length asks
for, with no bit set behind it. Masking builds a prefix of every address and every length that the
address has, from the bits that the address and the mask of that length have in common.
-/

namespace Radius

/-- A mask of `width` bits: `bits` ones in front, and zeros behind them. -/
def networkMask (width bits : Nat) : Nat := (2 ^ bits - 1) <<< (width - bits)

namespace Octets

variable {octets : Octets} {bits index : Nat}

theorem weight_eq_two_pow (count : Nat) : weight count = 2 ^ (8 * count) := by
  induction count with
  | zero => rfl
  | succ count ih => rw [weight, ih, Nat.mul_succ 8, Nat.pow_add]

theorem testBit_ofBigEndian (within : index < 8 * octets.length) :
    (ofBigEndian octets).testBit (8 * octets.length - 1 - index) = octets.bit index := by
  induction octets generalizing index with
  | nil => contradiction
  | cons octet rest ih =>
      have small : ofBigEndian rest < 2 ^ (8 * rest.length) := by
        rw [← weight_eq_two_pow]
        exact ofBigEndian_lt rest
      rw [List.length_cons] at within ⊢
      rw [ofBigEndian, weight_eq_two_pow, Nat.mul_comm octet.toNat,
        Nat.testBit_two_pow_mul_add _ small]
      by_cases front : index < 8
      · rw [if_neg (by omega), bit_cons_of_lt front]
        congr 1
        omega
      · obtain ⟨later, rfl⟩ := Nat.exists_eq_add_of_le' (Nat.le_of_not_lt front)
        rw [if_pos (by omega), bit_cons_add, ← ih (by omega)]
        congr 1
        omega

theorem testBit_ofBigEndian_of_le {place : Nat} (beyond : 8 * octets.length ≤ place) :
    (ofBigEndian octets).testBit place = false := by
  apply Nat.testBit_lt_two_pow
  calc ofBigEndian octets < 2 ^ (8 * octets.length) := by
        rw [← weight_eq_two_pow]
        exact ofBigEndian_lt octets
    _ ≤ 2 ^ place := Nat.pow_le_pow_right (by decide) beyond

theorem testBit_networkMask {width : Nat} (fits : bits ≤ width) (within : index < width) :
    (networkMask width bits).testBit (width - 1 - index) = decide (index < bits) := by
  rw [networkMask, Nat.testBit_shiftLeft, Nat.testBit_two_pow_sub_one, ← Bool.decide_and]
  apply decide_eq_decide.mpr
  omega

theorem ofBigEndian_maskOctets (fits : bits ≤ 8 * octets.length) :
    ofBigEndian (maskOctets bits octets) =
      ofBigEndian octets &&& networkMask (8 * octets.length) bits := by
  have width : (maskOctets bits octets).length = octets.length := length_maskOctets bits octets
  apply Nat.eq_of_testBit_eq
  intro place
  rw [Nat.testBit_and]
  by_cases within : place < 8 * octets.length
  · -- the bit of this weight stands as many places before the end
    obtain ⟨index, inside, rfl⟩ :
        ∃ index, index < 8 * octets.length ∧ place = 8 * octets.length - 1 - index :=
      ⟨8 * octets.length - 1 - place, by omega, by omega⟩
    have masked : (ofBigEndian (maskOctets bits octets)).testBit (8 * octets.length - 1 - index) =
        (maskOctets bits octets).bit index := by
      rw [← width]
      exact testBit_ofBigEndian (width.symm ▸ inside)
    rw [masked, bit_maskOctets, testBit_ofBigEndian inside, testBit_networkMask fits inside,
      Bool.and_comm]
  · have beyond := Nat.le_of_not_lt within
    rw [testBit_ofBigEndian_of_le (width.symm ▸ beyond), testBit_ofBigEndian_of_le beyond,
      Bool.false_and]

theorem bit_of_le (beyond : 8 * octets.length ≤ index) : octets.bit index = false := by
  rw [bit, List.getD_eq_default _ _ (by omega)]
  simp

theorem bit_append_of_lt {front : Octets} (back : Octets) (within : index < 8 * front.length) :
    bit (front ++ back) index = front.bit index := by
  rw [bit, List.getD_append _ _ _ _ (by omega), bit]

theorem ClearFrom.front {front back : Octets} (clear : ClearFrom (front ++ back) bits) :
    front.ClearFrom bits := by
  intro later behind
  by_cases within : later < 8 * front.length
  · rw [← bit_append_of_lt back within]
    exact clear later behind
  · exact bit_of_le (Nat.le_of_not_lt within)

theorem ClearFrom.append_zeros (clear : octets.ClearFrom bits) (count : Nat) :
    ClearFrom (octets ++ List.replicate count 0) bits := by
  intro later behind
  by_cases within : later < 8 * octets.length
  · rw [bit_append_of_lt _ within]
    exact clear later behind
  · rw [bit, List.getD_append_right _ _ _ _ (by omega)]
    simp

end Octets

/-- The field has the leading bits of the address and no others: those that the number of the
address and the mask have in common. -/
structure OctetField.CutTo {width : Nat} (address : OctetField width) (bits : Nat)
    (field : OctetField width) : Prop where
  kept : ∀ index < bits, field.octets.bit index = address.octets.bit index
  cleared : field.octets.ClearFrom bits
  common : Octets.ofBigEndian field.octets =
    Octets.ofBigEndian address.octets &&& networkMask (8 * width) bits

/-- A zero, the length in bits, and octets of an address, of which the length allows so many. No bit
is set behind the length. -/
inductive CanonicalPrefix (allowed : Nat → Nat → Prop) : Octets → Prop
  | intro {length : UInt8} {address : Octets} (sized : allowed length.toNat address.length)
      (clear : address.ClearFrom length.toNat) : CanonicalPrefix allowed (0 :: length :: address)

structure PrefixKind (width : Nat) (Prefix : Type) where
  make : OctetField width → UInt8 → Except AttributeError Prefix
  masked : OctetField width → UInt8 → Except AttributeError Prefix
  address : Prefix → OctetField width
  length : Prefix → UInt8
  octets : Prefix → Octets
  decode? : Octets → Option Prefix

def ipv4Prefixes : PrefixKind 4 Ipv4Prefix where
  make := Ipv4Prefix.make
  masked := Ipv4Prefix.masked
  address := Ipv4Prefix.address
  length := Ipv4Prefix.length
  octets := Ipv4Prefix.octets
  decode? := Ipv4Prefix.decode?

def ipv6Prefixes : PrefixKind 16 Ipv6Prefix where
  make := Ipv6Prefix.make
  masked := Ipv6Prefix.masked
  address := Ipv6Prefix.address
  length := Ipv6Prefix.length
  octets := Ipv6Prefix.octets
  decode? := Ipv6Prefix.decode?

namespace PrefixKind

variable {width : Nat} {Prefix : Type}

/-- Masking makes the prefix of the address and the length. It is the one that is built where the
address has no further bits, it is written with as few octets as the length needs, and it is read
from them. -/
structure Masks (kind : PrefixKind width Prefix) (needed : Nat → Nat) (address : OctetField width)
    (length : UInt8) (value : Prefix) : Prop where
  built : kind.masked address length = .ok value
  same : ∀ other, kind.make address length = .ok other → other = value
  length_eq : kind.length value = length
  cut : address.CutTo length.toNat (kind.address value)
  counted : (kind.octets value).length = 2 + needed length.toNat
  read : kind.decode? (kind.octets value) = some value

/-- The octets of a prefix, and the prefixes of an address. A length that no address has is refused,
whatever the address is. -/
structure Exact (kind : PrefixKind width Prefix) (allowed : Nat → Nat → Prop) (needed : Nat → Nat) :
    Prop where
  accepts : ∀ octets, (∃ value, kind.decode? octets = some value) ↔ CanonicalPrefix allowed octets
  rewritten : ∀ octets value, kind.decode? octets = some value → kind.octets value = octets
  masks : ∀ address length, length.toNat ≤ 8 * width →
    ∃ value, kind.Masks needed address length value
  refuses : ∀ address length, 8 * width < length.toNat →
    kind.make address length = .error (.invalidPrefixLength length (UInt8.ofNat (8 * width))) ∧
      kind.masked address length = .error (.invalidPrefixLength length (UInt8.ofNat (8 * width)))

end PrefixKind

theorem OctetField.cutTo_mask {width bits : Nat} (address : OctetField width)
    (fits : bits ≤ 8 * width) : address.CutTo bits (address.mask bits) := by
  have counted := address.length_octets
  refine ⟨?_, ?_, ?_⟩
  · intro index within
    rw [OctetField.mask, Octets.bit_maskOctets, decide_eq_true within, Bool.true_and]
  · intro later behind
    rw [OctetField.mask, Octets.bit_maskOctets, decide_eq_false (Nat.not_lt.mpr behind),
      Bool.false_and]
  · rw [OctetField.mask, Octets.ofBigEndian_maskOctets (by rwa [counted]), counted]

theorem PrefixKind.masks_of_make {width : Nat} {Prefix : Type} {kind : PrefixKind width Prefix}
    {needed : Nat → Nat} {fresh : OctetField width → UInt8 → Prefix}
    (makes : ∀ {address length value}, kind.make address length = .ok value ↔
      (length.toNat ≤ 8 * width ∧ address.octets.ClearFrom length.toNat) ∧
        value = fresh address length)
    (masking : ∀ address length,
      kind.masked address length = kind.make (address.mask length.toNat) length)
    (parts : ∀ address length,
      kind.address (fresh address length) = address ∧ kind.length (fresh address length) = length)
    (counted : ∀ address length, length.toNat ≤ 8 * width →
      (kind.octets (fresh address length)).length = 2 + needed length.toNat)
    (reads : ∀ {address length value}, kind.make address length = .ok value →
      kind.decode? (kind.octets value) = some value)
    (address : OctetField width) (length : UInt8) (fits : length.toNat ≤ 8 * width) :
    kind.Masks needed address length (fresh (address.mask length.toNat) length) := by
  have cut := address.cutTo_mask fits
  have made : kind.make (address.mask length.toNat) length =
      .ok (fresh (address.mask length.toNat) length) := makes.mpr ⟨⟨fits, cut.cleared⟩, rfl⟩
  obtain ⟨here, bits⟩ := parts (address.mask length.toNat) length
  refine ⟨(masking address length).trans made, ?_, bits, here.symm ▸ cut,
    counted _ length fits, reads made⟩
  intro other direct
  obtain ⟨⟨-, clear⟩, rfl⟩ := makes.mp direct
  rw [OctetField.mask_eq_self_iff.mpr clear]

namespace Ipv4Prefix

theorem accepts_iff {octets : Octets} : (∃ value, decode? octets = some value) ↔
    CanonicalPrefix (fun bits count => count = 4 ∧ bits ≤ 32) octets := by
  constructor
  · rintro ⟨value, read⟩
    have plain : PlainValue.decode? .ipv4Prefix octets = some (.ipv4Prefix value) :=
      Option.map_eq_some_iff.mpr ⟨value, read, rfl⟩
    have bounds := PlainValue.inBounds_of_decode? plain
    rw [← PlainValue.octets_of_ipv4Prefix read]
    exact .intro ⟨value.address.length_octets, bounds.1⟩ bounds.2
  · rintro ⟨⟨whole, short⟩, clear⟩
    let address : OctetField 4 := ⟨_, whole⟩
    have made : make address _ = .ok ⟨address, _⟩ := make_eq_ok_iff.mpr ⟨⟨short, clear⟩, rfl⟩
    exact ⟨_, decode?_octets made⟩

theorem make_of_long {address : OctetField 4} {length : UInt8} (long : 32 < length.toNat) :
    make address length = .error (.invalidPrefixLength length 32) := by
  have above : maxLength < length := UInt8.lt_iff_toNat_lt.mpr long
  rw [make, if_pos above]
  rfl

theorem exact_kind : ipv4Prefixes.Exact (fun bits count => count = 4 ∧ bits ≤ 32) fun _ => 4 where
  accepts _ := accepts_iff
  rewritten _ _ := PlainValue.octets_of_ipv4Prefix
  refuses address length long := ⟨make_of_long long, make_of_long long⟩
  masks address length fits := by
    refine ⟨_, PrefixKind.masks_of_make make_eq_ok_iff (fun _ _ => rfl) (fun _ _ => ⟨rfl, rfl⟩) ?_
      decode?_octets address length fits⟩
    intro address length _
    have written : (octets ⟨address, length⟩).length = address.octets.length + 1 + 1 := rfl
    rw [address.length_octets] at written
    exact written

end Ipv4Prefix

namespace Ipv6Prefix

variable {octets rest : Octets} {length : UInt8}

theorem decode?_of_clear (within : rest.length ≤ 16) (covered : length.toNat ≤ 8 * rest.length)
    (clear : rest.ClearFrom length.toNat) :
    ∃ value, decode? (0 :: length :: rest) = some value := by
  have filled : (rest ++ List.replicate (16 - rest.length) 0).length = 16 := by
    rw [List.length_append, List.length_replicate]
    omega
  let address : OctetField 16 := ⟨_, filled⟩
  have made : make address length = .ok _ :=
    make_eq_ok_iff.mpr ⟨⟨by omega, clear.append_zeros _⟩, rfl⟩
  refine ⟨⟨address, length, rest.length⟩, ?_⟩
  unfold decode?
  refine Option.bind_eq_some_iff.mpr ⟨(), if_pos covered, ?_⟩
  refine Option.bind_eq_some_iff.mpr ⟨_, OctetField.ofOctets?_octets address, ?_⟩
  rw [made]
  rfl

theorem accepts_iff : (∃ value, decode? octets = some value) ↔
    CanonicalPrefix (fun bits count => count ≤ 16 ∧ bits ≤ 8 * count) octets := by
  constructor
  · rintro ⟨value, read⟩
    obtain ⟨⟨-, clear⟩, covered, within⟩ := PlainValue.inBounds_of_ipv6Prefix read
    have counted : (value.address.octets.take value.carried).length = value.carried := by
      rw [List.length_take, value.address.length_octets, Nat.min_eq_left within]
    rw [← List.take_append_drop value.carried value.address.octets] at clear
    rw [← (PlainValue.octets_of_ipv6Prefix read).1]
    exact .intro ⟨counted.symm ▸ within, counted.symm ▸ covered⟩ clear.front
  · rintro ⟨⟨within, covered⟩, clear⟩
    exact decode?_of_clear within covered clear

theorem make_of_long {address : OctetField 16} (long : 128 < length.toNat) :
    make address length = .error (.invalidPrefixLength length 128) := by
  have above : maxLength < length := UInt8.lt_iff_toNat_lt.mpr long
  rw [make, if_pos above]
  rfl

theorem exact_kind : ipv6Prefixes.Exact (fun bits count => count ≤ 16 ∧ bits ≤ 8 * count)
    fun bits => bits ⌈/⌉ 8 where
  accepts _ := accepts_iff
  rewritten _ _ read := (PlainValue.octets_of_ipv6Prefix read).1
  refuses address length long := ⟨make_of_long long, make_of_long long⟩
  masks address length fits := by
    refine ⟨_, PrefixKind.masks_of_make make_eq_ok_iff (fun _ _ => rfl) (fun _ _ => ⟨rfl, rfl⟩) ?_
      decode?_octets address length fits⟩
    intro address length fits
    have written : (Ipv6Prefix.octets ⟨address, length, (length.toNat + 7) / 8⟩).length =
        (address.octets.take ((length.toNat + 7) / 8)).length + 1 + 1 := rfl
    rw [List.length_take, address.length_octets, Nat.min_eq_left (by omega)] at written
    change (Ipv6Prefix.octets ⟨address, length, (length.toNat + 7) / 8⟩).length = _
    rw [written, Nat.ceilDiv_eq_add_pred_div]
    omega

end Ipv6Prefix

/-- Octets are read as a prefix exactly if they are canonical, and are written again as they were
read. Every address has a prefix of every length up to its own, and masking makes it; an IPv4 prefix
is written with all octets of the address, an IPv6 prefix with those that hold a bit of it. -/
theorem prefixes_exact :
    ipv4Prefixes.Exact (fun bits count => count = 4 ∧ bits ≤ 32) (fun _ => 4) ∧
      ipv6Prefixes.Exact (fun bits count => count ≤ 16 ∧ bits ≤ 8 * count)
        fun bits => bits ⌈/⌉ 8 :=
  ⟨Ipv4Prefix.exact_kind, Ipv6Prefix.exact_kind⟩

/-- The bit behind a length of 33 is cleared, and five octets are written. -/
example : (Ipv6Prefix.masked ⟨[0x20, 0x01, 0x0d, 0xb8, 0xff, 1, 0, 0, 0, 0, 0, 0, 0, 0, 0, 1], rfl⟩
      33).map Ipv6Prefix.octets = .ok [0, 33, 0x20, 0x01, 0x0d, 0xb8, 0x80] := by decide

end Radius

import Mathlib.Algebra.Group.Nat.Defs
import Radius.Proofs.Headroom
import Radius.Proofs.Lowered

/-!
What a definition builds. Each carrier has attributes of its own, and they stand at paths of a
certain depth whose segments their headers can hold. Around a value of its type a definition builds
the attribute of its carrier that has its path and the value, if there is one. No path is cut to
fit: where the carrier's attributes cannot have it, nothing is built around any value.
-/

namespace Radius

def Carrier.Reaches (depth : Nat) : Carrier → Prop
  | .standard | .fragmented | .concat => depth = 1
  | .extended | .longExtended => depth = 2
  | .vendorSpecific => 3 ≤ depth

/-- A path whose segments the headers of a carrier can hold. -/
structure Carrier.Expresses (carrier : Carrier) (path : TypePath) : Prop where
  deep : carrier.Reaches path.depth
  octet : carrier.isNested = true → path.last.toNat < 2 ^ 8
  vendor : carrier = .vendorSpecific → path.beforeLast.toNat < 2 ^ 24

theorem Carrier.Expresses.of_flat {carrier : Carrier} {path : TypePath}
    (flat : carrier.isNested = false) (deep : carrier.Reaches path.depth) :
    carrier.Expresses path where
  deep := deep
  octet nested := by
    rw [flat] at nested
    contradiction
  vendor carried := by
    rw [carried] at flat
    contradiction

def Carrier.kind : Carrier → AttributeKind
  | .standard | .fragmented => .standard
  | .concat => .concat
  | .extended => .extended
  | .longExtended => .longExtended
  | .vendorSpecific => .vendorSpecific

namespace Attribute

/-- The attributes of a carrier around values that fit. A long extended attribute is not marked as
cut short, and a vendor attribute has no limit of its own below the top level. -/
inductive CarriedBy : Attribute → Carrier → Prop
  | standard {carrier : Carrier} {type : UInt8} {value : Value}
      (single : carrier = .standard ∨ carrier = .fragmented) (whole : value.dataType ≠ .concat)
      (fits : value.dataType = .longExtended ∨ value.encodedLength ≤ 253) :
      CarriedBy (.standard type value) carrier
  | concat {type : UInt8} {value : Concat} : CarriedBy (.concat type value) .concat
  | extended {type extendedType : UInt8} {value : Value} (fits : value.encodedLength ≤ 252) :
      CarriedBy (.extended type extendedType value) .extended
  | longExtended {type extendedType : UInt8} {value : Value} :
      CarriedBy (.longExtended type extendedType false value) .longExtended
  | vendorSpecific {parent : TypePath} {vendor : UInt32} {vendorType : UInt8} {value : Value}
      (known : vendor.toNat < 2 ^ 24)
      (fits : parent.isTopLevel = true → value.encodedLength ≤ 247) :
      CarriedBy (.vendorSpecific parent vendor vendorType value) .vendorSpecific

section Constructors

variable {type extendedType vendorType : UInt8} {vendor : UInt32} {parent : TypePath}
  {value : Value} {entry : Attribute}

theorem checkLength_bind_eq_ok_iff {max : Nat} {made : Attribute} :
    (do
      checkLength value max
      return made) = Except.ok entry ↔ entry = made ∧ value.encodedLength ≤ max := by
  rw [Result.bind_eq_ok_iff]
  constructor
  · rintro ⟨_, checked, ⟨⟩⟩
    exact ⟨rfl, DefinitionTable.checkLength_eq_ok_iff.mp checked⟩
  · rintro ⟨rfl, fits⟩
    exact ⟨(), DefinitionTable.checkLength_eq_ok_iff.mpr fits, rfl⟩

theorem makeStandard_eq_ok_iff : makeStandard type value = .ok entry ↔
    entry = .standard type value ∧ value.dataType ≠ .concat ∧
      (value.dataType = .longExtended ∨ value.encodedLength ≤ 253) := by
  unfold makeStandard
  split
  · rename_i divided
    exact iff_of_false nofun fun ⟨_, whole, _⟩ => whole divided
  · rename_i long
    rw [Except.ok.injEq, eq_comm, long]
    simp
  · rename_i whole short
    rw [checkLength_bind_eq_ok_iff, or_iff_right short, and_iff_right whole]
    rfl

theorem makeExtended_eq_ok_iff : makeExtended type extendedType value = .ok entry ↔
    entry = .extended type extendedType value ∧ value.encodedLength ≤ 252 :=
  checkLength_bind_eq_ok_iff

theorem makeVendorSpecific_eq_ok_iff :
    makeVendorSpecific parent vendor vendorType value = .ok entry ↔
      entry = .vendorSpecific parent vendor vendorType value ∧ vendor.toNat < 2 ^ 24 ∧
        (parent.isTopLevel = true → value.encodedLength ≤ 247) := by
  have known : Container.checkVendor vendor = .ok () ↔ vendor.toNat < 2 ^ 24 :=
    (Container.checkVendor_eq_ok_iff vendor).trans (Container.le_maxVendorId_iff vendor)
  rw [makeVendorSpecific, Result.bind_eq_ok_iff, ← known]
  by_cases top : parent.isTopLevel = true
  · simp only [if_pos top]
    constructor
    · rintro ⟨_, passed, made⟩
      obtain ⟨built, fits⟩ := checkLength_bind_eq_ok_iff.mp made
      exact ⟨built, passed, fun _ => fits⟩
    · rintro ⟨built, passed, fits⟩
      exact ⟨(), passed, checkLength_bind_eq_ok_iff.mpr ⟨built, fits top⟩⟩
  · simp only [if_neg top]
    constructor
    · rintro ⟨_, passed, ⟨⟩⟩
      exact ⟨rfl, passed, fun above => absurd above top⟩
    · rintro ⟨rfl, passed, -⟩
      exact ⟨(), passed, rfl⟩

end Constructors

end Attribute

namespace TypePath

variable {path : TypePath}

theorem last_child (path : TypePath) (segment : UInt32) : (path.child segment).last = segment :=
  path.last_append [] segment

theorem last_append_pair (path : TypePath) (first second : UInt32) :
    (path.append [first, second]).last = second :=
  path.last_append [first] second

theorem ancestor?_append (path : TypePath) (segments : List UInt32) :
    (path.append segments).ancestor? segments.length = some path :=
  ancestor?_eq_some_iff.mpr ⟨segments, rfl, rfl⟩

theorem ancestor?_eq_none_iff {levels : Nat} :
    path.ancestor? levels = none ↔ path.depth ≤ levels := by
  unfold ancestor? depth
  split
  · rename_i shallow
    exact iff_of_true rfl (Nat.succ_le_of_lt shallow)
  · rename_i deep
    exact iff_of_false nofun fun shallow => deep (Nat.lt_of_succ_le shallow)

theorem exists_ancestor {levels : Nat} (deep : levels < path.depth) :
    ∃ above, path.ancestor? levels = some above := by
  apply Option.ne_none_iff_exists'.mp
  intro none
  exact Nat.not_lt.mpr (ancestor?_eq_none_iff.mp none) deep

end TypePath

theorem Carrier.Expresses.of_child {carrier : Carrier} (type extendedType : UInt8)
    (deep : carrier.Reaches 2) (bare : carrier ≠ .vendorSpecific) :
    carrier.Expresses ((TypePath.topLevel type).child extendedType.toUInt32) where
  deep := deep
  octet _ := by
    rw [TypePath.last_child]
    exact extendedType.toNat_lt
  vendor carried := absurd carried bare

namespace Attribute

variable {entry : Attribute} {carrier : Carrier}

theorem CarriedBy.expresses (carried : entry.CarriedBy carrier) : carrier.Expresses entry.path := by
  cases carried with
  | standard single =>
      rcases single with rfl | rfl
      · exact .of_flat rfl rfl
      · exact .of_flat rfl rfl
  | concat => exact .of_flat rfl rfl
  | @extended type extendedType => exact .of_child type extendedType rfl (by decide)
  | @longExtended type extendedType => exact .of_child type extendedType rfl (by decide)
  | @vendorSpecific parent vendor vendorType _ known =>
      refine ⟨?_, fun _ => ?_, fun _ => ?_⟩
      · have above := parent.depth_pos
        rw [path, TypePath.depth_append]
        exact Nat.add_le_add_right above 2
      · rw [path, parent.last_append_pair]
        exact vendorType.toNat_lt
      · rw [path, TypePath.beforeLast_append_pair]
        exact known

end Attribute

namespace AttributeDefinition

/-- Why no attribute of its carrier has the path of a definition. -/
inductive Misplaced (definition : AttributeDefinition) : AttributeError → Prop
  | depth (elsewhere : ¬definition.carrier.Reaches definition.path.depth) :
      Misplaced definition (definition.mismatch definition.carrier.kind)
  | octet (deep : definition.carrier.Reaches definition.path.depth)
      (nested : definition.carrier.isNested = true) (large : 2 ^ 8 ≤ definition.path.last.toNat) :
      Misplaced definition (.invalidType (.lastTooLarge definition.path))
  | vendor (carried : definition.carrier = .vendorSpecific)
      (deep : definition.carrier.Reaches definition.path.depth)
      (octet : definition.path.last.toNat < 2 ^ 8)
      (large : 2 ^ 24 ≤ definition.path.beforeLast.toNat) :
      Misplaced definition (.invalidVendorId definition.path.beforeLast)

variable {definition : AttributeDefinition} {value : Value} {entry : Attribute}
  {cause : AttributeError}

theorem exists_misplaced_iff :
    (∃ cause, definition.Misplaced cause) ↔
      ¬definition.carrier.Expresses definition.path := by
  constructor
  · rintro ⟨cause, misplaced⟩ expressed
    cases misplaced with
    | depth elsewhere => exact elsewhere expressed.deep
    | octet _ nested large => exact absurd (expressed.octet nested) (Nat.not_lt.mpr large)
    | vendor carried _ _ large => exact absurd (expressed.vendor carried) (Nat.not_lt.mpr large)
  · intro inexpressible
    by_contra sound
    rw [not_exists] at sound
    have deep : definition.carrier.Reaches definition.path.depth :=
      not_not.mp fun elsewhere => sound _ (.depth elsewhere)
    have octet (nested : definition.carrier.isNested = true) : definition.path.last.toNat < 2 ^ 8 :=
      Nat.lt_of_not_le fun large => sound _ (.octet deep nested large)
    refine inexpressible ⟨deep, octet, fun carried => ?_⟩
    have nested : definition.carrier.isNested = true := by rw [carried]; rfl
    exact Nat.lt_of_not_le fun large => sound _ (.vendor carried deep (octet nested) large)

theorem ite_eq_ok_iff {other : Prop} [Decidable other] {next : Except AttributeError Attribute} :
    (if other then .error cause else next) = .ok entry ↔ ¬other ∧ next = .ok entry := by
  split
  · rename_i refused
    exact iff_of_false nofun fun passed => passed.1 refused
  · rename_i passed
    exact (and_iff_right passed).symm

theorem lastOctet_of_large (large : 2 ^ 8 ≤ definition.path.last.toNat) :
    definition.lastOctet = .error (.invalidType (.lastTooLarge definition.path)) := by
  have wide : ¬definition.path.last ≤ 255 := fun octet =>
    absurd (UInt32.le_iff_toNat_le.mp octet) (Nat.not_le.mpr large)
  rw [lastOctet, TypePath.lastOctet, if_neg wide]
  rfl

theorem lastOctet_of_small (octet : definition.path.last.toNat < 2 ^ 8) :
    definition.lastOctet = .ok definition.path.last.toUInt8 := by
  have small : definition.path.last ≤ 255 := UInt32.le_iff_toNat_le.mpr (Nat.le_of_lt_succ octet)
  rw [lastOctet, TypePath.lastOctet, if_pos small]
  rfl

theorem make_of_elsewhere (typed : value.dataType = definition.dataType)
    (elsewhere : ¬definition.carrier.Reaches definition.path.depth) :
    definition.make value = .error (definition.mismatch definition.carrier.kind) := by
  obtain ⟨path, name, type, carrier, filter⟩ := definition
  unfold make
  rw [if_neg (not_not.mpr typed)]
  cases carrier with
  | concat =>
      -- a value of another type is refused with the same error
      dsimp only
      split
      · exact if_pos elsewhere
      · rfl
  | vendorSpecific =>
      have shallow : path.ancestor? 2 = none :=
        TypePath.ancestor?_eq_none_iff.mpr (Nat.le_of_not_lt elsewhere)
      simp only [shallow]
      rfl
  | _ => exact if_pos elsewhere

theorem make_of_large (typed : value.dataType = definition.dataType)
    (deep : definition.carrier.Reaches definition.path.depth)
    (nested : definition.carrier.isNested = true) (large : 2 ^ 8 ≤ definition.path.last.toNat) :
    definition.make value = .error (.invalidType (.lastTooLarge definition.path)) := by
  have refused := lastOctet_of_large large
  unfold make
  rw [if_neg (not_not.mpr typed), refused]
  obtain ⟨path, name, type, carrier, filter⟩ := definition
  cases carrier with
  | extended => exact if_neg (not_not.mpr deep)
  | longExtended => exact if_neg (not_not.mpr deep)
  | vendorSpecific =>
      obtain ⟨parent, above⟩ := TypePath.exists_ancestor deep
      simp only [above]
      rfl
  | _ => contradiction

theorem make_of_vendor (typed : value.dataType = definition.dataType)
    (carried : definition.carrier = .vendorSpecific)
    (deep : definition.carrier.Reaches definition.path.depth)
    (octet : definition.path.last.toNat < 2 ^ 8)
    (large : 2 ^ 24 ≤ definition.path.beforeLast.toNat) :
    definition.make value = .error (.invalidVendorId definition.path.beforeLast) := by
  rw [carried] at deep
  obtain ⟨parent, above⟩ := TypePath.exists_ancestor deep
  have beyond : maxVendorId < definition.path.beforeLast := UInt32.lt_iff_toNat_lt.mpr large
  have unknown : Container.checkVendor definition.path.beforeLast =
      .error (.invalidVendorId definition.path.beforeLast) := if_pos beyond
  simp only [make, carried, above]
  rw [if_neg (not_not.mpr typed), lastOctet_of_small octet]
  exact Result.bind_eq_error_iff.mpr (.inr ⟨_, rfl, Result.bind_eq_error_iff.mpr (.inl unknown)⟩)

theorem make_of_misplaced (typed : value.dataType = definition.dataType)
    (misplaced : definition.Misplaced cause) : definition.make value = .error cause := by
  cases misplaced with
  | depth elsewhere => exact make_of_elsewhere typed elsewhere
  | octet deep nested large => exact make_of_large typed deep nested large
  | vendor carried deep octet large => exact make_of_vendor typed carried deep octet large

theorem carriedBy_of_make (made : definition.make value = .ok entry) :
    entry.CarriedBy definition.carrier := by
  have typed := dataType_of_make made
  obtain ⟨path, name, type, carrier, filter⟩ := definition
  unfold make at made
  rw [if_neg (not_not.mpr typed)] at made
  cases carrier with
  | standard =>
      obtain ⟨-, made⟩ := ite_eq_ok_iff.mp made
      obtain ⟨rfl, whole, fits⟩ := Attribute.makeStandard_eq_ok_iff.mp made
      exact .standard (.inl rfl) whole fits
  | fragmented =>
      obtain ⟨-, made⟩ := ite_eq_ok_iff.mp made
      obtain ⟨rfl, whole, fits⟩ := Attribute.makeStandard_eq_ok_iff.mp made
      exact .standard (.inr rfl) whole fits
  | concat =>
      dsimp only at made
      split at made
      · obtain ⟨-, ⟨⟩⟩ := ite_eq_ok_iff.mp made
        exact .concat
      · contradiction
  | extended =>
      obtain ⟨-, made⟩ := ite_eq_ok_iff.mp made
      obtain ⟨octet, -, made⟩ := Result.bind_eq_ok_iff.mp made
      obtain ⟨rfl, fits⟩ := Attribute.makeExtended_eq_ok_iff.mp made
      exact .extended fits
  | longExtended =>
      obtain ⟨-, made⟩ := ite_eq_ok_iff.mp made
      obtain ⟨octet, -, ⟨⟩⟩ := Result.bind_eq_ok_iff.mp made
      exact .longExtended
  | vendorSpecific =>
      dsimp only at made
      split at made
      · contradiction
      · obtain ⟨octet, -, made⟩ := Result.bind_eq_ok_iff.mp made
        obtain ⟨rfl, known, fits⟩ := Attribute.makeVendorSpecific_eq_ok_iff.mp made
        exact .vendorSpecific known fits

theorem lastOctet_of_path {octet : UInt8} (placed : entry.path = definition.path)
    (final : entry.path.last = octet.toUInt32) : definition.lastOctet = .ok octet :=
  (lastOctet_eq_ok_iff definition octet).mpr (placed ▸ final)

theorem make_of_carriedBy (typed : value.dataType = definition.dataType)
    (carried : entry.CarriedBy definition.carrier) (placed : entry.path = definition.path)
    (holds : entry.value? = some value) : definition.make value = .ok entry := by
  unfold make
  rw [if_neg (not_not.mpr typed), ← placed]
  generalize same : definition.carrier = carrier at carried
  cases carried with
  | @standard _ type _ single whole fits =>
      cases holds
      have made : Attribute.makeStandard type value = .ok (.standard type value) :=
        Attribute.makeStandard_eq_ok_iff.mpr ⟨rfl, whole, fits⟩
      rcases single with rfl | rfl
      · exact made
      · exact made
  | concat =>
      cases holds
      rfl
  | @extended type extendedType _ fits =>
      cases holds
      rw [lastOctet_of_path placed ((TypePath.topLevel type).last_child extendedType.toUInt32)]
      exact Attribute.makeExtended_eq_ok_iff.mpr ⟨rfl, fits⟩
  | @longExtended type extendedType =>
      cases holds
      rw [lastOctet_of_path placed ((TypePath.topLevel type).last_child extendedType.toUInt32)]
      rfl
  | @vendorSpecific parent vendor vendorType _ known fits =>
      cases holds
      have final := lastOctet_of_path placed (parent.last_append_pair vendor vendorType.toUInt32)
      have above : (parent.append [vendor, vendorType.toUInt32]).ancestor? 2 = some parent :=
        parent.ancestor?_append [vendor, vendorType.toUInt32]
      simp only [Attribute.path, final, above, parent.beforeLast_append_pair]
      exact Attribute.makeVendorSpecific_eq_ok_iff.mpr ⟨rfl, known, fits⟩

theorem exists_carriedBy_iff : (∃ entry : Attribute, entry.CarriedBy definition.carrier ∧
    entry.path = definition.path) ↔ definition.carrier.Expresses definition.path := by
  constructor
  · rintro ⟨entry, carried, placed⟩
    exact placed ▸ carried.expresses
  · rintro ⟨deep, octet, vendor⟩
    let short : Value := .plain (.integer 0)
    have within : short.encodedLength ≤ 247 := by decide
    obtain ⟨path, name, type, carrier, filter⟩ := definition
    have final (nested : carrier.isNested = true) :=
      (lastOctet_eq_ok_iff _ _).mp (lastOctet_of_small (octet nested))
    cases carrier with
    | standard =>
        exact ⟨.standard path.head short, .standard (.inl rfl) nofun (.inr (by decide)),
          path_eq_of_depth_one deep⟩
    | fragmented =>
        exact ⟨.standard path.head short, .standard (.inr rfl) nofun (.inr (by decide)),
          path_eq_of_depth_one deep⟩
    | concat => exact ⟨.concat path.head ⟨[[]]⟩, .concat, path_eq_of_depth_one deep⟩
    | extended =>
        refine ⟨.extended path.head path.last.toUInt8 short, .extended (by decide), ?_⟩
        rw [Attribute.path, ← final rfl]
        exact path_eq_of_depth_two deep
    | longExtended =>
        refine ⟨.longExtended path.head path.last.toUInt8 false short, .longExtended, ?_⟩
        rw [Attribute.path, ← final rfl]
        exact path_eq_of_depth_two deep
    | vendorSpecific =>
        obtain ⟨parent, above⟩ := TypePath.exists_ancestor deep
        refine ⟨.vendorSpecific parent path.beforeLast path.last.toUInt8 short,
          .vendorSpecific (vendor rfl) fun _ => within, ?_⟩
        rw [Attribute.path, ← final rfl]
        exact append_vendor above

/-- A definition builds an attribute around a value of its type only, and then the attribute of its
carrier that has its path and the value. Where no attribute of its carrier can have its path, for
the depth or for a segment that is too great, it builds none around any value. -/
theorem make_exact (definition : AttributeDefinition) (value : Value) :
    (∀ entry, definition.make value = .ok entry ↔ value.dataType = definition.dataType ∧
      entry.CarriedBy definition.carrier ∧ entry.path = definition.path ∧
      entry.value? = some value) ∧
    (value.dataType ≠ definition.dataType →
      definition.make value = .error (.typeMismatch definition.dataType value.dataType)) ∧
    (value.dataType = definition.dataType → ¬definition.carrier.Expresses definition.path →
      ∃ cause, definition.Misplaced cause ∧ definition.make value = .error cause) ∧
    ((∃ entry : Attribute, entry.CarriedBy definition.carrier ∧ entry.path = definition.path) ↔
      definition.carrier.Expresses definition.path) := by
  refine ⟨fun entry => ⟨?_, ?_⟩, fun untyped => if_pos untyped, ?_, exists_carriedBy_iff⟩
  · intro made
    exact ⟨dataType_of_make made, carriedBy_of_make made, of_make made⟩
  · rintro ⟨typed, carried, placed, holds⟩
    exact make_of_carriedBy typed carried placed holds
  · intro typed inexpressible
    obtain ⟨cause, misplaced⟩ := exists_misplaced_iff.mpr inexpressible
    exact ⟨cause, misplaced, make_of_misplaced typed misplaced⟩

/-- A vendor of 25 bits is refused, not cut to the 24 bits of the header. -/
example : make ⟨⟨26, [0x01000009, 1]⟩, "Wide", .integer, .vendorSpecific, none⟩
    (.plain (.integer 7)) = .error (.invalidVendorId 0x01000009) := by decide

end AttributeDefinition

end Radius

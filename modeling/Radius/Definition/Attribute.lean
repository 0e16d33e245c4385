import Radius.Attribute
import Radius.Definition

/-!
The attribute that a definition builds around a value. The kind follows from how the attribute is
carried, and the path is checked against the kind: `path_of_make` says that the attribute built has
the path of its definition, `value_of_make` that it has the value it was built around.
-/

namespace Radius.AttributeDefinition

def mismatch (definition : AttributeDefinition) (kind : AttributeKind) : AttributeError :=
  .kindMismatch definition.path kind

def lastOctet (definition : AttributeDefinition) : Except AttributeError UInt8 :=
  definition.path.lastOctet.mapError .invalidType

def make (definition : AttributeDefinition) (value : Value) : Except AttributeError Attribute :=
  if value.dataType ≠ definition.dataType then
    .error (.typeMismatch definition.dataType value.dataType)
  else
    let head := definition.path.head
    match definition.carrier with
    | .standard | .fragmented =>
        if definition.path.depth ≠ 1 then .error (definition.mismatch .standard)
        else Attribute.makeStandard head value
    | .concat =>
        match value with
        | .concat value =>
            if definition.path.depth ≠ 1 then .error (definition.mismatch .concat)
            else .ok (.concat head value)
        | _ => .error (definition.mismatch .concat)
    | .extended =>
        if definition.path.depth ≠ 2 then .error (definition.mismatch .extended)
        else do
          let extendedType ← definition.lastOctet
          Attribute.makeExtended head extendedType value
    | .longExtended =>
        if definition.path.depth ≠ 2 then .error (definition.mismatch .longExtended)
        else do
          let extendedType ← definition.lastOctet
          return .longExtended head extendedType false value
    | .vendorSpecific =>
        match definition.path.ancestor? 2 with
        | none => .error (definition.mismatch .vendorSpecific)
        | some parent => do
            let vendorType ← definition.lastOctet
            Attribute.makeVendorSpecific parent definition.path.beforeLast vendorType value

theorem lastOctet_eq_ok_iff (definition : AttributeDefinition) (octet : UInt8) :
    definition.lastOctet = .ok octet ↔ definition.path.last = octet.toUInt32 := by
  have bound := octet.toNat_lt
  simp only [lastOctet, TypePath.lastOctet]
  split
  · rename_i small
    change Except.ok definition.path.last.toUInt8 = Except.ok octet ↔ _
    simp only [Except.ok.injEq, ← UInt32.toNat_inj, ← UInt8.toNat_inj]
    simp only [UInt32.le_iff_toNat_le] at small
    have limit : definition.path.last.toNat ≤ 255 := small
    simp
    omega
  · rename_i large
    change Except.error (AttributeError.invalidType _) = Except.ok octet ↔ _
    simp only [reduceCtorEq, false_iff]
    intro same
    rw [same] at large
    simp [UInt32.le_iff_toNat_le] at large
    omega

theorem path_eq_of_depth_one {path : TypePath} (top : path.depth = 1) :
    .topLevel path.head = path := by
  cases path with
  | mk head tail =>
      have none : tail = [] := List.length_eq_zero_iff.mp (by simpa [TypePath.depth] using top)
      rw [none]
      rfl

theorem path_eq_of_depth_two {path : TypePath} (nested : path.depth = 2) :
    (TypePath.topLevel path.head).child path.last = path := by
  cases path with
  | mk head tail =>
      obtain ⟨segment, only⟩ := List.length_eq_one_iff.mp
        (show tail.length = 1 by simpa [TypePath.depth] using nested)
      rw [only]
      rfl

theorem append_vendor {path parent : TypePath} (above : path.ancestor? 2 = some parent) :
    parent.append [path.beforeLast, path.last] = path := by
  cases path with
  | mk head tail =>
      simp only [TypePath.ancestor?] at above
      split at above
      · contradiction
      · rename_i deep
        cases above
        obtain ⟨front, final, rfl⟩ : ∃ front final, tail = front ++ [final] :=
          ⟨tail.dropLast, tail.getLast (List.ne_nil_of_length_pos (by omega)),
            (List.dropLast_concat_getLast _).symm⟩
        simp only [List.length_append, List.length_singleton] at deep
        obtain ⟨outer, before, rfl⟩ : ∃ outer before, front = outer ++ [before] :=
          ⟨front.dropLast, front.getLast (List.ne_nil_of_length_pos (by omega)),
            (List.dropLast_concat_getLast _).symm⟩
        simp [TypePath.append, TypePath.last, TypePath.beforeLast]

theorem of_make {definition : AttributeDefinition} {value : Value} {entry : Attribute}
    (made : definition.make value = .ok entry) :
    entry.path = definition.path ∧ entry.value? = some value := by
  unfold make at made
  split at made
  · contradiction
  · dsimp only at made
    split at made
    · split at made
      · contradiction
      · rename_i top
        rw [Attribute.of_makeStandard made]
        exact ⟨path_eq_of_depth_one (Decidable.of_not_not top), rfl⟩
    · split at made
      · contradiction
      · rename_i top
        rw [Attribute.of_makeStandard made]
        exact ⟨path_eq_of_depth_one (Decidable.of_not_not top), rfl⟩
    · split at made
      · split at made
        · contradiction
        · rename_i top
          cases made
          exact ⟨path_eq_of_depth_one (Decidable.of_not_not top), rfl⟩
      · contradiction
    · split at made
      · contradiction
      · rename_i nested
        cases last : definition.lastOctet with
        | error cause => rw [last] at made; contradiction
        | ok octet =>
            rw [last] at made
            rw [Attribute.of_makeExtended made]
            have final := (lastOctet_eq_ok_iff definition octet).mp last
            refine ⟨?_, rfl⟩
            rw [Attribute.path, ← final]
            exact path_eq_of_depth_two (Decidable.of_not_not nested)
    · split at made
      · contradiction
      · rename_i nested
        cases last : definition.lastOctet with
        | error cause => rw [last] at made; contradiction
        | ok octet =>
            rw [last] at made
            cases made
            have final := (lastOctet_eq_ok_iff definition octet).mp last
            refine ⟨?_, rfl⟩
            rw [Attribute.path, ← final]
            exact path_eq_of_depth_two (Decidable.of_not_not nested)
    · split at made
      · contradiction
      · rename_i parent above
        cases last : definition.lastOctet with
        | error cause => rw [last] at made; contradiction
        | ok octet =>
            rw [last] at made
            rw [Attribute.of_makeVendorSpecific made]
            have final := (lastOctet_eq_ok_iff definition octet).mp last
            refine ⟨?_, rfl⟩
            rw [Attribute.path, ← final]
            exact append_vendor above

theorem path_of_make {definition : AttributeDefinition} {value : Value} {entry : Attribute}
    (made : definition.make value = .ok entry) : entry.path = definition.path :=
  (of_make made).1

theorem value_of_make {definition : AttributeDefinition} {value : Value} {entry : Attribute}
    (made : definition.make value = .ok entry) : entry.value? = some value :=
  (of_make made).2

end Radius.AttributeDefinition

import Radius.Definition.Attribute
import Radius.Fault
import Radius.Secret.Password
import Radius.Value.Decode

/-!
The octets of a defined value on the wire. A filter hides a value behind its tag octet, which stays
in clear; without a filter the octets are those of the value itself.
-/

namespace Radius.AttributeDefinition

def encodeValue (definition : AttributeDefinition) (exchange : Exchange) (value : Value) :
    Drawing AttributeError Octets := do
  let octets ← Drawing.ofExcept (value.encodeAs definition.dataType)
  match definition.filter with
  | none => return octets
  | some filter =>
      let hidden ← filter.encode exchange (octets.drop value.tagLength)
      return octets.take value.tagLength ++ hidden

/-- The number of octets that a filter leaves in clear at the front of a value as received. A type
with a tag has one in every value, so an empty value is outside the domain. -/
def clearLength (definition : AttributeDefinition) (octets : Octets) : Except Fault Nat :=
  match definition.dataType with
  | .taggedString | .taggedText | .taggedInteger =>
      if octets.isEmpty then .error .tagOctetMissing else .ok 1
  | .optionalTaggedString | .optionalTaggedText =>
      .ok (Tag.splitOptional octets).1.toList.length
  | _ => .ok 0

def decodePlain? (definition : AttributeDefinition) (dictionary : Dictionary) (octets : Octets) :
    Option Value :=
  Value.decode? dictionary definition.dataType definition.path octets

def decodeValue (definition : AttributeDefinition) (exchange : Exchange) (dictionary : Dictionary)
    (octets : Octets) : Except Fault (Option Value) :=
  match definition.filter with
  | none => .ok (definition.decodePlain? dictionary octets)
  | some filter => do
      let clear ← definition.clearLength octets
      return (filter.decode? exchange (octets.drop clear)).bind fun plain =>
        definition.decodePlain? dictionary (octets.take clear ++ plain)

def decodeAttribute (definition : AttributeDefinition) (exchange : Exchange)
    (dictionary : Dictionary) (octets : Octets) : Except Fault (Option Attribute) := do
  let value ← definition.decodeValue exchange dictionary octets
  return value.bind fun value => (definition.make value).toOption

theorem payload_lt_of_decodeValue {definition : AttributeDefinition} {exchange : Exchange}
    {dictionary : Dictionary} {octets : Octets} {inner : Container}
    (read : definition.decodeValue exchange dictionary octets = .ok (some (.container inner))) :
    inner.payload.length < octets.length := by
  unfold decodeValue at read
  split at read
  · exact Value.payload_lt_of_decode? (Except.ok.inj read)
  · rename_i filter hidden
    cases counted : definition.clearLength octets with
    | error fault => rw [counted] at read; contradiction
    | ok clear =>
        rw [counted] at read
        obtain ⟨plain, revealed, decoded⟩ := Option.bind_eq_some_iff.mp (Except.ok.inj read)
        have shorter := Filter.length_decode?_le revealed
        have inside := Value.payload_lt_of_decode? decoded
        simp only [List.length_append, List.length_take, List.length_drop] at shorter inside
        omega

theorem payload_lt_of_decodeAttribute {definition : AttributeDefinition} {exchange : Exchange}
    {dictionary : Dictionary} {octets : Octets} {entry : Attribute} {inner : Container}
    (read : definition.decodeAttribute exchange dictionary octets = .ok (some entry))
    (holds : entry.value? = some (.container inner)) :
    inner.payload.length < octets.length := by
  unfold decodeAttribute at read
  cases decoded : definition.decodeValue exchange dictionary octets with
  | error fault => rw [decoded] at read; contradiction
  | ok value =>
      rw [decoded] at read
      obtain ⟨value, rfl, made⟩ := Option.bind_eq_some_iff.mp (Except.ok.inj read)
      cases built : definition.make value with
      | error cause => rw [built] at made; contradiction
      | ok made =>
          rename_i kept
          rw [built] at kept
          cases kept
          have same := (value_of_make built).symm.trans holds
          cases same
          exact payload_lt_of_decodeValue decoded

end Radius.AttributeDefinition

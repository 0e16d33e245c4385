import Radius.Text.Address
import Radius.Value.Plain
import Radius.Value.Container
import Radius.Value.Concat

/-!
Attribute values: plain values, containers that enclose another attribute in encoded form, values in
pieces, and trees of type-length-value records. A value knows its declared type, its octets and how
many they are.
-/

namespace Radius

inductive Value
  | plain (value : PlainValue)
  | container (value : Container)
  | concat (value : Concat)
  | tlv (records : List (UInt8 × Value))

namespace Value

mutual

def decEq (left right : Value) : Decidable (left = right) :=
  match left, right with
  | .plain left, .plain right => decidable_of_iff (left = right) (by simp)
  | .container left, .container right => decidable_of_iff (left = right) (by simp)
  | .concat left, .concat right => decidable_of_iff (left = right) (by simp)
  | .tlv left, .tlv right =>
      have := decEqRecords left right
      decidable_of_iff (left = right) (by simp)
  | .plain _, .container _ | .plain _, .concat _ | .plain _, .tlv _ => isFalse nofun
  | .container _, .plain _ | .container _, .concat _ | .container _, .tlv _ => isFalse nofun
  | .concat _, .plain _ | .concat _, .container _ | .concat _, .tlv _ => isFalse nofun
  | .tlv _, .plain _ | .tlv _, .container _ | .tlv _, .concat _ => isFalse nofun

def decEqRecords (left right : List (UInt8 × Value)) : Decidable (left = right) :=
  match left, right with
  | [], [] => isTrue rfl
  | (leftType, left) :: leftRest, (rightType, right) :: rightRest =>
      have := decEq left right
      have := decEqRecords leftRest rightRest
      decidable_of_iff ((leftType = rightType ∧ left = right) ∧ leftRest = rightRest) (by simp)
  | [], _ :: _ => isFalse nofun
  | _ :: _, [] => isFalse nofun

end

instance : DecidableEq Value := decEq

def dataType : Value → DataType
  | .plain value => value.dataType
  | .container value => value.dataType
  | .concat _ => .concat
  | .tlv _ => .tlv

def isContainer (value : Value) : Bool := value.dataType.isContainer

mutual

def encodedLength : Value → Nat
  | .plain value => value.encodedLength
  | .container value => value.encodedLength
  | .concat value => value.length
  | .tlv records => recordsLength records

def recordsLength : List (UInt8 × Value) → Nat
  | [] => 0
  | (_, value) :: rest => 2 + value.encodedLength + recordsLength rest

end

mutual

def octets : Value → Octets
  | .plain value => value.octets
  | .container value => value.octets
  | .concat value => value.octets
  | .tlv records => recordsOctets records

/-- Each record is its type, a length that counts these two octets too, and the value. -/
def recordsOctets : List (UInt8 × Value) → Octets
  | [] => []
  | (type, value) :: rest =>
      type :: UInt8.ofNat (2 + value.encodedLength) :: (value.octets ++ recordsOctets rest)

end

def tagLength : Value → Nat
  | .plain value => value.tagLength
  | _ => 0

def asContainer? : Value → Option Container
  | .container value => some value
  | _ => none

def asPlain? : Value → Option PlainValue
  | .plain value => some value
  | _ => none

/-- A record of a type-length-value tree; its length octet counts two octets more than the value. -/
def makeRecord (type : UInt8) (value : Value) : Except AttributeError (UInt8 × Value) :=
  if maxRecordValue < value.encodedLength then
    .error (.invalidTlvLength (value.encodedLength + 2))
  else .ok (type, value)

def encodeAs (type : DataType) (value : Value) : Except AttributeError Octets :=
  if value.dataType = type then .ok value.octets
  else .error (.typeMismatch type value.dataType)

end Value

end Radius

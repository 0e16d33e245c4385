import Radius.Record
import Radius.Value.Display

/-!
Attributes: a record as it was received, or a value together with the way it is carried. The path of
an attribute is where a dictionary defines it. Each checked constructor refuses what its carrier
could not hold; a long extended value has no limit of its own, since it is sent in pieces.
-/

namespace Radius

inductive Attribute
  | raw (record : Record)
  | standard (type : UInt8) (value : Value)
  | extended (type extendedType : UInt8) (value : Value)
  | longExtended (type extendedType : UInt8) (truncated : Bool) (value : Value)
  | vendorSpecific (parent : TypePath) (vendor : UInt32) (vendorType : UInt8) (value : Value)
  | concat (type : UInt8) (value : Concat)
deriving DecidableEq

namespace Attribute

def path : Attribute → TypePath
  | .raw record => .topLevel record.type
  | .standard type _ => .topLevel type
  | .extended type extendedType _ => (TypePath.topLevel type).child extendedType.toUInt32
  | .longExtended type extendedType _ _ => (TypePath.topLevel type).child extendedType.toUInt32
  | .vendorSpecific parent vendor vendorType _ => parent.append [vendor, vendorType.toUInt32]
  | .concat type _ => .topLevel type

def value? : Attribute → Option Value
  | .raw _ => none
  | .standard _ value => some value
  | .extended _ _ value => some value
  | .longExtended _ _ _ value => some value
  | .vendorSpecific _ _ _ value => some value
  | .concat _ value => some (.concat value)

def kind : Attribute → AttributeKind
  | .raw _ => .raw
  | .standard .. => .standard
  | .extended .. => .extended
  | .longExtended .. => .longExtended
  | .vendorSpecific .. => .vendorSpecific
  | .concat .. => .concat

def record? : Attribute → Option Record
  | .raw record => some record
  | _ => none

def isRaw (entry : Attribute) : Bool := entry.record?.isSome

def truncated : Attribute → Bool
  | .longExtended _ _ truncated _ => truncated
  | _ => false

def markTruncated (truncated : Bool) : Attribute → Attribute
  | .longExtended type extendedType _ value => .longExtended type extendedType truncated value
  | other => other

def checkLength (value : Value) (max : Nat) : Except AttributeError Unit :=
  if max < value.encodedLength then .error (.valueTooLong value.encodedLength max) else .ok ()

def makeStandard (type : UInt8) (value : Value) : Except AttributeError Attribute :=
  match value.dataType with
  | .concat => .error (.kindMismatch (.topLevel type) .standard)
  | .longExtended => .ok (.standard type value)
  | _ => do
      checkLength value maxRecordValue
      return .standard type value

def makeExtended (type extendedType : UInt8) (value : Value) : Except AttributeError Attribute := do
  checkLength value Container.maxExtended
  return .extended type extendedType value

/-- The header of a top-level vendor container limits the value; a deeper container has the limits
of what encloses it. -/
def makeVendorSpecific (parent : TypePath) (vendor : UInt32) (vendorType : UInt8) (value : Value) :
    Except AttributeError Attribute := do
  Container.checkVendor vendor
  if parent.isTopLevel then checkLength value Container.maxVsa
  return .vendorSpecific parent vendor vendorType value

def display : Attribute → String
  | .raw record => "raw " ++ hexText record.value
  | .standard _ value => value.display
  | .extended _ _ value => value.display
  | .longExtended _ _ _ value => value.display
  | .vendorSpecific _ _ _ value => value.display
  | .concat _ value => hexText value.octets

def text (entry : Attribute) : String := entry.path.text ++ " = " ++ entry.display

theorem path_markTruncated (truncated : Bool) (entry : Attribute) :
    (entry.markTruncated truncated).path = entry.path := by
  cases entry <;> rfl

theorem value?_markTruncated (truncated : Bool) (entry : Attribute) :
    (entry.markTruncated truncated).value? = entry.value? := by
  cases entry <;> rfl

theorem of_makeStandard {type : UInt8} {value : Value} {entry : Attribute}
    (made : makeStandard type value = .ok entry) : entry = .standard type value := by
  unfold makeStandard at made
  split at made
  · contradiction
  · cases made
    rfl
  · unfold checkLength at made
    split at made
    · contradiction
    · cases made
      rfl

theorem of_makeExtended {type extendedType : UInt8} {value : Value} {entry : Attribute}
    (made : makeExtended type extendedType value = .ok entry) :
    entry = .extended type extendedType value := by
  unfold makeExtended checkLength at made
  split at made
  · contradiction
  · cases made
    rfl

theorem of_makeVendorSpecific {parent : TypePath} {vendor : UInt32} {vendorType : UInt8}
    {value : Value} {entry : Attribute}
    (made : makeVendorSpecific parent vendor vendorType value = .ok entry) :
    entry = .vendorSpecific parent vendor vendorType value := by
  unfold makeVendorSpecific Container.checkVendor checkLength at made
  split at made
  · contradiction
  · simp only [bind, Except.bind, pure, Except.pure] at made
    split at made
    · split at made
      · contradiction
      · cases made
        rfl
    · cases made
      rfl

end Attribute

end Radius

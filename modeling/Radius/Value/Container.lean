import Radius.AttributeError

/-!
Container values, which enclose another attribute whose own value stays encoded as the payload.

- extended: extended type, payload
- long extended: extended type, flags, payload
- VSA: vendor (4 octets), vendor type, length, payload
- EVS: vendor (4 octets), vendor type, payload

The length octet of a VSA counts the vendor type and itself. A long extended value arrives in
pieces; all but the last have the flag `more`, and `truncated` says that the sender cut the value.
-/

namespace Radius

def maxRecordValue : Nat := 253

def maxVendorId : UInt32 := 0x00FFFFFF

inductive Container
  | extended (extendedType : UInt8) (payload : Octets)
  | longExtended (extendedType : UInt8) (more truncated : Bool) (payload : Octets)
  | vsa (vendor : UInt32) (vendorType : UInt8) (payload : Octets)
  | evs (vendor : UInt32) (vendorType : UInt8) (payload : Octets)
deriving DecidableEq

namespace Container

def moreFlag : UInt8 := 0x80

def truncatedFlag : UInt8 := 0x40

def flags (more truncated : Bool) : UInt8 :=
  (if more then moreFlag else 0) ||| (if truncated then truncatedFlag else 0)

def checkVendor (vendor : UInt32) : Except AttributeError Unit :=
  if maxVendorId < vendor then .error (.invalidVendorId vendor) else .ok ()

def checkLength (payload : Octets) (max : Nat) : Except AttributeError Unit :=
  if max < payload.length then .error (.valueTooLong payload.length max) else .ok ()

def maxExtended : Nat := maxRecordValue - 1

def maxFragment : Nat := maxRecordValue - 2

def maxVsa : Nat := maxRecordValue - 6

def makeExtended (extendedType : UInt8) (payload : Octets) : Except AttributeError Container := do
  checkLength payload maxExtended
  return .extended extendedType payload

/-- One piece of a long extended value, as a single record carries it. -/
def makeFragment (extendedType : UInt8) (more truncated : Bool) (payload : Octets) :
    Except AttributeError Container := do
  checkLength payload maxFragment
  return .longExtended extendedType more truncated payload

def makeVsa (vendor : UInt32) (vendorType : UInt8) (payload : Octets) :
    Except AttributeError Container := do
  checkVendor vendor
  checkLength payload maxVsa
  return .vsa vendor vendorType payload

def makeEvs (vendor : UInt32) (vendorType : UInt8) (payload : Octets) :
    Except AttributeError Container := do
  checkVendor vendor
  return .evs vendor vendorType payload

def dataType : Container → DataType
  | .extended .. => .extended
  | .longExtended .. => .longExtended
  | .vsa .. => .vsa
  | .evs .. => .evs

def payload : Container → Octets
  | .extended _ payload => payload
  | .longExtended _ _ _ payload => payload
  | .vsa _ _ payload => payload
  | .evs _ _ payload => payload

/-- The path segments from the container's attribute to the one it encloses. -/
def segments : Container → List UInt32
  | .extended extendedType _ => [extendedType.toUInt32]
  | .longExtended extendedType _ _ _ => [extendedType.toUInt32]
  | .vsa vendor vendorType _ => [vendor, vendorType.toUInt32]
  | .evs vendor vendorType _ => [vendor, vendorType.toUInt32]

def truncated : Container → Bool
  | .longExtended _ _ truncated _ => truncated
  | _ => false

def encodedLength : Container → Nat
  | .extended _ payload => 1 + payload.length
  | .longExtended _ _ _ payload => 2 + payload.length
  | .vsa _ _ payload => 6 + payload.length
  | .evs _ _ payload => 5 + payload.length

def octets : Container → Octets
  | .extended extendedType payload => extendedType :: payload
  | .longExtended extendedType more truncated payload =>
      extendedType :: flags more truncated :: payload
  | .vsa vendor vendorType payload =>
      Octets.bigEndian 4 vendor.toNat ++
        vendorType :: UInt8.ofNat (2 + payload.length) :: payload
  | .evs vendor vendorType payload =>
      Octets.bigEndian 4 vendor.toNat ++ vendorType :: payload

def decodeExtended? : Octets → Option Container
  | [] => none
  | extendedType :: payload => (makeExtended extendedType payload).toOption

/-- The six low bits of the flags octet are reserved and ignored. -/
def decodeLongExtended? : Octets → Option Container
  | extendedType :: flags :: payload =>
      some (.longExtended extendedType (flags &&& moreFlag != 0) (flags &&& truncatedFlag != 0)
        payload)
  | _ => none

/-- The length octet must count exactly the rest of the value. -/
def decodeVsa? (octets : Octets) : Option Container :=
  match octets.drop 4 with
  | vendorType :: length :: payload =>
      if length.toNat = 2 + payload.length then
        (makeVsa (UInt32.ofNat (Octets.ofBigEndian (octets.take 4))) vendorType payload).toOption
      else none
  | _ => none

def decodeEvs? (octets : Octets) : Option Container :=
  match octets.drop 4 with
  | vendorType :: payload =>
      (makeEvs (UInt32.ofNat (Octets.ofBigEndian (octets.take 4))) vendorType payload).toOption
  | [] => none

theorem of_makeExtended {extendedType : UInt8} {payload : Octets} {value : Container}
    (made : (makeExtended extendedType payload).toOption = some value) :
    value = .extended extendedType payload := by
  unfold makeExtended checkLength at made
  split at made
  · contradiction
  · cases made
    rfl

theorem of_makeVsa {vendor : UInt32} {vendorType : UInt8} {payload : Octets} {value : Container}
    (made : (makeVsa vendor vendorType payload).toOption = some value) :
    value = .vsa vendor vendorType payload := by
  unfold makeVsa checkVendor checkLength at made
  split at made
  · contradiction
  · simp only [bind, Except.bind] at made
    split at made
    · contradiction
    · cases made
      rfl

theorem of_makeEvs {vendor : UInt32} {vendorType : UInt8} {payload : Octets} {value : Container}
    (made : (makeEvs vendor vendorType payload).toOption = some value) :
    value = .evs vendor vendorType payload := by
  unfold makeEvs checkVendor at made
  split at made
  · contradiction
  · cases made
    rfl

theorem payload_lt_of_decodeExtended? {octets : Octets} {value : Container}
    (read : decodeExtended? octets = some value) : value.payload.length < octets.length := by
  match octets, read with
  | extendedType :: payload, read =>
      rw [of_makeExtended read]
      simp [Container.payload]

theorem payload_lt_of_decodeLongExtended? {octets : Octets} {value : Container}
    (read : decodeLongExtended? octets = some value) : value.payload.length < octets.length := by
  match octets, read with
  | extendedType :: flags :: payload, read =>
      cases read
      simp only [Container.payload, List.length_cons]
      omega

theorem payload_lt_of_decodeVsa? {octets : Octets} {value : Container}
    (read : decodeVsa? octets = some value) : value.payload.length < octets.length := by
  unfold decodeVsa? at read
  split at read
  · rename_i vendorType length payload rest
    split at read
    · have counted := congrArg List.length rest
      rw [of_makeVsa read]
      simp only [Container.payload, List.length_drop, List.length_cons] at counted ⊢
      omega
    · contradiction
  · contradiction

theorem payload_lt_of_decodeEvs? {octets : Octets} {value : Container}
    (read : decodeEvs? octets = some value) : value.payload.length < octets.length := by
  unfold decodeEvs? at read
  split at read
  · rename_i vendorType payload rest
    have counted := congrArg List.length rest
    rw [of_makeEvs read]
    simp only [Container.payload, List.length_drop, List.length_cons] at counted ⊢
    omega
  · contradiction

end Container

end Radius

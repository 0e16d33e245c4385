import Radius.Definition.Value
import Radius.Packet.Error

/-!
Lowering turns attributes into the records that carry them. An attribute inside a container becomes
its container, which stands higher in the tree of types; a top-level attribute becomes records. So
an attribute is lowered in no more steps than its path has segments.
-/

namespace Radius

namespace Lowering

/-- The pieces of a long extended value: every piece but the last announces another one, and only
the last can be marked as cut short. -/
def pieces (extendedType : UInt8) (truncated : Bool) : List Octets → List Container
  | [] => []
  | [last] => [.longExtended extendedType false truncated last]
  | piece :: rest =>
      .longExtended extendedType true false piece :: pieces extendedType truncated rest

/-- An empty value is sent as one empty piece. -/
def split (payload : Octets) : List Octets :=
  if payload.isEmpty then [[]] else Octets.chunks Container.maxFragment (by decide) payload

def fragments (type extendedType : UInt8) (truncated : Bool) (payload : Octets) :
    Except AttributeError (List Record) :=
  (pieces extendedType truncated (split payload)).mapM fun piece => Record.make type piece.octets

def mismatch (expected : DataType) (value : Value) : PacketError :=
  .invalidAttribute (.typeMismatch expected value.dataType)

def fragmentedRecords (type : UInt8) : Value → Except PacketError (List Record)
  | .container (.longExtended extendedType _ truncated payload) =>
      (fragments type extendedType truncated payload).mapError .invalidAttribute
  | other => .error (mismatch .longExtended other)

def concatRecords (type : UInt8) : Value → Except PacketError (List Record)
  | .concat value => (value.fragments.mapM (Record.make type)).mapError .invalidAttribute
  | other => .error (mismatch .concat other)

def container (definition parent : AttributeDefinition) (truncated : Bool) (last : UInt8)
    (payload : Octets) : Except AttributeError Container :=
  match definition.carrier with
  | .extended => Container.makeExtended last payload
  | .longExtended => .ok (.longExtended last false truncated payload)
  | _ =>
      match parent.dataType with
      | .vsa => Container.makeVsa definition.path.beforeLast last payload
      | .evs => Container.makeEvs definition.path.beforeLast last payload
      | other => .error (.unsupportedParent parent.path other)

def buildEnclosure (definition parent : AttributeDefinition) (truncated : Bool) (payload : Octets) :
    Except AttributeError Attribute := do
  let last ← definition.lastOctet
  let value ← container definition parent truncated last payload
  parent.make (.container value)

/-- The attribute whose value encloses the payload, one or two segments higher. -/
def enclose (dictionary : Dictionary) (definition : AttributeDefinition) (truncated : Bool)
    (payload : Octets) : Except PacketError Attribute :=
  match definition.path.ancestor? definition.carrier.levels with
  | none => .error (.unknownAttribute definition.path)
  | some above =>
      match dictionary.attribute? above with
      | none => .error (.unknownAttribute above)
      | some parent =>
          (buildEnclosure definition parent truncated payload).mapError .invalidAttribute

theorem levels_pos (carrier : Carrier) : 0 < carrier.levels := by cases carrier <;> decide

theorem of_mapError_eq_ok {failure other value : Type} {rename : failure → other}
    {result : Except failure value} {found : value} (ok : result.mapError rename = .ok found) :
    result = .ok found := by
  cases result with
  | error cause => contradiction
  | ok kept => cases ok; rfl

theorem depth_of_enclose {dictionary : Dictionary} {definition : AttributeDefinition}
    {truncated : Bool} {payload : Octets} {outer : Attribute}
    (built : enclose dictionary definition truncated payload = .ok outer) :
    outer.path.depth < definition.path.depth := by
  unfold enclose at built
  split at built
  · contradiction
  · rename_i above higher
    split at built
    · contradiction
    · rename_i parent known
      have made := of_mapError_eq_ok built
      unfold buildEnclosure at made
      cases last : definition.lastOctet with
      | error cause => rw [last] at made; contradiction
      | ok octet =>
          rw [last] at made
          simp only [bind, Except.bind] at made
          cases wrapped : container definition parent truncated octet payload with
          | error cause => rw [wrapped] at made; contradiction
          | ok value =>
              rw [wrapped] at made
              have levels := levels_pos definition.carrier
              have total := TypePath.depth_of_ancestor? higher
              rw [AttributeDefinition.path_of_make made, dictionary.path_of_attribute? known]
              omega

inductive Lowered (depth : Nat)
  | records (records : List Record)
  | enclosed (outer : Attribute) (shallower : outer.path.depth < depth)

def lowerOnce (exchange : Exchange) (dictionary : Dictionary) (entry : Attribute) :
    Drawing PacketError (Lowered entry.path.depth) :=
  match entry.value? with
  | none => return .records entry.record?.toList
  | some value =>
      match known : dictionary.attribute? entry.path with
      | none => throw (.unknownAttribute entry.path)
      | some definition =>
          match definition.carrier with
          | .standard => do
              let octets ← Drawing.mapFailure .invalidAttribute
                (definition.encodeValue exchange value)
              let record ← Drawing.ofExcept
                ((Record.make definition.path.head octets).mapError .invalidAttribute)
              return .records [record]
          | .fragmented => do
              let records ← Drawing.ofExcept (fragmentedRecords definition.path.head value)
              return .records records
          | .concat => do
              let records ← Drawing.ofExcept (concatRecords definition.path.head value)
              return .records records
          | .extended | .longExtended | .vendorSpecific => do
              let payload ← Drawing.mapFailure .invalidAttribute
                (definition.encodeValue exchange value)
              match built : enclose dictionary definition entry.truncated payload with
              | .error failure => throw failure
              | .ok outer =>
                  return .enclosed outer
                    (dictionary.path_of_attribute? known ▸ depth_of_enclose built)

def lower (exchange : Exchange) (dictionary : Dictionary) (entry : Attribute) :
    Drawing PacketError (List Record) := do
  match ← lowerOnce exchange dictionary entry with
  | .records records => return records
  | .enclosed outer _shallower => lower exchange dictionary outer
termination_by entry.path.depth

end Lowering

def lowerAll (exchange : Exchange) (dictionary : Dictionary) (entries : List Attribute) :
    Drawing PacketError (List Record) := do
  return (← entries.mapM (Lowering.lower exchange dictionary)).flatten

end Radius

import Radius.Definition.Value

/-!
Lifting turns records into the attributes that they carry. A first pass over the pending attributes
gives records their values: it settles a record alone, or a whole chain of pieces, or a whole run of
records of one type. A second pass opens containers for as long as the dictionary knows what they
enclose. What does not decode stays as it was, so lifting has no errors of its own.
-/

namespace Radius

namespace Lifting

/-- What a step over `bound` pending attributes has settled, and what it leaves. -/
structure Progress (bound : Nat) where
  settled : List Attribute
  pending : List Attribute
  shorter : pending.length < bound

namespace Progress

def settle (settled rest : List Attribute) : Progress (rest.length + 1) :=
  ⟨settled, rest, Nat.lt_succ_self _⟩

def replace (settled : List Attribute) (more : Nat) (rest : List Attribute) :
    Progress (rest.length + 1) :=
  ⟨settled, rest.drop more, by
    rw [List.length_drop]
    omega⟩

def keep (front : Attribute) (more : Nat) (rest : List Attribute) : Progress (rest.length + 1) :=
  replace (front :: rest.take more) more rest

end Progress

structure Piece where
  more : Bool
  truncated : Bool
  payload : Octets

def piece? (type extendedType : UInt8) : Attribute → Option Piece
  | .raw record =>
      if record.type = type then
        match Container.decodeLongExtended? record.value with
        | some (.longExtended found more truncated payload) =>
            if found = extendedType then some ⟨more, truncated, payload⟩ else none
        | _ => none
      else none
  | _ => none

structure Chain where
  pieces : List Piece
  closed : Bool

namespace Chain

/-- The pieces at the front, up to one that announces no other. -/
def atFront (type extendedType : UInt8) : List Attribute → Chain
  | [] => ⟨[], false⟩
  | front :: rest =>
      match piece? type extendedType front with
      | none => ⟨[], false⟩
      | some piece =>
          if piece.more then
            let later := atFront type extendedType rest
            ⟨piece :: later.pieces, later.closed⟩
          else ⟨[piece], true⟩

def joined (extendedType : UInt8) (chain : Chain) : Value :=
  .container (.longExtended extendedType false (chain.pieces.any Piece.truncated)
    (chain.pieces.flatMap Piece.payload))

end Chain

/-- A closed chain becomes one attribute; an open one stays as it is, all of it. -/
def promoteChain (definition : AttributeDefinition) (record : Record) (rest : List Attribute) :
    Progress (rest.length + 1) :=
  match record.value with
  | [] => Progress.settle [.raw record] rest
  | extendedType :: _ =>
      let chain := Chain.atFront record.type extendedType (.raw record :: rest)
      let more := chain.pieces.length - 1
      if chain.closed then
        match definition.make (chain.joined extendedType) with
        | .ok entry => Progress.replace [entry] more rest
        | .error _ => Progress.keep (.raw record) more rest
      else Progress.keep (.raw record) more rest

def runAtFront (type : UInt8) : List Attribute → List Octets
  | .raw record :: rest => if record.type = type then record.value :: runAtFront type rest else []
  | _ => []

def promoteRun (definition : AttributeDefinition) (record : Record) (rest : List Attribute) :
    Progress (rest.length + 1) :=
  let run := runAtFront record.type rest
  let promoted := do
    let value ← Concat.ofFragments (record.value :: run)
    definition.make (.concat value)
  match promoted with
  | .ok entry => Progress.replace [entry] run.length rest
  | .error _ => Progress.keep (.raw record) run.length rest

/-- The first pass, one step: gives the front its value, if it is a record with a definition. -/
def promoteOnce (exchange : Exchange) (dictionary : Dictionary) (front : Attribute)
    (rest : List Attribute) : Except Fault (Progress (rest.length + 1)) :=
  match front with
  | .raw record =>
      match dictionary.attribute? (.topLevel record.type) with
      | none => .ok (Progress.settle [front] rest)
      | some definition =>
          match definition.carrier with
          | .standard => do
              let entry ← definition.decodeAttribute exchange dictionary record.value
              return Progress.settle [entry.getD front] rest
          | .fragmented => .ok (promoteChain definition record rest)
          | .concat => .ok (promoteRun definition record rest)
          | _ => .ok (Progress.settle [front] rest)
  | _ => .ok (Progress.settle [front] rest)

def promoteAll (exchange : Exchange) (dictionary : Dictionary) (pending : List Attribute) :
    Except Fault (List Attribute) :=
  match pending with
  | [] => .ok []
  | front :: rest => do
      let step ← promoteOnce exchange dictionary front rest
      have _shorter := step.shorter
      let later ← promoteAll exchange dictionary step.pending
      return step.settled ++ later
termination_by pending.length

def enclosedLength (entry : Attribute) : Nat :=
  match entry.value? with
  | some (.container value) => value.payload.length + 1
  | _ => 0

abbrev Inner (bound : Nat) := { entry : Attribute // enclosedLength entry < bound }

/-- The second pass, one step: the attribute that a container encloses, if it decodes. -/
def expandOnce (exchange : Exchange) (dictionary : Dictionary) (entry : Attribute) :
    Except Fault (Option (Inner (enclosedLength entry))) :=
  match holds : entry.value? with
  | some (.container value) =>
      match dictionary.attribute? (entry.path.append value.segments) with
      | none => .ok none
      | some definition =>
          if definition.carrier.isNested then
            match read : definition.decodeAttribute exchange dictionary value.payload with
            | .error fault => .error fault
            | .ok none => .ok none
            | .ok (some inner) =>
                .ok (some ⟨inner.markTruncated value.truncated, by
                  unfold enclosedLength
                  rw [holds, Attribute.value?_markTruncated]
                  split
                  · rename_i deeper enclosed
                    have less := AttributeDefinition.payload_lt_of_decodeAttribute read enclosed
                    omega
                  · omega⟩)
          else .ok none
  | _ => .ok none

def expand (exchange : Exchange) (dictionary : Dictionary) (entry : Attribute) :
    Except Fault Attribute := do
  match ← expandOnce exchange dictionary entry with
  | none => return entry
  | some ⟨inner, _smaller⟩ => expand exchange dictionary inner
termination_by enclosedLength entry

end Lifting

def liftAll (exchange : Exchange) (dictionary : Dictionary) (records : List Record) :
    Except Fault (List Attribute) := do
  let promoted ← Lifting.promoteAll exchange dictionary (records.map .raw)
  promoted.mapM (Lifting.expand exchange dictionary)

end Radius

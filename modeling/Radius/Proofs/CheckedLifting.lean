import Radius.Proofs.CheckedValues
import Radius.Proofs.FirstPass
import Radius.Proofs.Opened

/-!
The reads of lifting, and with them of the decoding of a packet. A chain is measured by the first
two octets of its records and put together from what stands behind them; a group that becomes one
attribute is taken off the front. Decoding with every read checked is decoding, and the one fault of
decoding is the one read that fails: the split in front of a value that misses its tag.
-/

namespace Radius

namespace Checked

section Chain

/-- The number of records in a chain at the front, and whether it is closed. -/
def measure (type extendedType : UInt8) : List Attribute → Except Misread (Nat × Bool)
  | .raw record :: rest => do
      if record.type ≠ type ∨ record.value.length < 2 then return (0, false)
      else if (← index record.value 0) ≠ extendedType then return (0, false)
      else if (← index record.value 1) &&& Container.moreFlag = 0 then return (1, true)
      else
        let (count, closed) ← measure type extendedType rest
        return (count + 1, closed)
  | _ => return (0, false)

def payload (record : Record) : Except Misread (Octets × Bool) := do
  let behind ← slice record.value 2 record.value.length
  let flags ← index record.value 1
  return (behind, flags &&& Container.truncatedFlag != 0)

def promoteChain (definition : AttributeDefinition) (record : Record) (rest : List Attribute) :
    Except Misread (Lifting.Progress (rest.length + 1)) :=
  match record.value with
  | [] => return .settle [.raw record] rest
  | extendedType :: _ => do
      let pending := .raw record :: rest
      let (count, closed) ← measure record.type extendedType pending
      let more := count - 1
      if closed then
        let front ← slice pending 0 count
        let pieces ← (front.filterMap Attribute.record?).mapM payload
        match ← make definition (.container (.longExtended extendedType false
            (pieces.any Prod.snd) (pieces.flatMap Prod.fst))) with
        | .ok entry => return .replace [entry] more rest
        | .error _ => return .keep (.raw record) more rest
      else return .keep (.raw record) more rest

def promoteRun (definition : AttributeDefinition) (record : Record) (rest : List Attribute) :
    Except Misread (Lifting.Progress (rest.length + 1)) := do
  let run := Lifting.runAtFront record.type rest
  match Concat.ofFragments (record.value :: run) with
  | .error _ => return .keep (.raw record) run.length rest
  | .ok value =>
      match ← make definition (.concat value) with
      | .error _ => return .keep (.raw record) run.length rest
      | .ok entry =>
          let _ ← slice (.raw record :: rest) 0 (run.length + 1)
          return .replace [entry] run.length rest

variable {type extendedType : UInt8} {pending : List Attribute}

open Lifting in
theorem measure_eq : measure type extendedType pending =
    .ok ((Chain.atFront type extendedType pending).pieces.length,
      (Chain.atFront type extendedType pending).closed) := by
  induction pending with
  | nil => rfl
  | cons front rest ih =>
      cases front with
      | raw record =>
          rw [measure, Chain.atFront, piece?]
          by_cases same : record.type = type
          · rw [if_pos same]
            rcases held : record.value with - | ⟨found, - | ⟨flags, behind⟩⟩
            case cons.cons =>
              have front : index (found :: flags :: behind) 0 = .ok found := rfl
              have second : index (found :: flags :: behind) 1 = .ok flags := rfl
              simp only [front, second, ih, bind, Except.bind, Container.decodeLongExtended?]
              rw [if_neg (by simp [same])]
              by_cases alike : found = extendedType
              · rw [if_neg (Decidable.not_not.mpr alike), if_pos alike]
                by_cases final : flags &&& Container.moreFlag = 0
                · simp [final, pure, Except.pure]
                · simp [final, pure, Except.pure]
              · simp [alike, pure, Except.pure]
            all_goals simp [Container.decodeLongExtended?, pure, Except.pure]
          · rw [if_pos (.inl same), if_neg same]
            rfl
      | _ => rfl

open Lifting in
theorem payload_of_piece? {record : Record} {piece : Piece}
    (reads : piece? type extendedType (.raw record) = some piece) :
    payload record = .ok (piece.payload, piece.truncated) := by
  obtain ⟨-, flags, held, -, cut⟩ := of_piece? reads
  have second : index (extendedType :: flags :: piece.payload) 1 = .ok flags := rfl
  rw [payload, held, slice_back (by simp), second, cut]
  rfl

open Lifting in
theorem payloads_eq :
    ((pending.take (Chain.atFront type extendedType pending).pieces.length).filterMap
        Attribute.record?).mapM payload =
      .ok ((Chain.atFront type extendedType pending).pieces.map fun piece =>
        (piece.payload, piece.truncated)) := by
  induction pending with
  | nil => rfl
  | cons front rest ih =>
      cases reads : piece? type extendedType front with
      | none => rw [Chain.atFront, reads]; rfl
      | some piece =>
          cases front with
          | raw record =>
              have read := payload_of_piece? reads
              rw [Chain.atFront, reads]
              by_cases announces : piece.more = true
              · simp only [announces, if_true, List.length_cons, List.take_succ_cons,
                  List.filterMap_cons, Attribute.record?, List.mapM_cons, read, ih]
                rfl
              · simp only [announces, Bool.false_eq_true, if_false, List.length_singleton,
                  List.take_succ_cons, List.take_zero, List.filterMap_cons, Attribute.record?,
                  List.filterMap_nil, List.mapM_cons, List.mapM_nil, read]
                rfl
          | _ => contradiction

theorem joined_eq (extendedType : UInt8) (chain : Lifting.Chain) :
    Value.container (.longExtended extendedType false
        ((chain.pieces.map fun piece => (piece.payload, piece.truncated)).any Prod.snd)
        ((chain.pieces.map fun piece => (piece.payload, piece.truncated)).flatMap Prod.fst)) =
      chain.joined extendedType := by
  rw [Lifting.Chain.joined, List.any_map, List.flatMap_map]
  rfl

open Lifting in
theorem length_pieces_le (type extendedType : UInt8) (pending : List Attribute) :
    (Chain.atFront type extendedType pending).pieces.length ≤ pending.length := by
  induction pending with
  | nil => exact Nat.le_refl _
  | cons front rest ih =>
      rw [Chain.atFront]
      split
      · exact Nat.zero_le _
      · split
        · exact Nat.succ_le_succ ih
        · exact Nat.succ_le_succ (Nat.zero_le _)

variable (definition : AttributeDefinition) (record : Record) (rest : List Attribute)

theorem promoteChain_eq :
    promoteChain definition record rest = .ok (Lifting.promoteChain definition record rest) := by
  rw [promoteChain, Lifting.promoteChain]
  cases held : record.value with
  | nil => rfl
  | cons extendedType tail =>
      have front := slice_front (length_pieces_le record.type extendedType (.raw record :: rest))
      simp only [measure_eq, front, payloads_eq, make_eq, joined_eq, bind, Except.bind]
      split
      · cases definition.make (Lifting.Chain.joined extendedType
          (Lifting.Chain.atFront record.type extendedType (.raw record :: rest))) <;> rfl
      · rfl

theorem length_runAtFront_le (type : UInt8) (pending : List Attribute) :
    (Lifting.runAtFront type pending).length ≤ pending.length := by
  fun_induction Lifting.runAtFront type pending with
  | case1 record rest same ih => exact Nat.succ_le_succ ih
  | case2 => exact Nat.zero_le _
  | case3 => exact Nat.zero_le _

theorem promoteRun_eq :
    promoteRun definition record rest = .ok (Lifting.promoteRun definition record rest) := by
  have front : slice (.raw record :: rest) 0 ((Lifting.runAtFront record.type rest).length + 1) =
      .ok _ := slice_front (Nat.succ_le_succ (length_runAtFront_le record.type rest))
  rw [promoteRun, Lifting.promoteRun]
  simp only [make_eq, front, bind, Except.bind]
  cases Concat.ofFragments (record.value :: Lifting.runAtFront record.type rest) with
  | error cause => rfl
  | ok value =>
      cases made : definition.make (.concat value) with
      | error cause => simp only [made]; rfl
      | ok entry => simp only [made]; rfl

end Chain

section Passes

def promoteOnce (exchange : Exchange) (dictionary : Dictionary) (front : Attribute)
    (rest : List Attribute) : Except Misread (Lifting.Progress (rest.length + 1)) :=
  match front with
  | .raw record =>
      match dictionary.attribute? (.topLevel record.type) with
      | none => return .settle [front] rest
      | some definition =>
          match definition.carrier with
          | .standard => do
              let entry ← decodeAttribute definition exchange dictionary record.value
              return .settle [entry.getD front] rest
          | .fragmented => promoteChain definition record rest
          | .concat => promoteRun definition record rest
          | _ => return .settle [front] rest
  | _ => return .settle [front] rest

def promoteAll (exchange : Exchange) (dictionary : Dictionary) (pending : List Attribute) :
    Except Misread (List Attribute) :=
  match pending with
  | [] => return []
  | front :: rest => do
      let step ← promoteOnce exchange dictionary front rest
      have _shorter := step.shorter
      let later ← promoteAll exchange dictionary step.pending
      return step.settled ++ later
termination_by pending.length

theorem opens_of_decodeAttribute {exchange : Exchange} {dictionary : Dictionary}
    {entry inner : Attribute} {container : Container} {definition : AttributeDefinition}
    (holds : entry.value? = some (.container container))
    (known : dictionary.attribute? (entry.path.append container.segments) = some definition)
    (nested : definition.carrier.isNested = true)
    (read : decodeAttribute definition exchange dictionary container.payload = .ok (some inner)) :
    Lifting.Opens exchange dictionary entry (inner.markTruncated container.truncated) := by
  rw [decodeAttribute_eq, Result.mapError_eq_ok_iff] at read
  obtain ⟨value, reads, made⟩ := AttributeDefinition.decodeAttribute_eq_some_iff.mp read
  exact .intro holds known nested reads made

def expand (exchange : Exchange) (dictionary : Dictionary) (entry : Attribute) :
    Except Misread Attribute :=
  match _holds : entry.value? with
  | some (.container container) =>
      match _known : dictionary.attribute? (entry.path.append container.segments) with
      | none => return entry
      | some definition =>
          if _nested : definition.carrier.isNested then
            match _read : decodeAttribute definition exchange dictionary container.payload with
            | .error outside => throw outside
            | .ok none => return entry
            | .ok (some inner) =>
                expand exchange dictionary (inner.markTruncated container.truncated)
          else return entry
  | _ => return entry
termination_by Lifting.enclosedLength entry
decreasing_by
  exact Lifting.enclosedLength_lt_of_opens (opens_of_decodeAttribute _holds _known _nested _read)

def liftAll (exchange : Exchange) (dictionary : Dictionary) (records : List Record) :
    Except Misread (List Attribute) := do
  let promoted ← promoteAll exchange dictionary (records.map .raw)
  promoted.mapM (expand exchange dictionary)

variable (exchange : Exchange) (dictionary : Dictionary)

theorem promoteOnce_eq (front : Attribute) (rest : List Attribute) :
    promoteOnce exchange dictionary front rest =
      (Lifting.promoteOnce exchange dictionary front rest).mapError fun _ => missingTag := by
  cases front with
  | raw record =>
      simp only [promoteOnce, Lifting.promoteOnce]
      cases dictionary.attribute? (.topLevel record.type) with
      | none => rfl
      | some definition =>
          cases carried : definition.carrier with
          | standard =>
              simp only [decodeAttribute_eq, carried]
              rw [Result.mapError_bind]
              rfl
          | fragmented => simp only [promoteChain_eq, carried]; rfl
          | concat => simp only [promoteRun_eq, carried]; rfl
          | _ => simp only [carried]; rfl
  | _ => rfl

theorem promoteAll_eq (pending : List Attribute) :
    promoteAll exchange dictionary pending =
      (Lifting.promoteAll exchange dictionary pending).mapError fun _ => missingTag := by
  induction size : pending.length using Nat.strongRecOn generalizing pending with
  | ind bound ih =>
      cases pending with
      | nil =>
          rw [promoteAll, Lifting.promoteAll]
          rfl
      | cons front rest =>
          rw [promoteAll, Lifting.promoteAll, promoteOnce_eq]
          cases Lifting.promoteOnce exchange dictionary front rest with
          | error fault => rfl
          | ok step =>
              have later := ih step.pending.length (size ▸ step.shorter) step.pending rfl
              simp only [Except.mapError, bind, Except.bind, later]
              cases Lifting.promoteAll exchange dictionary step.pending <;> rfl

variable {exchange dictionary} in
theorem expand_nested {entry : Attribute} {container : Container}
    {definition : AttributeDefinition} (holds : entry.value? = some (.container container))
    (known : dictionary.attribute? (entry.path.append container.segments) = some definition)
    (nested : definition.carrier.isNested = true) :
    Lifting.expand exchange dictionary entry = (do
      match ← definition.decodeAttribute exchange dictionary container.payload with
      | none => return entry
      | some inner =>
          Lifting.expand exchange dictionary (inner.markTruncated container.truncated)) := by
  rw [Lifting.expand_step, Lifting.openOnce_of_container holds, Lifting.openContainer, known]
  dsimp only
  rw [if_pos nested]
  cases definition.decodeAttribute exchange dictionary container.payload with
  | error fault => rfl
  | ok found => cases found <;> rfl

theorem expand_eq (entry : Attribute) :
    expand exchange dictionary entry =
      (Lifting.expand exchange dictionary entry).mapError fun _ => missingTag := by
  fun_induction expand exchange dictionary entry with
  | case1 entry container holds absent =>
      rw [Lifting.expand_step, Lifting.openOnce_of_container holds, Lifting.openContainer, absent]
      rfl
  | case2 entry container holds definition known nested outside failed =>
      rw [decodeAttribute_eq, Result.mapError_eq_error_iff] at failed
      obtain ⟨fault, failed, rfl⟩ := failed
      rw [expand_nested holds known nested, failed]
      rfl
  | case3 entry container holds definition known nested unread =>
      rw [decodeAttribute_eq, Result.mapError_eq_ok_iff] at unread
      rw [expand_nested holds known nested, unread]
      rfl
  | case4 entry container holds definition known nested inner read ih =>
      rw [decodeAttribute_eq, Result.mapError_eq_ok_iff] at read
      rw [ih, expand_nested holds known nested, read]
      rfl
  | case5 entry container holds definition known flat =>
      rw [Lifting.expand_step, Lifting.openOnce_of_container holds, Lifting.openContainer, known]
      dsimp only
      rw [if_neg flat]
      rfl
  | case6 entry other =>
      rw [Lifting.expand_step, Lifting.openOnce_of_other other]
      rfl

theorem liftAll_eq (records : List Record) :
    liftAll exchange dictionary records =
      (Radius.liftAll exchange dictionary records).mapError fun _ => missingTag := by
  rw [liftAll, Radius.liftAll, Result.mapError_bind, promoteAll_eq]
  simp only [Result.mapError_mapM, ← expand_eq]

end Passes

section Packets

variable (codec : PacketCodec)

def decodeFrame (frame : Frame) (secret : Octets) (header : Authenticator) :
    Except Misread Packet := do
  let attributes ← liftAll ⟨md5, secret, header⟩ codec.dictionary frame.records
  return ⟨frame.code, attributes, some ⟨frame.identifier, frame.authenticator⟩⟩

def decodeRequest (octets secret : Octets) : Except Misread (Except PacketError Packet) := do
  match ← authenticateRequest codec octets secret with
  | .error cause => return .error cause
  | .ok (frame, header) => return .ok (← decodeFrame codec frame secret header)

def decodeResponse (octets secret : Octets) (request : Authenticator) :
    Except Misread (Except PacketError Packet) := do
  match ← authenticateResponse codec octets secret request with
  | .error cause => return .error cause
  | .ok frame => return .ok (← decodeFrame codec frame secret request)

variable (octets secret : Octets) (header : Authenticator)

theorem decodeFrame_eq (frame : Frame) :
    decodeFrame codec frame secret header =
      (codec.decodeFrame frame secret header).mapError fun _ => missingTag := by
  rw [decodeFrame, PacketCodec.decodeFrame, liftAll_eq, Result.mapError_bind]
  rfl

theorem decodeRequest_eq :
    decodeRequest codec octets secret =
      (codec.decodeRequest octets secret).mapError fun _ => missingTag := by
  rw [decodeRequest, PacketCodec.decodeRequest, authenticateRequest_eq]
  cases codec.authenticateRequest octets secret with
  | error cause => rfl
  | ok found =>
      simp only [bind, Except.bind, decodeFrame_eq]
      cases codec.decodeFrame found.1 secret found.2 <;> rfl

theorem decodeResponse_eq :
    decodeResponse codec octets secret header =
      (codec.decodeResponse octets secret header).mapError fun _ => missingTag := by
  rw [decodeResponse, PacketCodec.decodeResponse, authenticateResponse_eq]
  cases codec.authenticateResponse octets secret header with
  | error cause => rfl
  | ok frame =>
      simp only [bind, Except.bind, decodeFrame_eq]
      cases codec.decodeFrame frame secret header <;> rfl

end Packets

end Checked

end Radius

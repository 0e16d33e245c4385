import Radius.Proofs.Grouping
import Radius.Proofs.SendLimits
import Radius.Proofs.WireLayout

/-!
A long extended value in pieces and back. It is sent in as many records as its octets fill, whatever
its length. The first pass takes these records off the front of any attributes, read or unread, and
puts the value in their place. It never reaches past the piece that announces no other; if no piece
at the front does that, everything stays as it was.
-/

namespace Radius

namespace Lifting

def promotePieces (definition : AttributeDefinition) (front : Attribute) (rest : List Attribute) :
    Progress (rest.length + 1) :=
  match front with
  | .raw record => promoteChain definition record rest
  | _ => Progress.settle [front] rest

/-- At the front there are `count` unread records of the type that are pieces of values of the
extended type. All of them announce another piece, and none follows. -/
inductive Unclosed (type extendedType : UInt8) : List Attribute → Nat → Prop
  | ends {pending : List Attribute}
      (stops : ∀ record more, pending.head? = some (.raw record) → record.type = type →
        ¬record.IsPiece extendedType more) : Unclosed type extendedType pending 0
  | announced {record : Record} {pending : List Attribute} {count : Nat}
      (typed : record.type = type) (piece : record.IsPiece extendedType true)
      (later : Unclosed type extendedType pending count) :
      Unclosed type extendedType (.raw record :: pending) (count + 1)

/-- The run of pieces at the front, of the type and the extended type of the first one, has `count`
records and is not closed. An attribute that was read is no piece, nor is a record without an
extended type. -/
inductive OpenRun : List Attribute → Nat → Prop
  | read {front : Attribute} {pending : List Attribute} (typed : front.record? = none) :
      OpenRun (front :: pending) 0
  | bare {record : Record} {pending : List Attribute} (empty : record.value = []) :
      OpenRun (.raw record :: pending) 0
  | run {record : Record} {pending : List Attribute} {extendedType : UInt8} {count : Nat}
      (starts : record.value.head? = some extendedType)
      (unclosed : Unclosed record.type extendedType (.raw record :: pending) count) :
      OpenRun (.raw record :: pending) count

section Run

variable {type extendedType : UInt8} {pending : List Attribute} {count : Nat}

theorem exists_piece? {record : Record} {more : Bool} (typed : record.type = type)
    (piece : record.IsPiece extendedType more) :
    ∃ found, piece? type extendedType (.raw record) = some found ∧ found.more = more := by
  obtain ⟨starts, paired, announces⟩ := piece
  cases spelled : record.value with
  | nil => simp [spelled] at paired
  | cons first later =>
      cases later with
      | nil => simp [spelled] at paired
      | cons flags payload =>
          rw [spelled] at starts
          cases starts
          rw [Record.flags, spelled] at announces
          exact ⟨⟨flags &&& Container.moreFlag != 0, flags &&& Container.truncatedFlag != 0, payload⟩,
            by simp [piece?, typed, spelled, Container.decodeLongExtended?], announces⟩

theorem piece?_eq_none_of_stops {front : Attribute}
    (stops : ∀ record more, front = .raw record → record.type = type →
      ¬record.IsPiece extendedType more) : piece? type extendedType front = none := by
  cases reads : piece? type extendedType front with
  | none => rfl
  | some piece =>
      cases front with
      | raw record =>
          have typed := (of_piece? reads).1
          exact absurd (isPiece_of_piece? reads).1 (stops record piece.more rfl typed)
      | _ => contradiction

theorem atFront_of_unclosed (unclosed : Unclosed type extendedType pending count) :
    ∃ pieces, Chain.atFront type extendedType pending = ⟨pieces, false⟩ ∧
      pieces.length = count := by
  induction unclosed with
  | @ends pending stops =>
      refine ⟨[], ?_, rfl⟩
      cases pending with
      | nil => rfl
      | cons front rest =>
          have none : piece? type extendedType front = none :=
            piece?_eq_none_of_stops fun record more same => stops record more (congrArg some same)
          rw [Chain.atFront, none]
  | announced typed piece later ih =>
      obtain ⟨found, reads, announces⟩ := exists_piece? typed piece
      obtain ⟨pieces, front, counted⟩ := ih
      refine ⟨found :: pieces, ?_, congrArg (· + 1) counted⟩
      rw [Chain.atFront, reads]
      dsimp only
      rw [if_pos announces, front]

theorem length_of_unclosed (unclosed : Unclosed type extendedType pending count) :
    count ≤ pending.length := by
  induction unclosed with
  | ends stops => exact Nat.zero_le _
  | announced typed piece later ih => exact Nat.succ_le_succ ih

theorem atFront_of_closed {group behind : List Record} {pieces : List Piece} {closed : Bool}
    (chain : ChainOf type extendedType group pieces closed behind) (complete : closed = true)
    (rest : List Attribute) :
    Chain.atFront type extendedType (group.map .raw ++ rest) = ⟨pieces, true⟩ := by
  induction chain with
  | cut stops => contradiction
  | last reads final =>
      rw [List.map_cons, List.cons_append, Chain.atFront, reads]
      dsimp only
      rw [if_neg (by simp [final])]
  | more reads announces later ih =>
      rw [List.map_cons, List.cons_append, Chain.atFront, reads]
      dsimp only
      rw [if_pos announces, ih complete]

end Run

section Step

variable {exchange : Exchange} {dictionary : Dictionary} {definition : AttributeDefinition}
  {type extendedType : UInt8} {front : Attribute} {pending : List Attribute} {count : Nat}

theorem promoteOnce_pieces (known : dictionary.attribute? (.topLevel type) = some definition)
    (carried : definition.carrier = .fragmented)
    (typed : ∀ record ∈ front.record?, record.type = type) :
    promoteOnce exchange dictionary front pending = .ok (promotePieces definition front pending) := by
  cases front with
  | raw record =>
      rw [← typed record rfl] at known
      exact promoteOnce_fragmented known carried
  | _ => rfl

theorem keep_open (front : Attribute) {more : Nat} (short : more ≤ pending.length) :
    (Progress.keep front more pending).settled ++ (Progress.keep front more pending).pending =
        front :: pending ∧
      (Progress.keep front more pending).settled.length = more + 1 := by
  simp only [Progress.keep, Progress.replace, List.cons_append, List.take_append_drop,
    List.length_cons, List.length_take, Nat.min_eq_left short, and_self]

theorem promotePieces_open (run : OpenRun (front :: pending) count) :
    (promotePieces definition front pending).settled ++
          (promotePieces definition front pending).pending = front :: pending ∧
      (promotePieces definition front pending).settled.length = max 1 count := by
  cases run with
  | read typed =>
      cases front with
      | raw record => contradiction
      | _ => exact ⟨rfl, rfl⟩
  | @bare record _ empty =>
      simp only [promotePieces, promoteChain, empty]
      exact ⟨rfl, rfl⟩
  | @run record _ extendedType _ starts unclosed =>
      obtain ⟨tail, spelled⟩ := List.head?_eq_some_iff.mp starts
      obtain ⟨pieces, chain, rfl⟩ := atFront_of_unclosed unclosed
      have within := length_of_unclosed unclosed
      rw [List.length_cons] at within
      rw [promotePieces, promoteChain_open spelled chain]
      obtain ⟨same, counted⟩ :=
        keep_open (.raw record) (by omega : pieces.length - 1 ≤ pending.length)
      exact ⟨same, by omega⟩

/-- A closed chain becomes one attribute where the definition is for long extended values. Any other
definition refuses the value, and the records of the chain stay as they are. -/
theorem promotePieces_closed {record : Record} {group behind : List Record} {pieces : List Piece}
    (known : dictionary.attribute? (.topLevel type) = some definition)
    (carried : definition.carrier = .fragmented)
    (chain : ChainOf type extendedType (record :: group) pieces true behind)
    (rest : List Attribute) :
    (promotePieces definition (.raw record) (group.map .raw ++ rest)).settled =
        (if definition.dataType = .longExtended then
          [.standard type (Chain.joined extendedType ⟨pieces, true⟩)]
        else (record :: group).map .raw) ∧
      (promotePieces definition (.raw record) (group.map .raw ++ rest)).pending = rest := by
  obtain rfl : record.type = type := type_of_chainOf chain record List.mem_cons_self
  obtain ⟨⟨tail, starts⟩, counted⟩ := value_of_chainOf chain
  have front := atFront_of_closed chain rfl rest
  rw [List.map_cons, List.cons_append] at front
  have width : (group.map Attribute.raw).length = group.length := List.length_map ..
  rw [promotePieces]
  split
  · rename_i long
    rw [promoteChain_closed starts front (make_of_long known carried long ..), counted]
    exact ⟨rfl, List.drop_left' width⟩
  · rename_i other
    have refused : definition.make (Chain.joined extendedType ⟨pieces, true⟩) =
        .error (.typeMismatch definition.dataType .longExtended) :=
      if_pos (Ne.symm other)
    rw [promoteChain_unmade starts front refused, counted]
    refine ⟨?_, List.drop_left' width⟩
    rw [Progress.keep, Progress.replace, List.take_left' width, List.map_cons]

/-- A long extended value goes into records that hold it, and comes back from them whatever follows.
Where no piece at the front closes the run, nothing changes. -/
theorem reassembles (exchange : Exchange)
    (known : dictionary.attribute? (.topLevel type) = some definition)
    (carried : definition.carrier = .fragmented) :
    (∀ extendedType more truncated payload source, ∃ records,
      Lowering.lower exchange dictionary
          (.standard type (.container (.longExtended extendedType more truncated payload))) source =
        (.ok records, source) ∧
      records.length = max 1 ((payload.length + 250) / 251) ∧
      (∀ record ∈ records, record.type = type ∧ record.value.length ≤ 253) ∧
      ∀ front pending rest, records.map .raw ++ rest = front :: pending →
        (promotePieces definition front pending).settled =
            (if definition.dataType = .longExtended then
              [.standard type (.container (.longExtended extendedType false truncated payload))]
            else records.map .raw) ∧
          (promotePieces definition front pending).pending = rest) ∧
    (∀ front pending count, OpenRun (front :: pending) count →
      (promotePieces definition front pending).settled ++
            (promotePieces definition front pending).pending = front :: pending ∧
        (promotePieces definition front pending).settled.length = max 1 count) ∧
    ∀ front pending, (∀ record ∈ front.record?, record.type = type) →
      promoteOnce exchange dictionary front pending =
        .ok (promotePieces definition front pending) := by
  refine ⟨?_, fun front pending count => promotePieces_open,
    fun front pending => promoteOnce_pieces known carried⟩
  intro extendedType more truncated payload source
  obtain ⟨records, sent⟩ := Lowering.fragments_eq_ok type extendedType truncated payload
  have path := dictionary.path_of_attribute? known
  have split : Lowering.fragmentedRecords definition.path.head
      (.container (.longExtended extendedType more truncated payload)) = .ok records := by
    rw [path]
    exact Result.mapError_eq_ok_iff.mpr sent
  obtain ⟨alike, values⟩ := Lowering.values_of_fragments sent
  obtain ⟨some, whole⟩ := flatten_split payload
  obtain ⟨record, group, pieces, rfl, chain, marked, joined⟩ := chainOf_pieces some sent
  refine ⟨_, Lowering.lower_of_lowers (.fragmented rfl known carried split), ?_,
    fun record member => ⟨alike record member, record.length_le⟩, ?_⟩
  · have counted := congrArg List.length values
    simpa [fragmentValues] using counted
  · intro front pending rest same
    rw [List.map_cons, List.cons_append, List.cons.injEq] at same
    obtain ⟨rfl, rfl⟩ := same
    obtain ⟨settled, left⟩ := promotePieces_closed known carried (chain []) rest
    refine ⟨?_, left⟩
    rw [settled, Chain.joined, marked, joined, whole]

end Step

def longDefinition : AttributeDefinition :=
  ⟨.topLevel 245, "Extended-Attribute-5", .longExtended, .fragmented, none⟩

def announcing : Record := ⟨245, [26, 0x80, 1], by decide⟩

/-- A value of 252 octets in front of a piece of its type and extended type, and two pieces in front
of nothing. -/
theorem reassembles_announcing :
    DefinitionTable.standard.toDictionary.attribute? (.topLevel 245) = some longDefinition ∧
      (∃ records, Lowering.lower Exchange.sample DefinitionTable.standard.toDictionary
            (.standard 245 (.container (.longExtended 26 false true (List.replicate 252 7))))
            (Entropy.cycle []) = (.ok records, Entropy.cycle []) ∧
        records.length = 2 ∧
        ∀ front pending, records.map .raw ++ [.raw announcing] = front :: pending →
          (promotePieces longDefinition front pending).settled =
              [.standard 245 (.container (.longExtended 26 false true (List.replicate 252 7)))] ∧
            (promotePieces longDefinition front pending).pending = [.raw announcing]) ∧
      (promotePieces longDefinition (.raw announcing) [.raw announcing]).settled.length = 2 := by
  have known : DefinitionTable.standard.toDictionary.attribute? (.topLevel 245) =
      some longDefinition := by decide +kernel
  obtain ⟨sends, stays, -⟩ := reassembles Exchange.sample known rfl
  obtain ⟨records, sent, counted, -, arrives⟩ :=
    sends 26 false true (List.replicate 252 7) (Entropy.cycle [])
  have piece : announcing.IsPiece 26 true := ⟨rfl, by decide, by decide⟩
  have unclosed : OpenRun [.raw announcing, .raw announcing] 2 :=
    .run rfl (.announced rfl piece (.announced rfl piece (.ends nofun)))
  rw [List.length_replicate] at counted
  exact ⟨known, ⟨records, sent, counted, fun front pending => arrives front pending _⟩,
    (stays _ _ _ unclosed).2⟩

def misdeclared : AttributeDefinition := ⟨.topLevel 245, "Misdeclared-Long", .string, .fragmented, none⟩

/-- A long extended value that is sent by such a definition stays in its record. -/
theorem unassembled_misdeclared :
    (Dictionary.overlay [misdeclared] DefinitionTable.standard.toDictionary).attribute?
        (.topLevel 245) = some misdeclared ∧
      misdeclared.carrier = .fragmented ∧
      Lowering.lower Exchange.sample
          (Dictionary.overlay [misdeclared] DefinitionTable.standard.toDictionary)
          (.standard 245 (.container (.longExtended 1 false false [0xAA]))) (Entropy.cycle []) =
        (.ok [⟨245, [1, 0, 0xAA], by decide⟩], Entropy.cycle []) ∧
      (promotePieces misdeclared (.raw ⟨245, [1, 0, 0xAA], by decide⟩) []).settled =
        [.raw ⟨245, [1, 0, 0xAA], by decide⟩] ∧
      (promotePieces misdeclared (.raw ⟨245, [1, 0, 0xAA], by decide⟩) []).settled ≠
        [.standard 245 (.container (.longExtended 1 false false [0xAA]))] := by
  have kept : (promotePieces misdeclared (.raw ⟨245, [1, 0, 0xAA], by decide⟩) []).settled =
      [.raw ⟨245, [1, 0, 0xAA], by decide⟩] := by decide +kernel
  have split : Lowering.fragmentedRecords misdeclared.path.head
      (.container (.longExtended 1 false false [0xAA])) = .ok [⟨245, [1, 0, 0xAA], by decide⟩] := by
    decide +kernel
  refine ⟨rfl, rfl, Lowering.lower_of_lowers (.fragmented rfl rfl rfl split), kept, ?_⟩
  rw [kept]
  decide

end Lifting

end Radius

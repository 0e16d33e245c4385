import Radius.Attribute.Lifting
import Radius.Proofs.TableGrowth

/-!
The first pass over records as received, as a relation. It takes groups off the front: a record
alone, the pieces of a long extended value, or a run of records whose values belong together. What
becomes of a group depends on the records behind it only where those could belong to the group.
-/

namespace Radius

namespace Lifting

/-- The pieces at the front of the records, whether one of them announces no other, and what is left
when the pieces end. -/
inductive ChainOf (type extendedType : UInt8) :
    List Record → List Piece → Bool → List Record → Prop
  | cut {rest : List Record}
      (stops : ∀ record ∈ rest.head?, piece? type extendedType (.raw record) = none) :
      ChainOf type extendedType [] [] false rest
  | last {record : Record} {piece : Piece} {rest : List Record}
      (reads : piece? type extendedType (.raw record) = some piece)
      (final : piece.more = false) : ChainOf type extendedType [record] [piece] true rest
  | more {record : Record} {piece : Piece} {group rest : List Record} {pieces : List Piece}
      {closed : Bool} (reads : piece? type extendedType (.raw record) = some piece)
      (announces : piece.more = true) (later : ChainOf type extendedType group pieces closed rest) :
      ChainOf type extendedType (record :: group) (piece :: pieces) closed rest

section Chain

variable {type extendedType : UInt8} {group rest : List Record} {pieces : List Piece}
  {closed : Bool}

theorem atFront_of_chainOf (chain : ChainOf type extendedType group pieces closed rest) :
    Chain.atFront type extendedType ((group ++ rest).map .raw) = ⟨pieces, closed⟩ := by
  induction chain with
  | @cut rest stops =>
      cases rest with
      | nil => rfl
      | cons record later =>
          rw [List.nil_append, List.map_cons, Chain.atFront, stops record rfl]
  | last reads final =>
      rw [List.cons_append, List.map_cons, Chain.atFront, reads]
      dsimp only
      rw [if_neg (by simp [final])]
  | more reads announces _ ih =>
      rw [List.cons_append, List.map_cons, Chain.atFront, reads]
      dsimp only
      rw [if_pos announces, ih]

theorem chainOf_atFront (type extendedType : UInt8) (records : List Record) :
    ∃ group rest pieces closed, records = group ++ rest ∧
      ChainOf type extendedType group pieces closed rest := by
  induction records with
  | nil => exact ⟨[], [], [], false, rfl, .cut (by simp)⟩
  | cons record later ih =>
      cases reads : piece? type extendedType (.raw record) with
      | none =>
          refine ⟨[], record :: later, [], false, rfl, .cut ?_⟩
          intro front first
          cases first
          exact reads
      | some piece =>
          cases announces : piece.more with
          | false => exact ⟨[record], later, [piece], true, rfl, .last reads announces⟩
          | true =>
              obtain ⟨group, rest, pieces, closed, rfl, chain⟩ := ih
              exact ⟨record :: group, rest, piece :: pieces, closed, rfl,
                .more reads announces chain⟩

theorem length_of_chainOf (chain : ChainOf type extendedType group pieces closed rest) :
    pieces.length = group.length := by
  induction chain with
  | cut stops => rfl
  | last reads final => rfl
  | more reads announces later ih => rw [List.length_cons, List.length_cons, ih]

theorem reads_of_chainOf {record : Record}
    (chain : ChainOf type extendedType (record :: group) pieces closed rest) :
    ∃ piece behind, pieces = piece :: behind ∧
      piece? type extendedType (.raw record) = some piece := by
  cases chain with
  | last reads final => exact ⟨_, [], rfl, reads⟩
  | more reads announces later => exact ⟨_, _, rfl, reads⟩

theorem of_piece? {record : Record} {piece : Piece}
    (reads : piece? type extendedType (.raw record) = some piece) :
    record.type = type ∧ ∃ flags, record.value = extendedType :: flags :: piece.payload ∧
      piece.more = (flags &&& Container.moreFlag != 0) ∧
      piece.truncated = (flags &&& Container.truncatedFlag != 0) := by
  simp only [piece?] at reads
  split at reads
  · rename_i same
    refine ⟨same, ?_⟩
    unfold Container.decodeLongExtended? at reads
    split at reads
    · rename_i found more truncated payload decoded
      split at reads
      · rename_i alike
        cases reads
        split at decoded
        · rename_i octet flags inner spelled
          cases decoded
          exact ⟨flags, by rw [spelled, alike], rfl, rfl⟩
        · contradiction
      · contradiction
    · contradiction
  · contradiction

theorem type_of_chainOf (chain : ChainOf type extendedType group pieces closed rest) :
    ∀ record ∈ group, record.type = type := by
  induction chain with
  | cut stops => simp
  | last reads final =>
      intro record member
      rw [List.mem_singleton.mp member]
      exact (of_piece? reads).1
  | more reads announces later ih =>
      intro record member
      rcases List.mem_cons.mp member with rfl | inside
      · exact (of_piece? reads).1
      · exact ih record inside

end Chain

theorem runAtFront_split (type : UInt8) (records : List Record) :
    ∃ run rest, records = run ++ rest ∧ (∀ record ∈ run, record.type = type) ∧
      (∀ record ∈ rest.head?, record.type ≠ type) := by
  induction records with
  | nil => exact ⟨[], [], rfl, by simp, by simp⟩
  | cons record later ih =>
      by_cases same : record.type = type
      · obtain ⟨run, rest, rfl, alike, stops⟩ := ih
        refine ⟨record :: run, rest, rfl, ?_, stops⟩
        intro other member
        rcases List.mem_cons.mp member with rfl | inside
        · exact same
        · exact alike other inside
      · refine ⟨[], record :: later, rfl, by simp, ?_⟩
        intro front first
        cases first
        exact same

theorem runAtFront_eq {type : UInt8} {run rest : List Record}
    (alike : ∀ record ∈ run, record.type = type)
    (stops : ∀ record ∈ rest.head?, record.type ≠ type) :
    runAtFront type ((run ++ rest).map .raw) = run.map Record.value := by
  induction run with
  | nil =>
      cases rest with
      | nil => rfl
      | cons record later =>
          rw [List.nil_append, List.map_cons, runAtFront, if_neg (stops record rfl)]
          rfl
  | cons record later ih =>
      have tail := ih fun other member => alike other (List.mem_cons_of_mem record member)
      rw [List.cons_append, List.map_cons, runAtFront, if_pos (alike record List.mem_cons_self),
        tail, List.map_cons]

/-- A group of records at the front of others, and the attributes that the first pass makes of it. -/
inductive Settles (exchange : Exchange) (dictionary : Dictionary) :
    List Record → List Attribute → List Record → Prop
  | unknown {record : Record} {rest : List Record}
      (absent : dictionary.attribute? (.topLevel record.type) = none) :
      Settles exchange dictionary [record] [.raw record] rest
  | standard {record : Record} {rest : List Record} {definition : AttributeDefinition}
      {entry : Option Attribute}
      (known : dictionary.attribute? (.topLevel record.type) = some definition)
      (carried : definition.carrier = .standard)
      (read : definition.decodeAttribute exchange dictionary record.value = .ok entry) :
      Settles exchange dictionary [record] [entry.getD (.raw record)] rest
  | unpaired {record : Record} {rest : List Record} {definition : AttributeDefinition}
      (known : dictionary.attribute? (.topLevel record.type) = some definition)
      (carried : definition.carrier = .fragmented)
      (short : Container.decodeLongExtended? record.value = none) :
      Settles exchange dictionary [record] [.raw record] rest
  | unfinished {record : Record} {group rest : List Record} {definition : AttributeDefinition}
      {extendedType : UInt8} {pieces : List Piece}
      (known : dictionary.attribute? (.topLevel record.type) = some definition)
      (carried : definition.carrier = .fragmented)
      (chain : ChainOf record.type extendedType (record :: group) pieces false rest) :
      Settles exchange dictionary (record :: group) ((record :: group).map .raw) rest
  | joined {record : Record} {group rest : List Record} {definition : AttributeDefinition}
      {extendedType : UInt8} {pieces : List Piece}
      (known : dictionary.attribute? (.topLevel record.type) = some definition)
      (carried : definition.carrier = .fragmented)
      (chain : ChainOf record.type extendedType (record :: group) pieces true rest) :
      Settles exchange dictionary (record :: group)
        [.standard record.type (Chain.joined extendedType ⟨pieces, true⟩)] rest
  | run {record : Record} {group rest : List Record} {definition : AttributeDefinition}
      (known : dictionary.attribute? (.topLevel record.type) = some definition)
      (carried : definition.carrier = .concat)
      (alike : ∀ other ∈ group, other.type = record.type)
      (stops : ∀ other ∈ rest.head?, other.type ≠ record.type) :
      Settles exchange dictionary (record :: group)
        [.concat record.type ⟨(record :: group).map Record.value⟩] rest

section Promotion

variable {exchange : Exchange} {dictionary : Dictionary} {definition : AttributeDefinition}
  {record : Record} {group rest : List Record} {settled : List Attribute}

theorem make_of_long {type extendedType : UInt8}
    (known : dictionary.attribute? (.topLevel type) = some definition)
    (carried : definition.carrier = .fragmented) (long : definition.dataType = .longExtended)
    (more truncated : Bool) (payload : Octets) :
    definition.make (.container (.longExtended extendedType more truncated payload)) =
      .ok (.standard type (.container (.longExtended extendedType more truncated payload))) := by
  have path := dictionary.path_of_attribute? known
  unfold AttributeDefinition.make
  rw [if_neg (by simp [long, Value.dataType, Container.dataType])]
  simp only [carried, path, TypePath.depth, TypePath.topLevel]
  rfl

theorem make_long (layered : dictionary.Layered) {type extendedType : UInt8}
    (known : dictionary.attribute? (.topLevel type) = some definition)
    (carried : definition.carrier = .fragmented) (more truncated : Bool) (payload : Octets) :
    definition.make (.container (.longExtended extendedType more truncated payload)) =
      .ok (.standard type (.container (.longExtended extendedType more truncated payload))) := by
  have typed := layered.top known rfl
  rw [carried] at typed
  have long : definition.dataType = .longExtended := by
    cases declared : definition.dataType <;> rw [declared] at typed <;> simp_all [Carrier.ofTopLevel]
  exact make_of_long known carried long more truncated payload

theorem make_joined (layered : dictionary.Layered) {type extendedType : UInt8}
    (known : dictionary.attribute? (.topLevel type) = some definition)
    (carried : definition.carrier = .fragmented) (chain : Chain) :
    definition.make (chain.joined extendedType) =
      .ok (.standard type (chain.joined extendedType)) :=
  make_long layered known carried ..

theorem make_run (layered : dictionary.Layered) {type : UInt8}
    (known : dictionary.attribute? (.topLevel type) = some definition)
    (carried : definition.carrier = .concat) (value : Concat) :
    definition.make (.concat value) = .ok (.concat type value) := by
  have path := dictionary.path_of_attribute? known
  have typed := layered.top known rfl
  rw [carried] at typed
  have joined : definition.dataType = .concat := by
    cases declared : definition.dataType <;> rw [declared] at typed <;> simp_all [Carrier.ofTopLevel]
  unfold AttributeDefinition.make
  rw [if_neg (by simp [joined, Value.dataType])]
  simp only [carried, path, TypePath.depth, TypePath.topLevel]
  rfl

theorem ofFragments_values (record : Record) (group : List Record) :
    Concat.ofFragments ((record :: group).map Record.value) =
      .ok ⟨(record :: group).map Record.value⟩ := by
  refine Concat.ofFragments_eq_ok_iff.mpr ⟨rfl, List.cons_ne_nil _ _, ?_⟩
  rw [List.forall_mem_map]
  exact fun other _ => other.length_le

theorem promoteChain_closed {pending : List Attribute} {extendedType : UInt8} {tail : Octets}
    {pieces : List Piece} {entry : Attribute} (starts : record.value = extendedType :: tail)
    (front : Chain.atFront record.type extendedType (.raw record :: pending) = ⟨pieces, true⟩)
    (made : definition.make (Chain.joined extendedType ⟨pieces, true⟩) = .ok entry) :
    promoteChain definition record pending =
      Progress.replace [entry] (pieces.length - 1) pending := by
  simp only [promoteChain, starts, front, made, if_true]

theorem promoteChain_open {pending : List Attribute} {extendedType : UInt8} {tail : Octets}
    {pieces : List Piece} (starts : record.value = extendedType :: tail)
    (front : Chain.atFront record.type extendedType (.raw record :: pending) = ⟨pieces, false⟩) :
    promoteChain definition record pending =
      Progress.keep (.raw record) (pieces.length - 1) pending := by
  simp only [promoteChain, starts, front, Bool.false_eq_true, if_false]

theorem replace_behind (entries : List Attribute) :
    (Progress.replace entries group.length ((group ++ rest).map .raw)).settled = entries ∧
      (Progress.replace entries group.length ((group ++ rest).map .raw)).pending =
        rest.map .raw := by
  refine ⟨rfl, ?_⟩
  simp only [Progress.replace, List.map_append]
  exact List.drop_left' (by rw [List.length_map])

theorem keep_behind :
    (Progress.keep (.raw record) group.length ((group ++ rest).map .raw)).settled =
        (record :: group).map .raw ∧
      (Progress.keep (.raw record) group.length ((group ++ rest).map .raw)).pending =
        rest.map .raw := by
  simp only [Progress.keep, Progress.replace, List.map_append, List.map_cons]
  rw [List.take_left' (by rw [List.length_map]), List.drop_left' (by rw [List.length_map])]
  exact ⟨rfl, rfl⟩

theorem value_of_chainOf {extendedType : UInt8} {pieces : List Piece} {closed : Bool}
    (chain : ChainOf record.type extendedType (record :: group) pieces closed rest) :
    (∃ tail, record.value = extendedType :: tail) ∧ pieces.length - 1 = group.length := by
  have counted := length_of_chainOf chain
  obtain ⟨piece, behind, -, reads⟩ := reads_of_chainOf chain
  obtain ⟨-, flags, starts, -⟩ := of_piece? reads
  exact ⟨⟨_, starts⟩, by rw [counted]; rfl⟩

theorem promoteChain_of_unpaired {pending : List Attribute}
    (short : Container.decodeLongExtended? record.value = none) :
    (promoteChain definition record pending).settled = [.raw record] ∧
      (promoteChain definition record pending).pending = pending := by
  cases starts : record.value with
  | nil =>
      -- without an extended type there is no chain to look for
      unfold promoteChain
      rw [starts]
      exact ⟨rfl, rfl⟩
  | cons extendedType tail =>
      have unread : piece? record.type extendedType (.raw record) = none := by
        simp [piece?, short]
      have front : Chain.atFront record.type extendedType (.raw record :: pending) =
          ⟨[], false⟩ := by
        rw [Chain.atFront, unread]
      rw [promoteChain_open starts front]
      exact ⟨rfl, rfl⟩

theorem promoteOnce_standard {pending : List Attribute}
    (known : dictionary.attribute? (.topLevel record.type) = some definition)
    (carried : definition.carrier = .standard) :
    promoteOnce exchange dictionary (.raw record) pending = (do
      let entry ← definition.decodeAttribute exchange dictionary record.value
      return Progress.settle [entry.getD (.raw record)] pending) := by
  unfold promoteOnce
  dsimp only
  rw [known]
  dsimp only
  rw [carried]

theorem promoteOnce_fragmented {pending : List Attribute}
    (known : dictionary.attribute? (.topLevel record.type) = some definition)
    (carried : definition.carrier = .fragmented) :
    promoteOnce exchange dictionary (.raw record) pending =
      .ok (promoteChain definition record pending) := by
  unfold promoteOnce
  dsimp only
  rw [known]
  dsimp only
  rw [carried]

theorem promoteOnce_concat {pending : List Attribute}
    (known : dictionary.attribute? (.topLevel record.type) = some definition)
    (carried : definition.carrier = .concat) :
    promoteOnce exchange dictionary (.raw record) pending =
      .ok (promoteRun definition record pending) := by
  unfold promoteOnce
  dsimp only
  rw [known]
  dsimp only
  rw [carried]

theorem promoteOnce_kept {pending : List Attribute}
    (unread : ∀ definition, dictionary.attribute? (.topLevel record.type) = some definition →
      definition.carrier.isNested = true) :
    promoteOnce exchange dictionary (.raw record) pending =
      .ok (Progress.settle [.raw record] pending) := by
  unfold promoteOnce
  dsimp only
  cases known : dictionary.attribute? (.topLevel record.type) with
  | none => rfl
  | some definition =>
      have nested := unread definition known
      dsimp only
      cases carried : definition.carrier with
      | standard | fragmented | concat =>
          rw [carried] at nested
          contradiction
      | _ => rfl

theorem promoteRun_eq (alike : ∀ other ∈ group, other.type = record.type)
    (stops : ∀ other ∈ rest.head?, other.type ≠ record.type) :
    promoteRun definition record ((group ++ rest).map .raw) =
      match definition.make (.concat ⟨(record :: group).map Record.value⟩) with
      | .ok entry => Progress.replace [entry] group.length ((group ++ rest).map .raw)
      | .error _ => Progress.keep (.raw record) group.length ((group ++ rest).map .raw) := by
  have joined := ofFragments_values record group
  rw [List.map_cons] at joined ⊢
  dsimp only [promoteRun]
  rw [runAtFront_eq alike stops]
  cases made : definition.make (.concat ⟨record.value :: group.map Record.value⟩) <;>
    simp only [joined, bind, Except.bind, made, List.length_map]

theorem promoteOnce_of_settles (layered : dictionary.Layered)
    (settles : Settles exchange dictionary (record :: group) settled rest) :
    ∃ step, promoteOnce exchange dictionary (.raw record) ((group ++ rest).map .raw) = .ok step ∧
      step.settled = settled ∧ step.pending = rest.map .raw := by
  cases settles with
  | unknown absent => exact ⟨_, promoteOnce_kept (by simp [absent]), rfl, rfl⟩
  | standard known carried read =>
      rw [promoteOnce_standard known carried, read]
      exact ⟨_, rfl, rfl, rfl⟩
  | unpaired known carried short =>
      rw [promoteOnce_fragmented known carried]
      exact ⟨_, rfl, promoteChain_of_unpaired short⟩
  | @unfinished _ _ _ definition extendedType pieces known carried chain =>
      obtain ⟨⟨tail, starts⟩, counted⟩ := value_of_chainOf chain
      have front := atFront_of_chainOf chain
      rw [List.cons_append, List.map_cons] at front
      rw [promoteOnce_fragmented known carried]
      refine ⟨_, rfl, ?_⟩
      rw [promoteChain_open starts front, counted]
      exact keep_behind
  | @joined _ _ _ definition extendedType pieces known carried chain =>
      obtain ⟨⟨tail, starts⟩, counted⟩ := value_of_chainOf chain
      have front := atFront_of_chainOf chain
      rw [List.cons_append, List.map_cons] at front
      rw [promoteOnce_fragmented known carried]
      refine ⟨_, rfl, ?_⟩
      rw [promoteChain_closed starts front (make_joined layered known carried _), counted]
      exact replace_behind _
  | @run _ _ _ definition known carried alike stops =>
      refine ⟨_, promoteOnce_concat known carried, ?_⟩
      rw [promoteRun_eq alike stops, make_run layered known carried]
      exact replace_behind _

theorem chainOf_starts (record : Record) (later : List Record)
    (long : Container.decodeLongExtended? record.value ≠ none) :
    ∃ extendedType group rest pieces closed, later = group ++ rest ∧
      ChainOf record.type extendedType (record :: group) pieces closed rest := by
  cases decoded : Container.decodeLongExtended? record.value with
  | none => exact absurd decoded long
  | some container =>
      unfold Container.decodeLongExtended? at decoded
      split at decoded
      · rename_i extendedType flags payload spelled
        have reads : piece? record.type extendedType (.raw record) =
            some ⟨flags &&& Container.moreFlag != 0, flags &&& Container.truncatedFlag != 0,
              payload⟩ := by
          simp [piece?, spelled, Container.decodeLongExtended?]
        -- only a piece that announces another one is followed further
        cases announces : flags &&& Container.moreFlag != 0 with
        | false =>
            exact ⟨extendedType, [], later, _, true, rfl, .last reads announces⟩
        | true =>
            obtain ⟨group, rest, pieces, closed, rfl, chain⟩ :=
              chainOf_atFront record.type extendedType later
            exact ⟨extendedType, group, rest, _, closed, rfl, .more reads announces chain⟩
      · contradiction

/-- A record at the front opens a group, unless its value cannot be decoded at all. -/
theorem settles_or_fails (exchange : Exchange) (layered : dictionary.Layered) (record : Record)
    (later : List Record) :
    (∃ group settled rest, later = group ++ rest ∧
      Settles exchange dictionary (record :: group) settled rest) ∨
    ∃ definition fault, dictionary.attribute? (.topLevel record.type) = some definition ∧
      definition.carrier = .standard ∧
      definition.decodeAttribute exchange dictionary record.value = .error fault := by
  cases known : dictionary.attribute? (.topLevel record.type) with
  | none => exact .inl ⟨[], _, later, rfl, .unknown known⟩
  | some definition =>
      cases carried : definition.carrier with
      | standard =>
          cases read : definition.decodeAttribute exchange dictionary record.value with
          | error fault => exact .inr ⟨definition, fault, rfl, carried, read⟩
          | ok entry => exact .inl ⟨[], _, later, rfl, .standard known carried read⟩
      | fragmented =>
          by_cases short : Container.decodeLongExtended? record.value = none
          · exact .inl ⟨[], _, later, rfl, .unpaired known carried short⟩
          · obtain ⟨extendedType, group, rest, pieces, closed, rfl, chain⟩ :=
              chainOf_starts record later short
            cases closed with
            | false => exact .inl ⟨group, _, rest, rfl, .unfinished known carried chain⟩
            | true => exact .inl ⟨group, _, rest, rfl, .joined known carried chain⟩
      | concat =>
          obtain ⟨group, rest, rfl, alike, stops⟩ := runAtFront_split record.type later
          exact .inl ⟨group, _, rest, rfl, .run known carried alike stops⟩
      | _ =>
          -- a definition at the top is carried in records, not in another attribute
          have typed := layered.top known rfl
          rw [carried] at typed
          cases declared : definition.dataType <;> rw [declared] at typed <;> contradiction

inductive Promotes (exchange : Exchange) (dictionary : Dictionary) :
    List Record → List Attribute → Prop
  | nil : Promotes exchange dictionary [] []
  | group {group rest : List Record} {settled others : List Attribute}
      (settles : Settles exchange dictionary group settled rest)
      (later : Promotes exchange dictionary rest others) :
      Promotes exchange dictionary (group ++ rest) (settled ++ others)

theorem promoteAll_cons (front : Attribute) (pending : List Attribute) :
    promoteAll exchange dictionary (front :: pending) = (do
      let step ← promoteOnce exchange dictionary front pending
      let later ← promoteAll exchange dictionary step.pending
      return step.settled ++ later) := by
  rw [promoteAll]

theorem promoteAll_of_settles (layered : dictionary.Layered)
    (settles : Settles exchange dictionary (record :: group) settled rest) :
    promoteAll exchange dictionary ((record :: group ++ rest).map .raw) = (do
      let later ← promoteAll exchange dictionary (rest.map .raw)
      return settled ++ later) := by
  obtain ⟨step, ran, settles, remains⟩ := promoteOnce_of_settles layered settles
  rw [List.cons_append, List.map_cons, promoteAll_cons, ran]
  simp only [bind, Except.bind, settles, remains]

theorem group_ne_nil (settles : Settles exchange dictionary group settled rest) :
    ∃ record others, group = record :: others := by
  cases settles <;> exact ⟨_, _, rfl⟩

theorem promoteAll_eq_ok_iff (layered : dictionary.Layered) {records : List Record}
    {promoted : List Attribute} :
    promoteAll exchange dictionary (records.map .raw) = .ok promoted ↔
      Promotes exchange dictionary records promoted := by
  constructor
  · intro ran
    -- a group is not empty, so fewer records are left behind it
    induction size : records.length using Nat.strongRecOn generalizing records promoted with
    | ind bound ih =>
        cases records with
        | nil =>
            rw [List.map_nil, promoteAll] at ran
            cases ran
            exact .nil
        | cons record later =>
            rcases settles_or_fails exchange layered record later with
              ⟨group, settled, rest, rfl, settles⟩ | ⟨definition, fault, known, carried, failed⟩
            · rw [← List.cons_append, promoteAll_of_settles layered settles,
                Result.bind_eq_ok_iff] at ran
              obtain ⟨others, behind, joined⟩ := ran
              cases joined
              refine .group settles (ih rest.length ?_ behind rfl)
              rw [← size, List.length_cons, List.length_append]
              omega
            · rw [List.map_cons, promoteAll_cons, promoteOnce_standard known carried,
                failed] at ran
              contradiction
  · intro promotes
    induction promotes with
    | nil => rw [List.map_nil, promoteAll]
    | group settles later ih =>
        obtain ⟨record, others, rfl⟩ := group_ne_nil settles
        rw [promoteAll_of_settles layered settles, ih]
        rfl

end Promotion

end Lifting

end Radius

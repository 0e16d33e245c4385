import Radius.Proofs.Grouping

/-!
Lifting records in two parts. What one step of the first pass takes off the front ends where the
type changes, so records of another type behind it change nothing; and the second pass looks at one
attribute at a time. So lists of records can be lifted apart, wherever no records of one type are
neighbours across the seam, whatever the dictionary defines.
-/

namespace Radius

/-- The records on both sides of the seam, if there are any, differ in type. -/
def Record.Apart (before behind : List Record) : Prop :=
  ∀ left ∈ before.getLast?, ∀ right ∈ behind.head?, right.type ≠ left.type

instance (before behind : List Record) : Decidable (Record.Apart before behind) :=
  inferInstanceAs (Decidable (∀ left ∈ before.getLast?, ∀ right ∈ behind.head?,
    right.type ≠ left.type))

theorem Record.Apart.of_append {front before behind : List Record}
    (apart : Record.Apart (front ++ before) behind) : Record.Apart before behind := by
  intro left last
  have some : before ≠ [] := by
    rintro rfl
    contradiction
  exact apart left (by rwa [List.getLast?_append_of_ne_nil front some])

theorem Record.Apart.stops {record : Record} {group rest behind : List Record}
    (apart : Record.Apart (record :: group ++ rest) behind)
    (alike : ∀ other ∈ group, other.type = record.type)
    {stop : Record → Prop} (stops : ∀ right ∈ rest.head?, stop right)
    (differs : ∀ right, right.type ≠ record.type → stop right) :
    ∀ right ∈ (rest ++ behind).head?, stop right := by
  cases rest with
  | cons first later => exact stops
  | nil =>
      rw [List.append_nil] at apart
      obtain ⟨left, last⟩ : ∃ left, (record :: group).getLast? = some left :=
        ⟨_, List.getLast?_eq_some_getLast (List.cons_ne_nil record group)⟩
      have same : left.type = record.type := by
        rcases List.mem_cons.mp (List.mem_of_getLast? last) with rfl | inside
        · rfl
        · exact alike left inside
      intro right next
      exact differs right (same ▸ apart left last right next)

namespace Lifting

variable {exchange : Exchange} {dictionary : Dictionary} {definition : AttributeDefinition}
  {record : Record} {group rest behind : List Record} {settled : List Attribute}

/-- One step settles the front with some of the records behind it and leaves the rest. -/
def Advances (exchange : Exchange) (dictionary : Dictionary) (record : Record)
    (later : List Record) (settled : List Attribute) (rest : List Record) : Prop :=
  ∃ step, promoteOnce exchange dictionary (.raw record) (later.map .raw) = .ok step ∧
    step.settled = settled ∧ step.pending = rest.map .raw

section Chain

variable {type extendedType : UInt8} {pieces : List Piece} {closed : Bool}

theorem ChainOf.extend (chain : ChainOf type extendedType group pieces closed rest)
    (stops : ∀ right ∈ (rest ++ behind).head?,
      closed = false → piece? type extendedType (.raw right) = none) :
    ChainOf type extendedType group pieces closed (rest ++ behind) := by
  induction chain with
  | cut _ => exact .cut fun right next => stops right next rfl
  | last reads final => exact .last reads final
  | more reads announces _ ih => exact .more reads announces (ih stops)

theorem ChainOf.stop (chain : ChainOf type extendedType group pieces closed rest)
    (unfinished : closed = false) :
    ∀ right ∈ rest.head?, piece? type extendedType (.raw right) = none := by
  induction chain with
  | cut stops => exact stops
  | last => contradiction
  | more _ _ _ ih => exact ih unfinished

theorem piece?_of_type_ne (differs : record.type ≠ type) :
    piece? type extendedType (.raw record) = none := by
  rw [piece?, if_neg differs]

end Chain

section Step

theorem advances_chain (exchange : Exchange)
    (known : dictionary.attribute? (.topLevel record.type) = some definition)
    (carried : definition.carrier = .fragmented) (group : List Record) (extendedType : UInt8)
    (pieces : List Piece) (closed : Bool) :
    ∃ settled, ∀ rest, ChainOf record.type extendedType (record :: group) pieces closed rest →
      Advances exchange dictionary record (group ++ rest) settled rest := by
  have front {rest : List Record}
      (chain : ChainOf record.type extendedType (record :: group) pieces closed rest) :
      (∃ tail, record.value = extendedType :: tail) ∧ pieces.length - 1 = group.length ∧
        Chain.atFront record.type extendedType (.raw record :: (group ++ rest).map .raw) =
          ⟨pieces, closed⟩ := by
    obtain ⟨starts, counted⟩ := value_of_chainOf chain
    exact ⟨starts, counted, atFront_of_chainOf chain⟩
  cases closed with
  | false =>
      refine ⟨(record :: group).map .raw,
        fun rest chain => ⟨_, promoteOnce_fragmented known carried, ?_⟩⟩
      obtain ⟨⟨tail, starts⟩, counted, front⟩ := front chain
      rw [promoteChain_open starts front, counted]
      exact keep_behind
  | true =>
      cases made : definition.make (Chain.joined extendedType ⟨pieces, true⟩) with
      | error cause =>
          refine ⟨(record :: group).map .raw,
            fun rest chain => ⟨_, promoteOnce_fragmented known carried, ?_⟩⟩
          obtain ⟨⟨tail, starts⟩, counted, front⟩ := front chain
          rw [promoteChain_unmade starts front made, counted]
          exact keep_behind
      | ok entry =>
          refine ⟨[entry], fun rest chain => ⟨_, promoteOnce_fragmented known carried, ?_⟩⟩
          obtain ⟨⟨tail, starts⟩, counted, front⟩ := front chain
          rw [promoteChain_closed starts front made, counted]
          exact replace_behind _

theorem advances_run (exchange : Exchange)
    (known : dictionary.attribute? (.topLevel record.type) = some definition)
    (carried : definition.carrier = .concat) (alike : ∀ other ∈ group, other.type = record.type) :
    ∃ settled, ∀ rest : List Record, (∀ other ∈ rest.head?, other.type ≠ record.type) →
      Advances exchange dictionary record (group ++ rest) settled rest := by
  cases made : definition.make (.concat ⟨(record :: group).map Record.value⟩) with
  | error cause =>
      refine ⟨(record :: group).map .raw, fun rest stops =>
        ⟨_, promoteOnce_concat known carried, ?_⟩⟩
      rw [promoteRun_eq alike stops, made]
      exact keep_behind
  | ok entry =>
      refine ⟨[entry], fun rest stops => ⟨_, promoteOnce_concat known carried, ?_⟩⟩
      rw [promoteRun_eq alike stops, made]
      exact replace_behind _

theorem advances_alone {settled : List Attribute}
    (alone : ∀ pending, promoteOnce exchange dictionary (.raw record) pending =
      .ok (Progress.settle settled pending)) (later : List Record) :
    Advances exchange dictionary record later settled later :=
  ⟨_, alone _, rfl, rfl⟩

/-- What one step cuts off the front of the records before the seam is cut off the same with the
records behind it. -/
def Cuts (exchange : Exchange) (dictionary : Dictionary) (record : Record)
    (later behind : List Record) : Prop :=
  ∃ settled group rest, later = group ++ rest ∧
    Advances exchange dictionary record later settled rest ∧
    Advances exchange dictionary record (later ++ behind) settled (rest ++ behind)

theorem cuts_alone {settled : List Attribute}
    (alone : ∀ pending, promoteOnce exchange dictionary (.raw record) pending =
      .ok (Progress.settle settled pending)) (later behind : List Record) :
    Cuts exchange dictionary record later behind :=
  ⟨settled, [], later, rfl, advances_alone alone later, advances_alone alone (later ++ behind)⟩

theorem cuts_chain (exchange : Exchange)
    (known : dictionary.attribute? (.topLevel record.type) = some definition)
    (carried : definition.carrier = .fragmented) {later : List Record}
    (apart : Record.Apart (record :: later) behind) :
    Cuts exchange dictionary record later behind := by
  by_cases short : Container.decodeLongExtended? record.value = none
  · have alone (later : List Record) :
        Advances exchange dictionary record later [.raw record] later :=
      ⟨_, promoteOnce_fragmented known carried, promoteChain_of_unpaired short⟩
    exact ⟨_, [], later, rfl, alone later, alone (later ++ behind)⟩
  · obtain ⟨extendedType, group, rest, pieces, closed, rfl, chain⟩ :=
      chainOf_starts record later short
    obtain ⟨settled, advances⟩ :=
      advances_chain exchange known carried group extendedType pieces closed
    have alike : ∀ other ∈ group, other.type = record.type := fun other member =>
      type_of_chainOf chain other (List.mem_cons_of_mem record member)
    have extended : ChainOf record.type extendedType (record :: group) pieces closed
        (rest ++ behind) := by
      refine chain.extend ?_
      exact apart.stops alike (fun right next unfinished => chain.stop unfinished right next)
        fun right differs _ => piece?_of_type_ne differs
    refine ⟨settled, group, rest, rfl, advances rest chain, ?_⟩
    rw [List.append_assoc]
    exact advances (rest ++ behind) extended

theorem cuts_run (exchange : Exchange)
    (known : dictionary.attribute? (.topLevel record.type) = some definition)
    (carried : definition.carrier = .concat) {later : List Record}
    (apart : Record.Apart (record :: later) behind) :
    Cuts exchange dictionary record later behind := by
  obtain ⟨group, rest, rfl, alike, stops⟩ := runAtFront_split record.type later
  obtain ⟨settled, advances⟩ := advances_run exchange known carried alike
  have extended : ∀ other ∈ (rest ++ behind).head?, other.type ≠ record.type :=
    apart.stops alike stops fun right differs => differs
  refine ⟨settled, group, rest, rfl, advances rest stops, ?_⟩
  rw [List.append_assoc]
  exact advances (rest ++ behind) extended

/-- One step does not see past the seam: it fails for the record at the front, or goes on. -/
theorem cuts_or_fails (exchange : Exchange) (dictionary : Dictionary) {later : List Record}
    (apart : Record.Apart (record :: later) behind) :
    Cuts exchange dictionary record later behind ∨
      ∃ fault, ∀ pending, promoteOnce exchange dictionary (.raw record) pending = .error fault := by
  cases known : dictionary.attribute? (.topLevel record.type) with
  | none => exact .inl (cuts_alone (fun _ => promoteOnce_kept (by simp [known])) later behind)
  | some definition =>
      cases carried : definition.carrier with
      | standard =>
          cases read : definition.decodeAttribute exchange dictionary record.value with
          | error fault =>
              refine .inr ⟨fault, fun pending => ?_⟩
              rw [promoteOnce_standard known carried, read]
              rfl
          | ok entry =>
              have alone (pending : List Attribute) :
                  promoteOnce exchange dictionary (.raw record) pending =
                    .ok (Progress.settle [entry.getD (.raw record)] pending) := by
                rw [promoteOnce_standard known carried, read]
                rfl
              exact .inl (cuts_alone alone later behind)
      | fragmented => exact .inl (cuts_chain exchange known carried apart)
      | concat => exact .inl (cuts_run exchange known carried apart)
      | _ =>
          have kept (pending : List Attribute) :
              promoteOnce exchange dictionary (.raw record) pending =
                .ok (Progress.settle [.raw record] pending) :=
            promoteOnce_kept (by simp [known, carried, Carrier.isNested])
          exact .inl (cuts_alone kept later behind)

theorem promoteAll_of_advances {later rest : List Record}
    (advances : Advances exchange dictionary record later settled rest) :
    promoteAll exchange dictionary ((record :: later).map .raw) = (do
      let others ← promoteAll exchange dictionary (rest.map .raw)
      return settled ++ others) := by
  obtain ⟨step, ran, settles, remains⟩ := advances
  rw [List.map_cons, promoteAll_cons, ran]
  simp only [bind, Except.bind, settles, remains]

end Step

theorem promoteAll_append (exchange : Exchange) (dictionary : Dictionary)
    {before behind : List Record} (apart : Record.Apart before behind) :
    promoteAll exchange dictionary ((before ++ behind).map .raw) = (do
      let front ← promoteAll exchange dictionary (before.map .raw)
      let back ← promoteAll exchange dictionary (behind.map .raw)
      return front ++ back) := by
  -- a step takes the record at the front with it, so fewer are left before the seam
  induction size : before.length using Nat.strongRecOn generalizing before with
  | ind bound ih =>
      cases before with
      | nil =>
          rw [List.nil_append, List.map_nil, promoteAll]
          exact (bind_pure _).symm
      | cons record later =>
          rcases cuts_or_fails exchange dictionary apart with cuts | ⟨fault, fails⟩
          · obtain ⟨settled, group, rest, rfl, alone, followed⟩ := cuts
            have shorter : rest.length < bound := by
              rw [← size, List.length_cons, List.length_append]
              omega
            have seam : Record.Apart (record :: group ++ rest) behind := apart
            have further := ih rest.length shorter seam.of_append rfl
            rw [List.cons_append, promoteAll_of_advances followed, promoteAll_of_advances alone,
              further]
            simp only [bind_assoc, pure_bind, List.append_assoc]
          · rw [List.cons_append, List.map_cons, List.map_cons, promoteAll_cons, promoteAll_cons,
              fails, fails]
            rfl

end Lifting

/-- Lifting is compositional: two lists of records that differ in type where they meet are lifted
together exactly when each is lifted, to what the first carries and what the second carries. -/
theorem liftAll_append_eq_ok_iff (exchange : Exchange) (dictionary : Dictionary)
    {before behind : List Record} (apart : Record.Apart before behind)
    (entries : List Attribute) :
    liftAll exchange dictionary (before ++ behind) = .ok entries ↔
      ∃ front back, liftAll exchange dictionary before = .ok front ∧
        liftAll exchange dictionary behind = .ok back ∧ entries = front ++ back := by
  constructor
  · intro lifted
    obtain ⟨promoted, passed, opened⟩ := Result.bind_eq_ok_iff.mp lifted
    rw [Lifting.promoteAll_append exchange dictionary apart] at passed
    obtain ⟨first, passedFirst, passed⟩ := Result.bind_eq_ok_iff.mp passed
    obtain ⟨second, passedSecond, passed⟩ := Result.bind_eq_ok_iff.mp passed
    cases passed
    rw [List.mapM_append] at opened
    obtain ⟨front, openedFirst, opened⟩ := Result.bind_eq_ok_iff.mp opened
    obtain ⟨back, openedSecond, opened⟩ := Result.bind_eq_ok_iff.mp opened
    cases opened
    exact ⟨front, back, Result.bind_eq_ok_iff.mpr ⟨first, passedFirst, openedFirst⟩,
      Result.bind_eq_ok_iff.mpr ⟨second, passedSecond, openedSecond⟩, rfl⟩
  · rintro ⟨front, back, liftedFront, liftedBack, rfl⟩
    obtain ⟨first, passedFirst, openedFirst⟩ := Result.bind_eq_ok_iff.mp liftedFront
    obtain ⟨second, passedSecond, openedSecond⟩ := Result.bind_eq_ok_iff.mp liftedBack
    rw [liftAll, Lifting.promoteAll_append exchange dictionary apart, passedFirst, passedSecond]
    refine Result.bind_eq_ok_iff.mpr ⟨first ++ second, rfl, ?_⟩
    rw [List.mapM_append, openedFirst, openedSecond]
    rfl

/-- A name and a chain that is never finished, before a run of two values. -/
theorem liftAll_append_unfinishedChain :
    Record.Apart [⟨1, [97], by decide⟩, ⟨245, [9, 0x80, 0xCC], by decide⟩]
        [⟨79, [1, 2], by decide⟩, ⟨79, [3], by decide⟩] ∧
      liftAll .sample DefinitionTable.standard.toDictionary
          ([⟨1, [97], by decide⟩, ⟨245, [9, 0x80, 0xCC], by decide⟩] ++
            [⟨79, [1, 2], by decide⟩, ⟨79, [3], by decide⟩]) =
        .ok ([.standard 1 (.plain (.text "a")), .raw ⟨245, [9, 0x80, 0xCC], by decide⟩] ++
          [.concat 79 ⟨[[1, 2], [3]]⟩]) := by
  have apart : Record.Apart [⟨1, [97], by decide⟩, ⟨245, [9, 0x80, 0xCC], by decide⟩]
      [⟨79, [1, 2], by decide⟩, ⟨79, [3], by decide⟩] := by
    decide
  exact ⟨apart, (liftAll_append_eq_ok_iff .sample DefinitionTable.standard.toDictionary apart _).mpr
    ⟨_, _, by decide +kernel, by decide +kernel, rfl⟩⟩

/-- A seam inside a run would show: the values on its sides are joined only together. -/
example : liftAll .sample DefinitionTable.standard.toDictionary
      ([⟨79, [1], by decide⟩] ++ [⟨79, [2], by decide⟩]) = .ok [.concat 79 ⟨[[1], [2]]⟩] ∧
    liftAll .sample DefinitionTable.standard.toDictionary [⟨79, [1], by decide⟩] =
      .ok [.concat 79 ⟨[[1]]⟩] := by
  decide +kernel

end Radius

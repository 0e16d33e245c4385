import Radius.Proofs.Received

/-!
Lifting loses, repeats and reorders nothing, whatever the dictionary defines. The records are cut
into groups, one for each attribute and in the same order; a group of several records is a whole run
of one type or a chain of pieces up to its last. The first pass makes the groups, one step at a
time; the second one replaces what stands for a group and leaves the group as it is.
-/

namespace Radius

def Record.flags (record : Record) : UInt8 := record.value.getD 1 0

structure Record.IsPiece (record : Record) (extendedType : UInt8) (more : Bool) : Prop where
  starts : record.value.head? = some extendedType
  paired : 2 ≤ record.value.length
  announces : (record.flags &&& Container.moreFlag != 0) = more

namespace Lifting

/-- Consecutive records, and the attribute that the first pass puts in their place. -/
structure Part where
  group : List Record
  top : Attribute

namespace Part

def type (part : Part) : UInt8 := part.top.path.head

/-- All neighbouring records of a type whose values belong together. -/
structure IsRun (dictionary : Dictionary) (part : Part) (before behind : List Record) : Prop where
  carried : ∃ definition, dictionary.attribute? (.topLevel part.type) = some definition ∧
    definition.carrier = .concat
  joined : part.top = .concat part.type ⟨part.group.map Record.value⟩
  starts : ∀ record ∈ before.getLast?, record.type ≠ part.type
  stops : ∀ record ∈ behind.head?, record.type ≠ part.type

/-- All pieces of a long extended value, which stands in their place. -/
structure IsChain (dictionary : Dictionary) (part : Part) : Prop where
  carried : ∃ definition, dictionary.attribute? (.topLevel part.type) = some definition ∧
    definition.carrier = .fragmented
  joined : ∃ extendedType front last, part.group = front ++ [last] ∧
    (∀ record ∈ front, record.IsPiece extendedType true) ∧ last.IsPiece extendedType false ∧
    part.top = .standard part.type (.container (.longExtended extendedType false
      (part.group.any fun record => record.flags &&& Container.truncatedFlag != 0)
      (part.group.flatMap fun record => record.value.drop 2)))

structure Whole (dictionary : Dictionary) (part : Part) (before behind : List Record) : Prop where
  filled : part.group ≠ []
  several : 1 < part.group.length → part.IsRun dictionary before behind ∨ part.IsChain dictionary

structure Becomes (exchange : Exchange) (dictionary : Dictionary) (part : Part)
    (entry : Attribute) : Prop where
  expanded : expand exchange dictionary part.top = .ok entry
  typed : ∀ record ∈ part.group, record.type = entry.path.head
  kept : ∀ record, entry = .raw record → part.group = [record]
  gathered : ∀ type joined, entry = .concat type joined →
    joined.fragments = part.group.map Record.value

end Part

def Part.ofRecord (record : Record) : Part := ⟨[record], .raw record⟩

/-- Parts in a row, each as the predicate asks of it between the records before and behind it. -/
inductive Row (fits : Part → List Record → List Record → Prop) :
    List Record → List Part → List Record → Prop
  | nil {before behind : List Record} : Row fits before [] behind
  | cons {before behind : List Record} {part : Part} {parts : List Part}
      (fit : fits part before (parts.flatMap Part.group ++ behind))
      (later : Row fits (before ++ part.group) parts behind) : Row fits before (part :: parts) behind

section Rows

variable {fits other : Part → List Record → List Record → Prop} {before behind : List Record}
  {parts later : List Part}

theorem Row.append (front : Row fits before parts (later.flatMap Part.group ++ behind))
    (back : Row fits (before ++ parts.flatMap Part.group) later behind) :
    Row fits before (parts ++ later) behind := by
  induction parts generalizing before with
  | nil =>
      rw [List.flatMap_nil, List.append_nil] at back
      exact back
  | cons part parts ih =>
      cases front with
      | cons fit tail =>
          have front : fits part before ((parts ++ later).flatMap Part.group ++ behind) := by
            rw [List.flatMap_append, List.append_assoc]
            exact fit
          rw [List.flatMap_cons, ← List.append_assoc] at back
          exact .cons front (ih tail back)

theorem Row.fit (row : Row fits before parts behind) {front back : List Part} {part : Part}
    (cut : parts = front ++ part :: back) :
    fits part (before ++ front.flatMap Part.group) (back.flatMap Part.group ++ behind) := by
  induction row generalizing front with
  | nil =>
      have counted := congrArg List.length cut
      simp at counted
  | cons fit _ ih =>
      cases front with
      | nil =>
          cases cut
          rw [List.flatMap_nil, List.append_nil]
          exact fit
      | cons first front =>
          cases cut
          rw [List.flatMap_cons, ← List.append_assoc]
          exact ih rfl

end Rows

/-- No run of a type whose values belong together goes on behind the records. -/
def Parted (dictionary : Dictionary) (before behind : List Record) : Prop :=
  ∀ left ∈ before.getLast?, ∀ definition,
    dictionary.attribute? (.topLevel left.type) = some definition → definition.carrier = .concat →
    ∀ right ∈ behind.head?, right.type ≠ left.type

inductive Stands (exchange : Exchange) (dictionary : Dictionary) :
    Part → List Record → List Record → Prop
  | kept (record : Record) {before behind : List Record} :
      Stands exchange dictionary (.ofRecord record) before behind
  | read {record : Record} {before behind : List Record} {definition : AttributeDefinition}
      {entry : Attribute}
      (known : dictionary.attribute? (.topLevel record.type) = some definition)
      (carried : definition.carrier = .standard)
      (reads : definition.decodeAttribute exchange dictionary record.value = .ok (some entry)) :
      Stands exchange dictionary ⟨[record], entry⟩ before behind
  | joined {record : Record} {group before behind : List Record}
      {definition : AttributeDefinition} {extendedType : UInt8} {pieces : List Piece}
      (known : dictionary.attribute? (.topLevel record.type) = some definition)
      (carried : definition.carrier = .fragmented)
      (chain : ChainOf record.type extendedType (record :: group) pieces true behind) :
      Stands exchange dictionary
        ⟨record :: group, .standard record.type (Chain.joined extendedType ⟨pieces, true⟩)⟩
        before behind
  | run {record : Record} {group before behind : List Record} {definition : AttributeDefinition}
      (known : dictionary.attribute? (.topLevel record.type) = some definition)
      (carried : definition.carrier = .concat)
      (alike : ∀ other ∈ group, other.type = record.type)
      (starts : ∀ other ∈ before.getLast?, other.type ≠ record.type)
      (stops : ∀ other ∈ behind.head?, other.type ≠ record.type) :
      Stands exchange dictionary
        ⟨record :: group, .concat record.type ⟨(record :: group).map Record.value⟩⟩ before behind

section Steps

variable {exchange : Exchange} {dictionary : Dictionary} {definition : AttributeDefinition}
  {record : Record} {group rest later before behind records : List Record}
  {settled promoted pending : List Attribute} {part : Part} {entry : Attribute}

/-- What one step takes off the front: a group that settles, or one that stays as it is. No run is
cut behind it. -/
structure Takes (exchange : Exchange) (dictionary : Dictionary) (record : Record)
    (group : List Record) (settled : List Attribute) (rest : List Record) : Prop where
  outcome : Settles exchange dictionary (record :: group) settled rest ∨
    settled = (record :: group).map .raw
  alike : ∀ other ∈ group, other.type = record.type
  parted : Parted dictionary [record] rest

theorem parted_of_carrier
    (apart : ∀ definition, dictionary.attribute? (.topLevel record.type) = some definition →
      definition.carrier ≠ .concat) : Parted dictionary [record] rest := by
  intro left member definition known carried
  cases member
  exact absurd carried (apart definition known)

theorem apart_of_known {carrier : Carrier}
    (known : dictionary.attribute? (.topLevel record.type) = some definition)
    (carried : definition.carrier = carrier) (other : carrier ≠ .concat) :
    ∀ found, dictionary.attribute? (.topLevel record.type) = some found →
      found.carrier ≠ .concat := by
  intro found listed
  cases known.symm.trans listed
  rw [carried]
  exact other

theorem eq_of_make_fragmented {type : UInt8} {value : Value}
    (known : dictionary.attribute? (.topLevel type) = some definition)
    (carried : definition.carrier = .fragmented) (made : definition.make value = .ok entry) :
    entry = .standard type value := by
  have path := dictionary.path_of_attribute? known
  cases definition.shapes_of_make made with
  | standard => rw [path]; rfl
  | _ other => rw [carried] at other; contradiction

theorem eq_of_make_concat {type : UInt8} {joined : Concat}
    (known : dictionary.attribute? (.topLevel type) = some definition)
    (carried : definition.carrier = .concat) (made : definition.make (.concat joined) = .ok entry) :
    entry = .concat type joined := by
  have path := dictionary.path_of_attribute? known
  cases definition.shapes_of_make made with
  | concat _ same => cases same; rw [path]; rfl
  | standard other => rw [carried] at other; simp at other
  | _ other => rw [carried] at other; contradiction

theorem promoteChain_unmade {extendedType : UInt8} {tail : Octets} {pieces : List Piece}
    {cause : AttributeError} (starts : record.value = extendedType :: tail)
    (front : Chain.atFront record.type extendedType (.raw record :: pending) = ⟨pieces, true⟩)
    (unmade : definition.make (Chain.joined extendedType ⟨pieces, true⟩) = .error cause) :
    promoteChain definition record pending =
      Progress.keep (.raw record) (pieces.length - 1) pending := by
  simp only [promoteChain, starts, front, unmade, if_true]

theorem takes_of_promoteChain
    (known : dictionary.attribute? (.topLevel record.type) = some definition)
    (carried : definition.carrier = .fragmented) (later : List Record) :
    ∃ group rest, later = group ++ rest ∧
      Takes exchange dictionary record group
        (promoteChain definition record (later.map .raw)).settled rest ∧
      (promoteChain definition record (later.map .raw)).pending = rest.map .raw := by
  have parted {rest : List Record} : Parted dictionary [record] rest :=
    parted_of_carrier (apart_of_known known carried (by decide))
  by_cases short : Container.decodeLongExtended? record.value = none
  · refine ⟨[], later, rfl, ⟨.inl ?_, by simp, parted⟩, (promoteChain_of_unpaired short).2⟩
    rw [(promoteChain_of_unpaired short).1]
    exact .unpaired known carried short
  · obtain ⟨extendedType, group, rest, pieces, closed, rfl, chain⟩ :=
      chainOf_starts record later short
    obtain ⟨⟨tail, starts⟩, counted⟩ := value_of_chainOf chain
    have alike : ∀ other ∈ group, other.type = record.type := fun other member =>
      type_of_chainOf chain other (List.mem_cons_of_mem record member)
    have front := atFront_of_chainOf chain
    rw [List.cons_append, List.map_cons] at front
    cases closed with
    | false =>
        rw [promoteChain_open starts front, counted]
        refine ⟨group, rest, rfl, ⟨.inl ?_, alike, parted⟩, keep_behind.2⟩
        rw [keep_behind.1]
        exact .unfinished known carried chain
    | true =>
        -- a chain with its last piece stays open only where its definition refuses the value
        cases made : definition.make (Chain.joined extendedType ⟨pieces, true⟩) with
        | error cause =>
            rw [promoteChain_unmade starts front made, counted]
            exact ⟨group, rest, rfl, ⟨.inr keep_behind.1, alike, parted⟩, keep_behind.2⟩
        | ok entry =>
            rw [promoteChain_closed starts front made, counted]
            refine ⟨group, rest, rfl, ⟨.inl ?_, alike, parted⟩, (replace_behind _).2⟩
            rw [(replace_behind _).1, eq_of_make_fragmented known carried made]
            exact .joined known carried chain

theorem takes_of_promoteRun
    (known : dictionary.attribute? (.topLevel record.type) = some definition)
    (carried : definition.carrier = .concat) (later : List Record) :
    ∃ group rest, later = group ++ rest ∧
      Takes exchange dictionary record group
        (promoteRun definition record (later.map .raw)).settled rest ∧
      (promoteRun definition record (later.map .raw)).pending = rest.map .raw := by
  obtain ⟨group, rest, rfl, alike, stops⟩ := runAtFront_split record.type later
  have parted : Parted dictionary [record] rest := by
    intro left member found listed carried
    cases member
    exact stops
  rw [promoteRun_eq alike stops]
  cases made : definition.make (.concat ⟨(record :: group).map Record.value⟩) with
  | error cause =>
      exact ⟨group, rest, rfl, ⟨.inr keep_behind.1, alike, parted⟩, keep_behind.2⟩
  | ok entry =>
      refine ⟨group, rest, rfl, ⟨.inl ?_, alike, parted⟩, (replace_behind _).2⟩
      rw [(replace_behind _).1, eq_of_make_concat known carried made]
      exact .run known carried alike stops

theorem takes_of_promoteOnce {step : Progress ((later.map Attribute.raw).length + 1)}
    (ran : promoteOnce exchange dictionary (.raw record) (later.map .raw) = .ok step) :
    ∃ group rest, later = group ++ rest ∧
      Takes exchange dictionary record group step.settled rest ∧
      step.pending = rest.map .raw := by
  cases known : dictionary.attribute? (.topLevel record.type) with
  | none =>
      rw [promoteOnce_kept (by simp [known])] at ran
      cases ran
      have parted : Parted dictionary [record] later :=
        parted_of_carrier (by simp [known])
      exact ⟨[], later, rfl, ⟨.inl (.unknown known), by simp, parted⟩, rfl⟩
  | some definition =>
      cases carried : definition.carrier with
      | standard =>
          rw [promoteOnce_standard known carried] at ran
          obtain ⟨entry, read, settles⟩ := Result.bind_eq_ok_iff.mp ran
          cases settles
          have parted : Parted dictionary [record] later :=
            parted_of_carrier (apart_of_known known carried (by decide))
          exact ⟨[], later, rfl, ⟨.inl (.standard known carried read), by simp, parted⟩, rfl⟩
      | fragmented =>
          rw [promoteOnce_fragmented known carried] at ran
          cases ran
          exact takes_of_promoteChain known carried later
      | concat =>
          rw [promoteOnce_concat known carried] at ran
          cases ran
          exact takes_of_promoteRun known carried later
      | _ =>
          -- a definition for the inside of a container says nothing about a record
          rw [promoteOnce_kept (by simp [known, carried, Carrier.isNested])] at ran
          cases ran
          have parted : Parted dictionary [record] later :=
            parted_of_carrier (apart_of_known known carried (by decide))
          exact ⟨[], later, rfl, ⟨.inr rfl, by simp, parted⟩, rfl⟩

theorem Takes.parted_behind (takes : Takes exchange dictionary record group settled rest)
    (before : List Record) : Parted dictionary (before ++ record :: group) rest := by
  intro left member
  have inside : left ∈ record :: group := by
    rw [List.getLast?_append_of_ne_nil before (List.cons_ne_nil record group)] at member
    exact List.mem_of_getLast? member
  have same : left.type = record.type := by
    rcases List.mem_cons.mp inside with rfl | behind
    · rfl
    · exact takes.alike left behind
  rw [same]
  exact takes.parted record rfl

theorem flatMap_ofRecord (records : List Record) :
    (records.map Part.ofRecord).flatMap Part.group = records := by
  induction records with
  | nil => rfl
  | cons record records ih =>
      rw [List.map_cons, List.flatMap_cons, ih]
      rfl

theorem row_ofRecord (records before behind : List Record) :
    Row (Stands exchange dictionary) before (records.map .ofRecord) behind := by
  induction records generalizing before with
  | nil => exact .nil
  | cons record records ih => exact .cons (.kept record) (ih _)

theorem row_of_takes (takes : Takes exchange dictionary record group settled rest)
    (parted : Parted dictionary before (record :: group ++ rest)) :
    ∃ parts : List Part, parts.flatMap Part.group = record :: group ∧
      parts.map Part.top = settled ∧ Row (Stands exchange dictionary) before parts rest := by
  have keeps : ∃ parts : List Part, parts.flatMap Part.group = record :: group ∧
      parts.map Part.top = (record :: group).map .raw ∧
      Row (Stands exchange dictionary) before parts rest :=
    ⟨(record :: group).map .ofRecord, flatMap_ofRecord _, List.map_map, row_ofRecord ..⟩
  rcases takes.outcome with settles | rfl
  · cases settles with
    | unknown absent => exact keeps
    | @standard _ _ definition entry known carried read =>
        cases entry with
        | none => exact keeps
        | some entry =>
            exact ⟨[⟨[record], entry⟩], rfl, rfl, .cons (.read known carried read) .nil⟩
    | unpaired known carried short => exact keeps
    | unfinished known carried chain => exact keeps
    | joined known carried chain =>
        exact ⟨[⟨record :: group, _⟩], List.append_nil _, rfl,
          .cons (.joined known carried chain) .nil⟩
    | run known carried alike stops =>
        refine ⟨[⟨record :: group, _⟩], List.append_nil _, rfl,
          .cons (.run known carried alike ?_ stops) .nil⟩
        -- a record of the type before the run would have taken the run with it
        intro left member same
        rw [← same] at known
        exact parted left member _ known carried record rfl same.symm
  · exact keeps

theorem row_of_promoteAll
    (ran : promoteAll exchange dictionary (records.map .raw) = .ok promoted)
    (parted : Parted dictionary before records) :
    ∃ parts : List Part, parts.flatMap Part.group = records ∧ parts.map Part.top = promoted ∧
      Row (Stands exchange dictionary) before parts [] := by
  -- a group is not empty, so fewer records are left behind it
  induction size : records.length using Nat.strongRecOn generalizing records promoted before with
  | ind bound ih =>
      cases records with
      | nil =>
          rw [List.map_nil, promoteAll] at ran
          cases ran
          exact ⟨[], rfl, rfl, .nil⟩
      | cons record later =>
          rw [List.map_cons, promoteAll_cons] at ran
          obtain ⟨step, first, further⟩ := Result.bind_eq_ok_iff.mp ran
          obtain ⟨others, later, joined⟩ := Result.bind_eq_ok_iff.mp further
          cases joined
          obtain ⟨group, rest, rfl, takes, remains⟩ := takes_of_promoteOnce first
          obtain ⟨front, members, settles, row⟩ := row_of_takes takes parted
          rw [remains] at later
          have shorter : rest.length < bound := by
            rw [← size, List.length_cons, List.length_append]
            omega
          obtain ⟨back, behind, made, rows⟩ :=
            ih rest.length shorter later (takes.parted_behind before) rfl
          refine ⟨front ++ back, ?_, ?_, .append ?_ ?_⟩
          · rw [List.flatMap_append, members, behind]
            rfl
          · rw [List.map_append, settles, made]
          · rw [behind, List.append_nil]
            exact row
          · rw [members]
            exact rows

end Steps

section Parts

variable {exchange : Exchange} {dictionary : Dictionary} {type extendedType : UInt8}
  {group before behind rest : List Record} {pieces : List Piece} {closed : Bool} {part : Part}
  {outer inner top entry : Attribute}

theorem isPiece_of_piece? {record : Record} {piece : Piece}
    (reads : piece? type extendedType (.raw record) = some piece) :
    record.IsPiece extendedType piece.more ∧
      piece.truncated = (record.flags &&& Container.truncatedFlag != 0) ∧
      piece.payload = record.value.drop 2 := by
  obtain ⟨-, flags, spelled, more, truncated⟩ := of_piece? reads
  have marks : record.flags = flags := by
    rw [Record.flags, spelled]
    rfl
  refine ⟨⟨by rw [spelled]; rfl, by simp [spelled], by rw [marks, more]⟩, ?_, by rw [spelled]; rfl⟩
  rw [marks, truncated]

theorem joined_of_chainOf (chain : ChainOf type extendedType group pieces closed rest) :
    pieces.any Piece.truncated =
        group.any (fun record => record.flags &&& Container.truncatedFlag != 0) ∧
      pieces.flatMap Piece.payload = group.flatMap fun record => record.value.drop 2 := by
  induction chain with
  | cut stops => exact ⟨rfl, rfl⟩
  | last reads final =>
      obtain ⟨-, truncated, payload⟩ := isPiece_of_piece? reads
      simp [truncated, payload]
  | more reads announces later ih =>
      obtain ⟨-, truncated, payload⟩ := isPiece_of_piece? reads
      rw [List.any_cons, List.any_cons, List.flatMap_cons, List.flatMap_cons, truncated, payload,
        ih.1, ih.2]
      exact ⟨rfl, rfl⟩

theorem split_of_chainOf (chain : ChainOf type extendedType group pieces closed rest)
    (complete : closed = true) :
    ∃ front last, group = front ++ [last] ∧ (∀ record ∈ front, record.IsPiece extendedType true) ∧
      last.IsPiece extendedType false := by
  induction chain with
  | cut stops => contradiction
  | @last record piece rest reads final =>
      have piece := (isPiece_of_piece? reads).1
      rw [final] at piece
      exact ⟨[], record, rfl, by simp, piece⟩
  | @more record piece group rest pieces closed reads announces later ih =>
      obtain ⟨front, last, rfl, announced, final⟩ := ih complete
      have piece := (isPiece_of_piece? reads).1
      rw [announces] at piece
      refine ⟨record :: front, last, rfl, ?_, final⟩
      intro other member
      rcases List.mem_cons.mp member with rfl | inside
      · exact piece
      · exact announced other inside

theorem path_of_read {definition : AttributeDefinition} {octets : Octets} {path : TypePath}
    (known : dictionary.attribute? path = some definition)
    (reads : definition.decodeAttribute exchange dictionary octets = .ok (some entry)) :
    entry.path = path := by
  obtain ⟨value, -, made⟩ := AttributeDefinition.decodeAttribute_eq_some_iff.mp reads
  exact dictionary.path_of_make known made

theorem Stands.type_eq (stands : Stands exchange dictionary part before behind) :
    ∀ record ∈ part.group, record.type = part.type := by
  cases stands with
  | kept record =>
      intro other member
      rw [List.mem_singleton.mp member]
      rfl
  | read known carried reads =>
      intro other member
      rw [List.mem_singleton.mp member, Part.type, path_of_read known reads]
      rfl
  | joined known carried chain => exact type_of_chainOf chain
  | run known carried alike starts stops =>
      intro other member
      rcases List.mem_cons.mp member with rfl | inside
      · rfl
      · exact alike other inside

theorem Stands.whole (stands : Stands exchange dictionary part before behind) :
    part.Whole dictionary before behind := by
  cases stands with
  | kept record => exact ⟨List.cons_ne_nil _ _, by simp [Part.ofRecord]⟩
  | read known carried reads => exact ⟨List.cons_ne_nil _ _, by simp⟩
  | joined known carried chain =>
      obtain ⟨front, last, split, announced, final⟩ := split_of_chainOf chain rfl
      obtain ⟨truncated, payload⟩ := joined_of_chainOf chain
      refine ⟨List.cons_ne_nil _ _, fun _ => .inr ⟨⟨_, known, carried⟩, ?_⟩⟩
      refine ⟨_, front, last, split, announced, final, ?_⟩
      rw [Chain.joined, truncated, payload]
      rfl
  | run known carried alike starts stops =>
      exact ⟨List.cons_ne_nil _ _, fun _ => .inl ⟨⟨_, known, carried⟩, rfl, starts, stops⟩⟩

theorem kind_of_opens (opens : Opens exchange dictionary outer inner) :
    inner.kind ≠ .raw ∧ inner.kind ≠ .concat := by
  obtain ⟨holds, known, nested, reads, made⟩ := opens
  cases AttributeDefinition.shapes_of_make made with
  | standard carried =>
      rcases carried with carried | carried
      · rw [carried] at nested
        contradiction
      · rw [carried] at nested
        contradiction
  | concat carried =>
      rw [carried] at nested
      contradiction
  | _ => exact ⟨nofun, nofun⟩

theorem eq_of_reaches (reached : Reaches exchange dictionary top entry)
    (kept : entry.kind = .raw ∨ entry.kind = .concat) : entry = top := by
  rcases Relation.ReflTransGen.cases_tail reached with same | ⟨outer, -, opens⟩
  · exact same
  · obtain ⟨unraw, unjoined⟩ := kind_of_opens opens
    rcases kept with raw | joined
    · exact absurd raw unraw
    · exact absurd joined unjoined

theorem Stands.becomes (stands : Stands exchange dictionary part before behind)
    (expanded : expand exchange dictionary part.top = .ok entry) :
    part.Becomes exchange dictionary entry := by
  obtain ⟨reached, -⟩ := expand_eq_ok_iff.mp expanded
  have typed : ∀ record ∈ part.group, record.type = entry.path.head := by
    rw [head_of_reaches reached]
    exact stands.type_eq
  have standard {definition : AttributeDefinition} {octets : Octets} {read : Attribute}
      (carried : definition.carrier = .standard)
      (reads : definition.decodeAttribute exchange dictionary octets = .ok (some read)) :
      read.kind = .standard := by
    obtain ⟨value, -, made⟩ := AttributeDefinition.decodeAttribute_eq_some_iff.mp reads
    cases definition.shapes_of_make made with
    | standard => rfl
    | _ other => rw [carried] at other; contradiction
  refine ⟨expanded, typed, ?_, ?_⟩
  · rintro record rfl
    have same := eq_of_reaches reached (.inl rfl)
    cases stands with
    | kept other =>
        cases same
        rfl
    | read known carried reads =>
        have kind := standard carried reads
        cases same
        contradiction
    | _ => contradiction
  · rintro type joined rfl
    have same := eq_of_reaches reached (.inr rfl)
    cases stands with
    | run known carried alike starts stops =>
        cases same
        rfl
    | read known carried reads =>
        have kind := standard carried reads
        cases same
        contradiction
    | _ => contradiction

theorem Row.becomes {parts : List Part} {entries : List Attribute}
    (row : Row (Stands exchange dictionary) before parts behind)
    (expanded : List.Forall₂ (fun part entry => expand exchange dictionary part.top = .ok entry)
      parts entries) : List.Forall₂ (Part.Becomes exchange dictionary) parts entries := by
  induction row generalizing entries with
  | nil =>
      cases expanded
      exact .nil
  | cons fit _ ih =>
      cases expanded with
      | cons front later => exact .cons (fit.becomes front) (ih later)

end Parts

end Lifting

open Lifting in
/-- Lifting cuts the records into groups, one for each attribute and in the same order. The records
of a group have the type of its attribute; several of them are a whole run, whose values stay apart,
or a whole chain, which becomes one value; and a record that stays raw is a group of its own. -/
theorem parts_of_liftAll {exchange : Exchange} {dictionary : Dictionary} {records : List Record}
    {entries : List Attribute} (lifted : liftAll exchange dictionary records = .ok entries) :
    ∃ parts : List Part, parts.flatMap Part.group = records ∧
      promoteAll exchange dictionary (records.map .raw) = .ok (parts.map Part.top) ∧
      List.Forall₂ (Part.Becomes exchange dictionary) parts entries ∧
      ∀ front part back, parts = front ++ part :: back →
        part.Whole dictionary (front.flatMap Part.group) (back.flatMap Part.group) := by
  obtain ⟨promoted, settled, opened⟩ := Result.bind_eq_ok_iff.mp lifted
  have parted : Parted dictionary [] records := by
    intro left member
    contradiction
  obtain ⟨parts, members, made, row⟩ := row_of_promoteAll settled parted
  have expanded := Result.mapM_eq_ok_iff.mp opened
  rw [← made, List.forall₂_map_left_iff] at expanded
  refine ⟨parts, members, by rw [settled, made], row.becomes expanded, ?_⟩
  intro front part back cut
  have fit := row.fit cut
  rw [List.append_nil] at fit
  exact fit.whole

def groupedRecords : List Record :=
  [⟨1, [97], by decide⟩, ⟨79, [1, 2], by decide⟩, ⟨79, [3], by decide⟩,
    ⟨245, [9, 0x80, 0xAA], by decide⟩, ⟨245, [9, 0x40, 0xBB], by decide⟩,
    ⟨245, [9, 0x80, 0xCC], by decide⟩]

open Lifting in
theorem parts_of_liftAll_groupedRecords :
    ∃ entries,
      liftAll .sample DefinitionTable.standard.toDictionary groupedRecords = .ok entries ∧
      ∃ parts : List Part, parts.flatMap Part.group = groupedRecords ∧
        promoteAll .sample DefinitionTable.standard.toDictionary (groupedRecords.map .raw) =
          .ok (parts.map Part.top) ∧
        List.Forall₂ (Part.Becomes .sample DefinitionTable.standard.toDictionary) parts entries ∧
        ∀ front part back, parts = front ++ part :: back →
          part.Whole DefinitionTable.standard.toDictionary (front.flatMap Part.group)
            (back.flatMap Part.group) := by
  have lifted : liftAll .sample DefinitionTable.standard.toDictionary groupedRecords =
      .ok [.standard 1 (.plain (.text "a")), .concat 79 ⟨[[1, 2], [3]]⟩,
        .standard 245 (.container (.longExtended 9 false true [0xAA, 0xBB])),
        .raw ⟨245, [9, 0x80, 0xCC], by decide⟩] := by
    decide +kernel
  exact ⟨_, lifted, parts_of_liftAll lifted⟩

end Radius

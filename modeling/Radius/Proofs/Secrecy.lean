import Radius.Proofs.Agreement
import Radius.Proofs.Grouping

/-!
What the secret decides. Two sides that lift the same records cut them into the same groups, and get
attributes that differ at most where a definition at or below the top-level type has a filter. Two
sides that lower the same attributes fail alike, or send as many octets in the same records. So the
secret and the random source show in nothing but the octets behind a filter.
-/

namespace Radius

namespace AttributeDefinition

variable {definition : AttributeDefinition}

theorem decodeAttribute_clear (clear : definition.filter = none) (left right : Exchange)
    (dictionary : Dictionary) (octets : Octets) :
    definition.decodeAttribute left dictionary octets =
      definition.decodeAttribute right dictionary octets := by
  rw [decodeAttribute, decodeAttribute, decodeValue, decodeValue, clear]

end AttributeDefinition

namespace Lifting

structure Part.Like (dictionary : Dictionary) (left right : Part) : Prop where
  group_eq : left.group = right.group
  type_eq : left.type = right.type
  same : dictionary.Unfiltered left.type → left.top = right.top

structure Covers (exchange : Exchange) (dictionary : Dictionary) (records : List Record)
    (parts : List Part) (entries : List Attribute) : Prop where
  members : parts.flatMap Part.group = records
  promoted : promoteAll exchange dictionary (records.map .raw) = .ok (parts.map Part.top)
  becomes : List.Forall₂ (Part.Becomes exchange dictionary) parts entries
  whole : ∀ front part back, parts = front ++ part :: back →
    part.Whole dictionary (front.flatMap Part.group) (back.flatMap Part.group)

section Rows

variable {dictionary : Dictionary} {left right exchange : Exchange}
  {definition : AttributeDefinition} {record : Record} {before behind later records : List Record}
  {part : Part} {parts others : List Part}

theorem Row.imp {fits other : Part → List Record → List Record → Prop}
    (row : Row fits before parts behind)
    (each : ∀ part ∈ parts, ∀ before behind, fits part before behind → other part before behind) :
    Row other before parts behind := by
  induction row with
  | nil => exact .nil
  | cons fit _ ih =>
      exact .cons (each _ List.mem_cons_self _ _ fit)
        (ih fun part member => each part (List.mem_cons_of_mem _ member))

theorem groups_eq (like : List.Forall₂ (Part.Like dictionary) parts others) :
    parts.map Part.group = others.map Part.group := by
  induction like with
  | nil => rfl
  | cons front _ ih => rw [List.map_cons, List.map_cons, front.group_eq, ih]

theorem flatMap_group_eq (like : List.Forall₂ (Part.Like dictionary) parts others) :
    parts.flatMap Part.group = others.flatMap Part.group := by
  rw [List.flatMap_def, List.flatMap_def, groups_eq like]

/-- Only a record that is read alone is read with the secret. -/
theorem promoteOnce_unread {pending : List Attribute}
    (unread : ∀ definition, dictionary.attribute? (.topLevel record.type) = some definition →
      definition.carrier ≠ .standard) (left right : Exchange) :
    promoteOnce left dictionary (.raw record) pending =
      promoteOnce right dictionary (.raw record) pending := by
  cases known : dictionary.attribute? (.topLevel record.type) with
  | none => rw [promoteOnce_kept (by simp [known]), promoteOnce_kept (by simp [known])]
  | some definition =>
      cases carried : definition.carrier with
      | standard => exact absurd carried (unread definition known)
      | fragmented =>
          rw [promoteOnce_fragmented known carried, promoteOnce_fragmented known carried]
      | concat => rw [promoteOnce_concat known carried, promoteOnce_concat known carried]
      | _ =>
          rw [promoteOnce_kept (by simp [known, carried, Carrier.isNested]),
            promoteOnce_kept (by simp [known, carried, Carrier.isNested])]

theorem Stands.across (stands : Stands left dictionary part before behind)
    (unread : ∀ definition, dictionary.attribute? (.topLevel part.type) = some definition →
      definition.carrier ≠ .standard) : Stands right dictionary part before behind := by
  cases stands with
  | kept record => exact .kept record
  | read known carried reads =>
      rw [Part.type, path_of_read known reads] at unread
      exact absurd carried (unread _ known)
  | joined known carried chain => exact .joined known carried chain
  | run known carried alike starts stops => exact .run known carried alike starts stops

theorem stands_of_read {entry : Option Attribute}
    (known : dictionary.attribute? (.topLevel record.type) = some definition)
    (carried : definition.carrier = .standard)
    (read : definition.decodeAttribute exchange dictionary record.value = .ok entry) :
    Stands exchange dictionary ⟨[record], entry.getD (.raw record)⟩ before behind := by
  cases entry with
  | none => exact .kept record
  | some entry => exact .read known carried read

/-- What two sides take off the front with one step each. -/
structure Steps (left right : Exchange) (dictionary : Dictionary) (before group rest : List Record)
    (settled resettled : List Attribute) (parts others : List Part) : Prop where
  members : parts.flatMap Part.group = group
  settles : parts.map Part.top = settled
  resettles : others.map Part.top = resettled
  stands : Row (Stands left dictionary) before parts rest
  restands : Row (Stands right dictionary) before others rest
  like : List.Forall₂ (Part.Like dictionary) parts others

theorem steps_of_standard {entry other : Option Attribute}
    (known : dictionary.attribute? (.topLevel record.type) = some definition)
    (carried : definition.carrier = .standard)
    (read : definition.decodeAttribute left dictionary record.value = .ok entry)
    (reread : definition.decodeAttribute right dictionary record.value = .ok other)
    (before rest : List Record) :
    Steps left right dictionary before [record] rest [entry.getD (.raw record)]
      [other.getD (.raw record)] [⟨[record], entry.getD (.raw record)⟩]
      [⟨[record], other.getD (.raw record)⟩] := by
  have stands : Stands left dictionary ⟨[record], entry.getD (.raw record)⟩ before rest :=
    stands_of_read known carried read
  have restands : Stands right dictionary ⟨[record], other.getD (.raw record)⟩ before rest :=
    stands_of_read known carried reread
  have typed := stands.type_eq record List.mem_cons_self
  have retyped := restands.type_eq record List.mem_cons_self
  refine ⟨rfl, rfl, rfl, .cons stands .nil, .cons restands .nil, .cons ⟨rfl, ?_, ?_⟩ .nil⟩
  · rw [← typed, retyped]
  · intro clear
    have filter := clear _ definition known typed
    rw [definition.decodeAttribute_clear filter left right, reread] at read
    cases read
    rfl

theorem steps_of_unread {group rest : List Record} {settled : List Attribute}
    (unread : ∀ definition, dictionary.attribute? (.topLevel record.type) = some definition →
      definition.carrier ≠ .standard)
    (takes : Takes left dictionary record group settled rest)
    (parted : Parted dictionary before (record :: group ++ rest)) (right : Exchange) :
    ∃ parts, Steps left right dictionary before (record :: group) rest settled settled parts
      parts := by
  obtain ⟨parts, members, settles, row⟩ := row_of_takes takes parted
  have typed {part : Part} (member : part ∈ parts) : part.type = record.type := by
    obtain ⟨front, back, cut⟩ := List.append_of_mem member
    have fit := row.fit cut
    obtain ⟨first, inside⟩ := List.exists_mem_of_ne_nil _ fit.whole.filled
    have among : first ∈ record :: group := members ▸ List.mem_flatMap.mpr ⟨part, member, inside⟩
    rw [← fit.type_eq first inside]
    rcases List.mem_cons.mp among with rfl | later
    · rfl
    · exact takes.alike first later
  refine ⟨parts, members, settles, settles, row, row.imp ?_, ?_⟩
  · intro part member before behind stands
    exact stands.across (typed member ▸ unread)
  · exact List.forall₂_same.mpr fun part _ => ⟨rfl, rfl, fun _ => rfl⟩

theorem Steps.append {group rest : List Record}
    {settled resettled settledLater resettledLater : List Attribute}
    {partsLater othersLater : List Part}
    (front : Steps left right dictionary before group rest settled resettled parts others)
    (back : Steps left right dictionary (before ++ group) rest [] settledLater resettledLater
      partsLater othersLater) :
    Steps left right dictionary before (group ++ rest) [] (settled ++ settledLater)
      (resettled ++ resettledLater) (parts ++ partsLater) (others ++ othersLater) := by
  have regroups := (flatMap_group_eq front.like).symm.trans front.members
  have rebehind := (flatMap_group_eq back.like).symm.trans back.members
  refine ⟨?_, ?_, ?_, .append ?_ ?_, .append ?_ ?_, List.rel_append front.like back.like⟩
  · rw [List.flatMap_append, front.members, back.members]
  · rw [List.map_append, front.settles, back.settles]
  · rw [List.map_append, front.resettles, back.resettles]
  · rw [back.members, List.append_nil]
    exact front.stands
  · rw [front.members]
    exact back.stands
  · rw [rebehind, List.append_nil]
    exact front.restands
  · rw [regroups]
    exact back.restands

theorem steps_of_promoteOnce {step restep : Progress ((later.map Attribute.raw).length + 1)}
    (ran : promoteOnce left dictionary (.raw record) (later.map .raw) = .ok step)
    (reran : promoteOnce right dictionary (.raw record) (later.map .raw) = .ok restep)
    (parted : Parted dictionary before (record :: later)) :
    ∃ group rest parts others, later = group ++ rest ∧ step.pending = rest.map .raw ∧
      restep.pending = rest.map .raw ∧ Parted dictionary (before ++ record :: group) rest ∧
      Steps left right dictionary before (record :: group) rest step.settled restep.settled parts
        others := by
  by_cases read : ∃ definition, dictionary.attribute? (.topLevel record.type) = some definition ∧
      definition.carrier = .standard
  · obtain ⟨definition, known, carried⟩ := read
    rw [promoteOnce_standard known carried] at ran reran
    obtain ⟨entry, read, settles⟩ := Result.bind_eq_ok_iff.mp ran
    obtain ⟨other, reread, resettles⟩ := Result.bind_eq_ok_iff.mp reran
    cases settles
    cases resettles
    have takes : Takes left dictionary record [] [entry.getD (.raw record)] later :=
      ⟨.inl (.standard known carried read), by simp,
        parted_of_carrier (apart_of_known known carried (by decide))⟩
    exact ⟨[], later, _, _, rfl, rfl, rfl, takes.parted_behind before,
      steps_of_standard known carried read reread before later⟩
  · have unread : ∀ definition, dictionary.attribute? (.topLevel record.type) = some definition →
        definition.carrier ≠ .standard := by
      intro definition known carried
      exact read ⟨definition, known, carried⟩
    obtain ⟨group, rest, rfl, takes, remains⟩ := takes_of_promoteOnce ran
    rw [promoteOnce_unread unread right left, ran] at reran
    cases reran
    obtain ⟨parts, steps⟩ := steps_of_unread unread takes parted right
    exact ⟨group, rest, parts, parts, rfl, remains, remains, takes.parted_behind before, steps⟩

theorem steps_of_promoteAll {promoted repromoted : List Attribute}
    (ran : promoteAll left dictionary (records.map .raw) = .ok promoted)
    (reran : promoteAll right dictionary (records.map .raw) = .ok repromoted)
    (parted : Parted dictionary before records) :
    ∃ parts others,
      Steps left right dictionary before records [] promoted repromoted parts others := by
  -- a group is not empty, so fewer records are left behind it
  induction size : records.length using Nat.strongRecOn
    generalizing records promoted repromoted before with
  | ind bound ih =>
      cases records with
      | nil =>
          rw [List.map_nil, promoteAll] at ran reran
          cases ran
          cases reran
          exact ⟨[], [], rfl, rfl, rfl, .nil, .nil, .nil⟩
      | cons record later =>
          rw [List.map_cons, promoteAll_cons] at ran reran
          obtain ⟨step, first, further⟩ := Result.bind_eq_ok_iff.mp ran
          obtain ⟨restep, second, refurther⟩ := Result.bind_eq_ok_iff.mp reran
          obtain ⟨behind, passed, joined⟩ := Result.bind_eq_ok_iff.mp further
          obtain ⟨rebehind, repassed, rejoined⟩ := Result.bind_eq_ok_iff.mp refurther
          cases joined
          cases rejoined
          obtain ⟨group, rest, parts, others, rfl, remains, reremains, apart, steps⟩ :=
            steps_of_promoteOnce first second parted
          rw [remains] at passed
          rw [reremains] at repassed
          have shorter : rest.length < bound := by
            rw [← size, List.length_cons, List.length_append]
            omega
          obtain ⟨others, otherParts, more⟩ := ih rest.length shorter passed repassed apart rfl
          exact ⟨_, _, steps.append more⟩

end Rows

section Expand

variable {dictionary : Dictionary} {left right exchange : Exchange} {entry : Attribute}
  {records : List Record} {parts : List Part} {entries promoted : List Attribute}

theorem openOnce_unfiltered (clear : dictionary.Unfiltered entry.path.head)
    (left right : Exchange) :
    openOnce left dictionary entry = openOnce right dictionary entry := by
  unfold openOnce
  split
  · rename_i container holds
    unfold openContainer
    split
    · rfl
    · rename_i definition known
      rw [definition.decodeAttribute_clear (clear _ definition known rfl) left right]
  · rfl

theorem expand_unfiltered (clear : dictionary.Unfiltered entry.path.head) (left right : Exchange) :
    expand left dictionary entry = expand right dictionary entry := by
  induction size : enclosedLength entry using Nat.strongRecOn generalizing entry with
  | ind bound ih =>
      rw [expand_step, expand_step, openOnce_unfiltered clear left right]
      cases opened : openOnce right dictionary entry with
      | error fault => rfl
      | ok found =>
          cases found with
          | none => rfl
          | some inner =>
              have opens := opens_of_openOnce opened
              have heads := head_of_reaches (.single opens)
              exact ih _ (size ▸ enclosedLength_lt_of_opens opens) (heads ▸ clear) rfl

theorem covers_of_row (members : parts.flatMap Part.group = records)
    (settles : parts.map Part.top = promoted) (row : Row (Stands exchange dictionary) [] parts [])
    (ran : promoteAll exchange dictionary (records.map .raw) = .ok promoted)
    (opened : promoted.mapM (expand exchange dictionary) = .ok entries) :
    Covers exchange dictionary records parts entries := by
  have expanded := Result.mapM_eq_ok_iff.mp opened
  rw [← settles, List.forall₂_map_left_iff] at expanded
  refine ⟨members, settles ▸ ran, row.becomes expanded, ?_⟩
  intro front part back cut
  have fit := row.fit cut
  rw [List.append_nil] at fit
  exact fit.whole

theorem Part.Like.becomes {part again : Part} {other : Attribute}
    (like : part.Like dictionary again) (becomes : part.Becomes left dictionary entry)
    (rebecomes : again.Becomes right dictionary other) :
    entry.path.head = other.path.head ∧
      (dictionary.Unfiltered entry.path.head → entry = other) := by
  have heads := head_of_reaches (expand_eq_ok_iff.mp becomes.expanded).1
  have reheads := head_of_reaches (expand_eq_ok_iff.mp rebecomes.expanded).1
  refine ⟨heads.trans (like.type_eq.trans reheads.symm), ?_⟩
  intro clear
  rw [heads] at clear
  have expanded := becomes.expanded
  rw [expand_unfiltered clear left right, like.same clear, rebecomes.expanded] at expanded
  exact (Except.ok.inj expanded).symm

theorem alike_of_becomes {others : List Part} {first second : List Attribute}
    (like : List.Forall₂ (Part.Like dictionary) parts others)
    (becomes : List.Forall₂ (Part.Becomes left dictionary) parts first)
    (rebecomes : List.Forall₂ (Part.Becomes right dictionary) others second) :
    List.Forall₂ (fun entry other => entry.path.head = other.path.head ∧
      (dictionary.Unfiltered entry.path.head → entry = other)) first second := by
  induction like generalizing first second with
  | nil =>
      cases becomes
      cases rebecomes
      exact .nil
  | cons front _ ih =>
      cases becomes with
      | cons becomes later =>
          cases rebecomes with
          | cons rebecomes relater =>
              exact .cons (front.becomes becomes rebecomes) (ih later relater)

end Expand

end Lifting

open Lifting in
theorem alike_of_liftAll {dictionary : Dictionary} {left right : Exchange} {records : List Record}
    {first second : List Attribute} (lifted : liftAll left dictionary records = .ok first)
    (relifted : liftAll right dictionary records = .ok second) :
    (∃ parts others, parts.map Part.group = others.map Part.group ∧
      Covers left dictionary records parts first ∧
      Covers right dictionary records others second) ∧
    List.Forall₂ (fun entry other => entry.path.head = other.path.head ∧
      (dictionary.Unfiltered entry.path.head → entry = other)) first second := by
  obtain ⟨promoted, settled, opened⟩ := Result.bind_eq_ok_iff.mp lifted
  obtain ⟨repromoted, resettled, reopened⟩ := Result.bind_eq_ok_iff.mp relifted
  have parted : Parted dictionary [] records := by
    intro left member
    contradiction
  obtain ⟨parts, others, steps⟩ := steps_of_promoteAll settled resettled parted
  have members := (flatMap_group_eq steps.like).symm.trans steps.members
  have covers := covers_of_row steps.members steps.settles steps.stands settled opened
  have recovers := covers_of_row members steps.resettles steps.restands resettled reopened
  exact ⟨⟨parts, others, groups_eq steps.like, covers, recovers⟩,
    alike_of_becomes steps.like covers.becomes recovers.becomes⟩

open Lifting in
/-- The secret shows only behind filters. Two sides with different secrets, authenticators and
random sources that lift the same records cut them into the same groups, to attributes of the same
top-level types, and to the same attribute wherever no definition at or below its top-level type has
a filter. Two sides that lower the same attributes fail with the same error or send records of the
same types and lengths, and the same values wherever no such definition has a filter. -/
theorem independent_of_secret (dictionary : Dictionary) (left right : Exchange) :
    (∀ records first second, liftAll left dictionary records = .ok first →
      liftAll right dictionary records = .ok second →
        (∃ parts others, parts.map Part.group = others.map Part.group ∧
          Covers left dictionary records parts first ∧
          Covers right dictionary records others second) ∧
        List.Forall₂ (fun entry other => entry.path.head = other.path.head ∧
          (dictionary.Unfiltered entry.path.head → entry = other)) first second) ∧
    ∀ entries source other,
      Result.Agree (List.Forall₂ fun record another : Record => record.type = another.type ∧
          record.value.length = another.value.length ∧
          (dictionary.Unfiltered record.type → record.value = another.value))
        (lowerAll left dictionary entries source).1
        (lowerAll right dictionary entries other).1 := by
  constructor
  · intro records first second lifted relifted
    exact alike_of_liftAll lifted relifted
  · intro entries source other
    apply (lowerAll_agree left right dictionary entries source other).imp
    intro records others alike
    apply alike.imp
    intro record another like
    exact ⟨like.type_eq, like.value_like.length_eq, like.value_like.same⟩

def Exchange.stranger : Exchange := ⟨md5, [116], OctetField.zero 16⟩

def partlyHidden : List Record :=
  [⟨1, [110, 101], by decide⟩, ⟨2, List.replicate 16 0, by decide⟩, ⟨79, [5, 6], by decide⟩,
    ⟨79, [7], by decide⟩]

def partlyRevealed (password : Octets) : List Attribute :=
  [.standard 1 (.plain (.text "ne")), .standard 2 (.plain (.string password)),
    .concat 79 ⟨[[5, 6], [7]]⟩]

open Lifting in
theorem independent_of_secret_partlyHidden :
    ∃ first second,
      liftAll .sample DefinitionTable.standard.toDictionary partlyHidden =
        .ok (partlyRevealed first) ∧
      liftAll .stranger DefinitionTable.standard.toDictionary partlyHidden =
        .ok (partlyRevealed second) ∧ first ≠ second ∧
      (∃ parts others, parts.map Part.group = others.map Part.group ∧
        Covers .sample DefinitionTable.standard.toDictionary partlyHidden parts
          (partlyRevealed first) ∧
        Covers .stranger DefinitionTable.standard.toDictionary partlyHidden others
          (partlyRevealed second)) := by
  have lifted : liftAll .sample DefinitionTable.standard.toDictionary partlyHidden =
      .ok (partlyRevealed [0x6A, 0x00, 0x2D, 0xDB, 0x93, 0xFC, 0xBC, 0x0D, 0xD3, 0xEB, 0xD0, 0x93,
        0x00, 0x97, 0x0F, 0xC8]) := by
    decide +kernel
  have relifted : liftAll .stranger DefinitionTable.standard.toDictionary partlyHidden =
      .ok (partlyRevealed [0x70, 0x44, 0x3D, 0x14, 0x0A, 0xA8, 0x07, 0x81, 0xCB, 0xB1, 0x54, 0xCD,
        0x7F, 0x84, 0x5D, 0x87]) := by
    decide +kernel
  obtain ⟨decodes, -⟩ :=
    independent_of_secret DefinitionTable.standard.toDictionary .sample .stranger
  exact ⟨_, _, lifted, relifted, by decide, (decodes _ _ _ lifted relifted).1⟩

end Radius

import Radius.Proofs.Arrival

/-!
What is sent is received. Attributes that a table defines, with values that enclose nothing, come
back from the records they are sent in, unless a filter that trims zeros hides them or a container
they stand in, or two neighbours are values in pieces of one type.
-/

namespace Radius

/-- An attribute that can be received as it is sent: built by a definition of the table around a
value that encloses nothing and is the one its octets spell, and neither the definition nor one
above it hides its values as a user password. -/
inductive DefinitionTable.Sendable (table : DefinitionTable) : Attribute → Prop
  | intro {definition : AttributeDefinition} {value : Value} {fresh : Attribute} (truncated : Bool)
      (member : definition ∈ table.attributes) (made : definition.make value = .ok fresh)
      (bare : value.isContainer = false)
      (spelled : (∃ fragments joined, Concat.ofFragments fragments = .ok joined ∧
          value = .concat joined) ∨
        Value.decode? table.toDictionary definition.dataType definition.path value.octets =
          some value)
      (untrimmed : ∀ outer ∈ table.attributes, outer.path.AtOrAbove definition.path →
        outer.filter ≠ some .userPassword) :
      Sendable table (fresh.markTruncated truncated)

theorem DefinitionTable.Sendable.of_fresh {table : DefinitionTable}
    (definition : AttributeDefinition) (value : Value) {fresh : Attribute}
    (member : definition ∈ table.attributes) (made : definition.make value = .ok fresh)
    (bare : value.isContainer = false)
    (spelled : (∃ fragments joined, Concat.ofFragments fragments = .ok joined ∧
        value = .concat joined) ∨
      Value.decode? table.toDictionary definition.dataType definition.path value.octets =
        some value)
    (untrimmed : ∀ outer ∈ table.attributes, outer.path.AtOrAbove definition.path →
      outer.filter ≠ some .userPassword) : table.Sendable fresh := by
  rw [← fresh.markTruncated_truncated]
  exact .intro fresh.truncated member made bare spelled untrimmed

/-- Neighbours whose records would be taken for one value. -/
def Attribute.RunsInto (left right : Attribute) : Prop :=
  ∃ type first second, left = .concat type first ∧ right = .concat type second

namespace Lifting

variable {exchange : Exchange} {dictionary : Dictionary}

/-- The invariant of enclosing: the value is recovered, and no definition at or above the attribute
trims zeros. -/
def Untrimmed (exchange : Exchange) (dictionary : Dictionary) (entry : Attribute) : Prop :=
  (∃ definition value, Recoverable exchange dictionary entry definition value) ∧
    ∀ outer parent segments, dictionary.attribute? outer = some parent →
      outer.append segments = entry.path → parent.filter ≠ some .userPassword

theorem untrimmed_of_encloses {entry outer : Attribute} {definition parent : AttributeDefinition}
    {value : Value} {payload : Octets} {container : Container}
    (untrimmed : Untrimmed exchange dictionary entry)
    (recoverable : Recoverable exchange dictionary entry definition value)
    (encloses : Lowering.Encloses dictionary definition entry.truncated payload parent container
      outer) : Untrimmed exchange dictionary outer := by
  have place : outer.path.append container.segments = entry.path := by
    rw [encloses.path_eq, recoverable.built.path_eq]
  constructor
  · refine ⟨parent, .container container, recoverable_of_encloses encloses ?_⟩
    intro trims
    exact absurd trims (untrimmed.2 outer.path parent container.segments encloses.known place)
  · intro above definition segments listed joined
    refine untrimmed.2 above definition (segments ++ container.segments) listed ?_
    rw [← TypePath.append_append, joined, place]

theorem fragments_ne_nil {fragments : List Octets} {joined : Concat}
    (built : Concat.ofFragments fragments = .ok joined) : joined.fragments ≠ [] := by
  obtain ⟨rfl, some, -⟩ := Concat.ofFragments_eq_ok_iff.mp built
  exact some

theorem whole_of_spelled {definition : AttributeDefinition} {value : Value}
    (typed : value.dataType = definition.dataType) (bare : value.isContainer = false)
    (spelled : (∃ fragments joined, Concat.ofFragments fragments = .ok joined ∧
        value = .concat joined) ∨
      Value.decode? dictionary definition.dataType definition.path value.octets = some value) :
    value.Whole := by
  cases value with
  | plain plain => trivial
  | container container => cases container <;> contradiction
  | tlv records => trivial
  | concat joined =>
      rcases spelled with ⟨fragments, found, built, same⟩ | reads
      · cases same
        exact fragments_ne_nil built
      · rw [← typed] at reads
        simp only [Value.dataType, Value.decode?] at reads
        obtain ⟨found, built, same⟩ := Option.map_eq_some_iff.mp reads
        cases same
        exact fragments_ne_nil (Result.toOption_eq_some_iff.mp built)

theorem untrimmed_of_sendable {table : DefinitionTable} (reachable : table.Reachable)
    {entry : Attribute} (sendable : table.Sendable entry) :
    Untrimmed exchange table.toDictionary entry ∧
      ∀ container, entry.value? ≠ some (.container container) := by
  obtain ⟨truncated, member, made, bare, spelled, untrimmed⟩ := sendable
  rename_i definition value fresh
  have sound := DefinitionTable.sound_of_reachable reachable
  have layered := DefinitionTable.layered_of_reachable reachable
  have known : table.toDictionary.attribute? definition.path = some definition :=
    DefinitionTable.attribute?_of_mem sound member
  have typed := AttributeDefinition.dataType_of_make made
  have built := Attribute.BuiltBy.of_make made truncated
  refine ⟨⟨⟨definition, value, built, known, whole_of_spelled typed bare spelled, ?_⟩, ?_⟩, ?_⟩
  · intro encodes
    rcases spelled with ⟨fragments, joined, -, rfl⟩ | reads
    · -- a value in pieces is carried in pieces, at the top level only
      have pieces : definition.dataType = .concat := typed.symm
      cases top : definition.path.isTopLevel with
      | true =>
          rw [layered.top known top, pieces] at encodes
          contradiction
      | false => exact absurd pieces (layered.nested known top).2.2
    · exact AttributeDefinition.recovers_of_decodePlain?
        (untrimmed definition member ⟨rfl, List.prefix_rfl⟩) reads
  · intro outer parent segments listed joined
    obtain ⟨inside, here⟩ := DefinitionTable.mem_of_attribute? listed
    have above : outer.AtOrAbove definition.path :=
      TypePath.atOrAbove_iff.mpr ⟨segments, by rw [joined, built.path_eq]⟩
    exact untrimmed parent inside (here ▸ above)
  · intro container holds
    cases built.value?_eq.symm.trans holds
    cases container <;> contradiction

theorem eq_of_reaches_concat {type : UInt8} {joined : Concat} {entry : Attribute}
    (reached : Reaches exchange dictionary (.concat type joined) entry) :
    entry = .concat type joined := by
  rcases Relation.ReflTransGen.cases_head reached with same | ⟨inner, opens, -⟩
  · exact same.symm
  · obtain ⟨holds⟩ := opens
    simp [Attribute.value?] at holds

/-- The run of sending and receiving: attribute by attribute, the records settle to what opens to
the attribute. The last part says which attribute is in front when the records start a run. -/
theorem promotes_of_lowerAll (layered : dictionary.Layered) {entries : List Attribute}
    (untrimmed : ∀ entry ∈ entries, Untrimmed exchange dictionary entry ∧
      ∀ container, entry.value? ≠ some (.container container))
    (apart : entries.IsChain fun left right => ¬left.RunsInto right)
    {source rest : Entropy} {records : List Record}
    (lowered : lowerAll exchange dictionary entries source = (.ok records, rest)) :
    ∃ promoted, Promotes exchange dictionary records promoted ∧
      List.Forall₂ (fun top entry => expand exchange dictionary top = .ok entry) promoted entries ∧
      ∀ record ∈ records.head?, ∀ definition,
        dictionary.attribute? (.topLevel record.type) = some definition →
        definition.carrier = .concat →
          ∃ joined others, entries = .concat record.type joined :: others := by
  -- attributes take from the random source in turn, so the induction is over all sources
  induction entries generalizing source records with
  | nil =>
      obtain ⟨rfl, -⟩ := Lowering.lowerAll_nil_eq_ok_iff.mp lowered
      exact ⟨[], .nil, .nil, by simp⟩
  | cons entry others ih =>
      obtain ⟨front, middle, later, lowers, remains, rfl⟩ :=
        Lowering.lowerAll_cons_eq_ok_iff.mp lowered
      obtain ⟨good, bare⟩ := untrimmed entry List.mem_cons_self
      obtain ⟨top, -, reached, arrives⟩ := arrives_of_lowers layered (fun _ good => good.1)
        (fun _ _ _ _ _ _ _ _ _ good recoverable _ encloses =>
          untrimmed_of_encloses good recoverable encloses) lowers good
      obtain ⟨promoted, promotes, expanded, starts⟩ :=
        ih (fun other member => untrimmed other (List.mem_cons_of_mem entry member))
          apart.of_cons remains
      have opened : expand exchange dictionary top = .ok entry :=
        expand_eq_ok_iff.mpr ⟨reached, openOnce_of_other bare⟩
      -- two values in pieces of one type would be taken for one, but they are kept apart
      have settles : Settles exchange dictionary front [top] later := by
        apply settles_of_arrives arrives
        rintro type joined definition rfl known carried record first rfl
        obtain ⟨second, behind, rfl⟩ := starts record first definition known carried
        have same := eq_of_reaches_concat reached
        subst same
        exact (List.isChain_cons_cons.mp apart).1 ⟨record.type, joined, second, rfl, rfl⟩
      refine ⟨top :: promoted, .group settles promotes, .cons opened expanded, ?_⟩
      obtain ⟨record, group, rfl, -, pieces⟩ := front_of_arrives arrives
      intro other first definition known carried
      cases first
      obtain ⟨joined, rfl⟩ := pieces definition known carried
      exact ⟨joined, others, by rw [eq_of_reaches_concat reached]⟩

end Lifting

/-- Receiving undoes sending: the same attributes in the same order, with their paths, values and
marks, at any depth of containers. -/
theorem liftAll_lowerAll {table : DefinitionTable} (reachable : table.Reachable)
    {exchange : Exchange} {entries : List Attribute} {source rest : Entropy}
    {records : List Record} (sendable : ∀ entry ∈ entries, table.Sendable entry)
    (apart : entries.IsChain fun left right => ¬left.RunsInto right)
    (lowered : lowerAll exchange table.toDictionary entries source = (.ok records, rest)) :
    liftAll exchange table.toDictionary records = .ok entries := by
  have layered := DefinitionTable.layered_of_reachable reachable
  have untrimmed : ∀ entry ∈ entries, Lifting.Untrimmed exchange table.toDictionary entry ∧
      ∀ container, entry.value? ≠ some (.container container) :=
    fun entry member => Lifting.untrimmed_of_sendable reachable (sendable entry member)
  obtain ⟨promoted, promotes, expanded, -⟩ :=
    Lifting.promotes_of_lowerAll layered untrimmed apart lowered
  unfold liftAll
  rw [(Lifting.promoteAll_eq_ok_iff layered).mpr promotes]
  exact Result.mapM_eq_ok_iff.mpr expanded

def mixedEntries : List Attribute :=
  [.vendorSpecific ⟨245, [26]⟩ 9 1 (.plain (.string [0xAA])),
    .concat 79 ⟨[[1], [2]]⟩,
    .standard 69 (.plain (.taggedString ⟨1, by decide⟩ [104, 105]))]

theorem sendable_mixedEntries :
    ∀ entry ∈ mixedEntries, DefinitionTable.deepVendor.Sendable entry := by
  intro entry member
  simp only [mixedEntries, List.mem_cons, List.not_mem_nil, or_false] at member
  rcases member with rfl | rfl | rfl
  · exact .of_fresh DefinitionTable.deepVendorString (.plain (.string [0xAA])) (by decide +kernel)
      rfl rfl (.inr (by decide +kernel)) (by decide +kernel)
  · exact .of_fresh StandardAttribute.eapMessage.definition (.concat ⟨[[1], [2]]⟩)
      (by decide +kernel) rfl rfl (.inl ⟨[[1], [2]], _, rfl, rfl⟩) (by decide +kernel)
  · exact .of_fresh StandardAttribute.tunnelPassword.definition
      (.plain (.taggedString ⟨1, by decide⟩ [104, 105])) (by decide +kernel) rfl rfl
      (.inr (by decide +kernel)) (by decide +kernel)

theorem liftAll_lowerAll_mixedEntries :
    DefinitionTable.deepVendor.Reachable ∧
      (∀ entry ∈ mixedEntries, DefinitionTable.deepVendor.Sendable entry) ∧
      (mixedEntries.IsChain fun left right => ¬left.RunsInto right) ∧
      ∃ records rest, lowerAll Exchange.sample DefinitionTable.deepVendor.toDictionary mixedEntries
          (Entropy.cycle []) = (.ok records, rest) ∧
        liftAll Exchange.sample DefinitionTable.deepVendor.toDictionary records =
          .ok mixedEntries := by
  have sent : (lowerAll Exchange.sample DefinitionTable.deepVendor.toDictionary mixedEntries
      (Entropy.cycle [])).1.toOption.isSome = true := by decide +kernel
  rcases ran : lowerAll Exchange.sample DefinitionTable.deepVendor.toDictionary mixedEntries
    (Entropy.cycle []) with ⟨result, rest⟩
  have apart : mixedEntries.IsChain fun left right => ¬left.RunsInto right := by
    simp [mixedEntries, Attribute.RunsInto]
  rw [ran] at sent
  cases result with
  | error cause => contradiction
  | ok records =>
      exact ⟨DefinitionTable.reachable_deepVendor, sendable_mixedEntries, apart, records, rest, rfl,
        liftAll_lowerAll DefinitionTable.reachable_deepVendor sendable_mixedEntries apart ran⟩

end Radius

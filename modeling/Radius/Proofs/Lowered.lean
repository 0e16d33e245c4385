import Radius.Attribute.Lowering
import Radius.Proofs.TableGrowth

/-!
Lowering as a relation between an attribute and the records that carry it. Either the records are
those of the attribute itself, which stands at the top level, or they are those of the attribute
that encloses it; so what one step keeps holds of the top-level attribute whose records are sent.
-/

namespace Radius

namespace AttributeDefinition

inductive Shapes (definition : AttributeDefinition) (value : Value) : Attribute → Prop
  | standard (carried : definition.carrier = .standard ∨ definition.carrier = .fragmented) :
      Shapes definition value (.standard definition.path.head value)
  | concat {joined : Concat} (carried : definition.carrier = .concat) (same : value = .concat joined) :
      Shapes definition value (.concat definition.path.head joined)
  | extended (carried : definition.carrier = .extended) (octet : UInt8)
      (nested : definition.path.depth = 2) :
      Shapes definition value (.extended definition.path.head octet value)
  | longExtended (carried : definition.carrier = .longExtended) (octet : UInt8)
      (nested : definition.path.depth = 2) :
      Shapes definition value (.longExtended definition.path.head octet false value)
  | vendorSpecific (carried : definition.carrier = .vendorSpecific) (parent : TypePath)
      (vendor : UInt32) (octet : UInt8) :
      Shapes definition value (.vendorSpecific parent vendor octet value)

theorem shapes_of_make {definition : AttributeDefinition} {value : Value} {fresh : Attribute}
    (made : definition.make value = .ok fresh) : definition.Shapes value fresh := by
  unfold make at made
  split at made
  · contradiction
  · dsimp only at made
    split at made
    · rename_i carried
      split at made
      · contradiction
      · rw [Attribute.of_makeStandard made]
        exact .standard (.inl carried)
    · rename_i carried
      split at made
      · contradiction
      · rw [Attribute.of_makeStandard made]
        exact .standard (.inr carried)
    · rename_i carried
      split at made
      · split at made
        · contradiction
        · cases made
          exact .concat carried rfl
      · contradiction
    · rename_i carried
      split at made
      · contradiction
      · rename_i nested
        obtain ⟨octet, -, built⟩ := Result.bind_eq_ok_iff.mp made
        rw [Attribute.of_makeExtended built]
        exact .extended carried octet (Decidable.of_not_not nested)
    · rename_i carried
      split at made
      · contradiction
      · rename_i nested
        obtain ⟨octet, -, built⟩ := Result.bind_eq_ok_iff.mp made
        cases built
        exact .longExtended carried octet (Decidable.of_not_not nested)
    · rename_i carried
      split at made
      · contradiction
      · obtain ⟨octet, -, built⟩ := Result.bind_eq_ok_iff.mp made
        rw [Attribute.of_makeVendorSpecific built]
        exact .vendorSpecific carried _ _ octet

theorem decodeAttribute_eq_some_iff {definition : AttributeDefinition} {exchange : Exchange}
    {dictionary : Dictionary} {octets : Octets} {fresh : Attribute} :
    definition.decodeAttribute exchange dictionary octets = .ok (some fresh) ↔
      ∃ value, definition.decodeValue exchange dictionary octets = .ok (some value) ∧
        definition.make value = .ok fresh := by
  unfold decodeAttribute
  rw [Result.bind_eq_ok_iff]
  constructor
  · rintro ⟨found, reads, built⟩
    obtain ⟨value, rfl, made⟩ := Option.bind_eq_some_iff.mp (Except.ok.inj built)
    exact ⟨value, reads, Result.toOption_eq_some_iff.mp made⟩
  · rintro ⟨value, reads, made⟩
    refine ⟨some value, reads, ?_⟩
    rw [Option.bind_some, made]
    rfl

end AttributeDefinition

theorem Dictionary.path_of_make (dictionary : Dictionary) {path : TypePath}
    {definition : AttributeDefinition} {value : Value} {entry : Attribute}
    (known : dictionary.attribute? path = some definition)
    (made : definition.make value = .ok entry) : entry.path = path := by
  rw [AttributeDefinition.path_of_make made, dictionary.path_of_attribute? known]

namespace Attribute

/-- The attribute is the one that its definition builds around the value, marked or not. -/
structure BuiltBy (entry : Attribute) (definition : AttributeDefinition) (value : Value) : Prop where
  made : ∃ fresh truncated, definition.make value = .ok fresh ∧
    entry = fresh.markTruncated truncated

variable {entry fresh : Attribute} {definition : AttributeDefinition} {value : Value}

theorem BuiltBy.of_make (made : definition.make value = .ok fresh) (truncated : Bool) :
    (fresh.markTruncated truncated).BuiltBy definition value :=
  ⟨fresh, truncated, made, rfl⟩

theorem markTruncated_truncated (entry : Attribute) :
    entry.markTruncated entry.truncated = entry := by
  cases entry <;> rfl

theorem BuiltBy.of_fresh (made : definition.make value = .ok fresh) :
    fresh.BuiltBy definition value :=
  ⟨fresh, fresh.truncated, made, fresh.markTruncated_truncated.symm⟩

theorem BuiltBy.path_eq (built : entry.BuiltBy definition value) : entry.path = definition.path := by
  obtain ⟨fresh, truncated, made, rfl⟩ := built.made
  rw [path_markTruncated, AttributeDefinition.path_of_make made]

theorem BuiltBy.value?_eq (built : entry.BuiltBy definition value) :
    entry.value? = some value := by
  obtain ⟨fresh, truncated, made, rfl⟩ := built.made
  rw [value?_markTruncated, AttributeDefinition.value_of_make made]

theorem markTruncated_of_make (made : definition.make value = .ok fresh)
    (unmarked : definition.carrier ≠ .longExtended) (truncated : Bool) :
    fresh.markTruncated truncated = fresh := by
  cases definition.shapes_of_make made with
  | longExtended carried octet => exact absurd carried unmarked
  | _ => rfl

theorem BuiltBy.eq_markTruncated (built : entry.BuiltBy definition value)
    (made : definition.make value = .ok fresh) :
    entry = fresh.markTruncated
      (if definition.carrier = .longExtended then entry.truncated else false) := by
  obtain ⟨first, truncated, madeFirst, rfl⟩ := built.made
  cases madeFirst.symm.trans made
  split
  · cases fresh <;> rfl
  · rename_i unmarked
    rw [markTruncated_of_make made unmarked, markTruncated_of_make made unmarked]

end Attribute

theorem AttributeDefinition.dataType_of_make {definition : AttributeDefinition} {value : Value}
    {fresh : Attribute} (made : definition.make value = .ok fresh) :
    value.dataType = definition.dataType := by
  unfold make at made
  split at made
  · contradiction
  · rename_i same
    exact Decidable.of_not_not same

theorem Attribute.BuiltBy.dataType_eq {entry : Attribute} {definition : AttributeDefinition}
    {value : Value} (built : entry.BuiltBy definition value) :
    value.dataType = definition.dataType := by
  obtain ⟨fresh, truncated, made, -⟩ := built.made
  exact AttributeDefinition.dataType_of_make made

theorem TypePath.append_append (path : TypePath) (front back : List UInt32) :
    (path.append front).append back = path.append (front ++ back) := by
  simp [append]

theorem TypePath.last_append (above : TypePath) (front : List UInt32) (segment : UInt32) :
    (above.append (front ++ [segment])).last = segment := by
  simp [append, last, ← List.append_assoc]

theorem TypePath.beforeLast_append_pair (above : TypePath) (first second : UInt32) :
    (above.append [first, second]).beforeLast = first := by
  have split : above.tail ++ [first, second] = (above.tail ++ [first]) ++ [second] := by simp
  simp only [append, beforeLast]
  rw [split, List.dropLast_concat, List.getLastD_concat]

def Container.lastType : Container → UInt8
  | .extended extendedType _ => extendedType
  | .longExtended extendedType _ _ _ => extendedType
  | .vsa _ vendorType _ => vendorType
  | .evs _ vendorType _ => vendorType

theorem TypePath.last_append_segments (above : TypePath) (container : Container) :
    (above.append container.segments).last = container.lastType.toUInt32 := by
  cases container with
  | extended extendedType inner => exact last_append above [] _
  | longExtended extendedType more mark inner => exact last_append above [] _
  | vsa vendor vendorType inner => exact last_append above [vendor] _
  | evs vendor vendorType inner => exact last_append above [vendor] _

def Container.more : Container → Bool
  | .longExtended _ more _ _ => more
  | _ => false

namespace Lowering

/-- What encloses a payload of the definition: a container in an attribute one or two segments
higher, with the mark of the enclosed attribute if the container can show it. -/
structure Encloses (dictionary : Dictionary) (definition : AttributeDefinition) (truncated : Bool)
    (payload : Octets) (parent : AttributeDefinition) (container : Container) (outer : Attribute) :
    Prop where
  known : dictionary.attribute? outer.path = some parent
  made : parent.make (.container container) = .ok outer
  fits : container.Fits
  payload_eq : container.payload = payload
  path_eq : outer.path.append container.segments = definition.path
  carried : container.innerCarrier = definition.carrier
  truncated_eq : container.truncated =
    if definition.carrier = .longExtended then truncated else false
  final : container.more = false

section Enclosure

variable {dictionary : Dictionary} {definition parent : AttributeDefinition} {truncated : Bool}
  {payload : Octets} {outer : Attribute} {container : Container}

theorem segments_of_container {above : TypePath} {last : UInt8}
    (nested : definition.carrier.isNested = true)
    (higher : definition.path.ancestor? definition.carrier.levels = some above)
    (final : definition.lastOctet = .ok last)
    (wrapped : Lowering.container definition parent truncated last payload = .ok container) :
    container.Fits ∧ container.payload = payload ∧
      above.append container.segments = definition.path ∧
      container.innerCarrier = definition.carrier ∧
      (container.truncated = if definition.carrier = .longExtended then truncated else false) ∧
      container.more = false := by
  have lastSegment := (definition.lastOctet_eq_ok_iff last).mp final
  obtain ⟨segments, counted, joined⟩ := TypePath.ancestor?_eq_some_iff.mp higher
  -- the octet of the container is the last segment of the path, the vendor the one before it
  unfold Lowering.container at wrapped
  cases carried : definition.carrier with
  | standard => rw [carried] at nested; contradiction
  | fragmented => rw [carried] at nested; contradiction
  | concat => rw [carried] at nested; contradiction
  | extended =>
      rw [carried] at wrapped counted
      obtain ⟨rfl, fits⟩ := Container.makeExtended_eq_ok_iff.mp wrapped
      obtain ⟨segment, rfl⟩ := List.length_eq_one_iff.mp counted
      have same := TypePath.last_append above [] segment
      rw [List.nil_append, joined, lastSegment] at same
      subst same
      exact ⟨fits, rfl, joined, rfl, by simp [Container.truncated], rfl⟩
  | longExtended =>
      rw [carried] at wrapped counted
      cases wrapped
      obtain ⟨segment, rfl⟩ := List.length_eq_one_iff.mp counted
      have same := TypePath.last_append above [] segment
      rw [List.nil_append, joined, lastSegment] at same
      subst same
      exact ⟨trivial, rfl, joined, rfl, by simp [Container.truncated], rfl⟩
  | vendorSpecific =>
      rw [carried] at wrapped counted
      obtain ⟨vendor, segment, rfl⟩ := List.length_eq_two.mp counted
      have same := TypePath.last_append above [vendor] segment
      have before := TypePath.beforeLast_append_pair above vendor segment
      rw [List.singleton_append, joined, lastSegment] at same
      rw [joined] at before
      subst same
      subst before
      dsimp only at wrapped
      split at wrapped
      · obtain ⟨rfl, fits⟩ := Container.makeVsa_eq_ok_iff.mp wrapped
        exact ⟨fits, rfl, joined, rfl, by simp [Container.truncated], rfl⟩
      · obtain ⟨rfl, fits⟩ := Container.makeEvs_eq_ok_iff.mp wrapped
        exact ⟨fits, rfl, joined, rfl, by simp [Container.truncated], rfl⟩
      · contradiction

theorem encloses_of_enclose (nested : definition.carrier.isNested = true)
    (built : enclose dictionary definition truncated payload = .ok outer) :
    ∃ parent container,
      Encloses dictionary definition truncated payload parent container outer := by
  unfold enclose at built
  split at built
  · contradiction
  · rename_i above higher
    split at built
    · contradiction
    · rename_i parent known
      obtain ⟨last, final, later⟩ :=
        Result.bind_eq_ok_iff.mp (Result.mapError_eq_ok_iff.mp built)
      obtain ⟨container, wrapped, made⟩ := Result.bind_eq_ok_iff.mp later
      have place : outer.path = above := dictionary.path_of_make known made
      obtain ⟨fits, payload_eq, path_eq, carried, truncated_eq, last_piece⟩ :=
        segments_of_container nested higher final wrapped
      exact ⟨parent, container, by rw [place]; exact known, made, fits, payload_eq,
        by rw [place]; exact path_eq, carried, truncated_eq, last_piece⟩

theorem lastOctet_of_encloses
    (encloses : Encloses dictionary definition truncated payload parent container outer) :
    definition.lastOctet = .ok container.lastType := by
  rw [definition.lastOctet_eq_ok_iff, ← encloses.path_eq]
  exact outer.path.last_append_segments container

theorem container_of_encloses
    (encloses : Encloses dictionary definition truncated payload parent container outer) :
    Lowering.container definition parent truncated container.lastType payload =
      .ok container := by
  obtain ⟨-, made, fits, rfl, path_eq, carried, truncated_eq, final⟩ := encloses
  have typed := AttributeDefinition.dataType_of_make made
  rw [Lowering.container, ← carried]
  cases container with
  | extended extendedType inner => exact Container.makeExtended_eq_ok_iff.mpr ⟨rfl, fits⟩
  | longExtended extendedType more mark inner =>
      rw [← carried] at truncated_eq
      cases truncated_eq
      cases final
      rfl
  | vsa vendor vendorType inner =>
      rw [← typed, ← path_eq, Container.segments, TypePath.beforeLast_append_pair]
      exact Container.makeVsa_eq_ok_iff.mpr ⟨rfl, fits⟩
  | evs vendor vendorType inner =>
      rw [← typed, ← path_eq, Container.segments, TypePath.beforeLast_append_pair]
      exact Container.makeEvs_eq_ok_iff.mpr ⟨rfl, fits⟩

theorem enclose_of_encloses
    (encloses : Encloses dictionary definition truncated payload parent container outer) :
    enclose dictionary definition truncated payload = .ok outer := by
  have levels : container.segments.length = definition.carrier.levels := by
    rw [← encloses.carried, Container.levels_innerCarrier]
  have higher : definition.path.ancestor? definition.carrier.levels = some outer.path :=
    TypePath.ancestor?_eq_some_iff.mpr ⟨container.segments, levels, encloses.path_eq⟩
  unfold enclose
  rw [higher]
  dsimp only
  rw [encloses.known]
  refine Result.mapError_eq_ok_iff.mpr (Result.bind_eq_ok_iff.mpr
    ⟨container.lastType, lastOctet_of_encloses encloses, ?_⟩)
  exact Result.bind_eq_ok_iff.mpr ⟨container, container_of_encloses encloses, encloses.made⟩

end Enclosure

/-- The records that carry an attribute, and what is left of the random source. -/
inductive Lowers (exchange : Exchange) (dictionary : Dictionary) :
    Attribute → Entropy → List Record → Entropy → Prop
  | raw (record : Record) (source : Entropy) :
      Lowers exchange dictionary (.raw record) source [record] source
  | standard {entry : Attribute} {definition : AttributeDefinition} {value : Value}
      {source rest : Entropy} {octets : Octets} {record : Record}
      (holds : entry.value? = some value)
      (known : dictionary.attribute? entry.path = some definition)
      (carried : definition.carrier = .standard)
      (sent : definition.encodeValue exchange value source = (.ok octets, rest))
      (made : Record.make definition.path.head octets = .ok record) :
      Lowers exchange dictionary entry source [record] rest
  | fragmented {entry : Attribute} {definition : AttributeDefinition} {value : Value}
      {source : Entropy} {records : List Record} (holds : entry.value? = some value)
      (known : dictionary.attribute? entry.path = some definition)
      (carried : definition.carrier = .fragmented)
      (split : fragmentedRecords definition.path.head value = .ok records) :
      Lowers exchange dictionary entry source records source
  | concat {entry : Attribute} {definition : AttributeDefinition} {value : Value}
      {source : Entropy} {records : List Record} (holds : entry.value? = some value)
      (known : dictionary.attribute? entry.path = some definition)
      (carried : definition.carrier = .concat)
      (split : concatRecords definition.path.head value = .ok records) :
      Lowers exchange dictionary entry source records source
  | enclosed {entry outer : Attribute} {definition : AttributeDefinition} {value : Value}
      {source middle rest : Entropy} {payload : Octets} {records : List Record}
      (holds : entry.value? = some value)
      (known : dictionary.attribute? entry.path = some definition)
      (nested : definition.carrier.isNested = true)
      (sent : definition.encodeValue exchange value source = (.ok payload, middle))
      (built : enclose dictionary definition entry.truncated payload = .ok outer)
      (above : Lowers exchange dictionary outer middle records rest) :
      Lowers exchange dictionary entry source records rest

section Function

variable {exchange : Exchange} {dictionary : Dictionary} {entry : Attribute}
  {source rest : Entropy} {records : List Record}

theorem lower_step :
    lower exchange dictionary entry source = (.ok records, rest) ↔
      ∃ step middle, lowerOnce exchange dictionary entry source = (.ok step, middle) ∧
        match step with
        | .records found => found = records ∧ middle = rest
        | .enclosed outer _ => lower exchange dictionary outer middle = (.ok records, rest) := by
  rw [lower, Drawing.bind_eq_ok_iff]
  constructor
  · rintro ⟨step, middle, ran, finished⟩
    refine ⟨step, middle, ran, ?_⟩
    cases step with
    | records found => exact Drawing.pure_eq_ok_iff.mp finished
    | enclosed outer shallower => exact finished
  · rintro ⟨step, middle, ran, finished⟩
    refine ⟨step, middle, ran, ?_⟩
    cases step with
    | records found => exact Drawing.pure_eq_ok_iff.mpr finished
    | enclosed outer shallower => exact finished

theorem eq_raw_of_value? (bare : entry.value? = none) :
    ∃ record, entry = .raw record := by
  cases entry with
  | raw record => exact ⟨record, rfl⟩
  | _ => contradiction

theorem lowerOnce_bare (bare : entry.value? = none) :
    lowerOnce exchange dictionary entry = pure (.records entry.record?.toList) := by
  unfold lowerOnce
  rw [bare]

variable {definition : AttributeDefinition} {value : Value}

theorem lowerOnce_unknown (holds : entry.value? = some value)
    (unknown : dictionary.attribute? entry.path = none) :
    lowerOnce exchange dictionary entry = throw (.unknownAttribute entry.path) := by
  unfold lowerOnce
  rw [holds]
  dsimp only
  split
  · rfl
  · rename_i known
    rw [unknown] at known
    contradiction

theorem shallower_of_enclose (known : dictionary.attribute? entry.path = some definition)
    {payload : Octets} {outer : Attribute}
    (built : enclose dictionary definition entry.truncated payload = .ok outer) :
    outer.path.depth < entry.path.depth := by
  rw [← dictionary.path_of_attribute? known]
  exact depth_of_enclose built

def enclosing (known : dictionary.attribute? entry.path = some definition) (payload : Octets) :
    Drawing PacketError (Lowered entry.path.depth) :=
  match built : enclose dictionary definition entry.truncated payload with
  | .error failure => throw failure
  | .ok outer => return .enclosed outer (shallower_of_enclose known built)

theorem enclosing_of_error (known : dictionary.attribute? entry.path = some definition)
    {payload : Octets} {cause : PacketError}
    (failed : enclose dictionary definition entry.truncated payload = .error cause) :
    enclosing known payload = throw cause := by
  unfold enclosing
  split
  · rename_i reported
    cases failed.symm.trans reported
    rfl
  · rename_i built
    cases failed.symm.trans built

theorem enclosing_of_ok (known : dictionary.attribute? entry.path = some definition)
    {payload : Octets} {outer : Attribute}
    (built : enclose dictionary definition entry.truncated payload = .ok outer) :
    ∃ shallower, enclosing known payload = pure (.enclosed outer shallower) := by
  unfold enclosing
  split
  · rename_i failed
    cases built.symm.trans failed
  · rename_i found
    cases built.symm.trans found
    exact ⟨shallower_of_enclose known built, rfl⟩

theorem enclosing_eq_ok_iff (known : dictionary.attribute? entry.path = some definition)
    {payload : Octets} {step : Lowered entry.path.depth} :
    enclosing known payload source = (.ok step, rest) ↔
      ∃ outer shallower, enclose dictionary definition entry.truncated payload = .ok outer ∧
        step = .enclosed outer shallower ∧ source = rest := by
  cases result : enclose dictionary definition entry.truncated payload with
  | error cause =>
      rw [enclosing_of_error known result]
      constructor
      · intro ran
        cases ran
      · rintro ⟨outer, shallower, built, -, -⟩
        contradiction
  | ok outer =>
      obtain ⟨shallower, stepped⟩ := enclosing_of_ok known result
      rw [stepped, Drawing.pure_eq_ok_iff]
      constructor
      · rintro ⟨rfl, rfl⟩
        exact ⟨outer, shallower, rfl, rfl, rfl⟩
      · rintro ⟨other, _, same, rfl, rfl⟩
        cases same
        exact ⟨rfl, rfl⟩

theorem lowerOnce_known (holds : entry.value? = some value)
    (known : dictionary.attribute? entry.path = some definition) :
    lowerOnce exchange dictionary entry =
      match definition.carrier with
      | .standard => do
          let octets ← Drawing.mapFailure .invalidAttribute (definition.encodeValue exchange value)
          let record ← Drawing.ofExcept
            ((Record.make definition.path.head octets).mapError .invalidAttribute)
          return .records [record]
      | .fragmented => do
          let records ← Drawing.ofExcept (fragmentedRecords definition.path.head value)
          return .records records
      | .concat => do
          let records ← Drawing.ofExcept (concatRecords definition.path.head value)
          return .records records
      | .extended | .longExtended | .vendorSpecific =>
          Drawing.mapFailure .invalidAttribute (definition.encodeValue exchange value) >>=
            enclosing known := by
  unfold lowerOnce
  rw [holds]
  dsimp only
  split
  · rename_i unknown
    rw [known] at unknown
    contradiction
  · rename_i other found
    cases known.symm.trans found
    cases definition.carrier <;> rfl

theorem lowerOnce_nested (holds : entry.value? = some value)
    (known : dictionary.attribute? entry.path = some definition)
    (nested : definition.carrier.isNested = true) :
    lowerOnce exchange dictionary entry =
      (Drawing.mapFailure .invalidAttribute (definition.encodeValue exchange value) >>=
        enclosing known) := by
  rw [lowerOnce_known holds known]
  cases carried : definition.carrier with
  | standard =>
      rw [carried] at nested
      contradiction
  | fragmented =>
      rw [carried] at nested
      contradiction
  | concat =>
      rw [carried] at nested
      contradiction
  | _ => rfl

theorem lowers_of_lower (ran : lower exchange dictionary entry source = (.ok records, rest)) :
    Lowers exchange dictionary entry source records rest := by
  -- what encloses an attribute stands higher
  induction deep : entry.path.depth using Nat.strongRecOn generalizing entry source with
  | ind depth ih =>
      obtain ⟨step, middle, once, finished⟩ := lower_step.mp ran
      cases holds : entry.value? with
      | none =>
          rw [lowerOnce_bare holds, Drawing.pure_eq_ok_iff] at once
          obtain ⟨record, rfl⟩ := eq_raw_of_value? holds
          obtain ⟨rfl, rfl⟩ := once
          obtain ⟨rfl, rfl⟩ := finished
          exact .raw record source
      | some value =>
          cases known : dictionary.attribute? entry.path with
          | none =>
              rw [lowerOnce_unknown holds known] at once
              cases once
          | some definition =>
              rw [lowerOnce_known holds known] at once
              cases carried : definition.carrier with
              | standard =>
                  rw [carried] at once
                  obtain ⟨octets, between, encoded, later⟩ := Drawing.bind_eq_ok_iff.mp once
                  obtain ⟨record, final, boxed, built⟩ := Drawing.bind_eq_ok_iff.mp later
                  obtain ⟨made, rfl⟩ := Drawing.ofExcept_eq_ok_iff.mp boxed
                  obtain ⟨rfl, rfl⟩ := Drawing.pure_eq_ok_iff.mp built
                  obtain ⟨rfl, rfl⟩ := finished
                  exact .standard holds known carried (Drawing.mapFailure_eq_ok_iff.mp encoded)
                    (Result.mapError_eq_ok_iff.mp made)
              | fragmented =>
                  rw [carried] at once
                  obtain ⟨found, between, split, built⟩ := Drawing.bind_eq_ok_iff.mp once
                  obtain ⟨pieces, rfl⟩ := Drawing.ofExcept_eq_ok_iff.mp split
                  obtain ⟨rfl, rfl⟩ := Drawing.pure_eq_ok_iff.mp built
                  obtain ⟨rfl, rfl⟩ := finished
                  exact .fragmented holds known carried pieces
              | concat =>
                  rw [carried] at once
                  obtain ⟨found, between, split, built⟩ := Drawing.bind_eq_ok_iff.mp once
                  obtain ⟨pieces, rfl⟩ := Drawing.ofExcept_eq_ok_iff.mp split
                  obtain ⟨rfl, rfl⟩ := Drawing.pure_eq_ok_iff.mp built
                  obtain ⟨rfl, rfl⟩ := finished
                  exact .concat holds known carried pieces
              | _ =>
                  have nested : definition.carrier.isNested = true := by rw [carried]; rfl
                  rw [← lowerOnce_known holds known, lowerOnce_nested holds known nested] at once
                  obtain ⟨payload, between, encoded, later⟩ := Drawing.bind_eq_ok_iff.mp once
                  obtain ⟨outer, shallower, built, rfl, rfl⟩ :=
                    (enclosing_eq_ok_iff known).mp later
                  exact .enclosed holds known nested
                    (Drawing.mapFailure_eq_ok_iff.mp encoded) built
                    (ih outer.path.depth (deep ▸ shallower) finished rfl)

theorem lower_of_lowers (lowers : Lowers exchange dictionary entry source records rest) :
    lower exchange dictionary entry source = (.ok records, rest) := by
  induction lowers with
  | raw record source => exact lower_step.mpr ⟨.records [record], source, rfl, rfl, rfl⟩
  | @standard entry definition value source rest octets record holds known carried sent made =>
      refine lower_step.mpr ⟨.records [record], rest, ?_, rfl, rfl⟩
      rw [lowerOnce_known holds known, carried]
      refine Drawing.bind_eq_ok_iff.mpr
        ⟨octets, rest, Drawing.mapFailure_eq_ok_iff.mpr sent, ?_⟩
      rw [Drawing.bind_eq_ok_iff]
      exact ⟨record, rest,
        Drawing.ofExcept_eq_ok_iff.mpr ⟨Result.mapError_eq_ok_iff.mpr made, rfl⟩,
        Drawing.pure_eq_ok_iff.mpr ⟨rfl, rfl⟩⟩
  | @fragmented entry definition value source records holds known carried split =>
      refine lower_step.mpr ⟨.records records, source, ?_, rfl, rfl⟩
      rw [lowerOnce_known holds known, carried]
      exact Drawing.bind_eq_ok_iff.mpr ⟨records, source,
        Drawing.ofExcept_eq_ok_iff.mpr ⟨split, rfl⟩, Drawing.pure_eq_ok_iff.mpr ⟨rfl, rfl⟩⟩
  | @concat entry definition value source records holds known carried split =>
      refine lower_step.mpr ⟨.records records, source, ?_, rfl, rfl⟩
      rw [lowerOnce_known holds known, carried]
      exact Drawing.bind_eq_ok_iff.mpr ⟨records, source,
        Drawing.ofExcept_eq_ok_iff.mpr ⟨split, rfl⟩, Drawing.pure_eq_ok_iff.mpr ⟨rfl, rfl⟩⟩
  | @enclosed entry outer definition value source middle rest payload records holds known nested
      sent built above ih =>
      have higher := shallower_of_enclose known built
      refine lower_step.mpr ⟨.enclosed outer higher, middle, ?_, ih⟩
      rw [lowerOnce_nested holds known nested]
      exact Drawing.bind_eq_ok_iff.mpr ⟨payload, middle, Drawing.mapFailure_eq_ok_iff.mpr sent,
        (enclosing_eq_ok_iff known).mpr ⟨outer, higher, built, rfl, rfl⟩⟩

theorem lower_eq_ok_iff :
    lower exchange dictionary entry source = (.ok records, rest) ↔
      Lowers exchange dictionary entry source records rest :=
  ⟨lowers_of_lower, lower_of_lowers⟩

theorem lowerAll_nil_eq_ok_iff :
    lowerAll exchange dictionary [] source = (.ok records, rest) ↔ records = [] ∧ source = rest := by
  unfold lowerAll
  rw [List.mapM_nil, Drawing.bind_eq_ok_iff]
  constructor
  · rintro ⟨none, middle, ran, built⟩
    obtain ⟨rfl, rfl⟩ := Drawing.pure_eq_ok_iff.mp ran
    obtain ⟨rfl, rfl⟩ := Drawing.pure_eq_ok_iff.mp built
    exact ⟨rfl, rfl⟩
  · rintro ⟨rfl, rfl⟩
    exact ⟨[], source, Drawing.pure_eq_ok_iff.mpr ⟨rfl, rfl⟩, Drawing.pure_eq_ok_iff.mpr ⟨rfl, rfl⟩⟩

theorem lowerAll_cons_eq_ok_iff {entries : List Attribute} :
    lowerAll exchange dictionary (entry :: entries) source = (.ok records, rest) ↔
      ∃ front middle later, Lowers exchange dictionary entry source front middle ∧
        lowerAll exchange dictionary entries middle = (.ok later, rest) ∧
        records = front ++ later := by
  unfold lowerAll
  rw [Drawing.bind_eq_ok_iff]
  constructor
  · rintro ⟨groups, final, ran, built⟩
    obtain ⟨rfl, rfl⟩ := Drawing.pure_eq_ok_iff.mp built
    obtain ⟨front, middle, later, lowered, tail, rfl⟩ := Drawing.mapM_cons_eq_ok_iff.mp ran
    refine ⟨front, middle, later.flatten, lower_eq_ok_iff.mp lowered, ?_, rfl⟩
    exact Drawing.bind_eq_ok_iff.mpr ⟨later, final, tail, Drawing.pure_eq_ok_iff.mpr ⟨rfl, rfl⟩⟩
  · rintro ⟨front, middle, later, lowered, tail, rfl⟩
    obtain ⟨groups, final, ran, built⟩ := Drawing.bind_eq_ok_iff.mp tail
    obtain ⟨rfl, rfl⟩ := Drawing.pure_eq_ok_iff.mp built
    refine ⟨front :: groups, final, ?_, Drawing.pure_eq_ok_iff.mpr ⟨rfl, rfl⟩⟩
    exact Drawing.mapM_cons_eq_ok_iff.mpr
      ⟨front, middle, groups, lower_eq_ok_iff.mpr lowered, ran, rfl⟩

theorem lowers_raw_iff {record : Record} :
    Lowers exchange dictionary (.raw record) source records rest ↔
      records = [record] ∧ source = rest := by
  constructor
  · intro lowers
    cases lowers with
    | raw record source => exact ⟨rfl, rfl⟩
    | standard holds => contradiction
    | fragmented holds => contradiction
    | concat holds => contradiction
    | enclosed holds => contradiction
  · rintro ⟨rfl, rfl⟩
    exact .raw record source

theorem lowerAll_kept_eq_ok_iff {kept : List Record} {entries : List Attribute} :
    lowerAll exchange dictionary (kept.map .raw ++ entries) source = (.ok records, rest) ↔
      ∃ later, lowerAll exchange dictionary entries source = (.ok later, rest) ∧
        records = kept ++ later := by
  induction kept generalizing records with
  | nil =>
      constructor
      · intro lowered
        exact ⟨records, lowered, rfl⟩
      · rintro ⟨later, lowered, rfl⟩
        exact lowered
  | cons record kept ih =>
      rw [List.map_cons, List.cons_append, lowerAll_cons_eq_ok_iff]
      constructor
      · rintro ⟨front, middle, others, lowers, lowered, rfl⟩
        obtain ⟨rfl, rfl⟩ := lowers_raw_iff.mp lowers
        obtain ⟨later, remains, rfl⟩ := ih.mp lowered
        exact ⟨later, remains, rfl⟩
      · rintro ⟨later, remains, rfl⟩
        exact ⟨[record], source, kept ++ later, lowers_raw_iff.mpr ⟨rfl, rfl⟩,
          ih.mpr ⟨later, remains, rfl⟩, rfl⟩

end Function

end Lowering

end Radius

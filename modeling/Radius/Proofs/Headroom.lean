import Radius.Proofs.Placement
import Radius.Proofs.ValueBounds

/-!
The room that headers take. A constructor limits its value so that the headers around it fit into a
record with it, and an attribute that was built can be sent. That holds where the headers are those
of one container at the top level, and where the value is sent in pieces. An EVS inside an extended
attribute puts two headers around a value of which its constructor knows only one, so such a value
is built at any length and sent only if the room is enough.
-/

namespace Radius

/-- The values that there are: constructors build them, of other values too, and octets are read as
them. A long extended value can be marked afterwards. -/
inductive Value.Obtained : Value → Prop
  | plain {value : PlainValue} (built : value.Built) : Obtained (.plain value)
  | container {container : Container} (built : container.Built) : Obtained (.container container)
  | concat {joined : Concat} (built : joined.Built) : Obtained (.concat joined)
  | tlv {records : List (UInt8 × Value)}
      (made : ∀ record ∈ records, makeRecord record.1 record.2 = .ok record)
      (inside : ∀ record ∈ records, Obtained record.2) : Obtained (.tlv records)
  | read {dictionary : Dictionary} {type : DataType} {path : TypePath} {octets : Octets}
      {value : Value} (read : decode? dictionary type path octets = some value) : Obtained value
  | marked {extendedType : UInt8} {more truncated : Bool} {payload : Octets} (mark : Bool)
      (obtained : Obtained (.container (.longExtended extendedType more truncated payload))) :
      Obtained (.container (.longExtended extendedType more mark payload))

namespace Value.Obtained

variable {value : Value}

theorem length_octets (obtained : value.Obtained) :
    value.octets.length = value.encodedLength := by
  induction obtained with
  | plain built => exact Value.length_octets (.plain built)
  | @container container built => exact container.length_octets
  | concat built => exact Concat.length_octets _
  | tlv made inside ih => exact length_recordsOctets ih
  | read read =>
      obtain ⟨counted, written⟩ := lengths_of_decode? read
      exact written.trans counted.symm
  | @marked extendedType more truncated payload mark _ =>
      exact (Container.longExtended extendedType more mark payload).length_octets

theorem fragments_of_decode? {dictionary : Dictionary} {type : DataType} {path : TypePath}
    {octets : Octets} {joined : Concat}
    (read : decode? dictionary type path octets = some (.concat joined)) :
    Concat.ofFragments [octets] = .ok joined := by
  cases type with
  | concat =>
      rw [decode?] at read
      obtain ⟨value, found, same⟩ := Option.map_eq_some_iff.mp read
      cases same
      exact Result.toOption_eq_some_iff.mp found
  | tlv =>
      rw [decode?_tlv] at read
      obtain ⟨records, -, same⟩ := Option.map_eq_some_iff.mp read
      contradiction
  | _ =>
      simp only [decode?] at read
      obtain ⟨value, -, same⟩ := Option.map_eq_some_iff.mp read
      contradiction

theorem length_fragment_le {joined : Concat} (obtained : Value.Obtained (.concat joined))
    {fragment : Octets} (member : fragment ∈ joined.fragments) :
    fragment.length ≤ maxRecordValue := by
  cases obtained with
  | concat built => exact Concat.length_le_of_built built member
  | read read =>
      exact Concat.length_le_of_built (.fragments (fragments_of_decode? read)) member

end Value.Obtained

namespace DefinitionTable

def Unhidden (table : DefinitionTable) (definition : AttributeDefinition) : Prop :=
  ∀ outer ∈ table.attributes, outer.path.AtOrAbove definition.path → outer.filter = none

/-- The container of a vendor attribute is an EVS one segment below the top level, where that
segment is an octet. -/
structure BoxedIn (table : DefinitionTable) (definition box : AttributeDefinition) : Prop
    extends table.Contains box definition where
  vendor : definition.carrier = .vendorSpecific
  typed : box.dataType = .evs
  shallow : box.path.depth = 2
  octet : box.path.last ≤ 255

/-- Where the constructor of an attribute leaves room for all headers: at the top level, in a
container at the top level, and in a container whose value is sent in pieces. -/
inductive Roomy (table : DefinitionTable) (definition : AttributeDefinition) : Prop
  | top (top : definition.path.isTopLevel = true) : Roomy table definition
  | below {container : AttributeDefinition} (contains : table.Contains container definition)
      (top : container.path.isTopLevel = true) : Roomy table definition
  | boxed {box : AttributeDefinition} (boxed : table.BoxedIn definition box)
      (long : box.carrier = .longExtended) : Roomy table definition

def Sends (table : DefinitionTable) (exchange : Exchange) (entry : Attribute) (source : Entropy) :
    Prop :=
  ∃ records rest, lowerAll exchange table.toDictionary [entry] source = (.ok records, rest) ∧
    ∀ record ∈ records, record.value.length ≤ 253

section Limits

variable {definition : AttributeDefinition} {value : Value} {entry : Attribute}

theorem checkLength_eq_ok_iff {max : Nat} :
    Attribute.checkLength value max = .ok () ↔ value.encodedLength ≤ max := by
  unfold Attribute.checkLength
  split
  · rename_i long
    exact iff_of_false nofun (Nat.not_le.mpr long)
  · rename_i short
    exact iff_of_true rfl (Nat.not_lt.mp short)

theorem built_iff_of_checked {max : Nat} {result : Attribute} :
    (∃ entry, (do
      Attribute.checkLength value max
      return result) = Except.ok entry) ↔ value.encodedLength ≤ max := by
  constructor
  · rintro ⟨entry, made⟩
    obtain ⟨_, checked, -⟩ := Result.bind_eq_ok_iff.mp made
    exact checkLength_eq_ok_iff.mp checked
  · intro short
    exact ⟨result, Result.bind_eq_ok_iff.mpr ⟨(), checkLength_eq_ok_iff.mpr short, rfl⟩⟩

theorem make_standard_iff (typed : value.dataType = definition.dataType)
    (carried : definition.carrier = .standard) (shallow : definition.path.depth = 1)
    (unsplit : value.dataType ≠ .longExtended) (undivided : value.dataType ≠ .concat) :
    (∃ entry, definition.make value = .ok entry) ↔ value.encodedLength ≤ 253 := by
  have reduced : definition.make value = (do
      Attribute.checkLength value maxRecordValue
      return .standard definition.path.head value) := by
    simp only [AttributeDefinition.make, carried]
    rw [if_neg (not_not.mpr typed), if_neg (not_not.mpr shallow)]
    unfold Attribute.makeStandard
    split
    · rename_i divided
      exact absurd divided undivided
    · rename_i long
      exact absurd long unsplit
    · rfl
  rw [reduced]
  exact built_iff_of_checked

theorem make_fragmented (typed : value.dataType = definition.dataType)
    (carried : definition.carrier = .fragmented) (shallow : definition.path.depth = 1)
    (long : value.dataType = .longExtended) : ∃ entry, definition.make value = .ok entry := by
  refine ⟨.standard definition.path.head value, ?_⟩
  simp only [AttributeDefinition.make, carried]
  rw [if_neg (not_not.mpr typed), if_neg (not_not.mpr shallow), Attribute.makeStandard, long]

theorem make_extended_iff (typed : value.dataType = definition.dataType)
    (carried : definition.carrier = .extended) (nested : definition.path.depth = 2)
    {last : UInt8} (final : definition.lastOctet = .ok last) :
    (∃ entry, definition.make value = .ok entry) ↔ value.encodedLength ≤ 252 := by
  have reduced : definition.make value =
      Attribute.makeExtended definition.path.head last value := by
    simp only [AttributeDefinition.make, carried]
    rw [if_neg (not_not.mpr typed), if_neg (not_not.mpr nested), final]
    rfl
  rw [reduced]
  exact built_iff_of_checked

theorem make_longExtended (typed : value.dataType = definition.dataType)
    (carried : definition.carrier = .longExtended) (nested : definition.path.depth = 2)
    {last : UInt8} (final : definition.lastOctet = .ok last) :
    ∃ entry, definition.make value = .ok entry := by
  refine ⟨.longExtended definition.path.head last false value, ?_⟩
  simp only [AttributeDefinition.make, carried]
  rw [if_neg (not_not.mpr typed), if_neg (not_not.mpr nested), final]
  rfl

theorem le_of_make_vendorSpecific (carried : definition.carrier = .vendorSpecific)
    {above : TypePath} (higher : definition.path.ancestor? 2 = some above)
    (top : above.isTopLevel = true) (made : definition.make value = .ok entry) :
    value.encodedLength ≤ 247 := by
  have typed := AttributeDefinition.dataType_of_make made
  simp only [AttributeDefinition.make, carried, higher] at made
  rw [if_neg (not_not.mpr typed)] at made
  obtain ⟨octet, -, made⟩ := Result.bind_eq_ok_iff.mp made
  obtain ⟨_, -, made⟩ := Result.bind_eq_ok_iff.mp made
  rw [if_pos top] at made
  obtain ⟨_, checked, -⟩ := Result.bind_eq_ok_iff.mp made
  exact checkLength_eq_ok_iff.mp checked

end Limits

section Steps

variable {table : DefinitionTable} {exchange : Exchange} {source : Entropy}
  {definition container : AttributeDefinition} {value : Value} {entry : Attribute}

theorem isTopLevel_iff_depth {path : TypePath} : path.isTopLevel = true ↔ path.depth = 1 := by
  simp [TypePath.isTopLevel, TypePath.depth]

theorem lowers_of_top (sound : table.Sound) (member : definition ∈ table.attributes)
    (flat : definition.carrier.isNested = false) (unfiltered : definition.filter = none)
    (obtained : value.Obtained) (made : definition.make value = .ok entry) :
    ∃ records, Lowering.Lowers exchange table.toDictionary entry source records source := by
  have typed := AttributeDefinition.dataType_of_make made
  have holds := AttributeDefinition.value_of_make made
  have known : table.toDictionary.attribute? entry.path = some definition := by
    rw [AttributeDefinition.path_of_make made]
    exact attribute?_of_mem sound member
  obtain ⟨shallow, fits⟩ := (sound.placed member).top flat
  cases carried : definition.carrier with
  | standard =>
      have unsplit : value.dataType ≠ .longExtended := by
        intro long
        rw [carried, ← typed, long] at fits
        contradiction
      have undivided : value.dataType ≠ .concat := by
        intro divided
        rw [carried, ← typed, divided] at fits
        contradiction
      have short : value.octets.length ≤ maxRecordValue := by
        rw [obtained.length_octets]
        exact (make_standard_iff typed carried shallow unsplit undivided).mp ⟨entry, made⟩
      exact ⟨_, .standard holds known carried
        ((AttributeDefinition.encodeValue_clear unfiltered).mpr ⟨typed, rfl, rfl⟩) (dif_pos short)⟩
  | fragmented =>
      have long := Carrier.type_of_ofTopLevel.1 (fits ▸ carried)
      obtain ⟨records, split⟩ :=
        Lowering.fragmentedRecords_eq_ok definition.path.head (typed.trans long)
      exact ⟨records, .fragmented holds known carried split⟩
  | concat =>
      have divided := Carrier.type_of_ofTopLevel.2 (fits ▸ carried)
      obtain ⟨joined, rfl⟩ := Value.exists_concat (typed.trans divided)
      cases split : Lowering.concatRecords definition.path.head (.concat joined) with
      | ok records => exact ⟨records, .concat holds known carried split⟩
      | error cause =>
          -- The pieces were checked when they were put together, so each fits a record.
          obtain ⟨refusal, refused, -⟩ := Result.mapError_eq_error_iff.mp split
          obtain ⟨fragment, inside, refused⟩ := Result.exists_of_mapM_eq_error refused
          rw [Record.make, dif_pos (obtained.length_fragment_le inside)] at refused
          contradiction
  | _ =>
      rw [carried] at flat
      contradiction

theorem enclose_eq_ok_iff (sound : table.Sound) (contains : table.Contains container definition)
    {last : UInt8} (final : definition.lastOctet = .ok last) {truncated : Bool} {payload : Octets}
    {outer : Attribute} :
    Lowering.enclose table.toDictionary definition truncated payload = .ok outer ↔
      ∃ around, Lowering.container definition container truncated last payload = .ok around ∧
        container.make (.container around) = .ok outer := by
  have listed : table.toDictionary.attribute? container.path = some container :=
    attribute?_of_mem sound contains.listed
  unfold Lowering.enclose
  rw [contains.placed]
  dsimp only
  rw [listed]
  dsimp only
  rw [Result.mapError_eq_ok_iff, Lowering.buildEnclosure, final]
  change (Lowering.container definition container truncated last payload >>=
    fun around => container.make (.container around)) = .ok outer ↔ _
  exact Result.bind_eq_ok_iff

theorem lowers_nested_iff (sound : table.Sound) (member : definition ∈ table.attributes)
    (nested : definition.carrier.isNested = true) (unfiltered : definition.filter = none)
    (made : definition.make value = .ok entry) :
    (∃ records rest, Lowering.Lowers exchange table.toDictionary entry source records rest) ↔
      ∃ outer, Lowering.enclose table.toDictionary definition entry.truncated value.octets =
          .ok outer ∧
        ∃ records rest, Lowering.Lowers exchange table.toDictionary outer source records rest := by
  have typed := AttributeDefinition.dataType_of_make made
  have holds := AttributeDefinition.value_of_make made
  have known : table.toDictionary.attribute? entry.path = some definition := by
    rw [AttributeDefinition.path_of_make made]
    exact attribute?_of_mem sound member
  constructor
  · rintro ⟨records, rest, lowers⟩
    -- Only what is enclosed has a nested carrier; its payload is the value's octets, unfiltered.
    cases lowers with
    | raw record => contradiction
    | enclosed same listed _ sent built above =>
        cases holds.symm.trans same
        cases known.symm.trans listed
        obtain ⟨-, rfl, rfl⟩ := (AttributeDefinition.encodeValue_clear unfiltered).mp sent
        exact ⟨_, built, _, _, above⟩
    | _ _ listed carried =>
        cases known.symm.trans listed
        rw [carried] at nested
        contradiction
  · rintro ⟨outer, built, records, rest, above⟩
    exact ⟨records, rest, .enclosed holds known nested
      ((AttributeDefinition.encodeValue_clear unfiltered).mpr ⟨typed, rfl, rfl⟩) built above⟩

theorem type_of_holds {type : DataType} {levels : Nat} {carrier : Carrier}
    (holds : Carrier.Holds type levels carrier) :
    (carrier = .extended ∧ type = .extended) ∨ (carrier = .longExtended ∧ type = .longExtended) ∨
      (carrier = .vendorSpecific ∧ (type = .vsa ∨ type = .evs)) := by
  cases holds <;> simp

section Containers

variable {last : UInt8} {truncated : Bool} {payload : Octets}

theorem container_extended (carried : definition.carrier = .extended) (short : payload.length ≤ 252) :
    Lowering.container definition container truncated last payload = .ok (.extended last payload) ∧
      (Container.extended last payload).Built := by
  have built : Container.makeExtended last payload = .ok (.extended last payload) :=
    Container.makeExtended_eq_ok_iff.mpr ⟨rfl, short⟩
  refine ⟨?_, .extended built⟩
  rw [Lowering.container, carried]
  exact built

theorem container_longExtended (carried : definition.carrier = .longExtended) :
    Lowering.container definition container truncated last payload =
        .ok (.longExtended last false truncated payload) ∧
      (Container.longExtended last false truncated payload).Built := by
  refine ⟨?_, .marked truncated (.longExtended last payload)⟩
  rw [Lowering.container, carried]

/-- A VSA has room for 247 octets; an EVS sets no limit to what it encloses. -/
theorem container_vendor (fine : definition.flaw? = none)
    (carried : definition.carrier = .vendorSpecific) {around : Container}
    (asked : (container.dataType = .vsa ∧ payload.length ≤ 247 ∧
        around = .vsa definition.path.beforeLast last payload) ∨
      (container.dataType = .evs ∧ around = .evs definition.path.beforeLast last payload)) :
    Lowering.container definition container truncated last payload = .ok around ∧ around.Built := by
  have vendor := (Container.checkVendor_eq_ok_iff _).mp
    (AttributeDefinition.checkVendor_of_flaw? fine carried)
  simp only [Lowering.container, carried]
  rcases asked with ⟨held, short, rfl⟩ | ⟨held, rfl⟩
  · have made : Container.makeVsa definition.path.beforeLast last payload =
        .ok (.vsa definition.path.beforeLast last payload) :=
      Container.makeVsa_eq_ok_iff.mpr ⟨rfl, vendor, short⟩
    rw [held]
    exact ⟨made, .vsa made⟩
  · have made : Container.makeEvs definition.path.beforeLast last payload =
        .ok (.evs definition.path.beforeLast last payload) :=
      Container.makeEvs_eq_ok_iff.mpr ⟨rfl, vendor⟩
    rw [held]
    exact ⟨made, .evs made⟩

end Containers

theorem flaw?_of_made (sound : table.Sound) (member : definition ∈ table.attributes)
    (made : definition.make value = .ok entry) : definition.flaw? = none :=
  AttributeDefinition.flaw?_of_make
    (sound.builds member (AttributeDefinition.dataType_of_make made)) made

theorem container_of_made (sound : table.Sound) (member : definition ∈ table.attributes)
    (obtained : value.Obtained) (made : definition.make value = .ok entry)
    (contains : table.Contains container definition) (top : container.path.isTopLevel = true)
    (holds : Carrier.Holds container.dataType definition.carrier.levels definition.carrier)
    {last : UInt8} (final : definition.lastOctet = .ok last) (truncated : Bool) :
    ∃ around : Container,
      (Lowering.container definition container truncated last value.octets = .ok around ∧
        around.Built) ∧
      around.dataType = container.dataType ∧
      (around.dataType ≠ .longExtended → around.encodedLength ≤ 253) := by
  have typed := AttributeDefinition.dataType_of_make made
  have fine := flaw?_of_made sound member made
  have placed := contains.placed
  have counted := obtained.length_octets
  -- The constructor knows only the length of the value, so each header has to make up for the limit
  -- that it sets: one octet for 252, six or five for 247.
  rcases type_of_holds holds with ⟨carried, held⟩ | ⟨carried, held⟩ | ⟨carried, held⟩
  · have nested : definition.path.depth = 2 := by
      have total := TypePath.depth_of_ancestor? placed
      rw [isTopLevel_iff_depth.mp top, carried] at total
      exact total.symm
    have short := (make_extended_iff typed carried nested final).mp ⟨entry, made⟩
    refine ⟨_, container_extended carried (counted ▸ short), held.symm, fun _ => ?_⟩
    rw [Container.encodedLength, counted]
    omega
  · exact ⟨_, container_longExtended carried, held.symm, fun unsplit => absurd rfl unsplit⟩
  · rw [carried] at placed
    have short := le_of_make_vendorSpecific carried placed top made
    rcases held with held | held
    · have fits : value.octets.length ≤ 247 := counted ▸ short
      refine ⟨_, container_vendor fine carried (.inl ⟨held, fits, rfl⟩), held.symm, fun _ => ?_⟩
      rw [Container.encodedLength, counted]
      omega
    · refine ⟨_, container_vendor fine carried (.inr ⟨held, rfl⟩), held.symm, fun _ => ?_⟩
      rw [Container.encodedLength, counted]
      omega

theorem carrier_of_top (sound : table.Sound) (member : definition ∈ table.attributes)
    (top : definition.path.isTopLevel = true) :
    definition.carrier = .ofTopLevel definition.dataType := by
  rcases inferCarrier_eq_ok_iff.mp (sound.inferred definition member) with
    ⟨-, carried⟩ | ⟨nested, -⟩
  · exact carried
  · rw [top] at nested
    contradiction

theorem make_top_container (sound : table.Sound) (member : container ∈ table.attributes)
    (top : container.path.isTopLevel = true) {around : Container}
    (typed : around.dataType = container.dataType)
    (fits : around.dataType ≠ .longExtended → around.encodedLength ≤ 253) :
    ∃ outer, container.make (.container around) = .ok outer := by
  have carried := carrier_of_top sound member top
  have shallow := isTopLevel_iff_depth.mp top
  have same : (Value.container around).dataType = container.dataType := typed
  rw [← typed] at carried
  by_cases long : around.dataType = .longExtended
  · rw [long] at carried
    exact make_fragmented same carried shallow long
  · refine (make_standard_iff same ?_ shallow long ?_).mpr (fits long)
    · cases around with
      | longExtended => exact absurd rfl long
      | _ => exact carried
    · cases around <;> nofun

theorem holds_of_contains (sound : table.Sound) (member : definition ∈ table.attributes)
    (nested : definition.carrier.isNested = true) (contains : table.Contains container definition) :
    Carrier.Holds container.dataType definition.carrier.levels definition.carrier := by
  obtain ⟨other, held, holds⟩ := sound.exists_container member nested
  have same : other.path = container.path :=
    Option.some.inj (held.placed.symm.trans contains.placed)
  have found := attribute?_of_mem sound held.listed
  rw [same, attribute?_of_mem sound contains.listed] at found
  cases found
  exact holds

theorem Sound.isNested_of_depth (sound : table.Sound) (member : definition ∈ table.attributes)
    (deep : definition.path.depth ≠ 1) : definition.carrier.isNested = true := by
  cases flat : definition.carrier.isNested with
  | true => rfl
  | false => exact absurd ((sound.placed member).top flat).1 deep

theorem isNested_of_contains (sound : table.Sound) (member : definition ∈ table.attributes)
    (contains : table.Contains container definition) : definition.carrier.isNested = true := by
  refine sound.isNested_of_depth member ?_
  have total := TypePath.depth_of_ancestor? contains.placed
  have levels := Lowering.levels_pos definition.carrier
  have higher := container.path.depth_pos
  omega

theorem Contains.atOrAbove (contains : table.Contains container definition) :
    container.path.AtOrAbove definition.path := by
  obtain ⟨segments, -, joined⟩ := TypePath.ancestor?_eq_some_iff.mp contains.placed
  exact TypePath.atOrAbove_iff.mpr ⟨segments, joined⟩

theorem Unhidden.outward (unhidden : table.Unhidden definition)
    (contains : table.Contains container definition) : table.Unhidden container :=
  fun outer listed above => unhidden outer listed (above.trans contains.atOrAbove)

theorem Unhidden.filter (unhidden : table.Unhidden definition)
    (member : definition ∈ table.attributes) : definition.filter = none :=
  unhidden definition member ⟨rfl, List.prefix_rfl⟩

theorem lowers_of_below (sound : table.Sound) (member : definition ∈ table.attributes)
    (unhidden : table.Unhidden definition) (obtained : value.Obtained)
    (made : definition.make value = .ok entry) (contains : table.Contains container definition)
    (top : container.path.isTopLevel = true) :
    ∃ records rest, Lowering.Lowers exchange table.toDictionary entry source records rest := by
  have nested := isNested_of_contains sound member contains
  have holds := holds_of_contains sound member nested contains
  obtain ⟨last, final⟩ :=
    AttributeDefinition.lastOctet_of_flaw? (flaw?_of_made sound member made) nested
  obtain ⟨around, ⟨wrapped, built⟩, typed, fits⟩ :=
    container_of_made sound member obtained made contains top holds final entry.truncated
  obtain ⟨outer, outside⟩ := make_top_container sound contains.listed top typed fits
  have flat : container.carrier.isNested = false := by
    rw [carrier_of_top sound contains.listed top, Carrier.isNested_ofTopLevel]
  obtain ⟨records, above⟩ := lowers_of_top sound contains.listed flat
    ((unhidden.outward contains).filter contains.listed) (.container built) outside
  exact (lowers_nested_iff sound member nested (unhidden.filter member) made).mpr
    ⟨outer, (enclose_eq_ok_iff sound contains final).mpr ⟨around, wrapped, outside⟩, records, _, above⟩

end Steps

section Boxes

variable {table : DefinitionTable} {exchange : Exchange} {source : Entropy}
  {definition box : AttributeDefinition} {value : Value} {entry : Attribute}

theorem BoxedIn.exists_top (sound : table.Sound) (boxed : table.BoxedIn definition box) :
    ∃ around, table.Contains around box ∧ around.path.isTopLevel = true := by
  have nested := sound.isNested_of_depth boxed.listed (by rw [boxed.shallow]; decide)
  obtain ⟨around, contains, -⟩ := sound.exists_container boxed.listed nested
  refine ⟨around, contains, isTopLevel_iff_depth.mpr ?_⟩
  have total := TypePath.depth_of_ancestor? contains.placed
  have levels := Lowering.levels_pos box.carrier
  have higher := around.path.depth_pos
  rw [boxed.shallow] at total
  omega

theorem BoxedIn.lastOctet (boxed : table.BoxedIn definition box) :
    ∃ last, box.lastOctet = .ok last := by
  unfold AttributeDefinition.lastOctet TypePath.lastOctet
  rw [if_pos boxed.octet]
  exact ⟨_, rfl⟩

theorem lowers_boxed_iff (sound : table.Sound) (member : definition ∈ table.attributes)
    (unhidden : table.Unhidden definition) (made : definition.make value = .ok entry)
    (boxed : table.BoxedIn definition box) {last : UInt8}
    (final : definition.lastOctet = .ok last) :
    (∃ records rest, Lowering.Lowers exchange table.toDictionary entry source records rest) ↔
      ∃ outer, box.make (.container (.evs definition.path.beforeLast last value.octets)) =
        .ok outer := by
  have contains := boxed.toContains
  have nested := isNested_of_contains sound member contains
  obtain ⟨wrapped, built⟩ :=
    container_vendor (flaw?_of_made sound member made) boxed.vendor (.inr ⟨boxed.typed, rfl⟩)
  rw [lowers_nested_iff sound member nested (unhidden.filter member) made]
  constructor
  · rintro ⟨outer, enclosed, -⟩
    obtain ⟨around, same, outside⟩ := (enclose_eq_ok_iff sound contains final).mp enclosed
    cases wrapped.symm.trans same
    exact ⟨outer, outside⟩
  · rintro ⟨outer, outside⟩
    obtain ⟨around, outward, top⟩ := boxed.exists_top sound
    exact ⟨outer, (enclose_eq_ok_iff sound contains final).mpr ⟨_, wrapped, outside⟩,
      lowers_of_below sound boxed.listed (unhidden.outward contains) (.container built)
        outside outward top⟩

/-- A long extended box takes a value of any length; an extended one keeps six octets of its record
for the two headers. -/
theorem make_box_iff (boxed : table.BoxedIn definition box) {vendor : UInt32} {type : UInt8}
    {payload : Octets} :
    (box.carrier = .longExtended → ∃ outer, box.make (.container (.evs vendor type payload)) =
        .ok outer) ∧
      (box.carrier = .extended → ((∃ outer, box.make (.container (.evs vendor type payload)) =
        .ok outer) ↔ payload.length ≤ 247)) := by
  have typed : (Value.container (.evs vendor type payload)).dataType = box.dataType :=
    boxed.typed.symm
  obtain ⟨octet, final⟩ := boxed.lastOctet
  constructor
  · intro carried
    exact make_longExtended typed carried boxed.shallow final
  · intro carried
    rw [make_extended_iff typed carried boxed.shallow final]
    change 5 + payload.length ≤ 252 ↔ _
    omega

theorem sends_iff : table.Sends exchange entry source ↔
    ∃ records rest, Lowering.Lowers exchange table.toDictionary entry source records rest := by
  constructor
  · rintro ⟨records, rest, lowered, -⟩
    obtain ⟨front, middle, -, lowers, -, -⟩ := Lowering.lowerAll_cons_eq_ok_iff.mp lowered
    exact ⟨front, middle, lowers⟩
  · rintro ⟨records, rest, lowers⟩
    refine ⟨records, rest, ?_, fun record _ => record.length_le⟩
    exact Lowering.lowerAll_cons_eq_ok_iff.mpr ⟨records, rest, [], lowers,
      Lowering.lowerAll_nil_eq_ok_iff.mpr ⟨rfl, rfl⟩, (List.append_nil records).symm⟩

/-- What the constructor of an attribute promises. Where it knows all headers, what it builds is
sent; where an EVS stands in an extended attribute, only what leaves room for both headers is. -/
theorem sends_of_make (reachable : table.Reachable) (member : definition ∈ table.attributes)
    (unhidden : table.Unhidden definition) (obtained : value.Obtained)
    (made : definition.make value = .ok entry) (exchange : Exchange) (source : Entropy) :
    (table.Roomy definition → table.Sends exchange entry source) ∧
      ∀ box, table.BoxedIn definition box → box.carrier = .extended →
        (table.Sends exchange entry source ↔ value.encodedLength ≤ 247) := by
  have sound := sound_of_reachable reachable
  have final {box : AttributeDefinition} (boxed : table.BoxedIn definition box) :
      ∃ last, definition.lastOctet = .ok last :=
    AttributeDefinition.lastOctet_of_flaw? (flaw?_of_made sound member made)
      (isNested_of_contains sound member boxed.toContains)
  constructor
  · intro roomy
    rw [sends_iff]
    cases roomy with
    | top top =>
        have flat : definition.carrier.isNested = false := by
          rw [carrier_of_top sound member top, Carrier.isNested_ofTopLevel]
        obtain ⟨records, lowers⟩ :=
          lowers_of_top sound member flat (unhidden.filter member) obtained made
        exact ⟨records, source, lowers⟩
    | below contains top => exact lowers_of_below sound member unhidden obtained made contains top
    | boxed boxed long =>
        obtain ⟨last, final⟩ := final boxed
        exact (lowers_boxed_iff sound member unhidden made boxed final).mpr
          ((make_box_iff boxed).1 long)
  · intro box boxed carried
    obtain ⟨last, final⟩ := final boxed
    rw [sends_iff, lowers_boxed_iff sound member unhidden made boxed final,
      (make_box_iff boxed).2 carried, obtained.length_octets]

def narrowVendorString : AttributeDefinition :=
  ⟨⟨241, [26, 9, 1]⟩, "Narrow-Vendor-String", .string, .vendorSpecific, none⟩

def narrowBox : AttributeDefinition :=
  ⟨⟨241, [26]⟩, "Extended-Vendor-Specific-1", .evs, .extended, none⟩

def deepBox : AttributeDefinition :=
  ⟨⟨245, [26]⟩, "Extended-Vendor-Specific-5", .evs, .longExtended, none⟩

def boxedVendors : DefinitionTable := deepVendor.insertAttribute narrowVendorString

theorem reachable_boxedVendors : boxedVendors.Reachable := by
  have defined : deepVendor.defineAttribute ⟨241, [26, 9, 1]⟩ "Narrow-Vendor-String" .string none =
      .ok narrowVendorString := by decide +kernel
  exact .addAttribute reachable_deepVendor (addAttribute_eq_ok defined)

def filledString (count : Nat) : Value := .plain (.string (List.replicate count 0xAA))

/-- The long box sends what the narrow one refuses; that one takes no octet more than 247. -/
theorem sends_of_make_boxedVendors :
    (boxedVendors.BoxedIn deepVendorString deepBox ∧ deepBox.carrier = .longExtended ∧
      ∃ entry, deepVendorString.make (filledString 300) = .ok entry ∧
        boxedVendors.Sends Exchange.sample entry (Entropy.cycle [])) ∧
    boxedVendors.BoxedIn narrowVendorString narrowBox ∧ narrowBox.carrier = .extended ∧
      ∃ fitting long, narrowVendorString.make (filledString 247) = .ok fitting ∧
        narrowVendorString.make (filledString 248) = .ok long ∧
        boxedVendors.Sends Exchange.sample fitting (Entropy.cycle []) ∧
        ¬boxedVendors.Sends Exchange.sample long (Entropy.cycle []) := by
  have obtained (count : Nat) : (filledString count).Obtained := .plain (.string _)
  have deepMember : deepVendorString ∈ boxedVendors.attributes := by decide +kernel
  have deepUnhidden : boxedVendors.Unhidden deepVendorString := by
    unfold Unhidden
    decide +kernel
  have deepBoxed : boxedVendors.BoxedIn deepVendorString deepBox :=
    ⟨⟨by decide +kernel, by decide⟩, rfl, rfl, rfl, by decide⟩
  have deepMade : deepVendorString.make (filledString 300) =
      .ok (.vendorSpecific ⟨245, [26]⟩ 9 1 (filledString 300)) := by decide +kernel
  have member : narrowVendorString ∈ boxedVendors.attributes := by decide +kernel
  have unhidden : boxedVendors.Unhidden narrowVendorString := by
    unfold Unhidden
    decide +kernel
  have boxed : boxedVendors.BoxedIn narrowVendorString narrowBox :=
    ⟨⟨by decide +kernel, by decide⟩, rfl, rfl, rfl, by decide⟩
  have fitting : narrowVendorString.make (filledString 247) =
      .ok (.vendorSpecific ⟨241, [26]⟩ 9 1 (filledString 247)) := by decide +kernel
  have long : narrowVendorString.make (filledString 248) =
      .ok (.vendorSpecific ⟨241, [26]⟩ 9 1 (filledString 248)) := by decide +kernel
  have sent := (sends_of_make reachable_boxedVendors deepMember deepUnhidden (obtained 300) deepMade
    Exchange.sample (Entropy.cycle [])).1 (.boxed deepBoxed rfl)
  have room (count : Nat) {entry : Attribute}
      (made : narrowVendorString.make (filledString count) = .ok entry) :=
    (sends_of_make reachable_boxedVendors member unhidden (obtained count) made
      Exchange.sample (Entropy.cycle [])).2 narrowBox boxed rfl
  refine ⟨⟨deepBoxed, rfl, _, deepMade, sent⟩, boxed, rfl, _, _, fitting, long, ?_, ?_⟩
  · exact (room 247 fitting).mpr (by decide +kernel)
  · intro refused
    exact absurd ((room 248 long).mp refused) (by decide +kernel)

end Boxes

end DefinitionTable

end Radius

import Radius.Proofs.SentForm

/-!
The layout of attributes on the wire (RFC 2865, RFC 6929), said without the steps of sending. From
the octets of the value one walks the path upwards: each container that a table defines on the way
puts its header in front, and at the top there is one record, or, for a long extended attribute, as
many records as its octets fill. Attributes are sent in exactly this layout.
-/

namespace Radius

/-- The values of the records that carry one long extended value: 251 octets in every record but the
last, behind the extended type and the flags. -/
def fragmentValues (extendedType : UInt8) (truncated : Bool) (payload : Octets) : List Octets :=
  let count := max 1 ((payload.length + 250) / 251)
  (List.range count).map fun index =>
    extendedType :: (if index + 1 < count then 0x80 else if truncated then 0x40 else 0) ::
      (payload.drop (251 * index)).take 251

namespace DefinitionTable

variable (table : DefinitionTable)

def typeAt? (path : TypePath) : Option DataType :=
  (table.attribute? path).map AttributeDefinition.dataType

/-- What a vendor container of the type puts in front of a payload. The length octet of a VSA counts
the vendor type and itself. -/
def vendorHeader? (vendor : UInt32) (vendorType : UInt8) (payload : Octets) :
    DataType → Option Octets
  | .vsa =>
      if 2 + payload.length < 256 then
        some (Octets.bigEndian 4 vendor.toNat ++ [vendorType, UInt8.ofNat (2 + payload.length)])
      else none
  | .evs => some (Octets.bigEndian 4 vendor.toNat ++ [vendorType])
  | _ => none

/-- The values of the records that carry a payload, which stands below the head of its path by the
segments, the last one first. Long extended attributes stand at the top level only. -/
def climb (head : UInt8) (truncated : Bool) : List UInt32 → Octets → Option (List Octets)
  | [], payload => some [payload]
  | last :: above, payload =>
      match table.typeAt? ⟨head, above.reverse⟩ with
      | some .extended => climb head truncated above (last.toUInt8 :: payload)
      | some .longExtended => some (fragmentValues last.toUInt8 truncated payload)
      | _ =>
          match above with
          | [] => none
          | vendor :: outer => do
              let type ← table.typeAt? ⟨head, outer.reverse⟩
              let header ← vendorHeader? vendor last.toUInt8 payload type
              climb head truncated outer (header ++ payload)

/-- The values of the records that carry an attribute with a value. At the top level a value in
pieces has a record for every piece, and a long extended value is split. -/
def layout (path : TypePath) (truncated : Bool) (value : Value) : Option (List Octets) :=
  match path.tail.reverse, value with
  | [], .concat joined => some joined.fragments
  | [], .container (.longExtended extendedType _ cut payload) =>
      some (fragmentValues extendedType cut payload)
  | segments, value => table.climb path.head truncated segments value.octets

end DefinitionTable

section Fragments

variable {extendedType : UInt8} {truncated : Bool} {payload : Octets}

theorem fragmentValues_short (short : payload.length ≤ 251) :
    fragmentValues extendedType truncated payload =
      [extendedType :: (if truncated then 0x40 else 0) :: payload] := by
  have count : max 1 ((payload.length + 250) / 251) = 1 := by omega
  simp [fragmentValues, count, List.take_of_length_le short]

theorem fragmentValues_append {front back : Octets} (full : front.length = 251) (some : back ≠ []) :
    fragmentValues extendedType truncated (front ++ back) =
      (extendedType :: 0x80 :: front) :: fragmentValues extendedType truncated back := by
  have positive := List.length_pos_iff.mpr some
  have more : max 1 (((front ++ back).length + 250) / 251) =
      max 1 ((back.length + 250) / 251) + 1 := by
    rw [List.length_append]
    omega
  simp only [fragmentValues, more]
  generalize counted : max 1 ((back.length + 250) / 251) = count
  have first : 0 + 1 < count + 1 := by omega
  rw [List.range_succ_eq_map, List.map_cons, List.map_map, if_pos first, Nat.mul_zero,
    List.drop_zero, List.take_left' full]
  congr 1
  apply List.map_congr_left
  intro index member
  have behind : (front ++ back).drop (251 * (index + 1)) = back.drop (251 * index) := by
    rw [Nat.mul_add_one, Nat.add_comm, ← List.drop_drop, List.drop_left' full]
  simp only [Function.comp_apply, Nat.succ_eq_add_one, behind, Nat.add_lt_add_iff_right]

theorem Lowering.split_of_short (short : payload.length ≤ 251) :
    split payload = [payload] := by
  unfold split
  split
  · rename_i empty
    rw [List.isEmpty_iff.mp empty]
  · rename_i filled
    exact Octets.chunks_of_length_le (by simpa using filled) short

theorem Lowering.split_append {front back : Octets} (full : front.length = 251) (some : back ≠ []) :
    split (front ++ back) = front :: split back := by
  have filled : (front ++ back).isEmpty = false := by simp [some]
  have rest : back.isEmpty = false := by simp [some]
  simp only [split, filled, rest, Bool.false_eq_true, if_false]
  exact Octets.chunks_append full

theorem Lowering.octets_pieces (payload : Octets) :
    (pieces extendedType truncated (split payload)).map Container.octets =
      fragmentValues extendedType truncated payload := by
  -- a longer value is its first full piece and a shorter value
  induction size : payload.length using Nat.strongRecOn generalizing payload with
  | ind bound ih =>
      by_cases short : payload.length ≤ 251
      · rw [split_of_short short, fragmentValues_short short]
        cases truncated <;> rfl
      · have full : (payload.take 251).length = 251 := by
          rw [List.length_take]
          omega
        have shorter : (payload.drop 251).length < bound := by
          rw [List.length_drop]
          omega
        have some : payload.drop 251 ≠ [] := by
          apply List.ne_nil_of_length_pos
          rw [List.length_drop]
          omega
        have later := ih _ shorter (payload.drop 251) rfl
        rw [← List.take_append_drop 251 payload, split_append full some,
          Lifting.pieces_cons (Lifting.flatten_split _).1, List.map_cons, later,
          fragmentValues_append full some]
        rfl

theorem Lowering.values_of_fragments {type : UInt8} {records : List Record}
    (sent : fragments type extendedType truncated payload = .ok records) :
    (∀ record ∈ records, record.type = type) ∧
      records.map Record.value = fragmentValues extendedType truncated payload := by
  have made : ((pieces extendedType truncated (split payload)).map Container.octets).mapM
      (Record.make type) = .ok records := by
    rw [List.mapM_map]
    exact sent
  rw [octets_pieces] at made
  exact Lifting.of_mapM_make made

end Fragments

theorem Attribute.truncated_of_make {definition : AttributeDefinition} {value : Value}
    {fresh : Attribute} (made : definition.make value = .ok fresh) : fresh.truncated = false := by
  cases definition.shapes_of_make made <;> rfl

theorem Attribute.BuiltBy.unmarked {entry : Attribute} {definition : AttributeDefinition}
    {value : Value} (built : entry.BuiltBy definition value)
    (carried : definition.carrier ≠ .longExtended) : entry.truncated = false := by
  obtain ⟨fresh, truncated, made, rfl⟩ := built.made
  rw [Attribute.markTruncated_of_make made carried]
  exact Attribute.truncated_of_make made

namespace DefinitionTable

variable {table : DefinitionTable} {path : TypePath} {definition parent : AttributeDefinition}
  {truncated : Bool} {value : Value}

theorem typeAt?_eq (known : table.attribute? path = some definition) :
    table.typeAt? path = some definition.dataType := by
  rw [typeAt?, known, Option.map_some]

theorem layout_undivided (joined : value.dataType ≠ .concat) (long : value.dataType ≠ .longExtended) :
    table.layout path truncated value =
      table.climb path.head truncated path.tail.reverse value.octets := by
  unfold layout
  split
  · contradiction
  · contradiction
  · rfl

theorem layout_container {container : Container} (whole : container.dataType ≠ .longExtended) :
    table.layout path truncated (.container container) =
      table.climb path.head truncated path.tail.reverse container.octets := by
  apply layout_undivided
  · cases container <;> simp [Value.dataType, Container.dataType]
  · exact whole

theorem layout_below (above : TypePath) (segment : UInt32) :
    table.layout (above.child segment) truncated value =
      table.climb above.head truncated (segment :: above.tail.reverse) value.octets := by
  have reversed : (above.child segment).tail.reverse = segment :: above.tail.reverse := by
    simp [TypePath.child, TypePath.append]
  unfold layout
  rw [reversed]
  rfl

theorem layout_below_vendor (above : TypePath) (vendor segment : UInt32) :
    table.layout (above.append [vendor, segment]) truncated value =
      table.climb above.head truncated (segment :: vendor :: above.tail.reverse) value.octets := by
  rw [TypePath.append_pair, layout_below]
  simp [TypePath.child, TypePath.append]

section Climb

variable {outer : TypePath} {segment vendor : UInt32} {payload : Octets}

theorem climb_extended (above : table.typeAt? outer = some .extended) :
    table.climb outer.head truncated (segment :: outer.tail.reverse) payload =
      table.climb outer.head truncated outer.tail.reverse (segment.toUInt8 :: payload) := by
  rw [climb.eq_def]
  simp only [List.reverse_reverse, above]

theorem climb_longExtended (above : table.typeAt? outer = some .longExtended) :
    table.climb outer.head truncated (segment :: outer.tail.reverse) payload =
      some (fragmentValues segment.toUInt8 truncated payload) := by
  rw [climb.eq_def]
  simp only [List.reverse_reverse, above]

theorem climb_vendor {type : DataType} {header : Octets}
    (between : table.attribute? (outer.child vendor) = none)
    (above : table.typeAt? outer = some type)
    (front : vendorHeader? vendor segment.toUInt8 payload type = some header) :
    table.climb outer.head truncated (segment :: vendor :: outer.tail.reverse) payload =
      table.climb outer.head truncated outer.tail.reverse (header ++ payload) := by
  have reversed : (vendor :: outer.tail.reverse).reverse = (outer.child vendor).tail := by
    simp [TypePath.child, TypePath.append]
  have undefined : table.typeAt? ⟨outer.head, (outer.child vendor).tail⟩ = none := by
    change table.typeAt? (outer.child vendor) = none
    rw [typeAt?, between, Option.map_none]
  rw [climb, reversed, undefined]
  simp only [List.reverse_reverse, above, Option.bind_eq_bind, Option.bind_some, front]

end Climb

theorem topLevel_above_long {entry : Attribute} (built : entry.BuiltBy definition value)
    (carried : definition.carrier = .longExtended) {above : TypePath} {segment : UInt32}
    (place : above.child segment = definition.path) : above = .topLevel above.head := by
  obtain ⟨fresh, truncated, made, -⟩ := built.made
  have nested : definition.path.depth = 2 := by
    cases definition.shapes_of_make made with
    | longExtended _ octet nested => exact nested
    | _ => simp_all
  rw [← place, TypePath.child, TypePath.depth_append, List.length_singleton] at nested
  cases above with
  | mk head tail =>
      have none : tail = [] := List.length_eq_zero_iff.mp (by simpa [TypePath.depth] using nested)
      rw [none]
      rfl

section Step

variable {entry outer : Attribute} {container : Container}

/-- A step of enclosing puts the header of the container in front of the octets, as the layout
does. -/
theorem layout_of_encloses (sound : table.Sound)
    (encloses : Lowering.Encloses table.toDictionary definition entry.truncated value.octets parent
      container outer)
    (built : entry.BuiltBy definition value) :
    table.layout outer.path outer.truncated (.container container) =
      table.layout entry.path entry.truncated value := by
  obtain ⟨known, made, fits, inside, place, carried, marked, final⟩ := encloses
  have listed : table.attribute? outer.path = some parent := known
  have typed := AttributeDefinition.dataType_of_make made
  have above := typeAt?_eq listed
  have fresh := Attribute.truncated_of_make made
  have unmarked : container.innerCarrier ≠ .longExtended → entry.truncated = false :=
    fun other => built.unmarked (carried ▸ other)
  rw [← typed] at above
  rw [built.path_eq, ← place, fresh]
  -- only a long extended container shows the mark, and only at the top level
  cases container with
  | extended extendedType inner =>
      have bare := unmarked (by simp [Container.innerCarrier])
      change _ = table.layout (outer.path.child extendedType.toUInt32) entry.truncated value
      rw [layout_below, climb_extended above, layout_container (by simp [Container.dataType]), bare,
        UInt8.toUInt8_toUInt32, ← inside]
      rfl
  | longExtended extendedType more cut inner =>
      have top := topLevel_above_long built carried.symm place
      rw [← carried] at marked
      cases marked
      cases inside
      change _ = table.layout (outer.path.child extendedType.toUInt32) entry.truncated value
      rw [layout_below, climb_longExtended above, top, UInt8.toUInt8_toUInt32]
      rfl
  | vsa vendor vendorType inner =>
      have bare := unmarked (by simp [Container.innerCarrier])
      have between := attribute?_below_vendor sound listed (.inl typed.symm) vendor
      have short : 2 + inner.length < 256 := by
        have most : inner.length ≤ 247 := fits.2
        omega
      have front : vendorHeader? vendor vendorType inner .vsa = some (Octets.bigEndian 4
          vendor.toNat ++ [vendorType, UInt8.ofNat (2 + inner.length)]) := if_pos short
      change _ = table.layout (outer.path.append [vendor, vendorType.toUInt32]) entry.truncated value
      rw [layout_below_vendor, ← inside, Container.payload, climb_vendor between above
        (by rw [UInt8.toUInt8_toUInt32]; exact front),
        layout_container (by simp [Container.dataType]), bare, List.append_assoc]
      rfl
  | evs vendor vendorType inner =>
      have bare := unmarked (by simp [Container.innerCarrier])
      have between := attribute?_below_vendor sound listed (.inr typed.symm) vendor
      change _ = table.layout (outer.path.append [vendor, vendorType.toUInt32]) entry.truncated value
      rw [layout_below_vendor, ← inside, Container.payload, climb_vendor between above rfl,
        layout_container (by simp [Container.dataType]), bare, UInt8.toUInt8_toUInt32,
        List.append_assoc]
      rfl

end Step

structure LaidOut (table : DefinitionTable) (entry : Attribute) (value : Value)
    (records : List Record) : Prop where
  types : ∀ record ∈ records, record.type = entry.path.head
  values : table.layout entry.path entry.truncated value = some (records.map Record.value)

section Top

variable {exchange : Exchange} {entry : Attribute} {source rest : Entropy} {records : List Record}

theorem laidOut_standard (layered : table.toDictionary.Layered)
    (known : table.attribute? definition.path = some definition)
    (built : entry.BuiltBy definition value) (clear : definition.filter = none)
    (carried : definition.carrier = .standard) {octets : Octets} {record : Record}
    (sent : definition.encodeValue exchange value source = (.ok octets, rest))
    (made : Record.make definition.path.head octets = .ok record) :
    table.LaidOut entry value [record] := by
  have top := Lifting.isTopLevel_of_carrier layered known (by rw [carried]; rfl)
  have inferred := layered.top known ((TypePath.isTopLevel_iff _).mpr top)
  obtain ⟨typed, rfl, -⟩ := (AttributeDefinition.encodeValue_clear clear).mp sent
  obtain ⟨type, spelled⟩ := Record.make_eq_ok_iff.mp made
  rw [carried, ← typed] at inferred
  refine ⟨?_, ?_⟩
  · intro other member
    rw [List.mem_singleton.mp member, type, built.path_eq]
  · rw [built.path_eq, layout_undivided, top, List.map_singleton, spelled]
    · rfl
    · intro joined
      rw [joined] at inferred
      contradiction
    · intro long
      rw [long] at inferred
      contradiction

theorem laidOut_run (layered : table.toDictionary.Layered)
    (known : table.attribute? definition.path = some definition)
    (built : entry.BuiltBy definition value) (flat : definition.carrier.isNested = false)
    (types : ∀ record ∈ records, record.type = definition.path.head)
    (laid : table.layout (.topLevel definition.path.head) entry.truncated value =
      some (records.map Record.value)) : table.LaidOut entry value records := by
  have top := Lifting.isTopLevel_of_carrier layered known flat
  refine ⟨built.path_eq ▸ types, ?_⟩
  rw [built.path_eq, top]
  exact laid

theorem laidOut_fragmented (layered : table.toDictionary.Layered)
    (known : table.attribute? definition.path = some definition)
    (built : entry.BuiltBy definition value) (carried : definition.carrier = .fragmented)
    (split : Lowering.fragmentedRecords definition.path.head value = .ok records) :
    table.LaidOut entry value records := by
  unfold Lowering.fragmentedRecords at split
  split at split
  · obtain ⟨types, values⟩ := Lowering.values_of_fragments (Result.mapError_eq_ok_iff.mp split)
    exact laidOut_run layered known built (by rw [carried]; rfl) types (congrArg some values.symm)
  · contradiction

theorem laidOut_concat (layered : table.toDictionary.Layered)
    (known : table.attribute? definition.path = some definition)
    (built : entry.BuiltBy definition value) (carried : definition.carrier = .concat)
    (split : Lowering.concatRecords definition.path.head value = .ok records) :
    table.LaidOut entry value records := by
  unfold Lowering.concatRecords at split
  split at split
  · obtain ⟨types, values⟩ := Lifting.of_mapM_make (Result.mapError_eq_ok_iff.mp split)
    exact laidOut_run layered known built (by rw [carried]; rfl) types (congrArg some values.symm)
  · contradiction

end Top

/-- The run of lowering: what encloses an attribute is laid out as the attribute itself, up to the
top level. -/
theorem laidOut_of_lowers (sound : table.Sound) (layered : table.toDictionary.Layered)
    {exchange : Exchange} {entry : Attribute} {source rest : Entropy} {records : List Record}
    (lowers : Lowering.Lowers exchange table.toDictionary entry source records rest)
    (known : table.attribute? definition.path = some definition)
    (built : entry.BuiltBy definition value)
    (clear : ∀ outer ∈ table.attributes, outer.path.AtOrAbove definition.path →
      outer.filter = none) : table.LaidOut entry value records := by
  have unfiltered : definition.filter = none :=
    clear definition (mem_of_attribute? known).1 ⟨rfl, List.prefix_rfl⟩
  -- each step has another definition and value, with nothing filtered above it either
  induction lowers generalizing definition value with
  | raw record source =>
      have holds := built.value?_eq
      contradiction
  | standard holds listed carried sent made =>
      cases holds.symm.trans built.value?_eq
      cases (built.path_eq ▸ listed).symm.trans known
      exact laidOut_standard layered known built unfiltered carried sent made
  | fragmented holds listed carried split =>
      cases holds.symm.trans built.value?_eq
      cases (built.path_eq ▸ listed).symm.trans known
      exact laidOut_fragmented layered known built carried split
  | concat holds listed carried split =>
      cases holds.symm.trans built.value?_eq
      cases (built.path_eq ▸ listed).symm.trans known
      exact laidOut_concat layered known built carried split
  | @enclosed entry outer found held source middle rest payload records holds listed nested sent
      enclosed above ih =>
      cases holds.symm.trans built.value?_eq
      cases (built.path_eq ▸ listed).symm.trans known
      obtain ⟨-, rfl, -⟩ := (AttributeDefinition.encodeValue_clear unfiltered).mp sent
      obtain ⟨parent, container, encloses⟩ := Lowering.encloses_of_enclose nested enclosed
      have around := Attribute.BuiltBy.of_fresh encloses.made
      have listedAbove : table.attribute? parent.path = some parent :=
        around.path_eq ▸ encloses.known
      have higher : outer.path.AtOrAbove found.path :=
        TypePath.atOrAbove_iff.mpr ⟨container.segments, encloses.path_eq⟩
      have clearAbove : ∀ other ∈ table.attributes, other.path.AtOrAbove parent.path →
          other.filter = none := by
        intro other member place
        rw [← around.path_eq] at place
        exact clear other member (place.trans higher)
      have laid := ih listedAbove around clearAbove
        (clearAbove parent (mem_of_attribute? listedAbove).1 ⟨rfl, List.prefix_rfl⟩)
      refine ⟨?_, ?_⟩
      · rw [built.path_eq, ← higher.1]
        exact laid.types
      · rw [← layout_of_encloses sound encloses built]
        exact laid.values

/-- What is sent for an attribute with no filter at or above it is the layout of its path, at any
depth, in records of the type that the path starts with. -/
theorem laidOut_of_lowerAll {table : DefinitionTable} (reachable : table.Reachable)
    {exchange : Exchange} {definition : AttributeDefinition} {value : Value} {fresh : Attribute}
    {source rest : Entropy} {records : List Record} (member : definition ∈ table.attributes)
    (made : definition.make value = .ok fresh) (truncated : Bool)
    (clear : ∀ outer ∈ table.attributes, outer.path.AtOrAbove definition.path →
      outer.filter = none)
    (lowered : lowerAll exchange table.toDictionary [fresh.markTruncated truncated] source =
      (.ok records, rest)) :
    (∀ record ∈ records, record.type = definition.path.head) ∧
      table.layout definition.path (fresh.markTruncated truncated).truncated value =
        some (records.map Record.value) := by
  have sound := sound_of_reachable reachable
  have built := Attribute.BuiltBy.of_make made truncated
  obtain ⟨front, middle, later, lowers, remains, rfl⟩ :=
    Lowering.lowerAll_cons_eq_ok_iff.mp lowered
  obtain ⟨rfl, -⟩ := Lowering.lowerAll_nil_eq_ok_iff.mp remains
  obtain ⟨types, values⟩ := laidOut_of_lowers sound (layered_of_reachable reachable) lowers
    (attribute?_of_mem sound member) built clear
  rw [built.path_eq] at types values
  rw [List.append_nil]
  exact ⟨types, values⟩

def longVendorValue : Value := .plain (.string (List.replicate 300 0xAA))

theorem laidOut_of_lowerAll_longVendorValue :
    deepVendor.Reachable ∧ deepVendorString ∈ deepVendor.attributes ∧
      (∀ outer ∈ deepVendor.attributes, outer.path.AtOrAbove deepVendorString.path →
        outer.filter = none) ∧
      ∃ fresh records rest, deepVendorString.make longVendorValue = .ok fresh ∧
        lowerAll Exchange.sample deepVendor.toDictionary [fresh.markTruncated false]
          (Entropy.cycle []) = (.ok records, rest) ∧
        (∀ record ∈ records, record.type = deepVendorString.path.head) ∧
        deepVendor.layout deepVendorString.path (fresh.markTruncated false).truncated
          longVendorValue = some (records.map Record.value) := by
  have member : deepVendorString ∈ deepVendor.attributes := by decide +kernel
  have clear : ∀ outer ∈ deepVendor.attributes, outer.path.AtOrAbove deepVendorString.path →
      outer.filter = none := by decide +kernel
  have made : deepVendorString.make longVendorValue =
      .ok (.vendorSpecific ⟨245, [26]⟩ 9 1 longVendorValue) := by decide +kernel
  have sent : (lowerAll Exchange.sample deepVendor.toDictionary
      [(Attribute.vendorSpecific ⟨245, [26]⟩ 9 1 longVendorValue).markTruncated false]
      (Entropy.cycle [])).1.toOption.isSome = true := by decide +kernel
  rcases ran : lowerAll Exchange.sample deepVendor.toDictionary
    [(Attribute.vendorSpecific ⟨245, [26]⟩ 9 1 longVendorValue).markTruncated false]
    (Entropy.cycle []) with ⟨result, rest⟩
  rw [ran] at sent
  cases result with
  | error cause => cases sent
  | ok records =>
      obtain ⟨types, values⟩ := laidOut_of_lowerAll reachable_deepVendor member made false clear ran
      exact ⟨reachable_deepVendor, member, clear, _, records, rest, made, ran, types, values⟩

example : deepVendor.layout deepVendorString.path false longVendorValue =
    some [[26, 0x80, 0, 0, 0, 9, 1] ++ List.replicate 246 0xAA,
      [26, 0] ++ List.replicate 54 0xAA] := by
  decide +kernel

end DefinitionTable

end Radius

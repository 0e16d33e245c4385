import Mathlib.Data.List.Nodup
import Radius.Proofs.TableGrowth

/-!
The lookups of a table, taken together. Every definition is found under its own path, name or code
and under no other, because the checks of an addition let no key occur twice; and what a lookup has
found once it finds after every addition, because additions go behind what is there.
-/

namespace Radius

namespace DefinitionTable

/-- No key is taken twice, and what refers to a path refers to one that is defined. -/
structure Keyed (table : DefinitionTable) : Prop extends Sound table where
  names : (table.attributes.map AttributeDefinition.name).Nodup
  records : (table.tlvs.map TlvDefinition.path).Nodup
  codes : (table.packets.map PacketDefinition.code).Nodup
  below : ∀ definition ∈ table.tlvs, definition.path.isTopLevel = false
  owned : ∀ entry ∈ table.values, (table.attribute? entry.path).isSome

structure Consistent (table : DefinitionTable) : Prop where
  attribute_iff : ∀ path definition, table.attribute? path = some definition ↔
    definition ∈ table.attributes ∧ definition.path = path
  named_iff : ∀ name definition, table.attributeNamed? name = some definition ↔
    definition ∈ table.attributes ∧ definition.name = name
  tlv_iff : ∀ path definition, table.tlv? path = some definition ↔
    definition ∈ table.tlvs ∧ definition.path = path
  packet_iff : ∀ code definition, table.packet? code = some definition ↔
    definition ∈ table.packets ∧ definition.code = code
  bijective : ∀ left ∈ table.attributes, ∀ right ∈ table.attributes,
    left.path = right.path ↔ left.name = right.name
  numbered : ∀ path name number, table.numericValue? path name = some number →
    (table.attribute? path).isSome
  valued : ∀ path number name, table.valueName? path number = some name →
    (table.attribute? path).isSome
  leaves : ∀ path definition, table.tlv? path = some definition →
    path.isTopLevel = false ∧ definition.dataType.isContainer = false

/-- What one table finds the other finds too, except for numbers, which names can be given anew. -/
structure Extends (table extended : DefinitionTable) : Prop where
  attributes : ∀ path definition, table.attribute? path = some definition →
    extended.attribute? path = some definition
  named : ∀ name definition, table.attributeNamed? name = some definition →
    extended.attributeNamed? name = some definition
  tlvs : ∀ path definition, table.tlv? path = some definition →
    extended.tlv? path = some definition
  packets : ∀ code definition, table.packet? code = some definition →
    extended.packet? code = some definition
  valueNames : ∀ path number name, table.valueName? path number = some name →
    extended.valueName? path number = some name

section Keys

variable {table extended : DefinitionTable}

theorem exists_of_numericValue? {path : TypePath} {name : String} {number : Int32}
    (found : table.numericValue? path name = some number) :
    ∃ entry ∈ table.values, entry.path = path := by
  obtain ⟨entry, last, -⟩ := Option.map_eq_some_iff.mp found
  have fits := List.find?_some last
  exact ⟨entry, List.mem_reverse.mp (List.mem_of_find?_eq_some last),
    (by simpa using fits : _ ∧ _).1⟩

theorem exists_of_valueName? {path : TypePath} {name : String} {number : Int32}
    (found : table.valueName? path number = some name) :
    ∃ entry ∈ table.values, entry.path = path := by
  obtain ⟨entry, first, -⟩ := Option.map_eq_some_iff.mp found
  have fits := List.find?_some first
  exact ⟨entry, List.mem_of_find?_eq_some first, (by simpa using fits : _ ∧ _).1⟩

theorem Keyed.consistent (keyed : table.Keyed) : table.Consistent where
  attribute_iff _ _ := find?_eq_some_iff_of_nodup keyed.distinct
  named_iff _ _ := find?_eq_some_iff_of_nodup keyed.names
  tlv_iff _ _ := find?_eq_some_iff_of_nodup keyed.records
  packet_iff _ _ := find?_eq_some_iff_of_nodup keyed.codes
  bijective left leftMember right rightMember := by
    constructor
    · intro same
      rw [List.inj_on_of_nodup_map keyed.distinct leftMember rightMember same]
    · intro same
      rw [List.inj_on_of_nodup_map keyed.names leftMember rightMember same]
  numbered path name number found := by
    obtain ⟨entry, member, rfl⟩ := exists_of_numericValue? found
    exact keyed.owned entry member
  valued path number name found := by
    obtain ⟨entry, member, rfl⟩ := exists_of_valueName? found
    exact keyed.owned entry member
  leaves path definition found := by
    obtain ⟨member, rfl⟩ := (find?_eq_some_iff_of_nodup keyed.records).mp found
    exact ⟨keyed.below definition member, keyed.leaves definition member⟩

end Keys

section Extension

variable {table further extended : DefinitionTable}

theorem Extends.refl (table : DefinitionTable) : table.Extends table :=
  ⟨fun _ _ => id, fun _ _ => id, fun _ _ => id, fun _ _ => id, fun _ _ _ => id⟩

theorem Extends.trans (first : table.Extends further) (second : further.Extends extended) :
    table.Extends extended where
  attributes path definition found := second.attributes path definition (first.attributes _ _ found)
  named name definition found := second.named name definition (first.named _ _ found)
  tlvs path definition found := second.tlvs path definition (first.tlvs _ _ found)
  packets code definition found := second.packets code definition (first.packets _ _ found)
  valueNames path number name found :=
    second.valueNames path number name (first.valueNames _ _ _ found)

theorem extends_insertAttribute (definition : AttributeDefinition) :
    table.Extends (table.insertAttribute definition) :=
  { Extends.refl table with
    attributes := fun _ _ found => find?_append_of_some found _
    named := fun _ _ found => find?_append_of_some found _ }

theorem extends_insertTlv (definition : TlvDefinition) :
    table.Extends (table.insertTlv definition) :=
  { Extends.refl table with tlvs := fun _ _ found => find?_append_of_some found _ }

theorem extends_insertPacket (definition : PacketDefinition) :
    table.Extends (table.insertPacket definition) :=
  { Extends.refl table with packets := fun _ _ found => find?_append_of_some found _ }

theorem extends_insertValue (entry : NamedValue) : table.Extends (table.insertValue entry) :=
  { Extends.refl table with
    valueNames := fun path number name found => by
      obtain ⟨first, here, named⟩ := Option.map_eq_some_iff.mp found
      exact Option.map_eq_some_iff.mpr ⟨first, find?_append_of_some here _, named⟩ }

theorem Adds.extends {addition : Addition} (adds : table.Adds addition extended) :
    table.Extends extended := by
  cases adds with
  | attr => exact extends_insertAttribute _
  | tlv => exact extends_insertTlv _
  | value => exact extends_insertValue _
  | packet => exact extends_insertPacket _

theorem Extends.isSome_attribute? (extends_ : table.Extends extended) {path : TypePath}
    (found : (table.attribute? path).isSome) : (extended.attribute? path).isSome := by
  obtain ⟨definition, found⟩ := Option.isSome_iff_exists.mp found
  rw [extends_.attributes path definition found]
  rfl

theorem kept_keyed : Kept Keyed := by
  intro table extended addition keyed adds
  have grown := adds.extends
  have sound := kept_sound keyed.toSound adds
  cases adds with
  | attr _ unnamed _ =>
      exact { keyed with
        toSound := sound
        names := nodup_append_of_fresh keyed.names unnamed
        owned := fun entry member => grown.isSome_attribute? (keyed.owned entry member) }
  | tlv untaken below _ =>
      refine { keyed with
        toSound := sound
        records := nodup_append_of_fresh keyed.records untaken
        below := ?_ }
      intro definition member
      rcases List.mem_append.mp member with old | new
      · exact keyed.below definition old
      · rw [List.mem_singleton.mp new]
        exact below
  | value owned =>
      refine { keyed with toSound := sound, owned := ?_ }
      intro entry member
      rcases List.mem_append.mp member with old | new
      · exact keyed.owned entry old
      · rw [List.mem_singleton.mp new]
        exact owned
  | packet untaken =>
      exact { keyed with
        toSound := sound
        codes := nodup_append_of_fresh keyed.codes untaken }

theorem keyed_empty : DefinitionTable.empty.Keyed :=
  ⟨sound_of_reachable .empty, by decide, by decide, by decide, by decide, by decide⟩

/-- The tables of the standards are written out, without the checks; they would have passed. -/
theorem keyed_standard : DefinitionTable.standard.Keyed :=
  ⟨sound_standard, by decide +kernel, by decide, by decide +kernel, by decide, by decide +kernel⟩

theorem keyed_of_reachable (reachable : table.Reachable) : table.Keyed :=
  reachable.induction keyed_empty keyed_standard kept_keyed

theorem kept_extends (table : DefinitionTable) : Kept table.Extends :=
  fun _ _ _ grown adds => grown.trans adds.extends

end Extension

end DefinitionTable

end Radius

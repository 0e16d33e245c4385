import Mathlib.Logic.Function.Basic
import Radius.Proofs.TableKeys

/-!
A table as six maps, each of which an insertion updates on its own: definitions by path, the path of
every name, tree records by path, the number of every name, the name of every number, and packets by
code. Only the additions check anything; an insertion overwrites, except that the first name of a
number stays. Nothing in a map says that the others agree with it. They do agree, for the maps of a
table whose keys are distinct, and the maps then do what the table does, step by step.
-/

namespace Radius

section Maps

variable {item key value : Type} [DecidableEq key] (keyOf : item → key) (valueOf : item → value)

def enter (map : key → Option value) (entry : item) : key → Option value :=
  Function.update map (keyOf entry) (some (valueOf entry))

def enterFirst (map : key → Option value) (entry : item) : key → Option value :=
  if (map (keyOf entry)).isSome then map else enter keyOf valueOf map entry

theorem enter_apply (map : key → Option value) (entry : item) (sought : key) :
    enter keyOf valueOf map entry sought =
      if keyOf entry = sought then some (valueOf entry) else map sought := by
  rw [enter, Function.update_apply]
  exact if_congr eq_comm rfl rfl

theorem enterFirst_apply (map : key → Option value) (entry : item) (sought : key) :
    enterFirst keyOf valueOf map entry sought =
      (map sought).or (if keyOf entry = sought then some (valueOf entry) else none) := by
  unfold enterFirst
  split
  · rename_i taken
    split
    · rename_i same
      obtain ⟨old, found⟩ := Option.isSome_iff_exists.mp (same ▸ taken)
      rw [found, Option.some_or]
    · rw [Option.or_none]
  · rename_i untaken
    rw [enter_apply]
    split
    · rename_i same
      rw [← same, Option.not_isSome_iff_eq_none.mp untaken, Option.none_or]
    · rw [Option.or_none]

theorem foldl_enter_apply (items : List item) (map : key → Option value) (sought : key) :
    items.foldl (enter keyOf valueOf) map sought =
      ((items.reverse.find? fun entry => keyOf entry = sought).map valueOf).or (map sought) := by
  induction items generalizing map with
  | nil => rfl
  | cons first rest ih =>
      rw [List.foldl_cons, ih, enter_apply, List.reverse_cons, List.find?_append]
      cases rest.reverse.find? fun entry => keyOf entry = sought with
      | some later => rfl
      | none => by_cases same : keyOf first = sought <;> simp [same]

theorem foldl_enterFirst_apply (items : List item) (map : key → Option value) (sought : key) :
    items.foldl (enterFirst keyOf valueOf) map sought =
      (map sought).or ((items.find? fun entry => keyOf entry = sought).map valueOf) := by
  induction items generalizing map with
  | nil => rw [List.find?_nil, Option.map_none, Option.or_none, List.foldl_nil]
  | cons first rest ih =>
      rw [List.foldl_cons, ih, enterFirst_apply, List.find?_cons, Option.or_assoc]
      by_cases same : keyOf first = sought <;> simp [same]

theorem find?_reverse_of_nodup {items : List item} (distinct : (items.map keyOf).Nodup)
    (sought : key) : (items.reverse.find? fun entry => keyOf entry = sought) =
      items.find? fun entry => keyOf entry = sought := by
  have backwards : (items.reverse.map keyOf).Nodup := by
    rw [List.map_reverse]
    exact List.nodup_reverse.mpr distinct
  ext entry
  rw [find?_eq_some_iff_of_nodup backwards, find?_eq_some_iff_of_nodup distinct, List.mem_reverse]

end Maps

structure TableIndex where
  attributes : TypePath → Option AttributeDefinition
  names : String → Option TypePath
  tlvs : TypePath → Option TlvDefinition
  numbers : TypePath × String → Option Int32
  valueNames : TypePath × Int32 → Option String
  packets : UInt8 → Option PacketDefinition

namespace TableIndex

section Insertions

variable (index : TableIndex)

def insertAttribute (definition : AttributeDefinition) : TableIndex :=
  { index with
    attributes := enter AttributeDefinition.path id index.attributes definition
    names := enter AttributeDefinition.name AttributeDefinition.path index.names definition }

def insertTlv (definition : TlvDefinition) : TableIndex :=
  { index with tlvs := enter TlvDefinition.path id index.tlvs definition }

def insertValue (entry : NamedValue) : TableIndex :=
  { index with
    numbers := enter (fun entry => (entry.path, entry.name)) NamedValue.value index.numbers entry
    valueNames := enterFirst (fun entry => (entry.path, entry.value)) NamedValue.name
      index.valueNames entry }

def insertPacket (definition : PacketDefinition) : TableIndex :=
  { index with packets := enter PacketDefinition.code id index.packets definition }

end Insertions

section Additions

variable (index : TableIndex)

def attributeNamed? (name : String) : Option AttributeDefinition :=
  (index.names name).bind index.attributes

def enclosingType? (path : TypePath) (levels : Nat) : Option DataType := do
  let above ← path.ancestor? levels
  let definition ← index.attributes above
  return definition.dataType

def inferCarrier (path : TypePath) (type : DataType) : Except DictionaryError Carrier :=
  if path.isTopLevel then .ok (Carrier.ofTopLevel type)
  else if type = .longExtended ∨ type = .concat then
    .error (.invalidDefinition path (.topLevelOnly type))
  else match index.enclosingType? path 1, index.enclosingType? path 2 with
    | some .extended, _ => .ok .extended
    | some .longExtended, _ => .ok .longExtended
    | _, some .vsa | _, some .evs => .ok .vendorSpecific
    | _, _ => .error (.missingParent path)

def add : Addition → TableIndex × Option DictionaryError
  | .attr path name type filter =>
      if (index.attributes path).isSome then (index, some (.duplicateType path))
      else if (index.names name).isSome then (index, some (.duplicateName name))
      else match index.inferCarrier path type with
        | .error cause => (index, some cause)
        | .ok carrier => (index.insertAttribute ⟨path, name, type, carrier, filter⟩, none)
  | .tlv path name type =>
      if (index.tlvs path).isSome then (index, some (.duplicateType path))
      else if path.isTopLevel ∨ type.isContainer then
        (index, some (.invalidDefinition path (.noTreeRecord type)))
      else (index.insertTlv ⟨path, name, type⟩, none)
  | .value path name number =>
      if (index.attributes path).isSome then (index.insertValue ⟨path, name, number⟩, none)
      else (index, some (.unknownAttribute path.text))
  | .packet code name authenticator =>
      if (index.packets code).isSome then (index, some (.duplicateCode code))
      else (index.insertPacket ⟨code, name, authenticator⟩, none)

def apply (entry : DictionaryEntry) : TableIndex × Option DictionaryError :=
  match entry.resolve index.attributeNamed? with
  | .ok addition => index.add addition
  | .error cause => (index, some cause)

end Additions

def applyAll (index : TableIndex) :
    List DictionaryEntry → TableIndex × Option DictionaryError
  | [] => (index, none)
  | entry :: rest =>
      match index.apply entry with
      | (extended, none) => extended.applyAll rest
      | (stopped, some cause) => (stopped, some cause)

end TableIndex

namespace DefinitionTable

/-- The maps of a table: all that it lists, inserted in turn without a check. -/
def index (table : DefinitionTable) : TableIndex where
  attributes := table.attributes.foldl (enter AttributeDefinition.path id) fun _ => none
  names :=
    table.attributes.foldl (enter AttributeDefinition.name AttributeDefinition.path) fun _ => none
  tlvs := table.tlvs.foldl (enter TlvDefinition.path id) fun _ => none
  numbers := table.values.foldl
    (enter (fun entry => (entry.path, entry.name)) NamedValue.value) fun _ => none
  valueNames := table.values.foldl
    (enterFirst (fun entry => (entry.path, entry.value)) NamedValue.name) fun _ => none
  packets := table.packets.foldl (enter PacketDefinition.code id) fun _ => none

section Insertions

variable (table : DefinitionTable)

theorem index_insertAttribute (definition : AttributeDefinition) :
    (table.insertAttribute definition).index = table.index.insertAttribute definition := by
  simp only [index, insertAttribute, List.foldl_append, List.foldl_cons, List.foldl_nil,
    TableIndex.insertAttribute]

theorem index_insertTlv (definition : TlvDefinition) :
    (table.insertTlv definition).index = table.index.insertTlv definition := by
  simp only [index, insertTlv, List.foldl_append, List.foldl_cons, List.foldl_nil,
    TableIndex.insertTlv]

theorem index_insertValue (entry : NamedValue) :
    (table.insertValue entry).index = table.index.insertValue entry := by
  simp only [index, insertValue, List.foldl_append, List.foldl_cons, List.foldl_nil,
    TableIndex.insertValue]

theorem index_insertPacket (definition : PacketDefinition) :
    (table.insertPacket definition).index = table.index.insertPacket definition := by
  simp only [index, insertPacket, List.foldl_append, List.foldl_cons, List.foldl_nil,
    TableIndex.insertPacket]

end Insertions

structure Answers (table : DefinitionTable) (index : TableIndex) : Prop where
  attributes : ∀ path, index.attributes path = table.attribute? path
  named : ∀ name, index.attributeNamed? name = table.attributeNamed? name
  tlvs : ∀ path, index.tlvs path = table.tlv? path
  numbers : ∀ path name, index.numbers (path, name) = table.numericValue? path name
  valueNames : ∀ path number, index.valueNames (path, number) = table.valueName? path number
  packets : ∀ code, index.packets code = table.packet? code

section Agreement

variable {table : DefinitionTable}

theorem foldl_enter_of_nodup {item key value : Type} [DecidableEq key] {keyOf : item → key}
    (valueOf : item → value) {items : List item} (distinct : (items.map keyOf).Nodup)
    (sought : key) : items.foldl (enter keyOf valueOf) (fun _ => none) sought =
      (items.find? fun entry => keyOf entry = sought).map valueOf := by
  rw [foldl_enter_apply, find?_reverse_of_nodup keyOf distinct, Option.or_none]

theorem index_attributes (keyed : table.Keyed) (path : TypePath) :
    table.index.attributes path = table.attribute? path :=
  (foldl_enter_of_nodup id keyed.distinct path).trans Option.map_id'

theorem index_names (keyed : table.Keyed) (name : String) :
    table.index.names name = (table.attributeNamed? name).map AttributeDefinition.path :=
  foldl_enter_of_nodup AttributeDefinition.path keyed.names name

theorem index_attributeNamed? (keyed : table.Keyed) (name : String) :
    table.index.attributeNamed? name = table.attributeNamed? name := by
  rw [TableIndex.attributeNamed?, index_names keyed]
  cases found : table.attributeNamed? name with
  | none => rfl
  | some definition =>
      have member := (keyed.consistent.named_iff name definition).mp found
      rw [Option.map_some, Option.bind_some, index_attributes keyed]
      exact (keyed.consistent.attribute_iff _ _).mpr ⟨member.1, rfl⟩

theorem index_tlvs (keyed : table.Keyed) (path : TypePath) :
    table.index.tlvs path = table.tlv? path :=
  (foldl_enter_of_nodup id keyed.records path).trans Option.map_id'

theorem index_packets (keyed : table.Keyed) (code : UInt8) :
    table.index.packets code = table.packet? code :=
  (foldl_enter_of_nodup id keyed.codes code).trans Option.map_id'

theorem answers_index (keyed : table.Keyed) : table.Answers table.index where
  attributes := index_attributes keyed
  named := index_attributeNamed? keyed
  tlvs := index_tlvs keyed
  numbers path name := by
    simp only [index, foldl_enter_apply, Option.or_none, Prod.mk.injEq]
    rfl
  valueNames path number := by
    simp only [index, foldl_enterFirst_apply, Option.none_or, Prod.mk.injEq]
    rfl
  packets := index_packets keyed

theorem index_inferCarrier (keyed : table.Keyed) (path : TypePath) (type : DataType) :
    table.index.inferCarrier path type = table.inferCarrier path type := by
  have enclosing (levels : Nat) :
      table.index.enclosingType? path levels = table.enclosingType? path levels := by
    simp only [TableIndex.enclosingType?, enclosingType?, index_attributes keyed]
  rw [TableIndex.inferCarrier, enclosing, enclosing]
  rfl

end Agreement

def settle (table : DefinitionTable) :
    Except DictionaryError DefinitionTable → DefinitionTable × Option DictionaryError
  | .ok extended => (extended, none)
  | .error cause => (table, some cause)

section Steps

variable {table : DefinitionTable}

/-- The maps after an addition are the maps of the table after it. -/
theorem index_add (keyed : table.Keyed) (addition : Addition) :
    table.index.add addition = (table.settle (table.add addition)).map index id := by
  cases addition with
  | attr path name type filter =>
      simp only [TableIndex.add, add, addAttribute, defineAttribute, index_attributes keyed,
        index_names keyed, index_inferCarrier keyed, Option.isSome_map]
      split
      · rfl
      · split
        · rfl
        · cases table.inferCarrier path type with
          | error cause => rfl
          | ok carrier => exact congrArg (·, none) (index_insertAttribute ..).symm
  | tlv path name type =>
      simp only [TableIndex.add, add, addTlv, index_tlvs keyed]
      split
      · rfl
      · split
        · rfl
        · exact congrArg (·, none) (index_insertTlv ..).symm
  | value path name number =>
      simp only [TableIndex.add, add, addValue, index_attributes keyed]
      split
      · exact congrArg (·, none) (index_insertValue ..).symm
      · rfl
  | packet code name authenticator =>
      simp only [TableIndex.add, add, addPacket, index_packets keyed]
      split
      · rfl
      · exact congrArg (·, none) (index_insertPacket ..).symm

theorem index_apply (keyed : table.Keyed) (entry : DictionaryEntry) :
    table.index.apply entry = (table.settle (table.apply entry)).map index id := by
  have named : table.index.attributeNamed? = table.attributeNamed? :=
    funext (index_attributeNamed? keyed)
  rw [TableIndex.apply, apply_eq_add, named]
  cases entry.resolve table.attributeNamed? with
  | error cause => rfl
  | ok addition => exact index_add keyed addition

theorem index_applyAll (keyed : table.Keyed) (entries : List DictionaryEntry) :
    table.index.applyAll entries = (table.applyAll entries).map index id := by
  induction entries generalizing table with
  | nil => rfl
  | cons entry rest ih =>
      rw [TableIndex.applyAll, index_apply keyed, applyAll]
      cases applied : table.apply entry with
      | error cause => rfl
      | ok extended => exact ih (kept_keyed.apply keyed applied)

end Steps

end DefinitionTable

end Radius

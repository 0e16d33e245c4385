import Radius.Dictionary.Document
import Radius.Proofs.Computation

/-!
What one addition does to a table. The four kinds of additions are one type; an addition that
succeeds puts one definition behind the others of its kind, after the checks of that kind. An entry
of a document is an addition once its path is read, or the attribute that it names is looked up.
-/

namespace Radius

section Keys

variable {item key : Type} [DecidableEq key] {keyOf : item → key} {items : List item}
  {entry : item}

theorem find?_of_mem (distinct : (items.map keyOf).Nodup) (member : entry ∈ items) :
    items.find? (fun candidate => keyOf candidate = keyOf entry) = some entry := by
  induction items with
  | nil => simp at member
  | cons first rest ih =>
      rw [List.map_cons, List.nodup_cons] at distinct
      rcases List.mem_cons.mp member with rfl | later
      · simp
      · have different : keyOf first ≠ keyOf entry := by
          intro same
          exact distinct.1 (same ▸ List.mem_map_of_mem later)
        simp [different, ih distinct.2 later]

theorem find?_eq_some_iff_of_nodup (distinct : (items.map keyOf).Nodup) {sought : key} :
    items.find? (fun candidate => keyOf candidate = sought) = some entry ↔
      entry ∈ items ∧ keyOf entry = sought := by
  constructor
  · intro found
    exact ⟨List.mem_of_find?_eq_some found, by simpa using List.find?_some found⟩
  · rintro ⟨member, rfl⟩
    exact find?_of_mem distinct member

theorem find?_append_of_some {fits : item → Bool} (found : items.find? fits = some entry)
    (behind : List item) : (items ++ behind).find? fits = some entry := by
  rw [List.find?_append, found, Option.some_or]

theorem nodup_append_of_fresh (distinct : (items.map keyOf).Nodup)
    (fresh : items.find? (fun candidate => keyOf candidate = keyOf entry) = none) :
    ((items ++ [entry]).map keyOf).Nodup := by
  rw [List.map_append, List.map_cons, List.map_nil]
  refine List.nodup_append.mpr ⟨distinct, by simp, ?_⟩
  rintro taken member other only rfl
  obtain ⟨old, inside, same⟩ := List.mem_map.mp member
  rw [← List.mem_singleton.mp only, ← same, find?_of_mem distinct inside] at fresh
  contradiction

end Keys

inductive Addition
  | attr (path : TypePath) (name : String) (type : DataType) (filter : Option Filter)
  | tlv (path : TypePath) (name : String) (type : DataType)
  | value (path : TypePath) (name : String) (value : Int32)
  | packet (code : UInt8) (name : String) (authenticator : AuthenticatorKind)
deriving DecidableEq

/-- The addition that an entry of a document asks for, where attributes have the given names. -/
def DictionaryEntry.resolve (named? : String → Option AttributeDefinition) :
    DictionaryEntry → Except DictionaryError Addition
  | .attr path name type filter => do
      return .attr (← DefinitionTable.readPath path) name type filter
  | .tlv path name type => do return .tlv (← DefinitionTable.readPath path) name type
  | .value owner name number =>
      match named? owner with
      | some definition => .ok (.value definition.path name number)
      | none => .error (.unknownAttribute owner)
  | .packet code name authenticator => .ok (.packet code name authenticator)

namespace DefinitionTable

def add (table : DefinitionTable) : Addition → Except DictionaryError DefinitionTable
  | .attr path name type filter => table.addAttribute path name type filter
  | .tlv path name type => table.addTlv path name type
  | .value path name value => table.addValue path name value
  | .packet code name authenticator => table.addPacket code name authenticator

/-- An addition that the checks allow, and the table with it. -/
inductive Adds (table : DefinitionTable) : Addition → DefinitionTable → Prop
  | attr {definition : AttributeDefinition}
      (untaken : table.attribute? definition.path = none)
      (unnamed : table.attributeNamed? definition.name = none)
      (inferred : table.inferCarrier definition.path definition.dataType = .ok definition.carrier) :
      Adds table (.attr definition.path definition.name definition.dataType definition.filter)
        (table.insertAttribute definition)
  | tlv {definition : TlvDefinition} (untaken : table.tlv? definition.path = none)
      (below : definition.path.isTopLevel = false)
      (leaf : definition.dataType.isContainer = false) :
      Adds table (.tlv definition.path definition.name definition.dataType)
        (table.insertTlv definition)
  | value {entry : NamedValue} (owned : (table.attribute? entry.path).isSome) :
      Adds table (.value entry.path entry.name entry.value) (table.insertValue entry)
  | packet {definition : PacketDefinition} (untaken : table.packet? definition.code = none) :
      Adds table (.packet definition.code definition.name definition.authenticator)
        (table.insertPacket definition)

section Additions

variable {table extended : DefinitionTable}

theorem addAttribute_eq_ok {path : TypePath} {name : String} {type : DataType}
    {filter : Option Filter} {definition : AttributeDefinition}
    (defined : table.defineAttribute path name type filter = .ok definition) :
    table.addAttribute path name type filter = .ok (table.insertAttribute definition) := by
  rw [addAttribute, defined]
  rfl

theorem adds_of_add (addition : Addition) (added : table.add addition = .ok extended) :
    table.Adds addition extended := by
  cases addition with
  | attr path name type filter =>
      obtain ⟨definition, defined, built⟩ := Result.bind_eq_ok_iff.mp added
      cases built
      unfold defineAttribute at defined
      split at defined
      · contradiction
      · rename_i untaken
        split at defined
        · contradiction
        · rename_i unnamed
          obtain ⟨carrier, inferred, made⟩ := Result.bind_eq_ok_iff.mp defined
          cases made
          exact @Adds.attr table ⟨path, name, type, carrier, filter⟩ (by simpa using untaken)
            (by simpa using unnamed) inferred
  | tlv path name type =>
      change table.addTlv path name type = .ok extended at added
      unfold addTlv at added
      split at added
      · contradiction
      · rename_i untaken
        split at added
        · contradiction
        · rename_i allowed
          cases added
          have allowed := not_or.mp allowed
          exact @Adds.tlv table ⟨path, name, type⟩ (by simpa using untaken)
            (by simpa using allowed.1) (by simpa using allowed.2)
  | value path name value =>
      change table.addValue path name value = .ok extended at added
      unfold addValue at added
      split at added
      · rename_i owned
        cases added
        exact @Adds.value table ⟨path, name, value⟩ owned
      · contradiction
  | packet code name authenticator =>
      change table.addPacket code name authenticator = .ok extended at added
      unfold addPacket at added
      split at added
      · contradiction
      · rename_i untaken
        cases added
        exact @Adds.packet table ⟨code, name, authenticator⟩ (by simpa using untaken)

theorem add_of_adds {addition : Addition} (adds : table.Adds addition extended) :
    table.add addition = .ok extended := by
  cases adds with
  | attr untaken unnamed inferred =>
      refine addAttribute_eq_ok ?_
      rw [defineAttribute, if_neg (by simp [untaken]), if_neg (by simp [unnamed]), inferred]
      rfl
  | tlv untaken below leaf =>
      rw [add, addTlv, if_neg (by simp [untaken]), if_neg (by simp [below, leaf])]
  | value owned => rw [add, addValue, if_pos owned]
  | packet untaken => rw [add, addPacket, if_neg (by simp [untaken])]

theorem add_eq_ok_iff {addition : Addition} :
    table.add addition = .ok extended ↔ table.Adds addition extended :=
  ⟨adds_of_add addition, add_of_adds⟩

theorem apply_eq_add (table : DefinitionTable) (entry : DictionaryEntry) :
    table.apply entry = (do table.add (← entry.resolve table.attributeNamed?)) := by
  cases entry with
  | attr path name type filter =>
      simp only [apply, DictionaryEntry.resolve]
      cases readPath path <;> rfl
  | tlv path name type =>
      simp only [apply, DictionaryEntry.resolve]
      cases readPath path <;> rfl
  | value owner name number =>
      simp only [apply, DictionaryEntry.resolve]
      cases table.attributeNamed? owner <;> rfl
  | packet code name authenticator => rfl

end Additions

/-- A property of tables that every addition preserves, if it succeeds. -/
def Kept (holds : DefinitionTable → Prop) : Prop :=
  ∀ ⦃table extended : DefinitionTable⦄ ⦃addition : Addition⦄, holds table →
    table.Adds addition extended → holds extended

section Kept

variable {holds : DefinitionTable → Prop} {table extended : DefinitionTable}

theorem Kept.apply (kept : Kept holds) (start : holds table) {entry : DictionaryEntry}
    (applied : table.apply entry = .ok extended) : holds extended := by
  rw [apply_eq_add] at applied
  obtain ⟨addition, -, added⟩ := Result.bind_eq_ok_iff.mp applied
  exact kept start (adds_of_add addition added)

theorem Kept.foldlM (kept : Kept holds) (start : holds table) {additions : List Addition}
    (added : additions.foldlM add table = .ok extended) : holds extended := by
  induction additions generalizing table with
  | nil =>
      cases added
      exact start
  | cons addition rest ih =>
      rw [List.foldlM_cons] at added
      obtain ⟨further, first, later⟩ := Result.bind_eq_ok_iff.mp added
      exact ih (kept start (adds_of_add addition first)) later

theorem Kept.applyAll (kept : Kept holds) (start : holds table) (entries : List DictionaryEntry) :
    holds (table.applyAll entries).1 := by
  induction entries generalizing table with
  | nil => exact start
  | cons entry rest ih =>
      rw [DefinitionTable.applyAll]
      cases applied : table.apply entry with
      | error cause => exact start
      | ok extended => exact ih (kept.apply start applied)

theorem Kept.load (kept : Kept holds) (start : holds table) (text : String) :
    holds (table.load text).1 := by
  unfold DefinitionTable.load
  split
  · exact start
  · exact kept.applyAll start _

end Kept

end DefinitionTable

end Radius

import Mathlib.Data.List.Forall2
import Radius.Proofs.FrameGrammar
import Radius.Proofs.Spelling

/-!
The grammar of a tree. Octets are read as a tree exactly if they are a run of records, whatever the
dictionary knows, and a run is one of a single list of records. The dictionary only says what each
of these is kept as. A record that it does not know, or that it declares to be something that the
value does not spell, is kept as the octets of its value; nothing around the record depends on it.
Only the reserved bits of a long extended value are lost.
-/

namespace Radius

namespace Value

/-- A place for a record: in a tree, between other records, or in the tree that another record
holds. -/
inductive Place
  | among (front behind : List Record)
  | inside (front behind : List Record) (type : UInt8) (deeper : Place)

namespace Place

def octets? (record : Record) : Place → Option Octets
  | among front behind => some (Record.writeAll (front ++ record :: behind))
  | inside front behind type deeper => do
      let payload ← deeper.octets? record
      let enclosing ← (Record.make type payload).toOption
      return Record.writeAll (front ++ enclosing :: behind)

def path : Place → TypePath → TypePath
  | among .., path => path
  | inside _ _ type deeper, path => deeper.path (path.child type.toUInt32)

def Declared (dictionary : Dictionary) : Place → TypePath → Prop
  | among .., _ => True
  | inside _ _ type deeper, path =>
      (∃ definition, dictionary.tlv? (path.child type.toUInt32) = some definition ∧
        definition.dataType = .tlv) ∧ deeper.Declared dictionary (path.child type.toUInt32)

def around (dictionary : Dictionary) (entry : UInt8 × Value) :
    Place → TypePath → List (UInt8 × Value)
  | among front behind, path =>
      front.map (decodeRecord dictionary path) ++
        entry :: behind.map (decodeRecord dictionary path)
  | inside front behind type deeper, path =>
      front.map (decodeRecord dictionary path) ++
        (type, .tlv (deeper.around dictionary entry (path.child type.toUInt32))) ::
          behind.map (decodeRecord dictionary path)

end Place

variable {dictionary : Dictionary} {path : TypePath} {octets : Octets}

theorem isSome_decode?_iff :
    (decode? dictionary .tlv path octets).isSome ↔ Record.Run octets := by
  rw [Record.run_iff]
  constructor
  · intro read
    obtain ⟨value, read⟩ := Option.isSome_iff_exists.mp read
    rw [decode?_tlv] at read
    obtain ⟨records, found, -⟩ := Option.map_eq_some_iff.mp read
    exact ⟨records, (Record.writeAll_of_readAll (Result.toOption_eq_some_iff.mp found)).symm⟩
  · rintro ⟨records, rfl⟩
    rw [decode?_writeAll]
    rfl

theorem forall₂_entryOf (dictionary : Dictionary) (path : TypePath) (records : List Record) :
    List.Forall₂ (EntryOf dictionary path) records (records.map (decodeRecord dictionary path)) :=
  List.forall₂_map_right_iff.mpr (List.forall₂_same.mpr fun record _ =>
    entryOf_decodeRecord dictionary path record)

theorem forall₂_keepsRecord {records : List Record} {entries : List (UInt8 × Value)}
    (kept : List.Forall₂ (EntryOf dictionary path) records entries) :
    List.Forall₂ (KeepsRecord dictionary path) records entries :=
  kept.imp fun _ _ entry => keepsRecord_of_entryOf entry fun _ _ read => keeps_of_decode? read

theorem octets_of_entries_iff {records : List Record} :
    (records.map (decodeRecord dictionary path)).map (fun entry => (entry.1, entry.2.octets)) =
        records.map (fun record => (record.type, record.value)) ↔
      ¬HasReserved dictionary .tlv path (Record.writeAll records) := by
  have keeps : ∀ record ∈ records,
      KeepsRecord dictionary path record (decodeRecord dictionary path record) :=
    fun record _ => keepsRecord_of_entryOf (entryOf_decodeRecord dictionary path record)
      fun _ _ read => keeps_of_decode? read
  rw [← (keeps_tlv keeps).octets_eq_iff, Value.octets, recordsOctets_eq_iff keeps, List.map_map,
    List.map_inj_left]
  refine forall₂_congr fun record member => ?_
  rw [Function.comp_apply, Prod.mk.injEq, and_iff_right (keeps record member).type_eq]

theorem decode?_place (place : Place) (record : Record)
    (declared : place.Declared dictionary path) (filled : place.octets? record = some octets) :
    decode? dictionary .tlv path octets =
      some (.tlv (place.around dictionary (decodeRecord dictionary (place.path path) record)
        path)) := by
  induction place generalizing path octets with
  | among front behind =>
      cases filled
      rw [decode?_writeAll, List.map_append, List.map_cons]
      rfl
  | inside front behind type deeper ih =>
      obtain ⟨payload, inner, filled⟩ := Option.bind_eq_some_iff.mp filled
      obtain ⟨enclosing, made, filled⟩ := Option.bind_eq_some_iff.mp filled
      cases filled
      obtain ⟨⟨definition, known, tree⟩, declared⟩ := declared
      obtain ⟨rfl, rfl⟩ := Record.make_eq_ok_iff.mp (Result.toOption_eq_some_iff.mp made)
      have kept : EntryOf dictionary path enclosing _ := .declared known (tree ▸ ih declared inner)
      rw [decode?_writeAll, List.map_append, List.map_cons, ← eq_of_entryOf kept]
      rfl

/-- Octets are a tree exactly if they are a run of records, and only of one list of records. The
entries of the tree are kept for these records, in their order, with their types and lengths. They
are written as the records too, unless reserved bits are set in a long extended value: these are
cleared. A dictionary that declares no record of a tree to be such a value has none, and no table that
grows by additions declares one. What is kept for one record, at any depth, changes nothing of what
is kept around it. -/
theorem tree_grammar (dictionary : Dictionary) (path : TypePath) (octets : Octets) :
    ((decode? dictionary .tlv path octets).isSome ↔ Record.Run octets) ∧
      (∀ value, decode? dictionary .tlv path octets = some value →
        ∃ records entries, value = .tlv entries ∧
          (∀ others, octets = Record.writeAll others ↔ others = records) ∧
          List.Forall₂ (EntryOf dictionary path) records entries ∧
          List.Forall₂ (KeepsRecord dictionary path) records entries ∧
          (entries.map (fun entry => (entry.1, entry.2.octets)) =
              records.map (fun record => (record.type, record.value)) ↔
            ¬HasReserved dictionary .tlv path octets)) ∧
      (dictionary.KeepsTrees → ¬HasReserved dictionary .tlv path octets) ∧
      (∀ table : DefinitionTable, table.Reachable →
        ¬HasReserved table.toDictionary .tlv path octets) ∧
      ∀ (place : Place) record entry, place.Declared dictionary path →
        place.octets? record = some octets →
        EntryOf dictionary (place.path path) record entry →
        decode? dictionary .tlv path octets = some (.tlv (place.around dictionary entry path)) := by
  refine ⟨isSome_decode?_iff, ?_, fun trees => not_hasReserved trees (by decide), ?_, ?_⟩
  · intro value read
    obtain ⟨records, rfl⟩ :=
      Record.run_iff.mp (isSome_decode?_iff.mp (Option.isSome_of_eq_some read))
    rw [decode?_writeAll] at read
    cases read
    have kept := forall₂_entryOf dictionary path records
    refine ⟨records, _, rfl, ?_, kept, forall₂_keepsRecord kept, octets_of_entries_iff⟩
    intro others
    rw [Record.writeAll_injective.eq_iff]
    exact eq_comm
  · intro table reachable
    exact not_hasReserved (DefinitionTable.layered_of_reachable reachable).trees (by decide)
  · intro place record entry declared filled kept
    rw [eq_of_entryOf kept]
    exact decode?_place place record declared filled

end Value

/-- An integer of three octets in a tree in a tree, and a tree in a tree that ends in the middle of
a record. -/
theorem tree_grammar_malformed :
    Value.decode? DefinitionTable.treeRecords.toDictionary .tlv ⟨241, [9]⟩
        [1, 7, 1, 5, 0, 0, 7, 9, 3, 0xAA] =
      some (.tlv [(1, .tlv [(1, .plain (.string [0, 0, 7]))]), (9, .plain (.string [0xAA]))]) ∧
    Value.decode? DefinitionTable.treeRecords.toDictionary .tlv ⟨241, [9]⟩
        [1, 4, 1, 9, 9, 3, 0xAA] =
      some (.tlv [(1, .plain (.string [1, 9])), (9, .plain (.string [0xAA]))]) := by
  constructor
  · refine (Value.tree_grammar DefinitionTable.treeRecords.toDictionary ⟨241, [9]⟩ _).2.2.2.2
      (.inside [] [⟨9, [0xAA], by decide⟩] 1 (.among [] [])) ⟨1, [0, 0, 7], by decide⟩ _
      ⟨⟨_, rfl, rfl⟩, trivial⟩ rfl (.untyped ?_)
    intro definition known
    cases known
    decide +kernel
  · refine (Value.tree_grammar DefinitionTable.treeRecords.toDictionary ⟨241, [9]⟩ _).2.2.2.2
      (.among [] [⟨9, [0xAA], by decide⟩]) ⟨1, [1, 9], by decide⟩ _ trivial rfl (.untyped ?_)
    intro definition known
    cases known
    decide +kernel

/-- A dictionary that declares every record of a tree to be a long extended value. A table refuses
such a definition. -/
def Dictionary.longRecords : Dictionary :=
  { DefinitionTable.empty.toDictionary with
    tlv? := fun path => some ⟨path, "Long-Record", .longExtended⟩ }

/-- The entries of a tree do not have the octets of its records for every dictionary: reserved bits
are cleared. -/
theorem entries_reserved :
    ¬∀ (dictionary : Dictionary) (path : TypePath) (records : List Record)
      (entries : List (UInt8 × Value)),
      Value.decode? dictionary .tlv path (Record.writeAll records) = some (.tlv entries) →
        entries.map (fun entry => (entry.1, entry.2.octets)) =
          records.map fun record => (record.type, record.value) := by
  intro kept
  have cleared : Value.decode? Dictionary.longRecords .tlv ⟨241, [9]⟩ [1, 4, 5, 0x3F] =
      some (.tlv [(1, .container (.longExtended 5 false false []))]) := by
    decide +kernel
  have same := kept Dictionary.longRecords ⟨241, [9]⟩ [⟨1, [5, 0x3F], by decide⟩] _ cleared
  revert same
  decide +kernel

end Radius

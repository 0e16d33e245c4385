import Radius.Proofs.TableIndex

/-!
A table through any calls, refused ones among them. Every addition that succeeds keeps the keys
distinct, and so does a document, which is a row of additions; what is refused changes nothing. So
the lookups fit together at every time, and what they have found stays found.
-/

namespace Radius

inductive Call
  | add (addition : Addition)
  | load (text : String)

inductive Base
  | empty
  | standard

def Base.table : Base → DefinitionTable
  | .empty => .empty
  | .standard => .standard

namespace TableIndex

def perform (index : TableIndex) : Call → TableIndex × Option DictionaryError
  | .add addition => index.add addition
  | .load text =>
      match readDictionary? text with
      | none => (index, some .unreadable)
      | some entries => index.applyAll entries

def after (index : TableIndex) (calls : List Call) : TableIndex :=
  calls.foldl (fun index call => (index.perform call).1) index

end TableIndex

namespace DictionaryEntry

def stage : DictionaryEntry → Nat
  | .attr .. => 0
  | .tlv .. => 1
  | .value .. => 2
  | .packet .. => 3

/-- Attributes first, then tree records, then values, then packets. -/
def InOrder (entries : List DictionaryEntry) : Prop :=
  entries.Pairwise fun first second => first.stage ≤ second.stage

/-- The entries of one section of a document: one for each of its items, in their order. A section
that is left out has none. -/
inductive Section (read : Json.Tree → Option DictionaryEntry) :
    Option Json.Tree → List DictionaryEntry → Prop
  | absent : Section read none []
  | listed {items : List Json.Tree} {entries : List DictionaryEntry}
      (each : List.Forall₂ (fun item entry => read item = some entry) items entries) :
      Section read (some (.array items)) entries

inductive Document (text : String) : List DictionaryEntry → Prop
  | intro {tree : Json.Tree} {attributeItems tlvItems valueItems packetItems : Option Json.Tree}
      {attributes tlvs values packets : List DictionaryEntry}
      (spelled : Json.Tree.read? text = some tree)
      (sections : tree.fields? ["attributes", "tlvs", "values", "packets"] false =
        some [attributeItems, tlvItems, valueItems, packetItems])
      (first : Section ofAttribute? attributeItems attributes)
      (second : Section ofTlv? tlvItems tlvs)
      (third : Section ofValue? valueItems values)
      (fourth : Section ofPacket? packetItems packets) :
      Document text (attributes ++ tlvs ++ values ++ packets)

section Sections

variable {stage : Nat} {entries : List DictionaryEntry} {read : Json.Tree → Option DictionaryEntry}

theorem orDefault?_eq_some_iff {field : Option Json.Tree} :
    Json.Tree.orDefault? [] (Json.Tree.list? read) field = some entries ↔
      Section read field entries := by
  constructor
  · intro listed
    cases field with
    | none =>
        cases listed
        exact .absent
    | some tree =>
        obtain ⟨items, array, ran⟩ := Option.bind_eq_some_iff.mp listed
        cases tree with
        | array inside =>
            cases array
            exact .listed (Result.mapM_eq_some_iff.mp ran)
        | _ => contradiction
  · rintro (_ | each)
    · rfl
    · exact Result.mapM_eq_some_iff.mpr each

theorem readDictionary?_eq_some_iff {text : String} :
    readDictionary? text = some entries ↔ Document text entries := by
  simp only [readDictionary?, bind, Option.bind_eq_some_iff]
  constructor
  · rintro ⟨tree, spelled, fields, sections, read⟩
    split at read
    · simp only [Option.bind_eq_some_iff, pure, Option.some.injEq, orDefault?_eq_some_iff] at read
      obtain ⟨_, first, _, second, _, third, _, fourth, rfl⟩ := read
      exact .intro spelled sections first second third fourth
    · contradiction
  · rintro ⟨spelled, sections, first, second, third, fourth⟩
    refine ⟨_, spelled, _, sections, ?_⟩
    simp only [Option.bind_eq_some_iff, pure, Option.some.injEq, orDefault?_eq_some_iff]
    exact ⟨_, first, _, second, _, third, _, fourth, rfl⟩

def Belongs (stage : Nat) (read : Option DictionaryEntry) : Prop :=
  ∀ entry ∈ read, entry.stage = stage

theorem belongs_bind {value : Type} {found : Option value}
    {next : value → Option DictionaryEntry} (later : ∀ value, Belongs stage (next value)) :
    Belongs stage (found.bind next) := by
  intro entry read
  obtain ⟨value, -, read⟩ := Option.bind_eq_some_iff.mp read
  exact later value entry read

theorem belongs_none : Belongs stage none := by
  intro entry read
  contradiction

theorem belongs_some {entry : DictionaryEntry} (here : entry.stage = stage) :
    Belongs stage (some entry) := by
  rintro other ⟨⟩
  exact here

theorem belongs_ofAttribute? (tree : Json.Tree) : Belongs 0 (ofAttribute? tree) := by
  refine belongs_bind fun fields => ?_
  split
  · repeat refine belongs_bind fun _ => ?_
    exact belongs_some rfl
  · exact belongs_none

theorem belongs_ofTlv? (tree : Json.Tree) : Belongs 1 (ofTlv? tree) := by
  refine belongs_bind fun fields => ?_
  split
  · repeat refine belongs_bind fun _ => ?_
    exact belongs_some rfl
  · exact belongs_none

theorem belongs_ofValue? (tree : Json.Tree) : Belongs 2 (ofValue? tree) := by
  refine belongs_bind fun fields => ?_
  split
  · repeat refine belongs_bind fun _ => ?_
    exact belongs_some rfl
  · exact belongs_none

theorem belongs_ofPacket? (tree : Json.Tree) : Belongs 3 (ofPacket? tree) := by
  refine belongs_bind fun fields => ?_
  split
  · repeat refine belongs_bind fun _ => ?_
    exact belongs_some rfl
  · exact belongs_none

theorem stage_of_section {field : Option Json.Tree} (listed : Section read field entries)
    (belongs : ∀ tree, Belongs stage (read tree)) : ∀ entry ∈ entries, entry.stage = stage := by
  cases listed with
  | absent => simp
  | listed each =>
      induction each with
      | nil => simp
      | @cons item entry items entries found _ ih =>
          exact List.forall_mem_cons.mpr ⟨belongs item entry found, ih⟩

theorem inOrder_of_stages {front back : List DictionaryEntry} {first : Nat}
    (alike : ∀ entry ∈ front, entry.stage = first) (ordered : InOrder back)
    (later : ∀ entry ∈ back, first ≤ entry.stage) : InOrder (front ++ back) := by
  refine List.pairwise_append.mpr ⟨?_, ordered, ?_⟩
  · refine List.pairwise_of_forall_mem_list ?_
    intro left inside right among
    exact Nat.le_of_eq ((alike left inside).trans (alike right among).symm)
  · intro left inside right behind
    rw [alike left inside]
    exact later right behind

theorem inOrder_of_document {text : String} (document : Document text entries) :
    InOrder entries := by
  obtain ⟨-, -, first, second, third, fourth⟩ := document
  have first := stage_of_section first belongs_ofAttribute?
  have second := stage_of_section second belongs_ofTlv?
  have third := stage_of_section third belongs_ofValue?
  have fourth := stage_of_section fourth belongs_ofPacket?
  have last := inOrder_of_stages fourth List.Pairwise.nil (by simp)
  rw [List.append_nil] at last
  rw [List.append_assoc, List.append_assoc]
  refine inOrder_of_stages first (inOrder_of_stages second (inOrder_of_stages third last ?_) ?_) ?_
  · intro entry member
    rw [fourth entry member]
    decide
  · intro entry member
    rcases List.mem_append.mp member with inside | inside
    · rw [third entry inside]
      decide
    · rw [fourth entry inside]
      decide
  · intro entry member
    exact Nat.zero_le _

end Sections

end DictionaryEntry

namespace DefinitionTable

def perform (table : DefinitionTable) : Call → DefinitionTable × Option DictionaryError
  | .add addition => table.settle (table.add addition)
  | .load text => table.load text

def after (table : DefinitionTable) (calls : List Call) : DefinitionTable :=
  calls.foldl (fun table call => (table.perform call).1) table

def addEntry (table : DefinitionTable) (entry : DictionaryEntry) :
    Except DictionaryError DefinitionTable := do
  table.add (← entry.resolve table.attributeNamed?)

/-- How entries apply one by one: all of them, or those in front of the first that is refused. -/
inductive Loads (table : DefinitionTable) (entries : List DictionaryEntry) :
    DefinitionTable × Option DictionaryError → Prop
  | all {final : DefinitionTable} (added : entries.foldlM addEntry table = .ok final) :
      Loads table entries (final, none)
  | stopped {front back : List DictionaryEntry} {entry : DictionaryEntry}
      {final : DefinitionTable} {cause : DictionaryError} (cut : entries = front ++ entry :: back)
      (added : front.foldlM addEntry table = .ok final)
      (refused : final.addEntry entry = .error cause) : Loads table entries (final, some cause)

section Calls

variable {table : DefinitionTable}

theorem Loads.cons {entry : DictionaryEntry} {entries : List DictionaryEntry}
    {extended : DefinitionTable} {result : DefinitionTable × Option DictionaryError}
    (first : table.addEntry entry = .ok extended) (later : extended.Loads entries result) :
    table.Loads (entry :: entries) result := by
  have onward (front : List DictionaryEntry) :
      (entry :: front).foldlM addEntry table = front.foldlM addEntry extended := by
    rw [List.foldlM_cons, first]
    rfl
  cases later with
  | all added => exact .all ((onward entries).trans added)
  | @stopped front back other _ _ cut added refused =>
      have further : entry :: entries = (entry :: front) ++ other :: back := by
        rw [cut]
        rfl
      exact .stopped further ((onward front).trans added) refused

theorem loads_applyAll (table : DefinitionTable) (entries : List DictionaryEntry) :
    table.Loads entries (table.applyAll entries) := by
  induction entries generalizing table with
  | nil => exact .all rfl
  | cons entry rest ih =>
      rw [applyAll]
      have same : table.apply entry = table.addEntry entry := apply_eq_add table entry
      cases applied : table.apply entry with
      | error cause =>
          have here : entry :: rest = [] ++ entry :: rest := rfl
          exact .stopped here rfl (same ▸ applied)
      | ok extended => exact .cons (same ▸ applied) (ih extended)

theorem Kept.perform {holds : DefinitionTable → Prop} (kept : Kept holds) (start : holds table)
    (call : Call) : holds (table.perform call).1 := by
  cases call with
  | add addition =>
      rw [DefinitionTable.perform]
      cases added : table.add addition with
      | error cause => exact start
      | ok extended => exact kept start (adds_of_add addition added)
  | load text => exact kept.load start text

/-- What one call preserves, all calls preserve. -/
theorem Kept.after {holds : DefinitionTable → Prop} (kept : Kept holds) (start : holds table)
    (calls : List Call) : holds (table.after calls) := by
  induction calls generalizing table with
  | nil => exact start
  | cons call rest ih => exact ih (kept.perform start call)

theorem index_perform (keyed : table.Keyed) (call : Call) :
    table.index.perform call = (table.perform call).map index id := by
  cases call with
  | add addition => exact index_add keyed addition
  | load text =>
      simp only [TableIndex.perform, perform, load]
      cases readDictionary? text with
      | none => rfl
      | some entries => exact index_applyAll keyed entries

theorem index_after (keyed : table.Keyed) (calls : List Call) :
    table.index.after calls = (table.after calls).index := by
  induction calls generalizing table with
  | nil => rfl
  | cons call rest ih =>
      have step : (table.index.perform call).1 = (table.perform call).1.index := by
        rw [index_perform keyed]
        rfl
      rw [TableIndex.after, List.foldl_cons, step]
      exact ih (kept_keyed.perform keyed call)

theorem keyed_base (base : Base) : base.table.Keyed := by
  cases base with
  | empty => exact keyed_empty
  | standard => exact keyed_standard

end Calls

/-- How a table and its maps are kept. -/
structure WellKept (table : DefinitionTable) (index : TableIndex) : Prop where
  consistent : table.Consistent
  answers : table.Answers index
  extension : ∀ calls, table.Extends (table.after calls)
  untouched : ∀ addition, (index.perform (.add addition)).2 ≠ none →
    (index.perform (.add addition)).1 = index ∧ (table.perform (.add addition)).1 = table
  documents : ∀ text entries,
    readDictionary? text = some entries ↔ DictionaryEntry.Document text entries
  loads : ∀ text entries, readDictionary? text = some entries →
    DictionaryEntry.InOrder entries ∧ table.Loads entries (table.perform (.load text))
  unreadable : ∀ text, readDictionary? text = none →
    table.perform (.load text) = (table, some .unreadable)

theorem wellKept_after (base : Base) (calls : List Call) :
    (base.table.after calls).WellKept (base.table.index.after calls) := by
  have keyed := kept_keyed.after (keyed_base base) calls
  rw [index_after (keyed_base base)]
  refine ⟨keyed.consistent, answers_index keyed, ?_, ?_, ?_, ?_, ?_⟩
  · exact (kept_extends _).after (Extends.refl _)
  · intro addition refused
    rw [index_perform keyed] at refused ⊢
    rw [perform] at refused ⊢
    cases added : (base.table.after calls).add addition with
    | error cause => exact ⟨rfl, rfl⟩
    | ok extended =>
        rw [added] at refused
        contradiction
  · exact fun text entries => DictionaryEntry.readDictionary?_eq_some_iff
  · intro text entries read
    refine ⟨?_, ?_⟩
    · exact DictionaryEntry.inOrder_of_document (DictionaryEntry.readDictionary?_eq_some_iff.mp read)
    · rw [perform, load, read]
      exact loads_applyAll _ entries
  · intro text unread
    rw [perform, load, unread]

/-- The second attribute of the document is refused; the first one stays, and the third is not
tried. -/
example :
    let loaded := standard.perform (.load ("[[[\"26.9.1\",\"First\",\"text\"]," ++
      "[\"26.9.1\",\"Second\",\"text\"],[\"26.9.2\",\"Third\",\"text\"]]]"))
    loaded.2 = some (.duplicateType ⟨26, [9, 1]⟩) ∧
      loaded.1.attributeNamed? "First" =
        some ⟨⟨26, [9, 1]⟩, "First", .text, .vendorSpecific, none⟩ ∧
      loaded.1.attributeNamed? "Third" = none := by
  decide +kernel

end DefinitionTable

end Radius

import Radius.Inspector.Run
import Radius.Proofs.PathText
import Radius.Proofs.TableHistory

/-!
What the inspector shows for a key. A key that reads as a path is taken as one and never as a name,
so a definition is shown for every spelling of its path, and for its name unless the name spells
another path. What is printed about a definition tells it from every other, whatever its name is.
-/

namespace Radius

namespace Text

theorem eq_nil_of_last_separator {separator : Char} {gap tail other : List Char}
    (last : separator ∉ tail) (cut : separator :: tail = gap ++ separator :: other) : gap = [] := by
  cases gap with
  | nil => rfl
  | cons first rest =>
      obtain ⟨rfl, rfl⟩ := List.cons.inj cut
      simp at last

theorem eq_of_last_separator {separator : Char} {left right tail other : List Char}
    (last : separator ∉ tail) (lastToo : separator ∉ other)
    (same : left ++ [separator] ++ tail = right ++ [separator] ++ other) :
    left = right ∧ tail = other := by
  simp only [List.append_assoc, List.singleton_append] at same
  rcases List.append_eq_append_iff.mp same with ⟨gap, rfl, cut⟩ | ⟨gap, rfl, cut⟩
  · obtain rfl := eq_nil_of_last_separator last cut
    simpa using cut
  · obtain rfl := eq_nil_of_last_separator lastToo cut
    simpa [eq_comm] using cut

theorem mem_intercalate {separator character : Char} {parts : List (List Char)}
    (member : character ∈ [separator].intercalate parts) :
    character = separator ∨ ∃ part ∈ parts, character ∈ part := by
  induction parts with
  | nil => contradiction
  | cons part rest ih =>
      by_cases last : rest = []
      · rw [last, List.intercalate_singleton] at member
        exact .inr ⟨part, List.mem_cons_self, member⟩
      · rw [List.intercalate_cons_of_ne_nil last, List.append_assoc, List.mem_append,
          List.mem_append, List.mem_singleton] at member
        obtain inside | same | behind := member
        · exact .inr ⟨part, List.mem_cons_self, inside⟩
        · exact .inl same
        · obtain same | ⟨other, listed, inside⟩ := ih behind
          · exact .inl same
          · exact .inr ⟨other, List.mem_cons_of_mem part listed, inside⟩

end Text

theorem TypePath.newline_not_mem_text (path : TypePath) : '\n' ∉ path.text.toList := by
  rw [text, String.toList_ofList, characters]
  intro member
  obtain point | ⟨part, listed, inside⟩ := Text.mem_intercalate member
  · contradiction
  · obtain ⟨segment, -, rfl⟩ := List.mem_map.mp listed
    have digit := Nat.isDigit_of_mem_toDigits (by decide) (by decide) inside
    contradiction

namespace Inspector

section Printing

variable {front other : List String} {above upper line last : String}

theorem toList_printed_concat (front : List String) (line : String) :
    (printed (front ++ [line])).toList = (printed front).toList ++ line.toList ++ ['\n'] := by
  rw [printed, printed, List.map_append, String.join_append, String.toList_append]
  simp

theorem eq_of_printed_eq (whole : '\n' ∉ line.toList) (wholeToo : '\n' ∉ last.toList)
    (same : printed (front ++ [above] ++ [line]) = printed (other ++ [upper] ++ [last])) :
    printed (front ++ [above]) = printed (other ++ [upper]) ∧ line = last := by
  have characters := congrArg String.toList same
  simp only [toList_printed_concat] at characters
  have ended := List.append_cancel_right characters
  obtain ⟨before, here⟩ := Text.eq_of_last_separator whole wholeToo ended
  refine ⟨String.toList_inj.mp ?_, String.toList_inj.mp here⟩
  rw [toList_printed_concat, toList_printed_concat, before]

end Printing

section Definitions

theorem newline_not_mem_line {label text : String} (front : '\n' ∉ label.toList)
    (behind : '\n' ∉ text.toList) : '\n' ∉ (label ++ text).toList := by
  rw [String.toList_append, List.mem_append]
  exact not_or.mpr ⟨front, behind⟩

theorem newline_not_mem_pathLine (path : TypePath) : '\n' ∉ ("  Type: " ++ path.text).toList :=
  newline_not_mem_line (by decide) path.newline_not_mem_text

theorem newline_not_mem_typeLine (type : DataType) :
    '\n' ∉ ("  Data type: " ++ type.name).toList :=
  newline_not_mem_line (by decide) (by cases type <;> decide)

theorem newline_not_mem_carrierLine (carrier : Carrier) :
    '\n' ∉ ("  Codec: " ++ carrier.label).toList :=
  newline_not_mem_line (by decide) (by cases carrier <;> decide)

theorem newline_not_mem_filterLine (filter : Filter) :
    '\n' ∉ ("  Filter: " ++ filter.label).toList :=
  newline_not_mem_line (by decide) (by cases filter <;> decide)

theorem carrier_label_injective : Function.Injective Carrier.label := by
  intro left right same
  cases left <;> cases right <;> first | rfl | contradiction

theorem filter_label_injective : Function.Injective Filter.label := by
  intro left right same
  cases left <;> cases right <;> first | rfl | contradiction

theorem dataType_name_injective : Function.Injective DataType.name := by
  intro left right same
  have read := DataType.ofName?_name left
  rw [same, DataType.ofName?_name] at read
  exact (Option.some.inj read).symm

variable {definition other : AttributeDefinition}

def commonLines (definition : AttributeDefinition) : List String :=
  [definition.name] ++ ["  Type: " ++ definition.path.text] ++
    ["  Data type: " ++ definition.dataType.name] ++ ["  Codec: " ++ definition.carrier.label]

/-- The name may hold newlines, so the lines are told apart from the last one upwards. -/
theorem eq_of_commonLines (same : printed (commonLines definition) = printed (commonLines other)) :
    definition.path = other.path ∧ definition.name = other.name ∧
      definition.dataType = other.dataType ∧ definition.carrier = other.carrier := by
  obtain ⟨same, carrier⟩ := eq_of_printed_eq (newline_not_mem_carrierLine _)
    (newline_not_mem_carrierLine _) same
  obtain ⟨same, type⟩ := eq_of_printed_eq (newline_not_mem_typeLine _)
    (newline_not_mem_typeLine _) same
  -- nothing but the name stands above the line of the path
  change printed ([] ++ [_] ++ [_]) = printed ([] ++ [_] ++ [_]) at same
  obtain ⟨same, path⟩ := eq_of_printed_eq (newline_not_mem_pathLine _)
    (newline_not_mem_pathLine _) same
  rw [String.append_right_inj] at carrier type path
  have name := congrArg String.toList same
  simp only [toList_printed_concat] at name
  have name := List.append_cancel_left (List.append_cancel_right name)
  exact ⟨TypePath.text_injective path, String.toList_inj.mp name, dataType_name_injective type,
    carrier_label_injective carrier⟩

theorem printed_commonLines_ne (filter : Filter) :
    printed (commonLines definition) ≠
      printed (commonLines other ++ ["  Filter: " ++ filter.label]) := by
  intro same
  obtain ⟨-, last⟩ := eq_of_printed_eq (newline_not_mem_carrierLine definition.carrier)
    (newline_not_mem_filterLine filter) same
  revert last
  cases definition.carrier <;> cases filter <;> decide

theorem printed_definitionLines_injective :
    Function.Injective fun definition => printed (definitionLines definition) := by
  rintro ⟨path, name, type, carrier, filter⟩ ⟨_, _, _, _, filterToo⟩ same
  cases filter with
  | none =>
      cases filterToo with
      | none =>
          obtain ⟨rfl, rfl, rfl, rfl⟩ := eq_of_commonLines same
          rfl
      | some filterToo => exact absurd same (printed_commonLines_ne filterToo)
  | some filter =>
      cases filterToo with
      | none => exact absurd same.symm (printed_commonLines_ne filter)
      | some filterToo =>
          change printed (commonLines _ ++ [_]) = printed (commonLines _ ++ [_]) at same
          obtain ⟨same, last⟩ := eq_of_printed_eq (newline_not_mem_filterLine filter)
            (newline_not_mem_filterLine filterToo) same
          rw [String.append_right_inj] at last
          obtain rfl := filter_label_injective last
          obtain ⟨rfl, rfl, rfl, rfl⟩ := eq_of_commonLines same
          rfl

end Definitions

def Outcome.Prints (outcome : Outcome) (definition : AttributeDefinition) : Prop :=
  outcome = .printed (definitionLines definition)

section Lookup

variable {table : DefinitionTable} {definition : AttributeDefinition} {key : String}
  {path : TypePath}

theorem findDefinition?_of_read (read : TypePath.read key = .ok path) :
    findDefinition? table key = table.attribute? path := by
  rw [findDefinition?, read]

theorem findDefinition?_of_unread (unread : ∀ path, TypePath.read key ≠ .ok path) :
    findDefinition? table key = table.attributeNamed? key := by
  rw [findDefinition?]
  split
  · rename_i path read
    exact absurd read (unread path)
  · rfl

theorem lookup_prints_iff : (lookup table key).Prints definition ↔
    findDefinition? table key = some definition := by
  rw [lookup, Outcome.Prints]
  cases found : findDefinition? table key with
  | none =>
      refine iff_of_false ?_ nofun
      intro same
      have unfailed := congrArg Outcome.failure same
      contradiction
  | some other =>
      rw [Option.some.injEq]
      constructor
      · intro same
        exact printed_definitionLines_injective (congrArg Outcome.output same)
      · rintro rfl
        rfl

/-- A definition is shown for the spellings of its path, and for its name if that spells no path. -/
theorem lookup_prints_iff_spells (keyed : table.Keyed) (member : definition ∈ table.attributes) :
    (lookup table key).Prints definition ↔ TypePath.read key = .ok definition.path ∨
      (∀ path, TypePath.read key ≠ .ok path) ∧ key = definition.name := by
  rw [lookup_prints_iff]
  -- the one question that the inspector asks about a key
  by_cases spells : ∃ path, TypePath.read key = .ok path
  · obtain ⟨path, read⟩ := spells
    rw [findDefinition?_of_read read, keyed.consistent.attribute_iff, read, Except.ok.injEq]
    constructor
    · rintro ⟨-, rfl⟩
      exact .inl rfl
    · rintro (rfl | ⟨unread, -⟩)
      · exact ⟨member, rfl⟩
      · exact absurd rfl (unread path)
  · have unread : ∀ path, TypePath.read key ≠ .ok path := not_exists.mp spells
    rw [findDefinition?_of_unread unread, keyed.consistent.named_iff]
    constructor
    · rintro ⟨-, rfl⟩
      exact .inr ⟨unread, rfl⟩
    · rintro (read | ⟨-, rfl⟩)
      · exact absurd read (unread definition.path)
      · exact ⟨member, rfl⟩

theorem spells_or_unread_iff :
    (TypePath.read key = .ok path ∨ ∀ other, TypePath.read key ≠ .ok other) ↔
      ∀ other, TypePath.read key = .ok other → other = path := by
  constructor
  · rintro (read | unread) other spelled
    · rw [read] at spelled
      exact (Except.ok.inj spelled).symm
    · exact absurd spelled (unread other)
  · intro only
    by_cases spells : ∃ other, TypePath.read key = .ok other
    · obtain ⟨other, read⟩ := spells
      exact .inl (only other read ▸ read)
    · exact .inr (not_exists.mp spells)

theorem lookup_of_read (keyed : table.Keyed) (read : TypePath.read key = .ok path) :
    (∃ other ∈ table.attributes, other.path = path ∧ (lookup table key).Prints other) ∨
      (∀ other ∈ table.attributes, other.path ≠ path) ∧
        lookup table key = .failed (.unknownKey key) := by
  cases found : table.attribute? path with
  | none =>
      refine .inr ⟨?_, ?_⟩
      · intro other member here
        rw [(keyed.consistent.attribute_iff path other).mpr ⟨member, here⟩] at found
        contradiction
      · rw [lookup, findDefinition?_of_read read, found]
  | some other =>
      obtain ⟨member, here⟩ := (keyed.consistent.attribute_iff path other).mp found
      refine .inl ⟨other, member, here, lookup_prints_iff.mpr ?_⟩
      rw [findDefinition?_of_read read, found]

theorem parse?_lookup (key : String) :
    Invocation.parse? ["lookup", "--", key] = some ⟨none, none, .lookup key⟩ :=
  rfl

/-- With a dictionary file in which nothing is wrong, a key is looked up in the standard table and
what the file adds to it. -/
theorem run_lookup {files : Files} {file text : String} (given : files file = some text)
    (fine : (DefinitionTable.standard.perform (.load text)).2 = none) (key : String) :
    run files ⟨some file, none, .lookup key⟩ =
      lookup (DefinitionTable.standard.after [.load text]) key := by
  have loaded : DefinitionTable.standard.loadFile (files file) =
      (DefinitionTable.standard.after [.load text], none) := by
    rw [given]
    exact Prod.ext rfl fine
  have table : loadTable files (some file) =
      .ok (DefinitionTable.standard.after [.load text]) := by
    rw [loadTable, loaded]
  rw [run, table]
  rfl

/-- A definition after any documents were loaded: the text of its path shows it, and its name shows
it exactly if the name spells no other path. A key that spells a path never counts as a name: it
shows what is defined at the path, or fails if nothing is. This is what a whole run shows, with no
dictionary file or with one in which nothing is wrong. -/
theorem shown_by_path_and_name (texts : List String) (files : Files) (config : Config)
    (member : definition ∈ (DefinitionTable.standard.after (texts.map Call.load)).attributes) :
    let table := DefinitionTable.standard.after (texts.map Call.load)
    let shown := fun key => perform files table config (.lookup key)
    (∀ key, Invocation.parse? ["lookup", "--", key] = some ⟨none, none, .lookup key⟩) ∧
      (shown definition.path.text).Prints definition ∧
      ((shown definition.name).Prints definition ↔
        ∀ path, TypePath.read definition.name = .ok path → path = definition.path) ∧
      (∀ key path, TypePath.read key = .ok path →
        (∃ other ∈ table.attributes, other.path = path ∧ (shown key).Prints other) ∨
          (∀ other ∈ table.attributes, other.path ≠ path) ∧
            shown key = .failed (.unknownKey key)) ∧
      (texts = [] → ∀ key, run files ⟨none, none, .lookup key⟩ = shown key) ∧
      ∀ file text, files file = some text → texts = [text] →
        (DefinitionTable.standard.perform (.load text)).2 = none →
          ∀ key, run files ⟨some file, none, .lookup key⟩ = shown key := by
  intro table shown
  have keyed : table.Keyed := DefinitionTable.kept_keyed.after DefinitionTable.keyed_standard _
  refine ⟨parse?_lookup, ?_, ?_, fun key path read => lookup_of_read keyed read, ?_, ?_⟩
  · exact (lookup_prints_iff_spells keyed member).mpr (.inl definition.path.read_text)
  · refine (lookup_prints_iff_spells keyed member).trans ?_
    rw [and_iff_left rfl]
    exact spells_or_unread_iff
  · rintro rfl key
    rfl
  · rintro file text given rfl fine key
    exact run_lookup given fine key

/-- A vendor attribute whose name spells its own path, with a leading zero. -/
theorem shown_by_path_and_name_spelled :
    let definition : AttributeDefinition := ⟨⟨26, [9, 1]⟩, "026.9.1", .text, .vendorSpecific, none⟩
    let table := DefinitionTable.standard.after [.load "[[[\"26.9.1\",\"026.9.1\",\"text\"]]]"]
    definition ∈ table.attributes ∧
      (perform (fun _ => none) table Config.default (.lookup "026.9.1")).Prints definition := by
  intro definition table
  have member : definition ∈ table.attributes := by decide +kernel
  have own : ∀ path, TypePath.read definition.name = .ok path → path = definition.path := by
    intro path read
    have spelled : TypePath.read definition.name = .ok definition.path := by decide
    rw [spelled] at read
    exact (Except.ok.inj read).symm
  have shown := shown_by_path_and_name ["[[[\"26.9.1\",\"026.9.1\",\"text\"]]]"] (fun _ => none)
    Config.default member
  exact ⟨member, shown.2.2.1.mpr own⟩

/-- An attribute that is named like the number of another: its name shows the other one. -/
theorem hidden_by_number :
    let definition : AttributeDefinition := ⟨⟨200, []⟩, "1", .text, .standard, none⟩
    let table := DefinitionTable.standard.after [.load "[[[\"200\",\"1\",\"text\"]]]"]
    definition ∈ table.attributes ∧
      ¬(perform (fun _ => none) table Config.default (.lookup definition.name)).Prints definition ∧
      (perform (fun _ => none) table Config.default (.lookup definition.name)).output =
        "User-Name\n  Type: 1\n  Data type: text\n  Codec: Standard\n" := by
  intro definition table
  have both : definition ∈ table.attributes ∧ (lookup table "1").output =
      "User-Name\n  Type: 1\n  Data type: text\n  Codec: Standard\n" := by
    decide +kernel
  refine ⟨both.1, ?_, both.2⟩
  intro prints
  have other := congrArg Outcome.output prints
  rw [perform, both.2] at other
  revert other
  decide

end Lookup

end Inspector

end Radius

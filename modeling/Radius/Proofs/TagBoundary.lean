import Radius.Proofs.BlockChain
import Radius.Proofs.Spelling

/-!
Where the tag ends. A filter leaves the tag of a value in clear. Whoever sends the value takes the
tag from it; whoever receives it goes by the type and, where the tag is optional, by the first
octet. Behind the filter of tunnel passwords that octet is salt, which resembles no tag. Behind the
filter of user passwords it is hidden and can be any octet: an untagged value is then taken apart at
a tag that it does not have, and what follows is no whole number of blocks.
-/

namespace Radius

theorem Filter.decode?_of_encode {filter : Filter} {exchange : Exchange} {plain hidden : Octets}
    {source rest : Entropy} (ends : filter = .userPassword → plain.getLast? ≠ some 0)
    (sent : filter.encode exchange plain source = (.ok hidden, rest)) :
    filter.decode? exchange hidden = some plain := by
  cases filter with
  | userPassword =>
      obtain ⟨hid, -⟩ := Drawing.ofExcept_eq_ok_iff.mp sent
      have trimmed := Password.dropTrailingZeros_eq_self_iff.mpr (ends rfl)
      exact Password.revealUser?_hideUser trimmed hid
  | tunnelPassword =>
      obtain ⟨short, salt, salted, rfl⟩ := AttributeDefinition.of_encode_tunnelPassword sent
      exact Password.revealTunnel?_hideTunnel exchange salted short

namespace AttributeDefinition

variable {definition : AttributeDefinition} {exchange : Exchange} {dictionary : Dictionary}
  {value : Value} {source rest : Entropy} {octets hidden : Octets}

def TagOptional (definition : AttributeDefinition) : Prop :=
  definition.dataType = .optionalTaggedString ∨ definition.dataType = .optionalTaggedText

/-- A value without its optional tag, of which the first hidden octet resembles one. -/
structure Misleads (definition : AttributeDefinition) (value : Value) (octets : Octets) : Prop where
  hides : definition.filter = some .userPassword
  choice : definition.TagOptional
  untagged : value.tagLength = 0
  resembles : ∃ first later, octets = first :: later ∧ first ≤ 0x1F

theorem clearLength_optional (choice : definition.TagOptional) (octets : Octets) :
    definition.clearLength octets = .ok (Tag.splitOptional octets).1.toList.length := by
  rcases choice with declared | declared
  · rw [clearLength, declared]
  · rw [clearLength, declared]

theorem clearLength_untagged_unless (typed : value.dataType = definition.dataType)
    (bare : value.tagLength = 0)
    (untagged : definition.TagOptional → (Tag.splitOptional octets).1 = none) :
    definition.clearLength octets = .ok 0 := by
  by_cases choice : definition.TagOptional
  · rw [clearLength_optional choice, untagged choice]
    rfl
  · have tagless : ∀ tagged : definition.dataType = .taggedString ∨
        definition.dataType = .taggedText ∨ definition.dataType = .taggedInteger, False := by
      intro tagged
      rw [tagLength_of_tagged (typed ▸ tagged)] at bare
      contradiction
    unfold clearLength
    split
    · rename_i declared
      exact (tagless (.inl declared)).elim
    · rename_i declared
      exact (tagless (.inr (.inl declared))).elim
    · rename_i declared
      exact (tagless (.inr (.inr declared))).elim
    · rename_i declared
      exact absurd (.inl declared) choice
    · rename_i declared
      exact absurd (.inr declared) choice
    · rfl

theorem splitOptional_unless (large : ∀ first later, octets = first :: later → ¬first ≤ 0x1F) :
    (Tag.splitOptional octets).1 = none := by
  cases octets with
  | nil => rfl
  | cons first later =>
      rw [Tag.splitOptional, Tag.ofOctet?, dif_neg (large first later rfl)]

theorem decodePlain?_of_built (undivided : value.dataType ≠ .concat ∧ value.dataType ≠ .tlv)
    (built : value.Built) (typed : value.dataType = definition.dataType) :
    definition.decodePlain? dictionary value.octets = some value := by
  rw [decodePlain?, ← typed]
  cases built with
  | @plain value built =>
      have read := PlainValue.decode?_octets built
      simp only [Value.dataType, Value.octets, Value.decode?_plain, read, Option.map_some]
  | container built => exact Value.decode?_container (Container.fits_of_built built)
  | concat built => exact absurd rfl undivided.1
  | tlv made inside => exact absurd rfl undivided.2

/-- Behind its first octet a hidden user password is no whole number of blocks. -/
theorem decodeValue_misled (misled : definition.Misleads value octets)
    (whole : octets.length % 16 = 0) :
    definition.clearLength octets = .ok 1 ∧
      definition.decodeValue exchange dictionary octets = .ok none := by
  obtain ⟨first, later, rfl, small⟩ := misled.resembles
  have counted : definition.clearLength (first :: later) = .ok 1 := by
    rw [clearLength_optional misled.choice, Tag.splitOptional, Tag.ofOctet?, dif_pos small]
    rfl
  have unrevealed : Password.revealUser? exchange later = none := by
    refine Option.eq_none_iff_forall_ne_some.mpr ?_
    intro plain revealed
    obtain ⟨⟨aligned, -⟩, -⟩ := Password.revealUser?_eq_some_iff.mp revealed
    rw [List.length_cons] at whole
    omega
  refine ⟨counted, ?_⟩
  rw [decodeValue, misled.hides]
  simp only [counted, bind, Except.bind, List.drop_one, List.tail_cons, Filter.decode?, unrevealed]
  rfl

theorem clearLength_unless_misled {filter : Filter} {plain : Octets}
    (hides : definition.filter = some filter) (typed : value.dataType = definition.dataType)
    (bare : value.tagLength = 0)
    (filtered : filter.encode exchange plain source = (.ok hidden, rest))
    (fair : ¬definition.Misleads value hidden) : definition.clearLength hidden = .ok 0 := by
  apply clearLength_untagged_unless typed bare
  intro choice
  cases filter with
  | userPassword =>
      apply splitOptional_unless
      intro first later starts small
      exact fair ⟨hides, choice, bare, first, later, starts, small⟩
  | tunnelPassword =>
      -- the salt comes first, and its highest bit is set
      obtain ⟨short, salt, salted, rfl⟩ := of_encode_tunnelPassword filtered
      exact Password.splitOptional_hideTunnel exchange salted

theorem whole_of_misled {filter : Filter} {plain : Octets}
    (hides : definition.filter = some filter)
    (filtered : filter.encode exchange plain source = (.ok hidden, rest))
    (misled : definition.Misleads value (value.octets.take value.tagLength ++ hidden)) :
    (value.octets.take value.tagLength ++ hidden).length % 16 = 0 := by
  cases hides.symm.trans misled.hides
  obtain ⟨hid, -⟩ := Drawing.ofExcept_eq_ok_iff.mp filtered
  rw [misled.untagged, List.take_zero, List.nil_append, Password.length_hideUser hid]
  omega

/-- A value that is sent behind a filter is received unless it misleads about its tag: both sides
find the same clear octets then, and the same value. One that misleads is not decoded at all. A user
password is asked not to end in a zero. -/
theorem received_unless_misled {filter : Filter} (hides : definition.filter = some filter)
    (declared : definition.dataType ≠ .concat ∧ definition.dataType ≠ .tlv) (built : value.Built)
    (ends : filter = .userPassword → (value.octets.drop value.tagLength).getLast? ≠ some 0)
    (sent : definition.encodeValue exchange value source = (.ok octets, rest)) :
    (definition.clearLength octets = .ok value.tagLength ↔ ¬definition.Misleads value octets) ∧
      (definition.decodeValue exchange dictionary octets = .ok (some value) ↔
        ¬definition.Misleads value octets) ∧
      (definition.Misleads value octets →
        definition.decodeValue exchange dictionary octets = .ok none) := by
  obtain ⟨typed, hidden, filtered, rfl⟩ := (encodeValue_hidden hides).mp sent
  by_cases misled : definition.Misleads value (value.octets.take value.tagLength ++ hidden)
  · obtain ⟨counted, unread⟩ : definition.clearLength _ = .ok 1 ∧
        definition.decodeValue exchange dictionary _ = .ok none :=
      decodeValue_misled misled (whole_of_misled hides filtered misled)
    refine ⟨iff_of_false ?_ (not_not_intro misled), iff_of_false ?_ (not_not_intro misled),
      fun _ => unread⟩
    · rw [counted, misled.untagged]
      nofun
    · rw [unread]
      nofun
  · have untagged : value.tagLength = 0 → definition.clearLength hidden = .ok 0 := by
      intro bare
      rw [bare, List.take_zero, List.nil_append] at misled
      exact clearLength_unless_misled hides typed bare filtered misled
    have reveals := Filter.decode?_of_encode ends filtered
    have reads : definition.decodePlain? dictionary value.octets = some value :=
      decodePlain?_of_built (typed ▸ declared) built typed
    refine ⟨iff_of_true ?_ misled, iff_of_true ?_ misled, fun misled' => absurd misled' misled⟩
    · exact clearLength_of_tag typed untagged
    · exact decodeValue_hidden hides typed untagged reveals reads

def taggedNote : AttributeDefinition :=
  ⟨.topLevel 200, "Tagged-Note", .optionalTaggedString, .standard, some .userPassword⟩

def note (content : Octets) : Value := .plain (.optionalTaggedString none content)

theorem built_note {content : Octets} (clear : Tag.checkOptional none content = .ok ()) :
    (note content).Built := by
  have made : PlainValue.makeOptionalTaggedString none content =
      .ok (.optionalTaggedString none content) := by
    rw [PlainValue.makeOptionalTaggedString, clear]
    rfl
  exact .plain (.optionalTaggedString made)

theorem encodeValue_note {content hidden : Octets}
    (hid : Password.hideUser .sample content = .ok hidden) :
    taggedNote.encodeValue .sample (note content) (Entropy.cycle []) =
      (.ok hidden, Entropy.cycle []) := by
  have hides : taggedNote.filter = some .userPassword := rfl
  have filtered : Filter.userPassword.encode .sample content (Entropy.cycle []) =
      (.ok hidden, Entropy.cycle []) := Drawing.ofExcept_eq_ok_iff.mpr ⟨hid, rfl⟩
  exact (encodeValue_hidden hides).mpr ⟨rfl, hidden, filtered, rfl⟩

/-- The hidden form of two digits resembles no tag. -/
theorem received_unless_misled_digits :
    (note [0x31, 0x32]).Built ∧ (note [0x31, 0x32]).octets.getLast? ≠ some 0 ∧
      ∃ octets, taggedNote.encodeValue .sample (note [0x31, 0x32]) (Entropy.cycle []) =
          (.ok octets, Entropy.cycle []) ∧
        taggedNote.decodeValue .sample DefinitionTable.standard.toDictionary octets =
          .ok (some (note [0x31, 0x32])) := by
  have built : (note [0x31, 0x32]).Built := built_note rfl
  have hid : Password.hideUser .sample [0x31, 0x32] = .ok [0x5B, 0x32, 0x2D, 0xDB, 0x93, 0xFC,
      0xBC, 0x0D, 0xD3, 0xEB, 0xD0, 0x93, 0x00, 0x97, 0x0F, 0xC8] := by
    decide +kernel
  have sent := encodeValue_note hid
  have ends : Filter.userPassword = .userPassword →
      ((note [0x31, 0x32]).octets.drop (note [0x31, 0x32]).tagLength).getLast? ≠ some 0 :=
    fun _ => by decide
  obtain ⟨-, received, -⟩ := received_unless_misled rfl (by decide) built ends sent
  refine ⟨built, by decide, _, sent, received.mpr ?_⟩
  rintro ⟨-, -, -, first, later, starts, small⟩
  cases starts
  revert small
  decide

/-- The hidden form of two letters starts with an octet that is taken for a tag. -/
theorem misled_letters :
    (note [0x70, 0x77]).Built ∧ (note [0x70, 0x77]).dataType = taggedNote.dataType ∧
      (note [0x70, 0x77]).tagLength = 0 ∧ (note [0x70, 0x77]).octets.getLast? ≠ some 0 ∧
      ∃ octets, taggedNote.encodeValue .sample (note [0x70, 0x77]) (Entropy.cycle []) =
          (.ok octets, Entropy.cycle []) ∧
        taggedNote.clearLength octets = .ok 1 ∧
        taggedNote.decodeValue .sample DefinitionTable.standard.toDictionary octets = .ok none := by
  have hid : Password.hideUser .sample [0x70, 0x77] = .ok [0x1A, 0x77, 0x2D, 0xDB, 0x93, 0xFC,
      0xBC, 0x0D, 0xD3, 0xEB, 0xD0, 0x93, 0x00, 0x97, 0x0F, 0xC8] := by
    decide +kernel
  exact ⟨built_note rfl, rfl, rfl, by decide, _, encodeValue_note hid,
    by decide +kernel, by decide +kernel⟩

end AttributeDefinition

end Radius

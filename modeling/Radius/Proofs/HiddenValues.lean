import Mathlib.Data.List.DropRight
import Radius.Definition.Value
import Radius.Proofs.ValueFormat

/-!
Values behind a filter. What a filter has hidden it reveals, apart from trailing zeros of a user
password; and a user password that was revealed is hidden again as the front of what was received.
So a value that was read from a record, or that reads back from its own octets behind a filter that
keeps zeros, is recovered after it is sent.
-/

namespace Radius

namespace KeyStream

variable (hash : Octets → Digest) (secret seed : Octets)

theorem encrypt_prefix (front back : Octets) (aligned : front.length % blockLength = 0) :
    encrypt hash secret seed front <+: encrypt hash secret seed (front ++ back) := by
  fun_induction encrypt hash secret seed front with
  | case1 => exact List.nil_prefix
  | case2 seed first rest hidden ih =>
      have long : blockLength ≤ (first :: rest).length := by
        simp only [blockLength, List.length_cons] at aligned ⊢
        omega
      have remaining : ((first :: rest).drop blockLength).length % blockLength = 0 := by
        rw [List.length_drop]
        simp only [blockLength] at aligned long ⊢
        omega
      -- the first block of the longer text is the first block of the shorter one
      have block : maskBlock hash secret seed (first :: rest ++ back) = hidden := by
        rw [← maskBlock_take, List.take_append_of_le_length long, maskBlock_take]
      have tail := ih remaining
      rw [← List.drop_append_of_le_length long] at tail
      rw [List.cons_append] at block tail ⊢
      rw [encrypt, block]
      exact (List.prefix_append_right_inj hidden).mpr tail

end KeyStream

namespace Password

theorem length_pad_mod (octets : Octets) : (pad octets).length % 16 = 0 := by
  rw [pad, List.length_append, List.length_replicate]
  omega

theorem dropTrailingZeros_eq (octets : Octets) :
    dropTrailingZeros octets = octets.rdropWhile (· == 0) := rfl

theorem dropTrailingZeros_append_zeros (octets : Octets) (count : Nat) :
    dropTrailingZeros (octets ++ List.replicate count 0) = dropTrailingZeros octets := by
  induction count with
  | zero => rw [List.replicate_zero, List.append_nil]
  | succ count ih =>
      rw [List.replicate_succ', ← List.append_assoc, dropTrailingZeros_eq,
        List.rdropWhile_concat_pos _ _ _ rfl]
      exact ih

theorem dropTrailingZeros_append (octets : Octets) :
    ∃ count, octets = dropTrailingZeros octets ++ List.replicate count 0 := by
  have zeros : ∀ octet ∈ octets.rtakeWhile (· == 0), octet = 0 := by
    intro octet member
    simpa using List.mem_rtakeWhile_imp member
  refine ⟨(octets.rtakeWhile (· == 0)).length, ?_⟩
  rw [dropTrailingZeros_eq, ← List.eq_replicate_of_mem zeros]
  exact (List.rdropWhile_append_rtakeWhile).symm

theorem dropTrailingZeros_drop {octets : Octets} (count : Nat)
    (trimmed : dropTrailingZeros octets = octets) :
    dropTrailingZeros (octets.drop count) = octets.drop count := by
  rw [dropTrailingZeros_eq, List.rdropWhile_eq_self_iff] at trimmed ⊢
  intro some
  have longer : octets ≠ [] := by
    rintro rfl
    simp at some
  rw [List.getLast_drop]
  exact trimmed longer

/-- The padding is the least one, so whatever is padded by zeros to whole blocks starts with it. -/
theorem pad_prefix {octets : Octets} {count : Nat}
    (aligned : (octets ++ List.replicate count 0).length % 16 = 0) :
    pad octets <+: octets ++ List.replicate count 0 := by
  rw [List.length_append, List.length_replicate] at aligned
  have least : (16 - octets.length % 16) % 16 ≤ count := by omega
  obtain ⟨extra, rfl⟩ := Nat.exists_eq_add_of_le least
  rw [← List.replicate_append_replicate, ← List.append_assoc]
  exact List.prefix_append ..

section UserPassword

variable {exchange : Exchange} {plain cipher hidden : Octets}

theorem revealUser?_hideUser (trimmed : dropTrailingZeros plain = plain)
    (hid : hideUser exchange plain = .ok hidden) : revealUser? exchange hidden = some plain := by
  unfold hideUser at hid
  split at hid
  · contradiction
  · rename_i short
    cases hid
    have blocks := length_pad_mod plain
    have bound : (pad plain).length ≤ maxUserPassword := by
      simp only [pad, maxUserPassword, List.length_append, List.length_replicate] at short ⊢
      omega
    rw [revealUser?, if_pos, KeyStream.decrypt_encrypt, pad, dropTrailingZeros_append_zeros,
      trimmed]
    rw [KeyStream.length_encrypt]
    exact ⟨blocks, bound⟩

theorem dropTrailingZeros_of_revealUser? (revealed : revealUser? exchange cipher = some plain) :
    dropTrailingZeros plain = plain := by
  unfold revealUser? at revealed
  split at revealed
  · cases revealed
    exact List.rdropWhile_idempotent ..
  · contradiction

theorem hideUser_prefix (revealed : revealUser? exchange cipher = some plain)
    (hid : hideUser exchange plain = .ok hidden) : hidden <+: cipher := by
  unfold revealUser? at revealed
  split at revealed
  · rename_i whole
    cases revealed
    have closed := KeyStream.encrypt_decrypt exchange.hash exchange.secret
      exchange.authenticator.octets cipher
    have aligned := whole.1
    rw [← KeyStream.length_decrypt exchange.hash exchange.secret
      exchange.authenticator.octets] at aligned
    -- what was dropped is padded again with zeros, perhaps with fewer of them
    generalize KeyStream.decrypt exchange.hash exchange.secret exchange.authenticator.octets cipher =
      opened at closed aligned hid
    obtain ⟨count, padded⟩ := dropTrailingZeros_append opened
    obtain ⟨extra, joined⟩ := pad_prefix (padded ▸ aligned)
    rw [← padded] at joined
    unfold hideUser at hid
    split at hid
    · contradiction
    · cases hid
      have front := KeyStream.encrypt_prefix exchange.hash exchange.secret
        exchange.authenticator.octets _ extra (length_pad_mod (dropTrailingZeros opened))
      rwa [joined, closed] at front
  · contradiction

end UserPassword

section TunnelPassword

theorem saltFlag_marked (octet : UInt8) :
    (octet ||| saltFlag) &&& saltFlag ≠ 0 ∧ ¬(octet ||| saltFlag) ≤ 0x1F := by
  revert octet
  apply forall_octet
  decide +kernel

theorem revealTunnel?_hideTunnel (exchange : Exchange) {salt plain : Octets}
    (salted : salt.length = saltLength) (short : plain.length ≤ maxTunnelPassword) :
    revealTunnel? exchange (hideTunnel exchange (markSalt salt) plain) = some plain := by
  match salt, salted with
  | [first, second], _ =>
      have counted : (UInt8.ofNat plain.length).toNat = plain.length := by
        simp only [maxTunnelPassword] at short
        rw [UInt8.toNat_ofNat']
        omega
      have blocks := length_pad_mod (UInt8.ofNat plain.length :: plain)
      obtain ⟨marked, -⟩ := saltFlag_marked first
      simp only [markSalt, hideTunnel, List.cons_append, List.nil_append, revealTunnel?]
      rw [if_pos ⟨marked, by rw [KeyStream.length_encrypt]; exact blocks⟩,
        KeyStream.decrypt_encrypt, pad, List.cons_append]
      simp only [counted]
      rw [if_pos (by rw [List.length_append]; omega), List.take_left]

/-- The hidden form starts with the salt, whose first bit no tag has. -/
theorem splitOptional_hideTunnel (exchange : Exchange) {salt plain : Octets}
    (salted : salt.length = saltLength) :
    (Tag.splitOptional (hideTunnel exchange (markSalt salt) plain)).1 = none := by
  match salt, salted with
  | [first, second], _ =>
      obtain ⟨-, large⟩ := saltFlag_marked first
      simp only [markSalt, hideTunnel, List.cons_append, List.nil_append, Tag.splitOptional,
        Tag.ofOctet?, dif_neg large]

end TunnelPassword

end Password

theorem Value.tagLength_le (value : Value) : value.tagLength ≤ value.octets.length := by
  cases value with
  | plain plain =>
      cases plain <;>
        simp [Value.tagLength, Value.octets, PlainValue.tagLength, PlainValue.octets]
  | container container => exact Nat.zero_le _
  | concat joined => exact Nat.zero_le _
  | tlv records => exact Nat.zero_le _

namespace AttributeDefinition

variable {definition : AttributeDefinition} {exchange : Exchange} {dictionary : Dictionary}
  {value : Value} {source rest : Entropy} {octets hidden : Octets}

/-- Whatever is sent for the value is read as the value. -/
def Recovers (definition : AttributeDefinition) (exchange : Exchange) (dictionary : Dictionary)
    (value : Value) : Prop :=
  ∀ ⦃source rest octets⦄, definition.encodeValue exchange value source = (.ok octets, rest) →
    definition.decodeValue exchange dictionary octets = .ok (some value)

theorem encodeAs_eq_ok_iff {type : DataType} :
    value.encodeAs type = .ok octets ↔ value.dataType = type ∧ octets = value.octets := by
  unfold Value.encodeAs
  split
  · rename_i typed
    simp [typed, eq_comm]
  · rename_i untyped
    simp [untyped]

theorem encodeValue_clear (clear : definition.filter = none) :
    definition.encodeValue exchange value source = (.ok octets, rest) ↔
      value.dataType = definition.dataType ∧ octets = value.octets ∧ source = rest := by
  unfold encodeValue
  rw [Drawing.bind_eq_ok_iff, clear]
  constructor
  · rintro ⟨written, middle, checked, sent⟩
    obtain ⟨typed, rfl⟩ := Drawing.ofExcept_eq_ok_iff.mp checked
    obtain ⟨rfl, rfl⟩ := Drawing.pure_eq_ok_iff.mp sent
    obtain ⟨same, written⟩ := encodeAs_eq_ok_iff.mp typed
    exact ⟨same, written, rfl⟩
  · rintro ⟨typed, rfl, rfl⟩
    exact ⟨value.octets, source,
      Drawing.ofExcept_eq_ok_iff.mpr ⟨encodeAs_eq_ok_iff.mpr ⟨typed, rfl⟩, rfl⟩,
      Drawing.pure_eq_ok_iff.mpr ⟨rfl, rfl⟩⟩

theorem encodeValue_hidden {filter : Filter} (hides : definition.filter = some filter) :
    definition.encodeValue exchange value source = (.ok octets, rest) ↔
      value.dataType = definition.dataType ∧
        ∃ hidden, filter.encode exchange (value.octets.drop value.tagLength) source =
          (.ok hidden, rest) ∧ octets = value.octets.take value.tagLength ++ hidden := by
  unfold encodeValue
  rw [Drawing.bind_eq_ok_iff, hides]
  constructor
  · rintro ⟨written, middle, checked, sent⟩
    obtain ⟨typed, rfl⟩ := Drawing.ofExcept_eq_ok_iff.mp checked
    obtain ⟨same, rfl⟩ := encodeAs_eq_ok_iff.mp typed
    obtain ⟨hidden, final, filtered, built⟩ := Drawing.bind_eq_ok_iff.mp sent
    obtain ⟨rfl, rfl⟩ := Drawing.pure_eq_ok_iff.mp built
    exact ⟨same, hidden, filtered, rfl⟩
  · rintro ⟨typed, hidden, filtered, rfl⟩
    refine ⟨value.octets, source,
      Drawing.ofExcept_eq_ok_iff.mpr ⟨encodeAs_eq_ok_iff.mpr ⟨typed, rfl⟩, rfl⟩, ?_⟩
    exact Drawing.bind_eq_ok_iff.mpr
      ⟨hidden, rest, filtered, Drawing.pure_eq_ok_iff.mpr ⟨rfl, rfl⟩⟩

theorem clearLength_of_tag (typed : value.dataType = definition.dataType)
    (untagged : value.tagLength = 0 → definition.clearLength hidden = .ok 0) :
    definition.clearLength (value.octets.take value.tagLength ++ hidden) =
      .ok value.tagLength := by
  by_cases tagged : value.tagLength = 0
  · rw [tagged, List.take_zero, List.nil_append]
    exact untagged tagged
  · unfold clearLength
    rw [← typed]
    cases value with
    | plain plain =>
        cases plain with
        | optionalTaggedString tag content =>
            cases tag with
            | none => simp [Value.tagLength, PlainValue.tagLength] at tagged
            | some tag =>
                simp [Value.tagLength, PlainValue.tagLength, Value.dataType, PlainValue.dataType,
                  Value.octets, PlainValue.octets, Tag.splitOptional, Tag.ofOctet?_octet]
        | optionalTaggedText tag content =>
            cases tag with
            | none => simp [Value.tagLength, PlainValue.tagLength] at tagged
            | some tag =>
                simp [Value.tagLength, PlainValue.tagLength, Value.dataType, PlainValue.dataType,
                  Value.octets, PlainValue.octets, Tag.splitOptional, Tag.ofOctet?_octet]
        | taggedString tag content => rfl
        | taggedText tag content => rfl
        | taggedInteger tag value => rfl
        | _ => simp [Value.tagLength, PlainValue.tagLength] at tagged
    | _ => simp [Value.tagLength] at tagged

theorem decodeValue_hidden {filter : Filter} (hides : definition.filter = some filter)
    (typed : value.dataType = definition.dataType)
    (untagged : value.tagLength = 0 → definition.clearLength hidden = .ok 0)
    (reveals : filter.decode? exchange hidden = some (value.octets.drop value.tagLength))
    (reads : definition.decodePlain? dictionary value.octets = some value) :
    definition.decodeValue exchange dictionary (value.octets.take value.tagLength ++ hidden) =
      .ok (some value) := by
  have width : (value.octets.take value.tagLength).length = value.tagLength := by
    rw [List.length_take]
    exact Nat.min_eq_left value.tagLength_le
  unfold decodeValue
  rw [hides]
  simp only [clearLength_of_tag typed untagged, bind, Except.bind]
  rw [List.drop_left' width, List.take_left' width, reveals, Option.bind_some,
    List.take_append_drop, reads]
  rfl

theorem clearLength_untagged (typed : value.dataType = definition.dataType)
    (bare : value.tagLength = 0) (untagged : (Tag.splitOptional hidden).1 = none) :
    definition.clearLength hidden = .ok 0 := by
  unfold clearLength
  rw [← typed]
  cases value with
  | plain plain =>
      cases plain with
      | optionalTaggedString tag content => simp [Value.dataType, PlainValue.dataType, untagged]
      | optionalTaggedText tag content => simp [Value.dataType, PlainValue.dataType, untagged]
      | taggedString tag content => simp [Value.tagLength, PlainValue.tagLength] at bare
      | taggedText tag content => simp [Value.tagLength, PlainValue.tagLength] at bare
      | taggedInteger tag number => simp [Value.tagLength, PlainValue.tagLength] at bare
      | _ => rfl
  | container container => cases container <;> rfl
  | concat joined => rfl
  | tlv records => rfl

theorem of_encode_tunnelPassword {plain : Octets}
    (sent : Filter.tunnelPassword.encode exchange plain source = (.ok hidden, rest)) :
    plain.length ≤ Password.maxTunnelPassword ∧ ∃ salt : Octets, salt.length = Password.saltLength ∧
      hidden = Password.hideTunnel exchange (Password.markSalt salt) plain := by
  unfold Filter.encode at sent
  dsimp only at sent
  split at sent
  · cases sent
  · rename_i short
    obtain ⟨salt, middle, drawn, built⟩ := Drawing.bind_eq_ok_iff.mp sent
    obtain ⟨rfl, -⟩ := Drawing.pure_eq_ok_iff.mp built
    exact ⟨Nat.le_of_not_lt short, salt, Drawing.length_of_octets drawn, rfl⟩

/-- A value that reads back from its own octets is recovered, unless its filter trims zeros. -/
theorem recovers_of_decodePlain? (untrimmed : definition.filter ≠ some .userPassword)
    (reads : definition.decodePlain? dictionary value.octets = some value) :
    definition.Recovers exchange dictionary value := by
  intro source rest octets sent
  cases hides : definition.filter with
  | none =>
      obtain ⟨-, rfl, -⟩ := (encodeValue_clear hides).mp sent
      rw [decodeValue, hides]
      exact congrArg Except.ok reads
  | some filter =>
      cases filter with
      | userPassword => exact absurd hides untrimmed
      | tunnelPassword =>
          obtain ⟨typed, hidden, filtered, rfl⟩ := (encodeValue_hidden hides).mp sent
          obtain ⟨short, salt, salted, rfl⟩ := of_encode_tunnelPassword filtered
          refine decodeValue_hidden hides typed ?_
            (Password.revealTunnel?_hideTunnel exchange salted short) reads
          intro bare
          exact clearLength_untagged typed bare (Password.splitOptional_hideTunnel exchange salted)

theorem clearLength_prefix (front : hidden <+: octets)
    (bare : definition.clearLength octets = .ok 0) : definition.clearLength hidden = .ok 0 := by
  have untagged : (Tag.splitOptional octets).1 = none → (Tag.splitOptional hidden).1 = none := by
    intro bare
    obtain ⟨extra, rfl⟩ := front
    cases hidden with
    | nil => rfl
    | cons first later =>
        rw [List.cons_append, Tag.splitOptional] at bare
        rw [Tag.splitOptional]
        cases within : Tag.ofOctet? first with
        | none => rfl
        | some tag => simp [within] at bare
  unfold clearLength at bare ⊢
  split at bare
  · split at bare <;> cases bare
  · split at bare <;> cases bare
  · split at bare <;> cases bare
  · cases tagged : (Tag.splitOptional octets).1 with
    | none => rw [untagged tagged]; rfl
    | some tag => rw [tagged] at bare; cases bare
  · cases tagged : (Tag.splitOptional octets).1 with
    | none => rw [untagged tagged]; rfl
    | some tag => rw [tagged] at bare; cases bare
  · rfl

theorem tagLength_of_tagged (tagged : value.dataType = .taggedString ∨
    value.dataType = .taggedText ∨ value.dataType = .taggedInteger) : value.tagLength = 1 := by
  cases value with
  | plain plain => cases plain <;> simp [Value.dataType, PlainValue.dataType] at tagged <;> rfl
  | container container =>
      cases container <;> simp [Value.dataType, Container.dataType] at tagged
  | concat joined => simp [Value.dataType] at tagged
  | tlv records => simp [Value.dataType] at tagged

def tagWidth (octets : Octets) : Nat := (Tag.splitOptional octets).1.toList.length

theorem tagLength_of_optional (declared : definition.dataType = .optionalTaggedString ∨
    definition.dataType = .optionalTaggedText)
    (reads : definition.decodePlain? dictionary octets = some value) :
    value.tagLength = tagWidth octets := by
  rcases cut : Tag.splitOptional octets with ⟨tag, content⟩
  rw [tagWidth, cut]
  rcases declared with declared | declared
  · simp only [decodePlain?, declared, Value.decode?, PlainValue.decode?, cut] at reads
    cases reads
    rfl
  · simp only [decodePlain?, declared, Value.decode?, PlainValue.decode?, cut,
      Option.map_eq_some_iff] at reads
    obtain ⟨plain, ⟨words, -, rfl⟩, rfl⟩ := reads
    rfl

theorem tagWidth_take (octets plain : Octets) :
    tagWidth octets ≤ tagWidth (octets.take (tagWidth octets) ++ plain) := by
  cases octets with
  | nil => exact Nat.zero_le _
  | cons first later =>
      cases within : Tag.ofOctet? first with
      | none =>
          have none : tagWidth (first :: later) = 0 := by simp [tagWidth, Tag.splitOptional, within]
          rw [none]
          exact Nat.zero_le _
      | some tag =>
          have one : tagWidth (first :: later) = 1 := by simp [tagWidth, Tag.splitOptional, within]
          rw [one]
          simp [tagWidth, Tag.splitOptional, within]

theorem clear_le_tagLength {plain : Octets} {clear : Nat}
    (counted : definition.clearLength octets = .ok clear)
    (typed : value.dataType = definition.dataType)
    (reads : definition.decodePlain? dictionary (octets.take clear ++ plain) = some value) :
    clear ≤ value.tagLength := by
  unfold clearLength at counted
  split at counted
  · rename_i declared
    split at counted <;> cases counted
    rw [tagLength_of_tagged (.inl (typed.trans declared))]
  · rename_i declared
    split at counted <;> cases counted
    rw [tagLength_of_tagged (.inr (.inl (typed.trans declared)))]
  · rename_i declared
    split at counted <;> cases counted
    rw [tagLength_of_tagged (.inr (.inr (typed.trans declared)))]
  · rename_i declared
    cases counted
    rw [tagLength_of_optional (.inl declared) reads]
    exact tagWidth_take octets plain
  · rename_i declared
    cases counted
    rw [tagLength_of_optional (.inr declared) reads]
    exact tagWidth_take octets plain
  · cases counted
    exact Nat.zero_le _

theorem decodeValue_hidden_eq_ok_iff {filter : Filter} (hides : definition.filter = some filter) :
    definition.decodeValue exchange dictionary octets = .ok (some value) ↔
      ∃ clear plain, definition.clearLength octets = .ok clear ∧
        filter.decode? exchange (octets.drop clear) = some plain ∧
        definition.decodePlain? dictionary (octets.take clear ++ plain) = some value := by
  unfold decodeValue
  rw [hides]
  simp only [Result.bind_eq_ok_iff, pure, Except.pure, Except.ok.injEq, Option.bind_eq_some_iff]
  constructor
  · rintro ⟨clear, counted, plain, revealed, reads⟩
    exact ⟨clear, plain, counted, revealed, reads⟩
  · rintro ⟨clear, plain, counted, revealed, reads⟩
    exact ⟨clear, counted, plain, revealed, reads⟩

theorem octets_of_decodeValue_clear
    (trees : dictionary.KeepsTrees) (unreserved : definition.dataType ≠ .longExtended)
    (clear : definition.filter = none)
    (read : definition.decodeValue exchange dictionary octets = .ok (some value)) :
    value.dataType = definition.dataType ∧ value.octets = octets := by
  rw [decodeValue, clear] at read
  have spells := Value.spells_of_decode? trees unreserved (Except.ok.inj read)
  exact ⟨spells.type_eq, spells.octets_eq⟩

theorem decodePlain?_octets_of_decodeValue
    (trees : dictionary.KeepsTrees) (unreserved : definition.dataType ≠ .longExtended)
    (read : definition.decodeValue exchange dictionary octets = .ok (some value)) :
    value.dataType = definition.dataType ∧
      definition.decodePlain? dictionary value.octets = some value := by
  cases hides : definition.filter with
  | none =>
      obtain ⟨typed, spelled⟩ := octets_of_decodeValue_clear trees unreserved hides read
      rw [decodeValue, hides] at read
      exact ⟨typed, spelled ▸ Except.ok.inj read⟩
  | some filter =>
      obtain ⟨clear, plain, -, -, reads⟩ := (decodeValue_hidden_eq_ok_iff hides).mp read
      have spells := Value.spells_of_decode? trees unreserved reads
      exact ⟨spells.type_eq, spells.octets_eq ▸ reads⟩

theorem recovers_of_decodeValue
    (trees : dictionary.KeepsTrees) (unreserved : definition.dataType ≠ .longExtended)
    (read : definition.decodeValue exchange dictionary octets = .ok (some value)) :
    definition.Recovers exchange dictionary value := by
  obtain ⟨typed, again⟩ := decodePlain?_octets_of_decodeValue trees unreserved read
  by_cases trims : definition.filter = some .userPassword
  · obtain ⟨clear, plain, counted, revealed, reads⟩ :=
      (decodeValue_hidden_eq_ok_iff trims).mp read
    have whole := (Value.spells_of_decode? trees unreserved reads).octets_eq
    have within := clear_le_tagLength counted typed reads
    have trimmed := Password.dropTrailingZeros_of_revealUser? revealed
    intro source rest sent encoded
    obtain ⟨-, hidden, filtered, rfl⟩ := (encodeValue_hidden trims).mp encoded
    obtain ⟨hid, -⟩ := Drawing.ofExcept_eq_ok_iff.mp filtered
    have behind : value.octets.drop value.tagLength =
        plain.drop (value.tagLength - (octets.take clear).length) := by
      have short : (octets.take clear).length ≤ value.tagLength :=
        Nat.le_trans (List.length_take_le ..) within
      rw [whole, List.drop_append, List.drop_of_length_le short, List.nil_append]
    have trimmedTail := Password.dropTrailingZeros_drop
      (value.tagLength - (octets.take clear).length) trimmed
    rw [← behind] at trimmedTail
    refine decodeValue_hidden trims typed ?_ (Password.revealUser?_hideUser trimmedTail hid) again
    -- without a tag the first octet sent is the first octet received, which was no tag
    intro bare
    have none : clear = 0 := by omega
    subst none
    rw [List.take_zero, List.nil_append] at whole
    rw [bare, List.drop_zero, whole] at hid
    exact clearLength_prefix (Password.hideUser_prefix revealed hid) counted
  · exact recovers_of_decodePlain? trims again

end AttributeDefinition

end Radius

import Radius.Proofs.HiddenValues
import Radius.Proofs.Lowered

/-!
How many octets are sent. A filter pads what stands behind the tag to whole blocks, and received
octets come in whole blocks; so a value that was received is sent in no more octets, unless its tag
was received behind the filter. Whatever could hold the received value refuses another one of the
same type only for its length.
-/

namespace Radius

/-- The value is longer than what would carry it can hold, or than its filter can hide. -/
def AttributeError.IsLimit : AttributeError → Prop
  | .valueTooLong length max | .passwordTooLong length max => max < length
  | _ => False

def PacketError.IsLimit : PacketError → Prop
  | .invalidAttribute cause => cause.IsLimit
  | _ => False

namespace Password

def padded (length : Nat) : Nat := length + (16 - length % 16) % 16

theorem length_pad (octets : Octets) : (pad octets).length = padded octets.length := by
  rw [pad, List.length_append, List.length_replicate, padded]

theorem padded_le {length blocks : Nat} (aligned : blocks % 16 = 0) (enough : length ≤ blocks) :
    padded length ≤ blocks := by
  unfold padded
  omega

theorem padded_mono {shorter longer : Nat} (ordered : shorter ≤ longer) :
    padded shorter ≤ padded longer := by
  unfold padded
  omega

theorem length_markSalt (salt : Octets) : (markSalt salt).length = salt.length := by
  cases salt <;> rfl

theorem length_hideTunnel (exchange : Exchange) (salt plain : Octets) :
    (hideTunnel exchange salt plain).length = salt.length + padded (plain.length + 1) := by
  rw [hideTunnel, List.length_append, KeyStream.length_encrypt, length_pad, List.length_cons]

end Password

namespace Filter

def maxLength : Filter → Nat
  | .userPassword => Password.maxUserPassword
  | .tunnelPassword => Password.maxTunnelPassword

def hiddenLength : Filter → Nat → Nat
  | .userPassword, length => Password.padded length
  | .tunnelPassword, length => Password.saltLength + Password.padded (length + 1)

theorem hiddenLength_mono (filter : Filter) {shorter longer : Nat} (ordered : shorter ≤ longer) :
    filter.hiddenLength shorter ≤ filter.hiddenLength longer := by
  cases filter with
  | userPassword => exact Password.padded_mono ordered
  | tunnelPassword =>
      exact Nat.add_le_add_left (Password.padded_mono (Nat.add_le_add_right ordered 1)) _

/-- Even the longest hidden value leaves room for a tag in a record. -/
theorem hiddenLength_lt_maxRecordValue {filter : Filter} {length : Nat}
    (short : length ≤ filter.maxLength) : filter.hiddenLength length < maxRecordValue := by
  refine Nat.lt_of_le_of_lt (filter.hiddenLength_mono short) ?_
  cases filter <;> decide

theorem encode_ends (filter : Filter) (exchange : Exchange) (plain : Octets) (source : Entropy) :
    (filter.encode exchange plain).Ends source
      (fun hidden => hidden.length = filter.hiddenLength plain.length)
      (fun cause => cause.IsLimit ∧ filter.maxLength < plain.length) := by
  cases filter with
  | userPassword =>
      unfold encode Password.hideUser
      dsimp only
      split
      · rename_i long
        exact .failure rfl ⟨long, long⟩
      · refine .result rfl ?_
        rw [KeyStream.length_encrypt, Password.length_pad]
        rfl
  | tunnelPassword =>
      unfold encode
      dsimp only
      split
      · rename_i long
        exact .failure rfl ⟨long, long⟩
      · refine .result rfl ?_
        rw [Password.length_hideTunnel, Password.length_markSalt]
        change (source.draw Password.saltLength).1.length + _ = _
        rw [source.length_draw]
        rfl

theorem hiddenLength_le {filter : Filter} {exchange : Exchange} {cipher plain : Octets}
    (revealed : filter.decode? exchange cipher = some plain) :
    filter.hiddenLength plain.length ≤ cipher.length := by
  have shorter := length_decode?_le revealed
  cases filter with
  | userPassword =>
      unfold decode? Password.revealUser? at revealed
      dsimp only at revealed
      split at revealed
      · rename_i whole
        exact Password.padded_le whole.1 shorter
      · contradiction
  | tunnelPassword =>
      match cipher, revealed with
      | first :: second :: body, revealed =>
          simp only [decode?, Password.revealTunnel?] at revealed
          split at revealed
          · rename_i whole
            split at revealed
            · contradiction
            · rename_i length rest opened
              have counted := congrArg List.length opened
              rw [KeyStream.length_decrypt] at counted
              split at revealed
              · cases revealed
                have blocks : Password.padded ((rest.take length.toNat).length + 1) ≤
                    body.length := by
                  apply Password.padded_le whole.2
                  rw [List.length_take, counted, List.length_cons]
                  omega
                simp only [hiddenLength, Password.saltLength, List.length_cons]
                omega
              · contradiction
          · contradiction

theorem length_le_of_userPassword {exchange : Exchange} {cipher plain : Octets}
    (revealed : Filter.userPassword.decode? exchange cipher = some plain) :
    plain.length ≤ Filter.userPassword.maxLength := by
  have shorter := length_decode?_le revealed
  unfold decode? Password.revealUser? at revealed
  dsimp only at revealed
  split at revealed
  · rename_i whole
    exact Nat.le_trans shorter whole.2
  · contradiction

end Filter

theorem Value.tagLength_le_one (value : Value) : value.tagLength ≤ 1 := by
  cases value with
  | plain plain =>
      cases plain with
      | optionalTaggedString tag content => cases tag <;> simp [tagLength, PlainValue.tagLength]
      | optionalTaggedText tag content => cases tag <;> simp [tagLength, PlainValue.tagLength]
      | _ => simp [tagLength, PlainValue.tagLength]
  | _ => exact Nat.zero_le _

namespace AttributeDefinition

variable {definition : AttributeDefinition} {exchange : Exchange} {dictionary : Dictionary}
  {value other : Value} {octets : Octets}

def sentLength (definition : AttributeDefinition) (value : Value) : Nat :=
  match definition.filter with
  | none => value.octets.length
  | some filter => value.tagLength + filter.hiddenLength (value.octets.length - value.tagLength)

def Overlong (definition : AttributeDefinition) (value : Value) : Prop :=
  ∃ filter, definition.filter = some filter ∧
    filter.maxLength < value.octets.length - value.tagLength

/-- The value has a tag, but none of the octets that it was received in was in clear. -/
structure HidesTag (definition : AttributeDefinition) (octets : Octets) (value : Value) : Prop where
  filtered : definition.filter ≠ none
  covered : definition.clearLength octets = .ok 0
  tagged : value.tagLength ≠ 0

theorem encodeValue_ends (exchange : Exchange) (typed : value.dataType = definition.dataType)
    (source : Entropy) :
    (definition.encodeValue exchange value).Ends source
      (fun octets => octets.length = definition.sentLength value)
      (fun cause => cause.IsLimit ∧ definition.Overlong value) := by
  unfold encodeValue
  have written := encodeAs_eq_ok_iff.mpr ⟨typed, rfl⟩
  refine .after (Drawing.ofExcept_eq_ok_iff.mpr ⟨written, rfl⟩) ?_
  cases hides : definition.filter with
  | none =>
      refine .pure ?_
      rw [sentLength, hides]
  | some filter =>
      have behind : (value.octets.drop value.tagLength).length =
          value.octets.length - value.tagLength := List.length_drop
      apply Drawing.Ends.bind ((filter.encode_ends exchange _ source).excuse ?_)
      · intro hidden final counted
        refine .pure ?_
        rw [sentLength, hides, List.length_append, List.length_take,
          Nat.min_eq_left value.tagLength_le, counted, behind]
      · rintro cause ⟨limit, longer⟩
        exact ⟨limit, filter, hides, behind ▸ longer⟩

theorem sentLength_mono (tagged : other.tagLength = value.tagLength)
    (shorter : other.octets.length ≤ value.octets.length) :
    definition.sentLength other ≤ definition.sentLength value := by
  unfold sentLength
  split
  · exact shorter
  · rename_i filter hides
    rw [tagged]
    exact Nat.add_le_add_left (filter.hiddenLength_mono (Nat.sub_le_sub_right shorter _)) _

theorem Overlong.of_shorter (tagged : other.tagLength = value.tagLength)
    (shorter : other.octets.length ≤ value.octets.length) (long : definition.Overlong other) :
    definition.Overlong value := by
  obtain ⟨filter, hides, longer⟩ := long
  rw [tagged] at longer
  exact ⟨filter, hides, by omega⟩

theorem clear_le_length {clear : Nat} (counted : definition.clearLength octets = .ok clear) :
    clear ≤ octets.length := by
  have first : (if octets.isEmpty then .error .tagOctetMissing else .ok 1 : Except Fault Nat) =
      .ok clear → clear ≤ octets.length := by
    intro counted
    split at counted
    · contradiction
    · rename_i some
      cases counted
      exact List.length_pos_iff.mpr (by simpa using some)
  have width : (Tag.splitOptional octets).1.toList.length ≤ octets.length := by
    rcases cut : Tag.splitOptional octets with ⟨tag, rest⟩
    rw [← PlainValue.of_splitOptional cut, List.length_append, List.length_map]
    exact Nat.le_add_right ..
  unfold clearLength at counted
  split at counted
  · exact first counted
  · exact first counted
  · exact first counted
  · cases counted
    exact width
  · cases counted
    exact width
  · cases counted
    exact Nat.zero_le _

theorem length_of_decodeValue_hidden (trees : dictionary.KeepsTrees)
    (unreserved : definition.dataType ≠ .longExtended) {filter : Filter}
    (hides : definition.filter = some filter)
    (reads : definition.decodeValue exchange dictionary octets = .ok (some value)) :
    ∃ clear plain, definition.clearLength octets = .ok clear ∧ clear ≤ value.tagLength ∧
      filter.decode? exchange (octets.drop clear) = some plain ∧
      value.octets.length = clear + plain.length := by
  obtain ⟨clear, plain, counted, revealed, spelled⟩ :=
    (decodeValue_hidden_eq_ok_iff hides).mp reads
  have spells := Value.spells_of_decode? trees unreserved spelled
  refine ⟨clear, plain, counted, clear_le_tagLength counted spells.type_eq spelled, revealed, ?_⟩
  rw [spells.octets_eq, List.length_append, List.length_take,
    Nat.min_eq_left (clear_le_length counted)]

/-- A value is sent in no more octets than it was received in, if its tag was in clear. -/
theorem sentLength_le_of_decodeValue (trees : dictionary.KeepsTrees)
    (unreserved : definition.dataType ≠ .longExtended)
    (reads : definition.decodeValue exchange dictionary octets = .ok (some value))
    (shown : ¬definition.HidesTag octets value) :
    definition.sentLength value ≤ octets.length := by
  unfold sentLength
  split
  · rename_i clear
    exact Nat.le_of_eq
      (congrArg List.length (octets_of_decodeValue_clear trees unreserved clear reads).2)
  · rename_i filter hides
    obtain ⟨clear, plain, counted, within, revealed, total⟩ :=
      length_of_decodeValue_hidden trees unreserved hides reads
    have enough := Filter.hiddenLength_le revealed
    have start := clear_le_length counted
    have small := value.tagLength_le_one
    -- the tag of the value is what was received in clear
    have same : clear = value.tagLength := by
      by_contra differs
      have none : clear = 0 := by omega
      exact shown ⟨by simp [hides], none ▸ counted, by omega⟩
    rw [List.length_drop] at enough
    rw [total, ← same, Nat.add_sub_cancel_left]
    omega

theorem tunnelPassword_of_overlong (trees : dictionary.KeepsTrees)
    (unreserved : definition.dataType ≠ .longExtended)
    (reads : definition.decodeValue exchange dictionary octets = .ok (some value))
    (long : definition.Overlong value) :
    definition.filter = some .tunnelPassword ∧ maxRecordValue < octets.length := by
  obtain ⟨filter, hides, longer⟩ := long
  obtain ⟨clear, plain, counted, within, revealed, total⟩ :=
    length_of_decodeValue_hidden trees unreserved hides reads
  have enough := Filter.hiddenLength_le revealed
  rw [List.length_drop] at enough
  cases filter with
  | userPassword =>
      have short := Filter.length_le_of_userPassword revealed
      omega
  | tunnelPassword =>
      refine ⟨hides, ?_⟩
      have blocks : Filter.tunnelPassword.hiddenLength 240 ≤ _ :=
        (Filter.tunnelPassword.hiddenLength_mono (by
          simp only [Filter.maxLength, Password.maxTunnelPassword] at longer
          omega)).trans enough
      have large : Filter.tunnelPassword.hiddenLength 240 = 258 := rfl
      simp only [maxRecordValue]
      omega

theorem sentLength_le_of_record (trees : dictionary.KeepsTrees)
    (unreserved : definition.dataType ≠ .longExtended)
    (reads : definition.decodeValue exchange dictionary octets = .ok (some value))
    (short : octets.length ≤ maxRecordValue) :
    ¬definition.Overlong value ∧ definition.sentLength value ≤ maxRecordValue := by
  have hidable : ¬definition.Overlong value := by
    intro long
    have longer := (tunnelPassword_of_overlong trees unreserved reads long).2
    omega
  refine ⟨hidable, ?_⟩
  unfold sentLength
  split
  · rename_i clear
    rw [(octets_of_decodeValue_clear trees unreserved clear reads).2]
    exact short
  · rename_i filter hides
    have within : value.octets.length - value.tagLength ≤ filter.maxLength := by
      by_contra longer
      exact hidable ⟨filter, hides, Nat.lt_of_not_le longer⟩
    have room := Filter.hiddenLength_lt_maxRecordValue within
    have small := value.tagLength_le_one
    omega

end AttributeDefinition

theorem Container.encodedLength_le_iff {left right : Container}
    (typed : left.dataType = right.dataType) :
    left.encodedLength ≤ right.encodedLength ↔ left.payload.length ≤ right.payload.length := by
  cases left <;> cases right <;> simp [dataType] at typed <;> simp [encodedLength, payload]

/-- A value in the place of the one received: that one itself, or a container that encloses something
else. -/
inductive Value.StandsFor (short : Prop) (received : Value) : Value → Prop
  | same : StandsFor short received received
  | container {inner sent : Container} (held : received = .container inner)
      (typed : sent.dataType = inner.dataType)
      (shorter : short → sent.payload.length ≤ inner.payload.length) :
      StandsFor short received (.container sent)

namespace Value.StandsFor

variable {short : Prop} {received sent : Value}

theorem dataType_eq (stands : StandsFor short received sent) :
    sent.dataType = received.dataType := by
  cases stands with
  | same => rfl
  | container held typed shorter =>
      rw [held]
      exact typed

theorem tagLength_eq (stands : StandsFor short received sent) :
    sent.tagLength = received.tagLength := by
  cases stands with
  | same => rfl
  | container held typed shorter =>
      rw [held]
      rfl

theorem length_octets_le (stands : StandsFor short received sent) (less : short) :
    sent.octets.length ≤ received.octets.length := by
  cases stands with
  | same => exact Nat.le_refl _
  | @container inner sent held typed shorter =>
      rw [held, Value.octets, Value.octets, inner.length_octets, sent.length_octets]
      exact (Container.encodedLength_le_iff typed).mpr (shorter less)

end Value.StandsFor

theorem AttributeDefinition.encodeValue_again {definition : AttributeDefinition}
    {value other : Value} {strained : Prop} (exchange : Exchange)
    (stands : value.StandsFor (¬strained) other) (typed : other.dataType = definition.dataType)
    (overlong : definition.Overlong value → strained) (source : Entropy) :
    (Drawing.mapFailure PacketError.invalidAttribute (definition.encodeValue exchange other)).Ends
      source (fun octets => ¬strained → octets.length ≤ definition.sentLength value)
      (fun cause => cause.IsLimit ∧ strained) := by
  apply Drawing.Ends.mapFailure
  cases encodeValue_ends exchange typed source with
  | result ran counted =>
      refine .result ran ?_
      intro unstrained
      rw [counted]
      exact sentLength_mono stands.tagLength_eq (stands.length_octets_le unstrained)
  | failure ran excuse =>
      refine .failure ran ⟨excuse.1, ?_⟩
      by_contra unstrained
      exact unstrained (overlong
        (excuse.2.of_shorter stands.tagLength_eq (stands.length_octets_le unstrained)))

namespace Attribute

variable {value other : Value} {entry : Attribute}

theorem checkLength_again {max : Nat} (passed : checkLength value max = .ok ()) (other : Value) :
    Result.Ends (checkLength other max) (fun _ => True)
      (fun cause => cause.IsLimit ∧ value.encodedLength < other.encodedLength) := by
  unfold checkLength at passed ⊢
  split at passed
  · contradiction
  · rename_i short
    split
    · rename_i long
      exact .failure rfl ⟨long, by omega⟩
    · exact .result rfl trivial

theorem makeStandard_again {type : UInt8} (made : makeStandard type value = .ok entry)
    (typed : other.dataType = value.dataType) :
    Result.Ends (makeStandard type other) (fun _ => True)
      (fun cause => cause.IsLimit ∧ value.encodedLength < other.encodedLength) := by
  unfold makeStandard at made ⊢
  rw [typed]
  split at made
  · contradiction
  · exact .pure trivial
  · obtain ⟨_, passed, -⟩ := Result.bind_eq_ok_iff.mp made
    exact (checkLength_again passed other).bind fun _ _ => .pure trivial

theorem makeExtended_again {type extendedType : UInt8}
    (made : makeExtended type extendedType value = .ok entry) (other : Value) :
    Result.Ends (makeExtended type extendedType other) (fun _ => True)
      (fun cause => cause.IsLimit ∧ value.encodedLength < other.encodedLength) := by
  obtain ⟨_, passed, -⟩ := Result.bind_eq_ok_iff.mp made
  exact (checkLength_again passed other).bind fun _ _ => .pure trivial

theorem makeVendorSpecific_again {parent : TypePath} {vendor : UInt32} {vendorType : UInt8}
    (made : makeVendorSpecific parent vendor vendorType value = .ok entry) (other : Value) :
    Result.Ends (makeVendorSpecific parent vendor vendorType other) (fun _ => True)
      (fun cause => cause.IsLimit ∧ value.encodedLength < other.encodedLength) := by
  obtain ⟨_, small, checked⟩ := Result.bind_eq_ok_iff.mp made
  unfold makeVendorSpecific
  refine .after small ?_
  dsimp only at checked ⊢
  split at checked
  · rename_i top
    obtain ⟨_, passed, -⟩ := Result.bind_eq_ok_iff.mp checked
    rw [if_pos top]
    exact (checkLength_again passed other).bind fun _ _ => .pure trivial
  · rename_i deeper
    rw [if_neg deeper]
    exact .pure trivial

end Attribute

theorem AttributeDefinition.make_again {definition : AttributeDefinition} {value other : Value}
    {entry : Attribute} (made : definition.make value = .ok entry)
    (typed : other.dataType = value.dataType) :
    Result.Ends (definition.make other) (fun _ => True)
      (fun cause => cause.IsLimit ∧ value.encodedLength < other.encodedLength) := by
  unfold make at made ⊢
  rw [typed]
  split at made
  · contradiction
  · rename_i declared
    rw [if_neg declared]
    generalize definition.carrier = carrier at made ⊢
    cases carrier with
    | standard | fragmented =>
        dsimp only at made ⊢
        split at made
        · contradiction
        · rename_i top
          rw [if_neg top]
          exact Attribute.makeStandard_again made typed
    | concat =>
        dsimp only at made ⊢
        split at made
        · split at made
          · contradiction
          · rename_i top
            cases other with
            | concat joined =>
                dsimp only
                rw [if_neg top]
                exact .pure trivial
            | plain plain => cases plain <;> contradiction
            | container inner => cases inner <;> contradiction
            | tlv records => contradiction
        · contradiction
    | extended =>
        dsimp only at made ⊢
        split at made
        · contradiction
        · rename_i nested
          obtain ⟨octet, final, built⟩ := Result.bind_eq_ok_iff.mp made
          rw [if_neg nested, final]
          exact Attribute.makeExtended_again built other
    | longExtended =>
        dsimp only at made ⊢
        split at made
        · contradiction
        · rename_i nested
          obtain ⟨octet, final, -⟩ := Result.bind_eq_ok_iff.mp made
          rw [if_neg nested, final]
          exact .pure trivial
    | vendorSpecific =>
        dsimp only at made ⊢
        split at made
        · contradiction
        · obtain ⟨octet, final, built⟩ := Result.bind_eq_ok_iff.mp made
          rw [final]
          exact Attribute.makeVendorSpecific_again built other

namespace Container

theorem checkLength_again {payload : Octets} {max : Nat} (fits : payload.length ≤ max)
    (other : Octets) :
    Result.Ends (checkLength other max) (fun _ => True)
      (fun cause => cause.IsLimit ∧ payload.length < other.length) := by
  unfold checkLength
  split
  · rename_i long
    exact .failure rfl ⟨long, by omega⟩
  · exact .pure trivial

end Container

namespace Lowering

variable {dictionary : Dictionary} {definition parent : AttributeDefinition} {truncated : Bool}
  {payload : Octets} {above : TypePath} {inner : Container}

theorem container_again (fits : inner.Fits) (typed : inner.dataType = parent.dataType)
    (path_eq : above.append inner.segments = definition.path)
    (carried : definition.carrier = inner.innerCarrier) (truncated : Bool) (payload : Octets) :
    Result.Ends (Lowering.container definition parent truncated inner.lastType payload)
      (fun sent => sent.dataType = inner.dataType ∧ sent.payload = payload)
      (fun cause => cause.IsLimit ∧ inner.payload.length < payload.length) := by
  unfold Lowering.container
  rw [carried]
  cases inner with
  | extended extendedType kept =>
      refine .bind (Container.checkLength_again fits payload) ?_
      intro _ _
      exact .pure ⟨rfl, rfl⟩
  | longExtended extendedType more mark kept => exact .result rfl ⟨rfl, rfl⟩
  | vsa vendor vendorType kept =>
      have known := (Container.checkVendor_eq_ok_iff vendor).mpr fits.1
      rw [← typed, ← path_eq, Container.segments, TypePath.beforeLast_append_pair]
      dsimp only [Container.innerCarrier, Container.dataType]
      refine .after known (.bind (Container.checkLength_again fits.2 payload) ?_)
      intro _ _
      exact .pure ⟨rfl, rfl⟩
  | evs vendor vendorType kept =>
      have known := (Container.checkVendor_eq_ok_iff vendor).mpr fits
      rw [← typed, ← path_eq, Container.segments, TypePath.beforeLast_append_pair]
      dsimp only [Container.innerCarrier, Container.dataType]
      exact .after known (.pure ⟨rfl, rfl⟩)

theorem enclose_again {entry : Attribute} (fits : inner.Fits)
    (known : dictionary.attribute? above = some parent)
    (made : parent.make (.container inner) = .ok entry)
    (path_eq : above.append inner.segments = definition.path)
    (carried : definition.carrier = inner.innerCarrier) (truncated : Bool) (payload : Octets) :
    Result.Ends (enclose dictionary definition truncated payload)
      (fun outer => ∃ sent : Container, parent.make (.container sent) = .ok outer ∧
        sent.dataType = inner.dataType ∧ sent.payload = payload)
      (fun cause => cause.IsLimit ∧ inner.payload.length < payload.length) := by
  have higher : definition.path.ancestor? definition.carrier.levels = some above :=
    TypePath.ancestor?_eq_some_iff.mpr
      ⟨inner.segments, by rw [carried, inner.levels_innerCarrier], path_eq⟩
  have final : definition.lastOctet = .ok inner.lastType := by
    rw [definition.lastOctet_eq_ok_iff, ← path_eq]
    exact above.last_append_segments inner
  have typed : inner.dataType = parent.dataType := AttributeDefinition.dataType_of_make made
  unfold enclose
  rw [higher]
  dsimp only
  rw [known]
  apply Result.Ends.mapError
  refine .after final (.bind (container_again fits typed path_eq carried truncated payload) ?_)
  rintro sent ⟨same, rfl⟩
  have again : (Value.container sent).dataType = (Value.container inner).dataType := same
  cases AttributeDefinition.make_again made again with
  | result built _ => exact .result built ⟨sent, built, same, rfl⟩
  | failure refused excuse =>
      refine .failure refused ⟨excuse.1, ?_⟩
      by_contra short
      have within := (Container.encodedLength_le_iff same).mpr (Nat.le_of_not_lt short)
      exact absurd within (Nat.not_le_of_lt excuse.2)

end Lowering

end Radius

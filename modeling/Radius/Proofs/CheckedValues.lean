import Radius.Definition.Value
import Radius.Proofs.CheckedReads
import Radius.Proofs.ValueFormat

/-!
The reads of a value. A filter takes hidden octets apart into blocks, salt and length; the header of
a container and of a prefix stands at fixed places; a tag is split off in front of a hidden value.
That last split is the one read that fails: a type with a tag in every value has no first octet in
an empty value. The records of a tree are read one behind the other, as those of a packet are.
-/

namespace Radius

namespace Checked

section Filters

/-- What keys the block of a number: the seed, or the hidden block before it. -/
def keyBefore (seed cipher : Octets) : Nat → Except Misread Octets
  | 0 => return seed
  | before + 1 => slice cipher (before * 16) (before * 16 + 16)

def blocks (hash : Octets → Digest) (secret seed cipher : Octets) (number : Nat) :
    List Octets → Except Misread Octets
  | [] => return []
  | block :: later => do
      let previous ← keyBefore seed cipher number
      let rest ← blocks hash secret seed cipher (number + 1) later
      return Octets.xor block (KeyStream.blockKey hash secret previous) ++ rest

def decrypt (hash : Octets → Digest) (secret seed cipher : Octets) : Except Misread Octets :=
  blocks hash secret seed cipher 0 (Octets.chunks 16 (by decide) cipher)

def revealUser? (exchange : Exchange) (cipher : Octets) : Except Misread (Option Octets) := do
  if cipher.length % 16 ≠ 0 ∨ Password.maxUserPassword < cipher.length then return none
  else
    let plain ← decrypt exchange.hash exchange.secret exchange.authenticator.octets cipher
    return some (Password.dropTrailingZeros plain)

def revealTunnel? (exchange : Exchange) (cipher : Octets) : Except Misread (Option Octets) := do
  if cipher.length < 2 + 16 then return none
  else if (← minus cipher.length 2) % 16 ≠ 0 then return none
  else
    let (salt, body) ← split cipher 2
    if (← index salt 0) &&& Password.saltFlag = 0 then return none
    else
      let seed := exchange.authenticator.octets ++ salt
      let plain ← decrypt exchange.hash exchange.secret seed body
      let length := (← index plain 0).toNat
      if (← minus plain.length 1) < length then return none
      else return some (← slice plain 1 (1 + length))

def reveal? (filter : Filter) (exchange : Exchange) (cipher : Octets) :
    Except Misread (Option Octets) :=
  match filter with
  | .userPassword => revealUser? exchange cipher
  | .tunnelPassword => revealTunnel? exchange cipher

variable (hash : Octets → Digest) (secret seed cipher : Octets)

variable {number : Nat} {previous : Octets}

theorem keyBefore_succ (inside : (number + 1) * 16 ≤ cipher.length) :
    keyBefore seed cipher (number + 1) = .ok ((cipher.drop (number * 16)).take 16) :=
  slice_add (by omega)

/-- A block keys the next one only if there is one, and then it is a whole block. -/
theorem blocks_eq
    (keyed : number * 16 < cipher.length → keyBefore seed cipher number = .ok previous) :
    blocks hash secret seed cipher number
        (Octets.chunks 16 (by decide) (cipher.drop (number * 16))) =
      .ok (KeyStream.decrypt hash secret previous (cipher.drop (number * 16))) := by
  induction size : cipher.length - number * 16 using Nat.strongRecOn
    generalizing number previous with
  | ind bound ih =>
      cases cut : cipher.drop (number * 16) with
      | nil =>
          rw [Octets.chunks, KeyStream.decrypt, blocks]
          rfl
      | cons first rest =>
          have total := congrArg List.length cut
          rw [List.length_drop, List.length_cons] at total
          have next : cipher.drop ((number + 1) * 16) = (first :: rest).drop 16 := by
            rw [Nat.succ_mul, ← List.drop_drop, cut]
          have later := ih (cipher.length - (number + 1) * 16) (by omega)
            (fun inside => keyBefore_succ seed cipher (Nat.le_of_lt inside)) rfl
          rw [next, cut] at later
          rw [Octets.chunks, KeyStream.decrypt, blocks, keyed (by omega)]
          simp only [bind, Except.bind, later]
          rfl

theorem decrypt_eq :
    decrypt hash secret seed cipher = .ok (KeyStream.decrypt hash secret seed cipher) :=
  blocks_eq hash secret seed cipher fun _ => rfl

variable (exchange : Exchange)

theorem revealUser?_eq :
    revealUser? exchange cipher = .ok (Password.revealUser? exchange cipher) := by
  rw [revealUser?, Password.revealUser?]
  by_cases sized : cipher.length % KeyStream.blockLength = 0 ∧
      cipher.length ≤ Password.maxUserPassword
  · have other : ¬(cipher.length % 16 ≠ 0 ∨ Password.maxUserPassword < cipher.length) := by
      rintro (ragged | large)
      · exact ragged sized.1
      · exact Nat.not_lt.mpr sized.2 large
    rw [if_pos sized, if_neg other, decrypt_eq]
    rfl
  · have other : cipher.length % 16 ≠ 0 ∨ Password.maxUserPassword < cipher.length := by
      by_contra neither
      obtain ⟨whole, small⟩ := not_or.mp neither
      exact sized ⟨Decidable.of_not_not whole, Nat.not_lt.mp small⟩
    rw [if_neg sized, if_pos other]
    rfl

theorem revealTunnel?_cons (first second : UInt8) (body : Octets) :
    revealTunnel? exchange (first :: second :: body) =
      .ok (Password.revealTunnel? exchange (first :: second :: body)) := by
  have total : (first :: second :: body).length = body.length + 2 := rfl
  have parts : split (first :: second :: body) 2 = .ok ([first, second], body) :=
    split_eq (by omega)
  have salt : index [first, second] 0 = .ok first := rfl
  rw [revealTunnel?, Password.revealTunnel?, total, minus_eq (by omega), parts,
    Nat.add_sub_cancel]
  by_cases short : body.length + 2 < 2 + 16
  · rw [if_pos short]
    by_cases empty : body = []
    · rw [empty, KeyStream.decrypt]
      split <;> rfl
    · have some := List.length_pos_of_ne_nil empty
      rw [if_neg fun taken => by
        have whole := taken.2
        rw [KeyStream.blockLength] at whole
        omega]
      rfl
  · rw [if_neg short]
    simp only [bind, Except.bind, salt, decrypt_eq]
    obtain ⟨length, plain, opened⟩ : ∃ length plain, KeyStream.decrypt exchange.hash
        exchange.secret (exchange.authenticator.octets ++ [first, second]) body =
          length :: plain := by
      apply List.exists_cons_of_ne_nil
      apply List.ne_nil_of_length_pos
      rw [KeyStream.length_decrypt]
      omega
    have counted : index (length :: plain) 0 = .ok length := rfl
    have room : minus (length :: plain).length 1 = .ok plain.length := minus_eq (by simp)
    simp only [opened, counted, room, KeyStream.blockLength]
    by_cases ragged : body.length % 16 = 0
    · by_cases clear : first &&& Password.saltFlag = 0
      · simp [ragged, clear, pure, Except.pure]
      · by_cases inside : length.toNat ≤ plain.length
        · have content : slice (length :: plain) 1 (1 + length.toNat) =
              .ok (plain.take length.toNat) := slice_add (by rw [List.length_cons]; omega)
          simp [ragged, clear, inside, content, pure, Except.pure]
        · simp [ragged, clear, inside, pure, Except.pure]
    · simp [ragged, pure, Except.pure]

theorem revealTunnel?_eq :
    revealTunnel? exchange cipher = .ok (Password.revealTunnel? exchange cipher) := by
  match cipher with
  | [] => rfl
  | [_] => rfl
  | first :: second :: body => exact revealTunnel?_cons exchange first second body

theorem reveal?_eq (filter : Filter) :
    reveal? filter exchange cipher = .ok (filter.decode? exchange cipher) := by
  cases filter with
  | userPassword => exact revealUser?_eq cipher exchange
  | tunnelPassword => exact revealTunnel?_eq cipher exchange

end Filters

section Plain

def taggedInteger? (octets : Octets) : Except Misread (Option PlainValue) := do
  if octets.length ≠ 4 then return none
  else
    match Tag.split? octets with
    | none => return none
    | some (tag, rest) =>
        let number := [0, ← index rest 0, ← index rest 1, ← index rest 2]
        return some (.taggedInteger tag (UInt32.ofNat (Octets.ofBigEndian number)))

def ipv4Prefix? (octets : Octets) : Except Misread (Option Ipv4Prefix) := do
  if octets.length ≠ 6 then return none
  else if (← index octets 0) ≠ 0 then return none
  else
    let address ← field 4 octets 2
    return (Ipv4Prefix.make address (← index octets 1)).toOption

/-- The address octets that arrived are written over zeros. -/
def ipv6Prefix? (octets : Octets) : Except Misread (Option Ipv6Prefix) := do
  if octets.length < 2 ∨ 18 < octets.length then return none
  else if (← index octets 0) ≠ 0 then return none
  else
    let length ← index octets 1
    let arrived ← slice octets 2 octets.length
    if arrived.length * 8 < length.toNat then return none
    else
      let address ← field 16 (← overwrite (OctetField.zero 16).octets 0 arrived) 0
      match Ipv6Prefix.make address length with
      | .error _ => return none
      | .ok minimal => return some { minimal with carried := arrived.length }

def plain? (type : DataType) (octets : Octets) : Except Misread (Option PlainValue) :=
  match type with
  | .taggedInteger => taggedInteger? octets
  | .ipv4Prefix => return (← ipv4Prefix? octets).map .ipv4Prefix
  | .ipv6Prefix => return (← ipv6Prefix? octets).map .ipv6Prefix
  | _ => return PlainValue.decode? type octets

variable (octets : Octets)

theorem taggedInteger?_eq :
    taggedInteger? octets = .ok (PlainValue.decode? .taggedInteger octets) := by
  rw [taggedInteger?, PlainValue.decode?]
  by_cases four : octets.length = 4
  · obtain ⟨first, high, middle, low, rfl⟩ := List.length_eq_four.mp four
    rw [if_neg (Decidable.not_not.mpr four)]
    simp only [Tag.split?]
    cases Tag.ofOctet? first with
    | none => rfl
    | some tag =>
        have number : Octets.ofBigEndian [0, high, middle, low] =
            Octets.ofBigEndian [high, middle, low] := by
          rw [Octets.ofBigEndian, UInt8.toNat_zero, Nat.zero_mul, Nat.zero_add]
        change Except.ok (some (PlainValue.taggedInteger tag
          (UInt32.ofNat (Octets.ofBigEndian [0, high, middle, low])))) = _
        rw [number]
        rfl
  · rw [if_pos four]
    cases octets with
    | nil => rfl
    | cons first rest =>
        have other : PlainValue.readNumber? 3 rest = none :=
          if_neg fun three => four (by rw [List.length_cons, three])
        cases tagged : Tag.ofOctet? first with
        | none => simp [Tag.split?, tagged, pure, Except.pure]
        | some tag => simp [Tag.split?, tagged, other, pure, Except.pure]

theorem ipv4Prefix?_eq : ipv4Prefix? octets = .ok (Ipv4Prefix.decode? octets) := by
  rw [ipv4Prefix?]
  by_cases six : octets.length = 6
  · rw [if_neg (Decidable.not_not.mpr six)]
    match octets, six with
    | [zero, length, a, b, c, d], _ =>
        have front : index [zero, length, a, b, c, d] 0 = .ok zero := rfl
        have second : index [zero, length, a, b, c, d] 1 = .ok length := rfl
        have address : field 4 [zero, length, a, b, c, d] 2 = .ok ⟨[a, b, c, d], rfl⟩ := rfl
        simp only [front, second, address, bind, Except.bind, pure, Except.pure]
        by_cases reserved : zero = 0
        · rw [reserved]
          rfl
        · rw [if_pos reserved, Ipv4Prefix.decode?]
          intro _ _ spelled
          exact reserved (List.cons.inj spelled).1
  · rw [if_pos six]
    cases read : Ipv4Prefix.decode? octets with
    | none => rfl
    | some value =>
        rw [← PlainValue.octets_of_ipv4Prefix read, Ipv4Prefix.octets, List.length_cons,
          List.length_cons, value.address.length_octets] at six
        contradiction

theorem length_of_ipv6Prefix {value : Ipv6Prefix}
    (read : Ipv6Prefix.decode? octets = some value) : 2 ≤ octets.length ∧ octets.length ≤ 18 := by
  rw [← (PlainValue.octets_of_ipv6Prefix read).1, Ipv6Prefix.octets]
  simp only [List.length_cons, List.length_take, value.address.length_octets]
  omega

/-- An address that arrives shortened is filled with zeros behind. -/
theorem overwrite_zero {count : Nat} {rest : Octets} (fits : rest.length ≤ count) :
    overwrite (OctetField.zero count).octets 0 rest =
      .ok (rest ++ List.replicate (count - rest.length) 0) := by
  have filled : (OctetField.zero count).octets.overwrite 0 rest =
      rest ++ List.replicate (count - rest.length) 0 := by
    rw [Octets.overwrite, OctetField.zero, List.take_zero, List.nil_append, Nat.zero_add,
      List.drop_replicate]
  rw [overwrite_eq, filled]
  rw [OctetField.length_octets, Nat.zero_add]
  exact fits

theorem ipv6Prefix?_eq : ipv6Prefix? octets = .ok (Ipv6Prefix.decode? octets) := by
  rw [ipv6Prefix?]
  by_cases outside : octets.length < 2 ∨ 18 < octets.length
  · rw [if_pos outside]
    cases read : Ipv6Prefix.decode? octets with
    | none => rfl
    | some value =>
        have within := length_of_ipv6Prefix octets read
        omega
  · rw [if_neg outside]
    rcases octets with - | ⟨zero, - | ⟨length, rest⟩⟩
    case cons.cons =>
        have fits : rest.length ≤ 16 := by
          rw [List.length_cons, List.length_cons] at outside
          omega
        have front : index (zero :: length :: rest) 0 = .ok zero := rfl
        have second : index (zero :: length :: rest) 1 = .ok length := rfl
        have arrived : slice (zero :: length :: rest) 2 (zero :: length :: rest).length = .ok rest :=
          slice_back (by simp)
        have written := overwrite_zero fits
        have width : (rest ++ List.replicate (16 - rest.length) (0 : UInt8)).length = 16 := by
          rw [List.length_append, List.length_replicate]
          omega
        have address : field 16 (rest ++ List.replicate (16 - rest.length) 0) 0 =
            .ok ⟨rest ++ List.replicate (16 - rest.length) 0, width⟩ := field_whole width
        simp only [front, second, arrived, written, address, bind, Except.bind, pure, Except.pure]
        by_cases reserved : zero = 0
        · rw [if_neg (Decidable.not_not.mpr reserved), reserved, Ipv6Prefix.decode?]
          by_cases covered : length.toNat ≤ 8 * rest.length
          · rw [if_neg (by omega)]
            simp only [guard, if_pos covered, OctetField.ofOctets?, dif_pos width]
            cases made : Ipv6Prefix.make ⟨rest ++ List.replicate (16 - rest.length) 0, width⟩
              length with
            | error cause => simp [made, Except.toOption]
            | ok minimal => simp [made, Except.toOption]
          · rw [if_pos (by omega)]
            simp only [guard, if_neg covered]
            rfl
        · rw [if_pos reserved, Ipv6Prefix.decode?]
          intro _ _ spelled
          exact reserved (List.cons.inj spelled).1
    all_goals simp at outside

theorem plain?_eq (type : DataType) : plain? type octets = .ok (PlainValue.decode? type octets) := by
  cases type with
  | taggedInteger => exact taggedInteger?_eq octets
  | ipv4Prefix => rw [plain?, ipv4Prefix?_eq]; rfl
  | ipv6Prefix => rw [plain?, ipv6Prefix?_eq]; rfl
  | _ => rfl

end Plain

section Nested

def longExtended? (octets : Octets) : Except Misread (Option Container) := do
  if octets.length < 2 then return none
  else
    let extendedType ← index octets 0
    let flags ← index octets 1
    let payload ← slice octets 2 octets.length
    return some (.longExtended extendedType (flags &&& Container.moreFlag != 0)
      (flags &&& Container.truncatedFlag != 0) payload)

def vendor (octets : Octets) : Except Misread UInt32 := do
  let number := [← index octets 0, ← index octets 1, ← index octets 2, ← index octets 3]
  return UInt32.ofNat (Octets.ofBigEndian number)

def vsa? (octets : Octets) : Except Misread (Option Container) := do
  if octets.length < 6 then return none
  else
    let vendor ← vendor octets
    let length := (← index octets 5).toNat
    if length < 2 then return none
    else if length ≠ (← minus octets.length 4) then return none
    else
      let vendorType ← index octets 4
      let payload ← slice octets 6 octets.length
      return (Container.makeVsa vendor vendorType payload).toOption

def evs? (octets : Octets) : Except Misread (Option Container) := do
  if octets.length < 5 then return none
  else
    let vendor ← vendor octets
    let vendorType ← index octets 4
    let payload ← slice octets 5 octets.length
    return (Container.makeEvs vendor vendorType payload).toOption

def value? (dictionary : Dictionary) (type : DataType) (path : TypePath) (octets : Octets) :
    Except Misread (Option Value) :=
  match type with
  | .extended => return (Container.decodeExtended? octets).map .container
  | .longExtended => return (← longExtended? octets).map .container
  | .vsa => return (← vsa? octets).map .container
  | .evs => return (← evs? octets).map .container
  | .concat => return (Concat.ofFragments [octets]).toOption.map .concat
  | .tlv =>
      match _split : records octets 0 with
      | .error outside => .error outside
      | .ok (.error _) => .ok none
      | .ok (.ok records) => do
          let entries ← records.attach.mapM fun ⟨record, _⟩ => do
            let child := path.child record.type.toUInt32
            match dictionary.tlv? child with
            | none => return (record.type, Value.untypedOctets record.value)
            | some definition =>
                let known ← value? dictionary definition.dataType child record.value
                return (record.type, known.getD (Value.untypedOctets record.value))
          return some (.tlv entries)
  | unnested => return (← plain? unnested octets).map .plain
termination_by octets.length
decreasing_by
  rw [records_eq, List.drop_zero] at _split
  exact Record.length_value_lt_of_readAll (Except.ok.inj _split) ‹_›

variable (octets : Octets)

theorem longExtended?_eq :
    longExtended? octets = .ok (Container.decodeLongExtended? octets) := by
  match octets with
  | [] => rfl
  | [_] => rfl
  | extendedType :: flags :: payload =>
      have front : index (extendedType :: flags :: payload) 0 = .ok extendedType := rfl
      have second : index (extendedType :: flags :: payload) 1 = .ok flags := rfl
      have behind : slice (extendedType :: flags :: payload) 2
          (extendedType :: flags :: payload).length = .ok payload := slice_back (by simp)
      rw [longExtended?, if_neg (by simp)]
      simp only [front, second, behind, bind, Except.bind]
      rfl

theorem vendor_eq (long : 4 ≤ octets.length) :
    vendor octets = .ok (UInt32.ofNat (Octets.ofBigEndian (octets.take 4))) := by
  match octets, long with
  | _ :: _ :: _ :: _ :: _, _ => rfl

theorem vsa?_eq : vsa? octets = .ok (Container.decodeVsa? octets) := by
  rw [vsa?]
  match octets with
  | a :: b :: c :: d :: vendorType :: length :: payload =>
      have total : (a :: b :: c :: d :: vendorType :: length :: payload).length =
          payload.length + 6 := rfl
      have number := vendor_eq (a :: b :: c :: d :: vendorType :: length :: payload) (by simp)
      have fifth : index (a :: b :: c :: d :: vendorType :: length :: payload) 4 =
          .ok vendorType := rfl
      have sixth : index (a :: b :: c :: d :: vendorType :: length :: payload) 5 =
          .ok length := rfl
      have behind : slice (a :: b :: c :: d :: vendorType :: length :: payload) 6
          (payload.length + 6) = .ok payload := slice_back (by simp)
      have counted : minus (payload.length + 6) 4 = .ok (payload.length + 2) := minus_eq (by omega)
      rw [total, if_neg (by omega)]
      simp only [number, fifth, sixth, behind, counted, bind, Except.bind]
      by_cases same : length.toNat = 2 + payload.length
      · rw [if_neg (by omega), if_neg (by omega)]
        simp [Container.decodeVsa?, same, pure, Except.pure]
      · simp [Container.decodeVsa?, same, pure, Except.pure]
        omega
  | [] | [_] | [_, _] | [_, _, _] | [_, _, _, _] | [_, _, _, _, _] => rfl

theorem evs?_eq : evs? octets = .ok (Container.decodeEvs? octets) := by
  rw [evs?]
  match octets with
  | a :: b :: c :: d :: vendorType :: payload =>
      have number := vendor_eq (a :: b :: c :: d :: vendorType :: payload) (by simp)
      have fifth : index (a :: b :: c :: d :: vendorType :: payload) 4 = .ok vendorType := rfl
      have behind : slice (a :: b :: c :: d :: vendorType :: payload) 5
          (a :: b :: c :: d :: vendorType :: payload).length = .ok payload :=
        slice_back (by simp)
      rw [if_neg (by simp)]
      simp only [number, fifth, behind, bind, Except.bind]
      rfl
  | [] | [_] | [_, _] | [_, _, _] | [_, _, _, _] => rfl

/-- No value makes a read fail, at any depth of a tree. -/
theorem value?_eq (dictionary : Dictionary) (type : DataType) (path : TypePath) :
    value? dictionary type path octets = .ok (Value.decode? dictionary type path octets) := by
  induction size : octets.length using Nat.strongRecOn generalizing type path octets with
  | ind bound ih =>
      cases type with
      | tlv =>
          rw [value?, Value.decode?_tlv]
          split
          · rename_i outside failed
            rw [records_eq] at failed
            contradiction
          · rename_i fault refused
            rw [records_eq, List.drop_zero] at refused
            rw [Except.ok.inj refused]
            rfl
          · rename_i records cut
            rw [records_eq, List.drop_zero] at cut
            have inside := Except.ok.inj cut
            rw [inside, Result.mapM_of_forall_ok
              fun record => Value.decodeRecord dictionary path record.val]
            · rw [List.attach_map_val]
              rfl
            · rintro ⟨record, member⟩ -
              have shorter := Record.length_value_lt_of_readAll inside member
              simp only [Value.decodeRecord]
              cases dictionary.tlv? (path.child record.type.toUInt32) with
              | none => rfl
              | some definition =>
                  simp only [ih _ (size ▸ shorter) _ _ _ rfl]
                  rfl
      | extended => rw [value?, Value.decode?]; rfl
      | longExtended => rw [value?, Value.decode?, longExtended?_eq]; rfl
      | vsa => rw [value?, Value.decode?, vsa?_eq]; rfl
      | evs => rw [value?, Value.decode?, evs?_eq]; rfl
      | concat => rw [value?, Value.decode?]; rfl
      | _ => simp only [value?, Value.decode?, plain?_eq]; rfl

end Nested

section Definitions

def fromEnd (path : TypePath) (count : Nat) : Except Misread UInt32 := do
  index path.segments (← minus path.depth count)

def lastOctet (definition : AttributeDefinition) : Except Misread (Except AttributeError UInt8) := do
  let last ← fromEnd definition.path 1
  if last ≤ 255 then return .ok last.toUInt8
  else return .error (.invalidType (.lastTooLarge definition.path))

def make (definition : AttributeDefinition) (value : Value) :
    Except Misread (Except AttributeError Attribute) := do
  if value.dataType ≠ definition.dataType then
    return .error (.typeMismatch definition.dataType value.dataType)
  else
    match definition.carrier with
    | .extended =>
        if definition.path.depth ≠ 2 then return .error (definition.mismatch .extended)
        else
          match ← lastOctet definition with
          | .error cause => return .error cause
          | .ok extendedType =>
              return Attribute.makeExtended definition.path.head extendedType value
    | .longExtended =>
        if definition.path.depth ≠ 2 then return .error (definition.mismatch .longExtended)
        else
          match ← lastOctet definition with
          | .error cause => return .error cause
          | .ok extendedType =>
              return .ok (.longExtended definition.path.head extendedType false value)
    | .vendorSpecific =>
        match definition.path.ancestor? 2 with
        | none => return .error (definition.mismatch .vendorSpecific)
        | some parent =>
            let vendor ← fromEnd definition.path 2
            match ← lastOctet definition with
            | .error cause => return .error cause
            | .ok vendorType =>
                return Attribute.makeVendorSpecific parent vendor vendorType value
    | _ => return definition.make value

/-- A type with a tag in every value has it in clear, whatever the octets are. -/
def clearLength (definition : AttributeDefinition) (octets : Octets) : Nat :=
  match definition.dataType with
  | .taggedString | .taggedText | .taggedInteger => 1
  | .optionalTaggedString | .optionalTaggedText => (Tag.splitOptional octets).1.toList.length
  | _ => 0

def decodeValue (definition : AttributeDefinition) (exchange : Exchange) (dictionary : Dictionary)
    (octets : Octets) : Except Misread (Option Value) :=
  match definition.filter with
  | none => value? dictionary definition.dataType definition.path octets
  | some filter => do
      let (clear, cipher) ← split octets (clearLength definition octets)
      match ← reveal? filter exchange cipher with
      | none => return none
      | some plain => value? dictionary definition.dataType definition.path (clear ++ plain)

def decodeAttribute (definition : AttributeDefinition) (exchange : Exchange)
    (dictionary : Dictionary) (octets : Octets) : Except Misread (Option Attribute) := do
  match ← decodeValue definition exchange dictionary octets with
  | none => return none
  | some value => return (← make definition value).toOption

/-- The one read that fails: the first octet of an empty value. -/
def missingTag : Misread := .slice 0 1 0

variable (definition : AttributeDefinition) (path : TypePath)

theorem fromEnd_last : fromEnd path 1 = .ok path.last := by
  rw [fromEnd, TypePath.depth, minus_eq (by omega)]
  apply index_eq
  rw [TypePath.last, TypePath.segments, List.getLastD_eq_getLast?, Nat.add_sub_cancel,
    ← List.getLast?_cons, List.getLast?_eq_getElem?, List.length_cons, Nat.add_sub_cancel]

theorem fromEnd_beforeLast (nested : path.tail ≠ []) : fromEnd path 2 = .ok path.beforeLast := by
  obtain ⟨front, final, same⟩ : ∃ front final, path.tail = front ++ [final] :=
    ⟨path.tail.dropLast, path.tail.getLast nested, (List.dropLast_concat_getLast nested).symm⟩
  have deep : path.depth = front.length + 2 := by
    rw [TypePath.depth, same, List.length_append, List.length_singleton]
  rw [fromEnd, deep, minus_eq (by omega), Nat.add_sub_cancel]
  apply index_eq
  rw [TypePath.beforeLast, TypePath.segments, same, List.dropLast_concat, ← List.cons_append,
    List.getElem?_append_left (by simp), List.getLastD_eq_getLast?, ← List.getLast?_cons,
    List.getLast?_eq_getElem?, List.length_cons, Nat.add_sub_cancel]

theorem lastOctet_eq : lastOctet definition = .ok definition.lastOctet := by
  rw [lastOctet, fromEnd_last, AttributeDefinition.lastOctet, TypePath.lastOctet]
  simp only [bind, Except.bind]
  split <;> rfl

theorem make_eq (value : Value) : make definition value = .ok (definition.make value) := by
  rw [make]
  by_cases other : value.dataType ≠ definition.dataType
  · rw [if_pos other, AttributeDefinition.make, if_pos other]
    rfl
  · rw [if_neg other]
    cases carried : definition.carrier with
    | extended =>
        simp only [AttributeDefinition.make, if_neg other, carried, lastOctet_eq]
        split
        · rfl
        · cases definition.lastOctet <;> rfl
    | longExtended =>
        simp only [AttributeDefinition.make, if_neg other, carried, lastOctet_eq]
        split
        · rfl
        · cases definition.lastOctet <;> rfl
    | vendorSpecific =>
        simp only [AttributeDefinition.make, if_neg other, carried, lastOctet_eq]
        cases above : definition.path.ancestor? 2 with
        | none => rfl
        | some parent =>
            have nested : definition.path.tail ≠ [] := by
              intro top
              rw [TypePath.ancestor?, top] at above
              contradiction
            simp only [fromEnd_beforeLast _ nested, bind, Except.bind]
            cases definition.lastOctet <;> rfl
    | _ => rfl

variable (exchange : Exchange) (dictionary : Dictionary) (octets : Octets)

theorem length_splitOptional : (Tag.splitOptional octets).1.toList.length ≤ octets.length := by
  cases octets with
  | nil => exact Nat.le_refl _
  | cons first rest =>
      simp only [Tag.splitOptional]
      cases Tag.ofOctet? first <;> simp

theorem split_clear :
    split octets (clearLength definition octets) =
      ((definition.clearLength octets).map fun clear =>
        (octets.take clear, octets.drop clear)).mapError fun _ => missingTag := by
  have tagged : split octets 1 =
      (((if octets.isEmpty then .error .tagOctetMissing else .ok 1 : Except Fault Nat)).map
        fun clear => (octets.take clear, octets.drop clear)).mapError fun _ => missingTag := by
    cases octets with
    | nil => rfl
    | cons first rest => exact split_eq (by simp)
  have optional := split_eq (length_splitOptional octets)
  have none := split_eq (Nat.zero_le octets.length)
  rw [clearLength, AttributeDefinition.clearLength]
  cases definition.dataType with
  | taggedString => exact tagged
  | taggedText => exact tagged
  | taggedInteger => exact tagged
  | optionalTaggedString => exact optional
  | optionalTaggedText => exact optional
  | _ => exact none

theorem decodeValue_eq :
    decodeValue definition exchange dictionary octets =
      (definition.decodeValue exchange dictionary octets).mapError fun _ => missingTag := by
  rw [decodeValue, AttributeDefinition.decodeValue]
  cases definition.filter with
  | none => exact value?_eq ..
  | some filter =>
      dsimp only
      rw [split_clear]
      cases definition.clearLength octets with
      | error fault => rfl
      | ok clear =>
          simp only [Except.map, Except.mapError, bind, Except.bind, reveal?_eq]
          cases filter.decode? exchange (octets.drop clear) with
          | none => rfl
          | some plain => exact value?_eq ..

theorem decodeAttribute_eq :
    decodeAttribute definition exchange dictionary octets =
      (definition.decodeAttribute exchange dictionary octets).mapError fun _ => missingTag := by
  rw [decodeAttribute, AttributeDefinition.decodeAttribute, decodeValue_eq]
  cases definition.decodeValue exchange dictionary octets with
  | error fault => rfl
  | ok read =>
      cases read with
      | none => rfl
      | some value =>
          simp only [Except.mapError, bind, Except.bind, make_eq]
          rfl

end Definitions

end Checked

end Radius

import Radius.Proofs.MarkLoss
import Radius.Proofs.SentLength

/-!
Which received attributes can be sent again. What was not opened from a container can; what was can
too, unless a container on its way would hold more octets than before. That takes a value that
swells: a tunnel password that came in pieces and is longer than can be hidden, or a tag that was
hidden together with its value and is sent in clear in front of it.
-/

namespace Radius

namespace Lowering

variable {exchange : Exchange} {dictionary : Dictionary} {entry : Attribute}
  {definition : AttributeDefinition} {source : Entropy} {excused : PacketError → Prop}

def Lowered.Leads {depth : Nat} (good : Attribute → Prop) : Lowered depth → Prop
  | .records _ => True
  | .enclosed outer _ => good outer

theorem lower_ends
    (ends : (lowerOnce exchange dictionary entry).Ends source
      (Lowered.Leads fun outer => ∀ middle,
        (lower exchange dictionary outer).Ends middle (fun _ => True) excused) excused) :
    (lower exchange dictionary entry).Ends source (fun _ => True) excused := by
  rw [lower]
  apply Drawing.Ends.bind ends
  intro step middle above
  cases step with
  | records records => exact .pure trivial
  | enclosed outer shallower => exact above middle

theorem enclosing_ends {payload : Octets} {good : Attribute → Prop}
    (known : dictionary.attribute? entry.path = some definition)
    (ends : Result.Ends (enclose dictionary definition entry.truncated payload) good excused) :
    (enclosing known payload).Ends source (Lowered.Leads good) excused := by
  cases ends with
  | failure refused excuse =>
      rw [enclosing_of_error known refused]
      exact .failure rfl excuse
  | result built fine =>
      obtain ⟨shallower, stepped⟩ := enclosing_of_ok known built
      rw [stepped]
      exact .pure fine

theorem length_le_of_mem_split {payload chunk : Octets} (member : chunk ∈ split payload) :
    chunk.length ≤ Container.maxFragment := by
  unfold split at member
  split at member
  · cases List.mem_singleton.mp member
    exact Nat.zero_le _
  · exact Octets.length_le_of_mem_chunks member

theorem payload_of_mem_pieces {extendedType : UInt8} {truncated : Bool} {chunks : List Octets}
    {piece : Container} (member : piece ∈ pieces extendedType truncated chunks) :
    piece.dataType = .longExtended ∧ piece.payload ∈ chunks := by
  induction chunks with
  | nil => contradiction
  | cons chunk later ih =>
      cases later with
      | nil =>
          cases List.mem_singleton.mp member
          exact ⟨rfl, List.mem_singleton.mpr rfl⟩
      | cons next behind =>
          rcases List.mem_cons.mp member with rfl | inside
          · exact ⟨rfl, List.mem_cons_self⟩
          · obtain ⟨typed, among⟩ := ih inside
            exact ⟨typed, List.mem_cons_of_mem chunk among⟩

theorem fragments_eq_ok (type extendedType : UInt8) (truncated : Bool) (payload : Octets) :
    ∃ records, fragments type extendedType truncated payload = .ok records := by
  cases made : fragments type extendedType truncated payload with
  | ok records => exact ⟨records, rfl⟩
  | error cause =>
      obtain ⟨piece, member, refused⟩ := Result.exists_of_mapM_eq_error made
      obtain ⟨typed, among⟩ := payload_of_mem_pieces member
      have short := length_le_of_mem_split among
      have fits : piece.octets.length ≤ maxRecordValue := by
        rw [piece.length_octets]
        cases piece with
        | longExtended octet more mark payload =>
            simp only [Container.payload, Container.maxFragment, maxRecordValue,
              Container.encodedLength] at short ⊢
            omega
        | _ => contradiction
      rw [Record.make, dif_pos fits] at refused
      contradiction

theorem fragmentedRecords_eq_ok (type : UInt8) {value : Value}
    (long : value.dataType = .longExtended) :
    ∃ records, fragmentedRecords type value = .ok records := by
  cases value with
  | container container =>
      cases container with
      | longExtended extendedType more truncated payload =>
          obtain ⟨records, made⟩ := fragments_eq_ok type extendedType truncated payload
          exact ⟨records, Result.mapError_eq_ok_iff.mpr made⟩
      | _ => contradiction
  | plain plain => cases plain <;> contradiction
  | _ => contradiction

end Lowering

namespace Lifting

/-- The value inside the container is a tunnel password that is too long to hide again; or its tag
was hidden with it, so that it is sent in more octets than it was received in. -/
def Swells (dictionary : Dictionary) (outer inner : Attribute) : Prop :=
  ∃ container definition value, outer.value? = some (.container container) ∧
    dictionary.attribute? inner.path = some definition ∧ inner.value? = some value ∧
    (definition.filter = some .tunnelPassword ∧ definition.Overlong value ∨
      definition.HidesTag container.payload value ∧
        container.payload.length < definition.sentLength value)

def Strained (exchange : Exchange) (dictionary : Dictionary) (top : Attribute) : Prop :=
  ∃ outer inner, Reaches exchange dictionary top outer ∧ Opens exchange dictionary outer inner ∧
    Swells dictionary outer inner

/-- An attribute in the place of one that was received, whose containers have grown only if
`strained`. -/
def Resends (dictionary : Dictionary) (strained : Prop) (received sent : Attribute) : Prop :=
  ∃ definition value other, dictionary.attribute? received.path = some definition ∧
    received.BuiltBy definition value ∧ sent.BuiltBy definition other ∧
    value.StandsFor (¬strained) other

/-- Whatever stands for the attribute is sent, or is refused for its length because of a strain. -/
def Sends (exchange : Exchange) (dictionary : Dictionary) (strained : Prop) (received : Attribute) :
    Prop :=
  ∀ sent source, Resends dictionary strained received sent →
    (Lowering.lower exchange dictionary sent).Ends source (fun _ => True)
      (fun cause => cause.IsLimit ∧ strained)

section Trail

variable {exchange : Exchange} {dictionary : Dictionary} {outer inner top entry : Attribute}
  {records group : List Record} {strained : Prop}

/-- What is opened from a container is sent in no more octets than the container has held, and its
filter can hide it, unless it swells. -/
theorem swells_of_opens (layered : dictionary.Layered) {container : Container}
    {definition : AttributeDefinition} {value : Value}
    (opens : Opens exchange dictionary outer inner)
    (encloses : outer.value? = some (.container container))
    (known : dictionary.attribute? inner.path = some definition)
    (built : inner.BuiltBy definition value) :
    definition.carrier.isNested = true ∧
      (definition.Overlong value → Swells dictionary outer inner) ∧
      (container.payload.length < definition.sentLength value → Swells dictionary outer inner) := by
  have ⟨found, held, place⟩ := path_of_opens opens
  obtain ⟨opened, listed, nested, reads, made⟩ := opens
  cases encloses.symm.trans opened
  cases encloses.symm.trans held
  cases (place ▸ known).symm.trans listed
  have holds := built.value?_eq
  have same := holds
  rw [Attribute.value?_markTruncated, AttributeDefinition.value_of_make made] at same
  cases same
  have undivided := undivided_of_encodes layered known (Carrier.encodes_of_isNested nested)
  refine ⟨nested, ?_, ?_⟩
  · intro long
    have tunnel :=
      AttributeDefinition.tunnelPassword_of_overlong layered.trees undivided.1 reads long
    exact ⟨container, definition, _, encloses, known, holds, .inl ⟨tunnel.1, long⟩⟩
  · intro longer
    by_cases hides : definition.HidesTag container.payload value
    · exact ⟨container, definition, _, encloses, known, holds, .inr ⟨hides, longer⟩⟩
    · have shorter := AttributeDefinition.sentLength_le_of_decodeValue layered.trees undivided.1
        reads hides
      omega

theorem sends_of_step {definition : AttributeDefinition} {value : Value}
    (known : dictionary.attribute? entry.path = some definition)
    (holds : entry.value? = some value)
    (step : ∀ sent other source, dictionary.attribute? sent.path = some definition →
      sent.value? = some other → value.StandsFor (¬strained) other →
      other.dataType = definition.dataType →
      (Lowering.lowerOnce exchange dictionary sent).Ends source
        (Lowering.Lowered.Leads fun outer => ∀ middle,
          (Lowering.lower exchange dictionary outer).Ends middle (fun _ => True)
            fun cause => cause.IsLimit ∧ strained)
        fun cause => cause.IsLimit ∧ strained) :
    Sends exchange dictionary strained entry := by
  rintro sent source ⟨found, kept, other, listed, built, again, stands⟩
  cases known.symm.trans listed
  cases holds.symm.trans built.value?_eq
  have here : sent.path = entry.path := again.path_eq.trans built.path_eq.symm
  exact Lowering.lower_ends (step sent other source (here ▸ known) again.value?_eq stands
    (stands.dataType_eq.trans built.dataType_eq))

theorem sends_of_opens (layered : dictionary.Layered)
    (received : ∃ parent value, Received exchange dictionary outer parent value)
    (opens : Opens exchange dictionary outer inner)
    (swells : Swells dictionary outer inner → strained)
    (above : Sends exchange dictionary strained outer) :
    Sends exchange dictionary strained inner := by
  obtain ⟨parent, held, received⟩ := received
  obtain ⟨container, encloses, place⟩ := path_of_opens opens
  cases received.built.value?_eq.symm.trans encloses
  obtain ⟨definition, value, inside⟩ := received_of_opens layered opens
  obtain ⟨nested, overlong, longer⟩ :=
    swells_of_opens layered opens encloses inside.known inside.built
  refine sends_of_step inside.known inside.built.value?_eq ?_
  intro sent other source known holds stands typed
  rw [Lowering.lowerOnce_nested holds known nested]
  apply Drawing.Ends.bind (AttributeDefinition.encodeValue_again exchange stands typed
    (fun long => swells (overlong long)) source)
  intro payload middle counted
  have shorter : ¬strained → payload.length ≤ container.payload.length := by
    intro unstrained
    by_contra grown
    exact unstrained
      (swells (longer (Nat.lt_of_lt_of_le (Nat.lt_of_not_le grown) (counted unstrained))))
  obtain ⟨fresh, truncated, made, -⟩ := received.built.made
  have carried :=
    layered.inside received.known received.built.dataType_eq.symm (place ▸ inside.known)
  have here := dictionary.path_of_attribute? inside.known
  have enclosed := Lowering.enclose_again (fits_of_received layered received) received.known made
    (place.symm.trans here.symm) carried sent.truncated payload
  apply Lowering.enclosing_ends known
  cases enclosed with
  | result wrapped fine =>
      obtain ⟨around, madeAround, same, encloses⟩ := fine
      refine .result wrapped fun final => above _ final ?_
      exact ⟨parent, _, _, received.known, received.built, .of_fresh madeAround,
        .container rfl same (encloses ▸ shorter)⟩
  | failure refused excuse =>
      refine .failure refused ⟨excuse.1, ?_⟩
      by_contra unstrained
      exact absurd (shorter unstrained) (Nat.not_le_of_lt excuse.2)

theorem sends_standard (layered : dictionary.Layered) {record : Record}
    {definition : AttributeDefinition}
    (known : dictionary.attribute? (.topLevel record.type) = some definition)
    (carried : definition.carrier = .standard)
    (read : definition.decodeAttribute exchange dictionary record.value = .ok (some top))
    (strained : Prop) : Sends exchange dictionary strained top := by
  obtain ⟨value, reads, made⟩ := AttributeDefinition.decodeAttribute_eq_some_iff.mp read
  have undivided := undivided_of_encodes layered known (by rw [carried]; rfl)
  obtain ⟨hidable, short⟩ := AttributeDefinition.sentLength_le_of_record layered.trees
    undivided.1 reads record.length_le
  refine sends_of_step (dictionary.path_of_make known made ▸ known)
    (AttributeDefinition.value_of_make made) ?_
  intro sent other source known holds stands typed
  rw [Lowering.lowerOnce_known holds known, carried]
  apply Drawing.Ends.bind (AttributeDefinition.encodeValue_again exchange stands typed
    (fun long => absurd long hidable) source)
  intro octets middle counted
  have boxed : Result.Ends (Record.make definition.path.head octets) (fun _ => True)
      (fun cause => cause.IsLimit ∧ strained) := by
    unfold Record.make
    split
    · exact .pure trivial
    · rename_i long
      refine .failure rfl ⟨Nat.lt_of_not_le long, ?_⟩
      by_contra unstrained
      exact long (Nat.le_trans (counted unstrained) short)
  exact .bind (.ofExcept (.mapError boxed)) fun _ _ _ => .pure trivial

theorem sends_joined {type extendedType : UInt8} {definition : AttributeDefinition} {chain : Chain}
    (known : dictionary.attribute? (.topLevel type) = some definition)
    (carried : definition.carrier = .fragmented) (strained : Prop) :
    Sends exchange dictionary strained (.standard type (chain.joined extendedType)) := by
  refine sends_of_step known rfl ?_
  intro sent other source known holds stands typed
  rw [Lowering.lowerOnce_known holds known, carried]
  obtain ⟨records, split⟩ :=
    Lowering.fragmentedRecords_eq_ok definition.path.head stands.dataType_eq
  exact .after (Drawing.ofExcept_eq_ok_iff.mpr ⟨split, rfl⟩) (.pure trivial)

theorem sends_run {type : UInt8} {definition : AttributeDefinition}
    (known : dictionary.attribute? (.topLevel type) = some definition)
    (carried : definition.carrier = .concat) (alike : ∀ record ∈ group, record.type = type)
    (strained : Prop) :
    Sends exchange dictionary strained (.concat type ⟨group.map Record.value⟩) := by
  have split : Lowering.concatRecords definition.path.head (.concat ⟨group.map Record.value⟩) =
      .ok group := by
    rw [dictionary.path_of_attribute? known]
    exact Result.mapError_eq_ok_iff.mpr (mapM_make_values alike)
  refine sends_of_step known rfl ?_
  intro sent other source known holds stands typed
  rw [Lowering.lowerOnce_known holds known, carried]
  cases stands with
  | same => exact .after (Drawing.ofExcept_eq_ok_iff.mpr ⟨split, rfl⟩) (.pure trivial)
  | container held => contradiction

theorem sends_of_arrives (layered : dictionary.Layered)
    (arrives : Arrives exchange dictionary group top) (strained : Prop) :
    Sends exchange dictionary strained top := by
  cases arrives with
  | standard known carried read => exact sends_standard layered known carried read strained
  | joined known carried chain => exact sends_joined known carried strained
  | @run record others definition known carried alike =>
      apply sends_run known carried
      intro other member
      rcases List.mem_cons.mp member with rfl | behind
      · rfl
      · exact alike other behind

/-- The run of sending what was opened: every container on the way grows only by a value that
swells. -/
theorem sends_of_reaches (layered : dictionary.Layered)
    (arrives : Arrives exchange dictionary group top)
    (reached : Reaches exchange dictionary top entry) :
    Sends exchange dictionary (Strained exchange dictionary top) entry := by
  induction reached with
  | refl => exact sends_of_arrives layered arrives _
  | @tail outer inner trail opens ih =>
      exact sends_of_opens layered (received_of_reaches layered arrives trail) opens
        (fun swells => ⟨outer, inner, trail, opens, swells⟩) ih

theorem lower_ends_of_promotes (layered : dictionary.Layered) {promoted : List Attribute}
    (promotes : Promotes exchange dictionary records promoted) (member : top ∈ promoted)
    (expanded : expand exchange dictionary top = .ok entry) (source : Entropy) :
    (Lowering.lower exchange dictionary entry).Ends source (fun _ => True)
      (fun cause => cause.IsLimit ∧ Strained exchange dictionary top) := by
  induction promotes with
  | nil => contradiction
  | group settles later ih =>
      rcases List.mem_append.mp member with front | behind
      · rcases kept_or_arrives settles with ⟨rfl, -⟩ | ⟨arrived, rfl, arrives, -⟩
        · obtain ⟨record, -, rfl⟩ := List.mem_map.mp front
          cases (expand_raw record).symm.trans expanded
          exact .result (Lowering.lower_of_lowers (.raw record source)) trivial
        · cases List.mem_singleton.mp front
          obtain ⟨reached, -⟩ := expand_eq_ok_iff.mp expanded
          obtain ⟨definition, value, received⟩ := received_of_reaches layered arrives reached
          exact sends_of_reaches layered arrives reached entry source
            ⟨definition, value, value, received.known, received.built, received.built, .same⟩
      · exact ih behind

end Trail

end Lifting

/-- What was received can be sent again, unless an attribute inside a container swells; and then it
is refused for a length, and for no other reason. -/
theorem lowerAll_received {table : DefinitionTable} (reachable : table.Reachable)
    {exchange : Exchange} {records : List Record} {entries : List Attribute}
    (lifted : liftAll exchange table.toDictionary records = .ok entries) (source : Entropy) :
    (∃ sent rest, lowerAll exchange table.toDictionary entries source = (.ok sent, rest)) ∨
      ∃ cause rest promoted,
        lowerAll exchange table.toDictionary entries source = (.error cause, rest) ∧
        cause.IsLimit ∧
        Lifting.promoteAll exchange table.toDictionary (records.map .raw) = .ok promoted ∧
        ∃ top ∈ promoted, Lifting.Strained exchange table.toDictionary top := by
  have layered := DefinitionTable.layered_of_reachable reachable
  obtain ⟨promoted, settled, opened⟩ := Result.bind_eq_ok_iff.mp lifted
  have promotes := (Lifting.promoteAll_eq_ok_iff layered).mp settled
  have each : ∀ entry ∈ entries, ∀ source,
      (Lowering.lower exchange table.toDictionary entry).Ends source (fun _ => True) fun cause =>
        cause.IsLimit ∧ ∃ top ∈ promoted, Lifting.Strained exchange table.toDictionary top := by
    intro entry member source
    obtain ⟨top, among, final⟩ := Result.exists_of_mapM_eq_ok opened member
    exact (Lifting.lower_ends_of_promotes layered promotes among final source).excuse
      fun cause excuse => ⟨excuse.1, top, among, excuse.2⟩
  have ends : (lowerAll exchange table.toDictionary entries).Ends source (fun _ => True)
      fun cause =>
        cause.IsLimit ∧ ∃ top ∈ promoted, Lifting.Strained exchange table.toDictionary top :=
    .bind (.mapM each source) fun _ _ _ => .pure trivial
  cases ends with
  | result ran _ => exact .inl ⟨_, _, ran⟩
  | failure ran excuse => exact .inr ⟨_, _, promoted, ran, excuse.1, settled, excuse.2⟩

namespace DefinitionTable

def longPassword : AttributeDefinition :=
  ⟨⟨245, [1]⟩, "Long-Password", .string, .longExtended, some .tunnelPassword⟩

def vendorBox : AttributeDefinition :=
  ⟨⟨26, [9, 1]⟩, "Vendor-Box", .evs, .vendorSpecific, none⟩

def boxedPassword : AttributeDefinition :=
  ⟨⟨26, [9, 1, 9, 1]⟩, "Boxed-Password", .optionalTaggedString, .vendorSpecific,
    some .tunnelPassword⟩

def enclosedPasswords : DefinitionTable :=
  ((standard.insertAttribute longPassword).insertAttribute vendorBox).insertAttribute boxedPassword

theorem reachable_enclosedPasswords : enclosedPasswords.Reachable := by
  have long : standard.defineAttribute ⟨245, [1]⟩ "Long-Password" .string (some .tunnelPassword) =
      .ok longPassword := by decide +kernel
  have box : (standard.insertAttribute longPassword).defineAttribute ⟨26, [9, 1]⟩ "Vendor-Box" .evs
      none = .ok vendorBox := by decide +kernel
  have boxed : ((standard.insertAttribute longPassword).insertAttribute vendorBox).defineAttribute
      ⟨26, [9, 1, 9, 1]⟩ "Boxed-Password" .optionalTaggedString (some .tunnelPassword) =
      .ok boxedPassword := by decide +kernel
  exact .addAttribute (.addAttribute (.addAttribute .standard (addAttribute_eq_ok long))
    (addAttribute_eq_ok box)) (addAttribute_eq_ok boxed)

end DefinitionTable

def Exchange.plain : Exchange := ⟨md5, [], OctetField.zero 16⟩

def hiddenPassword (plain : Octets) : Octets :=
  Password.hideTunnel .plain [0x80, 0] plain

def longPasswordRecords : List Record :=
  [⟨245, [1, 0x80] ++ (hiddenPassword (List.replicate 250 0xAA)).take 251, by decide +kernel⟩,
    ⟨245, [1, 0] ++ (hiddenPassword (List.replicate 250 0xAA)).drop 251, by decide +kernel⟩]

def boxedPasswordRecords : List Record :=
  [⟨26, [0, 0, 0, 9, 1, 249, 0, 0, 0, 9, 1] ++ hiddenPassword (1 :: List.replicate 238 0xBB),
    by decide +kernel⟩]

/-- Neither of them can be sent again. -/
theorem refused_enclosedPasswords :
    DefinitionTable.enclosedPasswords.Reachable ∧
      (∃ entries rest,
        liftAll .plain DefinitionTable.enclosedPasswords.toDictionary longPasswordRecords =
          .ok entries ∧
        lowerAll .plain DefinitionTable.enclosedPasswords.toDictionary entries (Entropy.cycle []) =
          (.error (.invalidAttribute (.passwordTooLong 250 239)), rest)) ∧
      ∃ entries rest,
        liftAll .plain DefinitionTable.enclosedPasswords.toDictionary boxedPasswordRecords =
          .ok entries ∧
        lowerAll .plain DefinitionTable.enclosedPasswords.toDictionary entries (Entropy.cycle []) =
          (.error (.invalidAttribute (.valueTooLong 248 247)), rest) :=
  ⟨DefinitionTable.reachable_enclosedPasswords,
    exists_entries_of_refused (by decide +kernel), exists_entries_of_refused (by decide +kernel)⟩

theorem lowerAll_received_enclosedPasswords :
    DefinitionTable.enclosedPasswords.Reachable ∧ ∃ entries,
      liftAll .plain DefinitionTable.enclosedPasswords.toDictionary
        (longPasswordRecords ++ boxedPasswordRecords) = .ok entries ∧
      ((∃ sent rest, lowerAll .plain DefinitionTable.enclosedPasswords.toDictionary entries
          (Entropy.cycle []) = (.ok sent, rest)) ∨
        ∃ cause rest promoted,
          lowerAll .plain DefinitionTable.enclosedPasswords.toDictionary entries
            (Entropy.cycle []) = (.error cause, rest) ∧
          cause.IsLimit ∧
          Lifting.promoteAll .plain DefinitionTable.enclosedPasswords.toDictionary
            ((longPasswordRecords ++ boxedPasswordRecords).map .raw) = .ok promoted ∧
          ∃ top ∈ promoted,
            Lifting.Strained .plain DefinitionTable.enclosedPasswords.toDictionary top) := by
  obtain ⟨entries, rest, lifted, -⟩ : ∃ entries rest,
      liftAll .plain DefinitionTable.enclosedPasswords.toDictionary
        (longPasswordRecords ++ boxedPasswordRecords) = .ok entries ∧
      lowerAll .plain DefinitionTable.enclosedPasswords.toDictionary entries (Entropy.cycle []) =
        (.error (.invalidAttribute (.passwordTooLong 250 239)), rest) :=
    exists_entries_of_refused (by decide +kernel)
  exact ⟨DefinitionTable.reachable_enclosedPasswords, entries, lifted,
    lowerAll_received DefinitionTable.reachable_enclosedPasswords lifted (Entropy.cycle [])⟩

end Radius

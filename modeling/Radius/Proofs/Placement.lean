import Mathlib.Logic.Relation
import Radius.Proofs.DefinitionOrder
import Radius.Proofs.SendLimits

/-!
Which definitions attributes can follow. A table asks only what encloses a definition. It lets a
definition stand too deep for an extended attribute, or have a last segment that is no octet or a
vendor that is too great: such a definition is refused where an attribute is built, and so is
whatever stands inside it where it is sent. For its length apart, nothing else is refused.
-/

namespace Radius

theorem Carrier.isNested_ofTopLevel (type : DataType) :
    (Carrier.ofTopLevel type).isNested = false := by
  cases type <;> rfl

theorem Carrier.type_of_ofTopLevel {type : DataType} :
    (Carrier.ofTopLevel type = .fragmented → type = .longExtended) ∧
      (Carrier.ofTopLevel type = .concat → type = .concat) := by
  cases type <;> decide

theorem Value.exists_concat {value : Value} (divided : value.dataType = .concat) :
    ∃ joined, value = .concat joined := by
  cases value with
  | concat joined => exact ⟨joined, rfl⟩
  | plain plain => cases plain <;> contradiction
  | container container => cases container <;> contradiction
  | _ => contradiction

namespace AttributeDefinition

def octetFlaw? (definition : AttributeDefinition) : Option AttributeError :=
  if 255 < definition.path.last then some (.invalidType (.lastTooLarge definition.path)) else none

def vendorFlaw? (definition : AttributeDefinition) : Option AttributeError :=
  if maxVendorId < definition.path.beforeLast then
    some (.invalidVendorId definition.path.beforeLast)
  else none

/-- Why no attribute can stand where the definition puts it. -/
def flaw? (definition : AttributeDefinition) : Option AttributeError :=
  match definition.carrier with
  | .extended =>
      if definition.path.depth ≠ 2 then some (definition.mismatch .extended)
      else definition.octetFlaw?
  | .longExtended =>
      if definition.path.depth ≠ 2 then some (definition.mismatch .longExtended)
      else definition.octetFlaw?
  | .vendorSpecific => definition.octetFlaw?.or definition.vendorFlaw?
  | _ => none

structure Placed (definition : AttributeDefinition) : Prop where
  top : definition.carrier.isNested = false →
    definition.path.depth = 1 ∧ definition.carrier = .ofTopLevel definition.dataType
  vendor : definition.carrier = .vendorSpecific → ∃ above, definition.path.ancestor? 2 = some above

/-- A computation that the flaw stops, and that without a flaw fails at most for a length. -/
def StopsAt {result : Type} (flaw : Option AttributeError)
    (computation : Except AttributeError result) : Prop :=
  match flaw with
  | some cause => computation = .error cause
  | none => Result.Ends computation (fun _ => True) AttributeError.IsLimit

/-- An attribute around the value is refused for the flaw of the definition, or, without a flaw, at
most for its length. -/
def Builds (definition : AttributeDefinition) (value : Value) : Prop :=
  StopsAt definition.flaw? (definition.make value)

section Building

variable {definition : AttributeDefinition} {value : Value} {result : Type}

theorem checkLength_ends (value : Value) (max : Nat) :
    Result.Ends (Attribute.checkLength value max) (fun _ => True) AttributeError.IsLimit := by
  unfold Attribute.checkLength
  split
  · rename_i long
    exact .failure rfl long
  · exact .pure trivial

theorem makeStandard_ends (type : UInt8) (undivided : value.dataType ≠ .concat) :
    Result.Ends (Attribute.makeStandard type value) (fun _ => True) AttributeError.IsLimit := by
  unfold Attribute.makeStandard
  split
  · rename_i divided
    exact absurd divided undivided
  · exact .pure trivial
  · exact (checkLength_ends value maxRecordValue).bind fun _ _ => .pure trivial

theorem lastOctet_of_octetFlaw? (definition : AttributeDefinition) :
    (∃ cause, definition.octetFlaw? = some cause ∧ definition.lastOctet = .error cause) ∨
      (definition.octetFlaw? = none ∧ ∃ octet, definition.lastOctet = .ok octet) := by
  unfold octetFlaw? lastOctet TypePath.lastOctet
  by_cases small : definition.path.last ≤ 255
  · rw [if_pos small, if_neg (UInt32.not_lt.mpr small)]
    exact .inr ⟨rfl, _, rfl⟩
  · rw [if_neg small, if_pos (UInt32.not_le.mp small)]
    exact .inl ⟨_, rfl, rfl⟩

theorem checkVendor_of_vendorFlaw? (definition : AttributeDefinition) :
    (∃ cause, definition.vendorFlaw? = some cause ∧
      Container.checkVendor definition.path.beforeLast = .error cause) ∨
      (definition.vendorFlaw? = none ∧
        Container.checkVendor definition.path.beforeLast = .ok ()) := by
  unfold vendorFlaw? Container.checkVendor
  split
  · exact .inl ⟨_, rfl, rfl⟩
  · exact .inr ⟨rfl, rfl⟩

theorem stopsAt_lastOctet (definition : AttributeDefinition) {flaw : Option AttributeError}
    {build : UInt8 → Except AttributeError result} (later : ∀ octet, StopsAt flaw (build octet)) :
    StopsAt (definition.octetFlaw?.or flaw) (definition.lastOctet >>= build) := by
  rcases definition.lastOctet_of_octetFlaw? with ⟨cause, flawed, refused⟩ | ⟨sound, octet, final⟩
  · rw [flawed, refused]
    rfl
  · rw [sound, final, Option.none_or]
    exact later octet

theorem stopsAt_checkVendor (definition : AttributeDefinition)
    {next : Unit → Except AttributeError result}
    (later : Result.Ends (next ()) (fun _ => True) AttributeError.IsLimit) :
    StopsAt definition.vendorFlaw?
      (Container.checkVendor definition.path.beforeLast >>= next) := by
  rcases definition.checkVendor_of_vendorFlaw? with ⟨cause, flawed, refused⟩ | ⟨sound, known⟩
  · rw [flawed, refused]
    rfl
  · rw [sound, known]
    exact later

theorem builds_standard (typed : value.dataType = definition.dataType)
    (carried : definition.carrier = .standard ∨ definition.carrier = .fragmented)
    (top : definition.path.depth = 1)
    (fits : definition.carrier = .ofTopLevel definition.dataType) : definition.Builds value := by
  have undivided : value.dataType ≠ .concat := by
    intro divided
    rw [← typed, divided] at fits
    rcases carried with carried | carried <;> rw [carried] at fits <;> contradiction
  have ends := makeStandard_ends definition.path.head undivided
  unfold Builds flaw? make
  rw [if_neg (not_not.mpr typed)]
  rcases carried with carried | carried
  · simp only [carried]
    rw [if_neg (not_not.mpr top)]
    exact ends
  · simp only [carried]
    rw [if_neg (not_not.mpr top)]
    exact ends

theorem builds_concat (typed : value.dataType = definition.dataType)
    (carried : definition.carrier = .concat) (top : definition.path.depth = 1)
    (fits : definition.carrier = .ofTopLevel definition.dataType) : definition.Builds value := by
  have divided : value.dataType = .concat := by
    rw [typed]
    exact Carrier.type_of_ofTopLevel.2 (fits ▸ carried)
  obtain ⟨joined, rfl⟩ := Value.exists_concat divided
  unfold Builds flaw? make
  rw [if_neg (not_not.mpr typed)]
  simp only [carried]
  rw [if_neg (not_not.mpr top)]
  exact .pure trivial

theorem builds_extended (typed : value.dataType = definition.dataType)
    (carried : definition.carrier = .extended) : definition.Builds value := by
  unfold Builds flaw? make
  rw [if_neg (not_not.mpr typed)]
  by_cases nested : definition.path.depth = 2
  · simp only [carried, if_neg (not_not.mpr nested)]
    rw [← Option.or_none (o := definition.octetFlaw?)]
    refine definition.stopsAt_lastOctet fun octet => ?_
    exact (checkLength_ends value Container.maxExtended).bind fun _ _ => .pure trivial
  · simp only [carried, if_pos nested]
    rfl

theorem builds_longExtended (typed : value.dataType = definition.dataType)
    (carried : definition.carrier = .longExtended) : definition.Builds value := by
  unfold Builds flaw? make
  rw [if_neg (not_not.mpr typed)]
  by_cases nested : definition.path.depth = 2
  · simp only [carried, if_neg (not_not.mpr nested)]
    rw [← Option.or_none (o := definition.octetFlaw?)]
    exact definition.stopsAt_lastOctet fun octet => .pure trivial
  · simp only [carried, if_pos nested]
    rfl

theorem builds_vendorSpecific (typed : value.dataType = definition.dataType)
    (carried : definition.carrier = .vendorSpecific) {above : TypePath}
    (higher : definition.path.ancestor? 2 = some above) : definition.Builds value := by
  unfold Builds flaw? make
  rw [if_neg (not_not.mpr typed)]
  simp only [carried, higher]
  refine definition.stopsAt_lastOctet fun octet => ?_
  refine definition.stopsAt_checkVendor ?_
  dsimp only
  split
  · exact (checkLength_ends value Container.maxVsa).bind fun _ _ => .pure trivial
  · exact .pure trivial

theorem builds_of_placed (placed : definition.Placed)
    (typed : value.dataType = definition.dataType) : definition.Builds value := by
  cases carried : definition.carrier with
  | standard =>
      obtain ⟨top, fits⟩ := placed.top (by rw [carried]; rfl)
      exact builds_standard typed (.inl carried) top fits
  | fragmented =>
      obtain ⟨top, fits⟩ := placed.top (by rw [carried]; rfl)
      exact builds_standard typed (.inr carried) top fits
  | concat =>
      obtain ⟨top, fits⟩ := placed.top (by rw [carried]; rfl)
      exact builds_concat typed carried top fits
  | extended => exact builds_extended typed carried
  | longExtended => exact builds_longExtended typed carried
  | vendorSpecific =>
      obtain ⟨above, higher⟩ := placed.vendor carried
      exact builds_vendorSpecific typed carried higher

theorem flaw?_of_make (builds : definition.Builds value) {entry : Attribute}
    (made : definition.make value = .ok entry) : definition.flaw? = none := by
  unfold Builds at builds
  rw [made] at builds
  cases flawed : definition.flaw? with
  | none => rfl
  | some cause =>
      rw [flawed] at builds
      contradiction

theorem lastOctet_of_flaw? (sound : definition.flaw? = none)
    (nested : definition.carrier.isNested = true) : ∃ octet, definition.lastOctet = .ok octet := by
  rcases definition.lastOctet_of_octetFlaw? with ⟨cause, flawed, -⟩ | ⟨-, final⟩
  · unfold flaw? at sound
    rw [flawed] at sound
    split at sound
    · split at sound <;> contradiction
    · split at sound <;> contradiction
    · contradiction
    · cases carried : definition.carrier <;> simp_all [Carrier.isNested]
  · exact final

theorem checkVendor_of_flaw? (sound : definition.flaw? = none)
    (carried : definition.carrier = .vendorSpecific) :
    Container.checkVendor definition.path.beforeLast = .ok () := by
  rcases definition.checkVendor_of_vendorFlaw? with ⟨cause, flawed, -⟩ | ⟨-, known⟩
  · simp only [flaw?, carried, flawed, Option.or_eq_none_iff] at sound
    exact absurd sound.2 (by simp)
  · exact known

end Building

end AttributeDefinition

namespace DefinitionTable

structure Contains (table : DefinitionTable) (container definition : AttributeDefinition) :
    Prop where
  listed : container ∈ table.attributes
  placed : definition.path.ancestor? definition.carrier.levels = some container.path

/-- Why an attribute may be refused that is sent: it is too long for what carries it, or something
around it has a flaw. -/
def Excuses (table : DefinitionTable) (definition : AttributeDefinition) (cause : PacketError) :
    Prop :=
  cause.IsLimit ∨ ∃ container flaw, Relation.TransGen table.Contains container definition ∧
    container.flaw? = some flaw ∧ cause = .invalidAttribute flaw

section Sending

variable {table : DefinitionTable} {definition container : AttributeDefinition} {value : Value}

theorem Sound.placed (sound : table.Sound) (member : definition ∈ table.attributes) :
    definition.Placed := by
  rcases inferCarrier_eq_ok_iff.mp (sound.inferred definition member) with
    ⟨top, carried⟩ | ⟨-, -, -, encloses⟩
  · have shallow : definition.path.depth = 1 := by
      rw [(TypePath.isTopLevel_iff _).mp top]
      rfl
    refine ⟨fun _ => ⟨shallow, carried⟩, ?_⟩
    intro vendor
    have flat := Carrier.isNested_ofTopLevel definition.dataType
    rw [← carried, vendor] at flat
    contradiction
  · generalize carried : definition.carrier = carrier at encloses
    cases encloses with
    | extended above => exact ⟨by simp [carried, Carrier.isNested], by simp [carried]⟩
    | longExtended above => exact ⟨by simp [carried, Carrier.isNested], by simp [carried]⟩
    | vendorSpecific _ _ above =>
        refine ⟨by simp [carried, Carrier.isNested], fun _ => ?_⟩
        obtain ⟨type, above, -⟩ := above
        obtain ⟨outer, -, higher, -⟩ := enclosingType?_eq_some_iff.mp above
        exact ⟨outer, higher⟩

theorem Sound.builds (sound : table.Sound) (member : definition ∈ table.attributes)
    (typed : value.dataType = definition.dataType) : definition.Builds value :=
  AttributeDefinition.builds_of_placed (sound.placed member) typed

theorem levels_of_holds {type : DataType} {levels : Nat} {carrier : Carrier}
    (holds : Carrier.Holds type levels carrier) : carrier.levels = levels := by
  cases holds <;> rfl

theorem Sound.exists_container (sound : table.Sound) (member : definition ∈ table.attributes)
    (nested : definition.carrier.isNested = true) :
    ∃ container, table.Contains container definition ∧
      Carrier.Holds container.dataType definition.carrier.levels definition.carrier := by
  rcases inferCarrier_eq_ok_iff.mp (sound.inferred definition member) with
    ⟨-, carried⟩ | ⟨-, -, -, encloses⟩
  · rw [carried, Carrier.isNested_ofTopLevel] at nested
    contradiction
  · obtain ⟨container, listed, levels, higher, holds⟩ := encloses.exists_container
    rw [← levels_of_holds holds] at higher holds
    exact ⟨container, ⟨listed, higher⟩, holds⟩

theorem container_ends (holds : Carrier.Holds container.dataType definition.carrier.levels
      definition.carrier) (sound : definition.flaw? = none) (truncated : Bool) (last : UInt8)
    (payload : Octets) :
    Result.Ends (Lowering.container definition container truncated last payload)
      (fun around => around.dataType = container.dataType) AttributeError.IsLimit := by
  have known := AttributeDefinition.checkVendor_of_flaw? sound
  have within (max : Nat) : Result.Ends (Container.checkLength payload max) (fun _ => True)
      AttributeError.IsLimit := by
    unfold Container.checkLength
    split
    · rename_i long
      exact .failure rfl long
    · exact .pure trivial
  unfold Lowering.container
  generalize container.dataType = type at holds ⊢
  generalize definition.carrier.levels = levels at holds
  generalize definition.carrier = carrier at holds known ⊢
  cases holds with
  | extended => exact (within Container.maxExtended).bind fun _ _ => .pure rfl
  | longExtended => exact .result rfl rfl
  | vsa => exact .after (known rfl) ((within Container.maxVsa).bind fun _ _ => .pure rfl)
  | evs => exact .after (known rfl) (.pure rfl)

theorem Excuses.outward {cause : PacketError} (contains : table.Contains container definition)
    (excuse : table.Excuses container cause) : table.Excuses definition cause := by
  rcases excuse with limit | ⟨around, flaw, outside, flawed, rfl⟩
  · exact .inl limit
  · exact .inr ⟨around, flaw, outside.tail contains, flawed, rfl⟩

theorem enclose_ends (sound : table.Sound) (member : definition ∈ table.attributes)
    (nested : definition.carrier.isNested = true) (fine : definition.flaw? = none)
    (truncated : Bool) (payload : Octets) :
    Result.Ends (Lowering.enclose table.toDictionary definition truncated payload)
      (fun outer => ∃ container value, table.Contains container definition ∧
        container.make value = .ok outer) (table.Excuses definition) := by
  obtain ⟨container, contains, holds⟩ := sound.exists_container member nested
  obtain ⟨last, final⟩ := AttributeDefinition.lastOctet_of_flaw? fine nested
  have listed : table.toDictionary.attribute? container.path = some container :=
    attribute?_of_mem sound contains.listed
  unfold Lowering.enclose
  rw [contains.placed]
  dsimp only
  rw [listed]
  apply Result.Ends.mapError
  refine .after final ?_
  cases container_ends holds fine truncated last payload with
  | failure refused limit =>
      exact .failure (Result.bind_eq_error_iff.mpr (.inl refused)) (.inl limit)
  | @result around wrapped typed =>
      refine .after wrapped ?_
      have same : (Value.container around).dataType = container.dataType := typed
      have builds := sound.builds contains.listed same
      unfold AttributeDefinition.Builds AttributeDefinition.StopsAt at builds
      split at builds
      · rename_i flaw flawed
        exact .failure builds (.inr ⟨container, flaw, .single contains, flawed, rfl⟩)
      · cases builds with
        | result made _ => exact .result made ⟨container, _, contains, made⟩
        | failure refused limit => exact .failure refused (.inl limit)

theorem record_ends (type : UInt8) (octets : Octets) :
    Result.Ends (Record.make type octets) (fun _ => True) AttributeError.IsLimit := by
  unfold Record.make
  split
  · exact .pure trivial
  · rename_i long
    exact .failure rfl (Nat.lt_of_not_le long)

theorem concatRecords_ends (type : UInt8) (joined : Concat) :
    Result.Ends (Lowering.concatRecords type (.concat joined)) (fun _ => True)
      PacketError.IsLimit := by
  apply Result.Ends.mapError
  cases made : joined.fragments.mapM (Record.make type) with
  | ok records => exact .result rfl trivial
  | error cause =>
      obtain ⟨fragment, -, refused⟩ := Result.exists_of_mapM_eq_error made
      cases record_ends type fragment with
      | result made _ =>
          rw [made] at refused
          contradiction
      | failure limited limit =>
          cases limited.symm.trans refused
          exact .failure rfl limit

theorem lowerOnce_ends (sound : table.Sound) (member : definition ∈ table.attributes)
    {entry : Attribute} (made : definition.make value = .ok entry) (exchange : Exchange)
    (source : Entropy) (above : ∀ container outer inner, table.Contains container definition →
      container.make inner = .ok outer → ∀ middle,
        (Lowering.lower exchange table.toDictionary outer).Ends middle (fun _ => True)
          (table.Excuses container)) :
    (Lowering.lowerOnce exchange table.toDictionary entry).Ends source
      (Lowering.Lowered.Leads fun outer => ∀ middle,
        (Lowering.lower exchange table.toDictionary outer).Ends middle (fun _ => True)
          (table.Excuses definition)) (table.Excuses definition) := by
  have typed := AttributeDefinition.dataType_of_make made
  have holds := AttributeDefinition.value_of_make made
  have known : table.toDictionary.attribute? entry.path = some definition := by
    rw [AttributeDefinition.path_of_make made]
    exact attribute?_of_mem sound member
  have builds := sound.builds member typed
  have encoded : (Drawing.mapFailure PacketError.invalidAttribute
      (definition.encodeValue exchange value)).Ends source (fun _ => True)
      (table.Excuses definition) := by
    apply Drawing.Ends.mapFailure
    cases AttributeDefinition.encodeValue_ends exchange typed source with
    | result ran _ => exact .result ran trivial
    | failure ran excuse => exact .failure ran (.inl excuse.1)
  have placed := sound.placed member
  cases nested : definition.carrier.isNested with
  | true =>
      rw [Lowering.lowerOnce_nested holds known nested]
      apply encoded.bind
      intro payload middle _
      apply Lowering.enclosing_ends known
      have fine := AttributeDefinition.flaw?_of_make builds made
      cases enclose_ends sound member nested fine entry.truncated payload with
      | failure refused excuse => exact .failure refused excuse
      | result built good =>
          obtain ⟨container, inner, contains, around⟩ := good
          refine .result built fun final => ?_
          exact (above container _ inner contains around final).excuse fun _ => .outward contains
  | false =>
      obtain ⟨-, fits⟩ := placed.top nested
      rw [Lowering.lowerOnce_known holds known]
      cases carried : definition.carrier with
      | standard =>
          apply encoded.bind
          intro octets middle _
          have boxed := (record_ends definition.path.head octets).excuse fun _ limit =>
            show table.Excuses definition (.invalidAttribute _) from .inl limit
          exact .bind (.ofExcept boxed.mapError) fun _ _ _ => .pure trivial
      | fragmented =>
          have long := Carrier.type_of_ofTopLevel.1 (fits ▸ carried)
          obtain ⟨records, split⟩ :=
            Lowering.fragmentedRecords_eq_ok definition.path.head (typed.trans long)
          exact .after (Drawing.ofExcept_eq_ok_iff.mpr ⟨split, rfl⟩) (.pure trivial)
      | concat =>
          have divided := Carrier.type_of_ofTopLevel.2 (fits ▸ carried)
          obtain ⟨joined, rfl⟩ := Value.exists_concat (typed.trans divided)
          have split := (concatRecords_ends definition.path.head joined).excuse fun _ limit =>
            show table.Excuses definition _ from .inl limit
          exact .bind (.ofExcept split) fun _ _ _ => .pure trivial
      | _ =>
          rw [carried] at nested
          contradiction

/-- The run of sending: containers stand higher, so the steps come to records. -/
theorem lower_ends_of_made (sound : table.Sound) (member : definition ∈ table.attributes)
    {entry : Attribute} (made : definition.make value = .ok entry) (exchange : Exchange)
    (source : Entropy) :
    (Lowering.lower exchange table.toDictionary entry).Ends source (fun _ => True)
      (table.Excuses definition) := by
  induction deep : definition.path.depth using Nat.strongRecOn
    generalizing definition entry value source with
  | ind depth ih =>
      apply Lowering.lower_ends
      apply lowerOnce_ends sound member made
      intro container outer inner contains around middle
      have higher : container.path.depth < depth := by
        have total := TypePath.depth_of_ancestor? contains.placed
        have levels := Lowering.levels_pos definition.carrier
        omega
      exact ih container.path.depth higher contains.listed around middle rfl

/-- What a definition of a table lets be built, read and sent. An attribute is refused where it is
built for the flaw of its definition, and where it is sent for a flaw around it, and else only for
its length; no container on its way is unknown or of another type. -/
theorem usable_unless_flawed (reachable : table.Reachable)
    (member : definition ∈ table.attributes) :
    (∀ value, value.dataType = definition.dataType → definition.Builds value) ∧
      (∀ value entry, definition.make value = .ok entry → ∀ exchange source,
        (lowerAll exchange table.toDictionary [entry]).Ends source (fun _ => True)
          (table.Excuses definition)) ∧
      ∀ exchange octets entry,
        definition.decodeAttribute exchange table.toDictionary octets = .ok (some entry) →
          definition.flaw? = none := by
  have sound := sound_of_reachable reachable
  refine ⟨fun value typed => sound.builds member typed, ?_, ?_⟩
  · intro value entry made exchange source
    have lowered : ([entry].mapM (Lowering.lower exchange table.toDictionary)).Ends source
        (fun _ => True) (table.Excuses definition) := by
      apply Drawing.Ends.mapM
      intro other only source
      rw [List.mem_singleton.mp only]
      exact lower_ends_of_made sound member made exchange source
    exact lowered.bind fun _ _ _ => .pure trivial
  · intro exchange octets entry read
    obtain ⟨value, -, made⟩ := AttributeDefinition.decodeAttribute_eq_some_iff.mp read
    have typed := AttributeDefinition.dataType_of_make made
    exact AttributeDefinition.flaw?_of_make (sound.builds member typed) made

end Sending

section Strays

def farVendorText : AttributeDefinition :=
  ⟨⟨26, [16777216, 1]⟩, "Far-Vendor-Text", .text, .vendorSpecific, none⟩

def farBox : AttributeDefinition := ⟨⟨241, [300]⟩, "Far-Box", .evs, .extended, none⟩

def boxedText : AttributeDefinition :=
  ⟨⟨241, [300, 9, 1]⟩, "Boxed-Text", .text, .vendorSpecific, none⟩

def innerExtended : AttributeDefinition :=
  ⟨⟨241, [7]⟩, "Inner-Extended", .extended, .extended, none⟩

def deepText : AttributeDefinition := ⟨⟨241, [7, 5]⟩, "Deep-Text", .text, .extended, none⟩

def strays : DefinitionTable :=
  [farVendorText, farBox, boxedText, innerExtended, deepText].foldl insertAttribute standard

theorem reachable_insert {table : DefinitionTable} (reachable : table.Reachable)
    (definition : AttributeDefinition)
    (defined : table.defineAttribute definition.path definition.name definition.dataType
      definition.filter = .ok definition) : (table.insertAttribute definition).Reachable :=
  .addAttribute reachable (addAttribute_eq_ok defined)

theorem reachable_strays : strays.Reachable := by
  have first := reachable_insert .standard farVendorText (by decide +kernel)
  have second := reachable_insert first farBox (by decide +kernel)
  have third := reachable_insert second boxedText (by decide +kernel)
  have fourth := reachable_insert third innerExtended (by decide +kernel)
  exact reachable_insert fourth deepText (by decide +kernel)

/-- All of them are accepted. No text can be built with the first or the last; a text in the far box
can be built, and cannot be sent. -/
theorem unusable_strays :
    strays.Reachable ∧ (Value.plain (.text "a")).dataType = .text ∧
      (farVendorText ∈ strays.attributes ∧
        farVendorText.make (.plain (.text "a")) = .error (.invalidVendorId 16777216)) ∧
      (deepText ∈ strays.attributes ∧
        deepText.make (.plain (.text "a")) = .error (.kindMismatch ⟨241, [7, 5]⟩ .extended)) ∧
      boxedText ∈ strays.attributes ∧
        boxedText.make (.plain (.text "a")) =
          .ok (.vendorSpecific ⟨241, [300]⟩ 9 1 (.plain (.text "a"))) ∧
        (lowerAll .sample strays.toDictionary
          [.vendorSpecific ⟨241, [300]⟩ 9 1 (.plain (.text "a"))] (Entropy.cycle [])).1 =
          .error (.invalidAttribute (.invalidType (.lastTooLarge ⟨241, [300]⟩))) := by
  refine ⟨reachable_strays, rfl, ⟨?_, ?_⟩, ⟨?_, ?_⟩, ?_, ?_, ?_⟩ <;> decide +kernel

theorem usable_unless_flawed_boxedText :
    strays.Reachable ∧ boxedText ∈ strays.attributes ∧ boxedText.flaw? = none ∧
      boxedText.Builds (.plain (.text "a")) ∧
      (lowerAll .sample strays.toDictionary
        [.vendorSpecific ⟨241, [300]⟩ 9 1 (.plain (.text "a"))]).Ends (Entropy.cycle [])
        (fun _ => True) (strays.Excuses boxedText) := by
  have member : boxedText ∈ strays.attributes := by decide +kernel
  obtain ⟨builds, sends, -⟩ := usable_unless_flawed reachable_strays member
  exact ⟨reachable_strays, member, by decide, builds _ rfl,
    sends (.plain (.text "a")) _ (by decide +kernel) .sample (Entropy.cycle [])⟩

end Strays

end DefinitionTable

end Radius

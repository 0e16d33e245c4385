import Radius.Proofs.FirstPass
import Radius.Proofs.HiddenValues
import Radius.Proofs.Opened

/-!
What is sent arrives. The records that carry an attribute settle, in the first pass, to the
top-level attribute that encloses it, and that one opens to the attribute in the second pass. It
takes a property of attributes that a step of enclosing keeps and that makes a value recoverable.
-/

namespace Radius

def Exchange.sample : Exchange := ⟨md5, [115], OctetField.zero 16⟩

def Carrier.encodes : Carrier → Bool
  | .fragmented | .concat => false
  | _ => true

/-- A container is no single piece of a longer value, and a value in pieces has some. -/
def Value.Whole : Value → Prop
  | .container inner => inner.more = false
  | .concat joined => joined.fragments ≠ []
  | _ => True

namespace Lifting

/-- The attribute is built by its definition, and its value comes back from whatever is sent. -/
structure Recoverable (exchange : Exchange) (dictionary : Dictionary) (entry : Attribute)
    (definition : AttributeDefinition) (value : Value) : Prop where
  built : entry.BuiltBy definition value
  known : dictionary.attribute? definition.path = some definition
  whole : value.Whole
  recovers : definition.carrier.encodes = true → definition.Recovers exchange dictionary value

/-- The records of a top-level attribute that the first pass settles to it again. -/
inductive Arrives (exchange : Exchange) (dictionary : Dictionary) :
    List Record → Attribute → Prop
  | standard {record : Record} {definition : AttributeDefinition} {top : Attribute}
      (known : dictionary.attribute? (.topLevel record.type) = some definition)
      (carried : definition.carrier = .standard)
      (read : definition.decodeAttribute exchange dictionary record.value = .ok (some top)) :
      Arrives exchange dictionary [record] top
  | joined {record : Record} {group : List Record} {definition : AttributeDefinition}
      {extendedType : UInt8} {pieces : List Piece}
      (known : dictionary.attribute? (.topLevel record.type) = some definition)
      (carried : definition.carrier = .fragmented)
      (chain : ∀ rest, ChainOf record.type extendedType (record :: group) pieces true rest) :
      Arrives exchange dictionary (record :: group)
        (.standard record.type (Chain.joined extendedType ⟨pieces, true⟩))
  | run {record : Record} {group : List Record} {definition : AttributeDefinition}
      (known : dictionary.attribute? (.topLevel record.type) = some definition)
      (carried : definition.carrier = .concat)
      (alike : ∀ other ∈ group, other.type = record.type) :
      Arrives exchange dictionary (record :: group)
        (.concat record.type ⟨(record :: group).map Record.value⟩)

section Pieces

variable {type extendedType : UInt8} {truncated : Bool}

theorem piece?_of_make {more : Bool} {payload : Octets} {record : Record}
    (made : Record.make type (Container.longExtended extendedType more truncated payload).octets =
      .ok record) :
    piece? type extendedType (.raw record) = some ⟨more, truncated, payload⟩ := by
  obtain ⟨typed, spelled⟩ := Record.make_eq_ok_iff.mp made
  simp [piece?, typed, spelled, Container.decodeLongExtended?_octets]

theorem chainOf_pieces {chunks : List Octets} {records : List Record} (some : chunks ≠ [])
    (made : (Lowering.pieces extendedType truncated chunks).mapM
      (fun piece => Record.make type piece.octets) = .ok records) :
    ∃ record group found, records = record :: group ∧
      (∀ rest, ChainOf type extendedType records found true rest) ∧
      found.any Piece.truncated = truncated ∧ found.flatMap Piece.payload = chunks.flatten := by
  induction chunks generalizing records with
  | nil => contradiction
  | cons chunk later ih =>
      cases later with
      | nil =>
          rw [Lowering.pieces, Result.mapM_eq_ok_iff] at made
          obtain ⟨record, others, boxed, rest, rfl⟩ := List.forall₂_cons_left_iff.mp made
          cases rest
          refine ⟨record, [], [⟨false, truncated, chunk⟩], rfl, ?_, by simp, by simp⟩
          intro rest
          exact .last (piece?_of_make boxed) rfl
      | cons next behind =>
          rw [Lowering.pieces, Result.mapM_eq_ok_iff] at made
          · obtain ⟨record, others, boxed, rest, rfl⟩ := List.forall₂_cons_left_iff.mp made
            obtain ⟨second, group, found, rfl, chain, marked, joined⟩ :=
              ih (by simp) (Result.mapM_eq_ok_iff.mpr rest)
            refine ⟨record, second :: group, ⟨true, false, chunk⟩ :: found, rfl, ?_, ?_, ?_⟩
            · intro rest
              exact .more (piece?_of_make boxed) rfl (chain rest)
            · simpa using marked
            · rw [List.flatMap_cons, joined]
              rfl
          · simp

theorem flatten_split (payload : Octets) :
    Lowering.split payload ≠ [] ∧ (Lowering.split payload).flatten = payload := by
  unfold Lowering.split
  split
  · rename_i empty
    rw [List.isEmpty_iff.mp empty]
    exact ⟨by simp, rfl⟩
  · rename_i some
    refine ⟨?_, Octets.flatten_chunks ..⟩
    cases payload with
    | nil => simp at some
    | cons first rest => simp [Octets.chunks]

end Pieces

section Top

variable {exchange : Exchange} {dictionary : Dictionary} {entry : Attribute}
  {definition : AttributeDefinition} {value : Value}

theorem isTopLevel_of_carrier (layered : dictionary.Layered)
    (known : dictionary.attribute? definition.path = some definition)
    (flat : definition.carrier.isNested = false) :
    definition.path = .topLevel definition.path.head := by
  rw [← TypePath.isTopLevel_iff]
  cases top : definition.path.isTopLevel with
  | true => rfl
  | false =>
      obtain ⟨nested, -⟩ := layered.nested known top
      rw [flat] at nested
      contradiction

theorem arrives_standard (layered : dictionary.Layered) {source rest : Entropy} {octets : Octets}
    {record : Record} (recoverable : Recoverable exchange dictionary entry definition value)
    (carried : definition.carrier = .standard)
    (sent : definition.encodeValue exchange value source = (.ok octets, rest))
    (made : Record.make definition.path.head octets = .ok record) :
    Arrives exchange dictionary [record] entry := by
  obtain ⟨typed, spelled⟩ := Record.make_eq_ok_iff.mp made
  have known := recoverable.known
  rw [isTopLevel_of_carrier layered known (by rw [carried]; rfl), ← typed] at known
  have reads := recoverable.recovers (by rw [carried]; rfl) sent
  obtain ⟨fresh, truncated, built, same⟩ := recoverable.built.made
  rw [Attribute.markTruncated_of_make built (by simp [carried])] at same
  refine .standard known carried ?_
  rw [spelled, same]
  exact AttributeDefinition.decodeAttribute_eq_some_iff.mpr ⟨value, reads, built⟩

theorem arrives_fragmented (layered : dictionary.Layered) {records : List Record}
    (recoverable : Recoverable exchange dictionary entry definition value)
    (carried : definition.carrier = .fragmented)
    (split : Lowering.fragmentedRecords definition.path.head value = .ok records) :
    Arrives exchange dictionary records entry := by
  have known := recoverable.known
  rw [isTopLevel_of_carrier layered known (by rw [carried]; rfl)] at known
  unfold Lowering.fragmentedRecords at split
  split at split
  · rename_i extendedType more truncated payload
    cases (recoverable.whole : more = false)
    obtain ⟨some, joined⟩ := flatten_split payload
    obtain ⟨record, group, found, rfl, chain, marked, payload_eq⟩ :=
      chainOf_pieces some (Result.mapError_eq_ok_iff.mp split)
    have typed := type_of_chainOf (chain []) record List.mem_cons_self
    have whole : Chain.joined extendedType ⟨found, true⟩ =
        .container (.longExtended extendedType false truncated payload) := by
      rw [Chain.joined, marked, payload_eq, joined]
    obtain ⟨fresh, mark, built, same⟩ := recoverable.built.made
    rw [Attribute.markTruncated_of_make built (by simp [carried])] at same
    rw [← whole, make_joined layered known carried] at built
    cases built
    rw [← typed] at known chain same
    rw [same]
    exact .joined known carried chain
  · contradiction

theorem of_mapM_make {type : UInt8} {fragments : List Octets} {records : List Record}
    (made : fragments.mapM (Record.make type) = .ok records) :
    (∀ record ∈ records, record.type = type) ∧ records.map Record.value = fragments := by
  have each := Result.mapM_eq_ok_iff.mp made
  clear made
  induction each with
  | nil => exact ⟨by simp, rfl⟩
  | cons boxed _ ih =>
      obtain ⟨typed, spelled⟩ := Record.make_eq_ok_iff.mp boxed
      obtain ⟨alike, values⟩ := ih
      refine ⟨?_, by rw [List.map_cons, spelled, values]⟩
      intro record member
      rcases List.mem_cons.mp member with rfl | inside
      · exact typed
      · exact alike record inside

theorem arrives_concat (layered : dictionary.Layered) {records : List Record}
    (recoverable : Recoverable exchange dictionary entry definition value)
    (carried : definition.carrier = .concat)
    (split : Lowering.concatRecords definition.path.head value = .ok records) :
    Arrives exchange dictionary records entry := by
  have known := recoverable.known
  rw [isTopLevel_of_carrier layered known (by rw [carried]; rfl)] at known
  unfold Lowering.concatRecords at split
  split at split
  · rename_i joined
    obtain ⟨alike, values⟩ := of_mapM_make (Result.mapError_eq_ok_iff.mp split)
    obtain ⟨fresh, mark, built, same⟩ := recoverable.built.made
    rw [Attribute.markTruncated_of_make built (by simp [carried])] at same
    rw [make_run layered known carried] at built
    cases built
    cases records with
    | nil => exact absurd values.symm (recoverable.whole)
    | cons record group =>
        have typed := alike record List.mem_cons_self
        rw [← typed] at known same alike
        have whole : joined = ⟨(record :: group).map Record.value⟩ := by rw [values]
        rw [same, whole]
        exact .run known carried fun other member => alike other (List.mem_cons_of_mem record member)
  · contradiction

theorem recoverable_of_encloses {outer : Attribute} {parent : AttributeDefinition}
    {container : Container} {payload : Octets} {truncated : Bool}
    (encloses : Lowering.Encloses dictionary definition truncated payload parent container outer)
    (trimmed : parent.filter = some .userPassword → parent.carrier.encodes = true →
      parent.Recovers exchange dictionary (.container container)) :
    Recoverable exchange dictionary outer parent (.container container) := by
  have here := dictionary.path_of_attribute? encloses.known
  have typed : container.dataType = parent.dataType :=
    AttributeDefinition.dataType_of_make encloses.made
  refine ⟨.of_fresh encloses.made, here ▸ encloses.known, encloses.final, ?_⟩
  intro encodes
  -- only the filter that trims zeros does not give back every value
  by_cases trims : parent.filter = some .userPassword
  · exact trimmed trims encodes
  · apply AttributeDefinition.recovers_of_decodePlain? trims
    rw [AttributeDefinition.decodePlain?, ← typed]
    exact Value.decode?_container encloses.fits

/-- The run of lowering: a property that enclosing keeps, and that makes a value recoverable, holds
of a top-level attribute that arrives with the records and opens to the attribute that was sent. -/
theorem arrives_of_lowers (layered : dictionary.Layered) {Good : Attribute → Prop}
    (recoverable : ∀ ⦃entry⦄, Good entry →
      ∃ definition value, Recoverable exchange dictionary entry definition value)
    (encloses : ∀ ⦃entry definition value payload outer parent container source rest⦄,
      Good entry → Recoverable exchange dictionary entry definition value →
      definition.encodeValue exchange value source = (.ok payload, rest) →
      Lowering.Encloses dictionary definition entry.truncated payload parent container outer →
        Good outer)
    {source rest : Entropy} {records : List Record}
    (lowers : Lowering.Lowers exchange dictionary entry source records rest) (good : Good entry) :
    ∃ top, Good top ∧ Reaches exchange dictionary top entry ∧
      Arrives exchange dictionary records top := by
  -- the property is carried from the attribute to the ones that enclose it
  induction lowers with
  | raw record source =>
      obtain ⟨definition, value, recovers⟩ := recoverable good
      have holds := recovers.built.value?_eq
      contradiction
  | @standard entry found value source rest octets record holds listed carried sent made =>
      obtain ⟨definition, same, recovers⟩ := recoverable good
      cases holds.symm.trans recovers.built.value?_eq
      cases (recovers.built.path_eq ▸ listed).symm.trans recovers.known
      exact ⟨entry, good, .refl, arrives_standard layered recovers carried sent made⟩
  | @fragmented entry found value source records holds listed carried split =>
      obtain ⟨definition, same, recovers⟩ := recoverable good
      cases holds.symm.trans recovers.built.value?_eq
      cases (recovers.built.path_eq ▸ listed).symm.trans recovers.known
      exact ⟨entry, good, .refl, arrives_fragmented layered recovers carried split⟩
  | @concat entry found value source records holds listed carried split =>
      obtain ⟨definition, same, recovers⟩ := recoverable good
      cases holds.symm.trans recovers.built.value?_eq
      cases (recovers.built.path_eq ▸ listed).symm.trans recovers.known
      exact ⟨entry, good, .refl, arrives_concat layered recovers carried split⟩
  | @enclosed entry outer found value source middle rest payload records holds listed nested sent
      built above ih =>
      obtain ⟨definition, same, recovers⟩ := recoverable good
      cases holds.symm.trans recovers.built.value?_eq
      cases (recovers.built.path_eq ▸ listed).symm.trans recovers.known
      obtain ⟨parent, container, inside⟩ := Lowering.encloses_of_enclose nested built
      have encoded : found.carrier.encodes = true := by
        cases carried : found.carrier <;> rw [carried] at nested <;> first | rfl | contradiction
      have opens := opens_of_encloses recovers.built listed nested inside
        (recovers.recovers encoded sent)
      obtain ⟨top, kept, reached, arrives⟩ := ih (encloses good recovers sent inside)
      exact ⟨top, kept, .tail reached opens, arrives⟩

/-- Records arrive alone, unless a record behind them could belong to the same run. -/
theorem settles_of_arrives {records rest : List Record} {top : Attribute}
    (arrives : Arrives exchange dictionary records top)
    (apart : ∀ type joined definition, top = .concat type joined →
      dictionary.attribute? (.topLevel type) = some definition → definition.carrier = .concat →
      ∀ record ∈ rest.head?, record.type ≠ type) :
    Settles exchange dictionary records [top] rest := by
  cases arrives with
  | standard known carried read => exact .standard known carried read
  | joined known carried chain => exact .joined known carried (chain rest)
  | run known carried alike => exact .run known carried alike (apart _ _ _ rfl known carried)

theorem front_of_arrives {records : List Record} {top : Attribute}
    (arrives : Arrives exchange dictionary records top) :
    ∃ record group, records = record :: group ∧ top.path = .topLevel record.type ∧
      ∀ definition, dictionary.attribute? (.topLevel record.type) = some definition →
        definition.carrier = .concat → ∃ joined, top = .concat record.type joined := by
  cases arrives with
  | @standard record definition top known carried read =>
      obtain ⟨value, -, made⟩ := AttributeDefinition.decodeAttribute_eq_some_iff.mp read
      refine ⟨record, [], rfl, dictionary.path_of_make known made, ?_⟩
      intro other listed joined
      cases known.symm.trans listed
      rw [carried] at joined
      contradiction
  | @joined record group definition extendedType pieces known carried chain =>
      refine ⟨record, group, rfl, rfl, ?_⟩
      intro other listed joined
      cases known.symm.trans listed
      rw [carried] at joined
      contradiction
  | @run record group definition known carried alike =>
      exact ⟨record, group, rfl, rfl, fun _ _ _ => ⟨_, rfl⟩⟩

end Top

end Lifting

end Radius

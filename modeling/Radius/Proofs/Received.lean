import Radius.Proofs.Arrival

/-!
What was received is recovered. Every attribute on the way from its records to what it opens to was
read from octets, so its value comes back from whatever is sent for it. The first pass keeps a group
of records as it is or turns it into one attribute that arrives with them.
-/

namespace Radius

theorem Value.whole_of_dataType {value : Value} (unlong : value.dataType ≠ .longExtended)
    (unjoined : value.dataType ≠ .concat) : value.Whole := by
  cases value with
  | plain plain => trivial
  | tlv records => trivial
  | concat joined => exact absurd rfl unjoined
  | container inner =>
      cases inner with
      | longExtended extendedType more truncated payload => exact absurd rfl unlong
      | _ => rfl

theorem Carrier.encodes_of_isNested {carrier : Carrier} (nested : carrier.isNested = true) :
    carrier.encodes = true := by
  cases carrier with
  | standard => rfl
  | fragmented => contradiction
  | concat => contradiction
  | _ => rfl

namespace Lifting

/-- The attribute is built by its definition around a value that was read. -/
structure Received (exchange : Exchange) (dictionary : Dictionary) (entry : Attribute)
    (definition : AttributeDefinition) (value : Value) : Prop where
  built : entry.BuiltBy definition value
  known : dictionary.attribute? entry.path = some definition
  whole : value.Whole
  reads : definition.carrier.encodes = true →
    ∃ octets, definition.decodeValue exchange dictionary octets = .ok (some value)

section Trail

variable {exchange : Exchange} {dictionary : Dictionary} {outer inner entry top : Attribute}
  {definition : AttributeDefinition} {value : Value} {records : List Record}

theorem undivided_of_encodes (layered : dictionary.Layered) {path : TypePath}
    (known : dictionary.attribute? path = some definition)
    (encodes : definition.carrier.encodes = true) :
    definition.dataType ≠ .longExtended ∧ definition.dataType ≠ .concat := by
  cases place : path.isTopLevel with
  | false => exact (layered.nested known place).2
  | true =>
      rw [layered.top known place] at encodes
      constructor
      · intro long
        rw [long] at encodes
        contradiction
      · intro joined
        rw [joined] at encodes
        contradiction

theorem path_of_opens (opens : Opens exchange dictionary outer inner) :
    ∃ container, outer.value? = some (.container container) ∧
      inner.path = outer.path.append container.segments := by
  obtain ⟨holds, known, -, -, made⟩ := opens
  exact ⟨_, holds,
    (Attribute.path_markTruncated _ _).trans (dictionary.path_of_make known made)⟩

theorem octets_of_opens (layered : dictionary.Layered) {container : Container}
    (opens : Opens exchange dictionary outer inner)
    (encloses : outer.value? = some (.container container))
    (known : dictionary.attribute? inner.path = some definition) (clear : definition.filter = none)
    (holds : inner.value? = some value) :
    value.dataType = definition.dataType ∧ value.octets = container.payload := by
  have ⟨found, held, place⟩ := path_of_opens opens
  cases encloses.symm.trans held
  obtain ⟨holdsFound, listed, nested, reads, made⟩ := opens
  cases encloses.symm.trans holdsFound
  rw [place] at known
  cases known.symm.trans listed
  rw [Attribute.value?_markTruncated, AttributeDefinition.value_of_make made] at holds
  cases holds
  have undivided := undivided_of_encodes layered known (Carrier.encodes_of_isNested nested)
  exact AttributeDefinition.octets_of_decodeValue_clear layered.trees undivided.1 clear reads

theorem received_of_opens (layered : dictionary.Layered)
    (opens : Opens exchange dictionary outer inner) :
    ∃ definition value, Received exchange dictionary inner definition value := by
  have ⟨container, held, place⟩ := path_of_opens opens
  obtain ⟨holds, known, nested, reads, made⟩ := opens
  rename_i definition value fresh
  cases holds.symm.trans held
  have encodes := Carrier.encodes_of_isNested nested
  have undivided := undivided_of_encodes layered known encodes
  rw [← AttributeDefinition.dataType_of_make made] at undivided
  exact ⟨definition, value, .of_make made _, place ▸ known,
    Value.whole_of_dataType undivided.1 undivided.2, fun _ => ⟨_, reads⟩⟩

theorem received_of_arrives (layered : dictionary.Layered)
    (arrives : Arrives exchange dictionary records top) :
    ∃ definition value, Received exchange dictionary top definition value := by
  cases arrives with
  | @standard record definition top known carried read =>
      obtain ⟨value, reads, made⟩ := AttributeDefinition.decodeAttribute_eq_some_iff.mp read
      have place := dictionary.path_of_make known made
      have undivided := undivided_of_encodes layered known (by rw [carried]; rfl)
      rw [← AttributeDefinition.dataType_of_make made] at undivided
      exact ⟨definition, value, .of_fresh made, place ▸ known,
        Value.whole_of_dataType undivided.1 undivided.2, fun _ => ⟨_, reads⟩⟩
  | @joined record group definition extendedType pieces known carried chain =>
      refine ⟨definition, _, .of_fresh (make_joined layered known carried _), known, rfl, ?_⟩
      intro encodes
      rw [carried] at encodes
      contradiction
  | @run record group definition known carried alike =>
      refine ⟨definition, _, .of_fresh (make_run layered known carried _), known, ?_, ?_⟩
      · simp [Value.Whole]
      · intro encodes
        rw [carried] at encodes
        contradiction

theorem received_of_reaches (layered : dictionary.Layered)
    (arrives : Arrives exchange dictionary records top)
    (reached : Reaches exchange dictionary top entry) :
    ∃ definition value, Received exchange dictionary entry definition value := by
  -- only the last step matters: every opened value was read from the octets of its container
  rcases Relation.ReflTransGen.cases_tail reached with same | ⟨outer, -, opens⟩
  · rw [same]
    exact received_of_arrives layered arrives
  · exact received_of_opens layered opens

theorem recoverable_of_received (layered : dictionary.Layered)
    (received : Received exchange dictionary entry definition value) :
    Recoverable exchange dictionary entry definition value := by
  have known := received.known
  rw [received.built.path_eq] at known
  refine ⟨received.built, known, received.whole, ?_⟩
  intro encodes
  obtain ⟨octets, reads⟩ := received.reads encodes
  exact AttributeDefinition.recovers_of_decodeValue layered.trees
    (undivided_of_encodes layered known encodes).1 reads

theorem path_of_reaches {container : Container}
    (holds : top.value? = some (.container container))
    (reached : Reaches exchange dictionary top entry) :
    entry = top ∨ ∃ below, entry.path = top.path.append (container.segments ++ below) := by
  -- opening only ever adds segments to a path
  induction reached with
  | refl => exact .inl rfl
  | tail _ opens ih =>
      obtain ⟨found, held, place⟩ := path_of_opens opens
      rcases ih with same | ⟨below, joined⟩
      · subst same
        cases holds.symm.trans held
        exact .inr ⟨[], by rw [List.append_nil, place]⟩
      · refine .inr ⟨below ++ found.segments, ?_⟩
        rw [place, joined]
        simp [TypePath.append]

theorem head_of_reaches (reached : Reaches exchange dictionary top entry) :
    entry.path.head = top.path.head := by
  induction reached with
  | refl => rfl
  | tail _ opens ih =>
      obtain ⟨found, held, place⟩ := path_of_opens opens
      rw [place, ← ih]
      rfl

end Trail

/-- The records at the front start with no piece of a longer value, unless the first ones do. -/
def StartsLike (dictionary : Dictionary) (first other : List Record) : Prop :=
  ∀ record ∈ other.head?, ∃ front ∈ first.head?, record.type = front.type ∧
    ∀ definition, dictionary.attribute? (.topLevel record.type) = some definition →
      definition.carrier = .fragmented → ∀ extendedType,
        piece? record.type extendedType (.raw front) = none →
          piece? record.type extendedType (.raw record) = none

section Groups

variable {exchange : Exchange} {dictionary : Dictionary} {group first other sent : List Record}
  {settled : List Attribute} {top again final : Attribute}

theorem startsLike_self (record : Record) (others later : List Record) :
    StartsLike dictionary (record :: others) (record :: later) := by
  intro front member
  cases member
  exact ⟨record, rfl, rfl, fun _ _ _ _ unread => unread⟩

theorem closed_anywhere {type extendedType : UInt8} {pieces : List Piece}
    (chain : ChainOf type extendedType group pieces true first) (other : List Record) :
    ChainOf type extendedType group pieces true other := by
  generalize finished : true = closed at chain ⊢
  induction chain with
  | cut stops => contradiction
  | last reads final => exact .last reads final
  | more reads announces later ih => exact .more reads announces (ih finished)

theorem chainOf_of_startsLike {type extendedType : UInt8} {pieces : List Piece}
    {definition : AttributeDefinition}
    (known : dictionary.attribute? (.topLevel type) = some definition)
    (carried : definition.carrier = .fragmented)
    (chain : ChainOf type extendedType group pieces false first)
    (alike : StartsLike dictionary first other) :
    ChainOf type extendedType group pieces false other := by
  generalize unclosed : false = closed at chain ⊢
  induction chain with
  | cut stops =>
      -- the chain ended for want of a piece, and the other records bring none either
      apply ChainOf.cut
      intro record member
      obtain ⟨front, ahead, same, unread⟩ := alike record member
      by_cases typed : record.type = type
      · subst typed
        exact unread definition known carried extendedType (stops front ahead)
      · simp [piece?, typed]
  | last reads finished => contradiction
  | more reads announces later ih => exact .more reads announces (ih alike unclosed)

theorem expand_raw (record : Record) :
    expand exchange dictionary (.raw record) = .ok (.raw record) :=
  expand_eq_ok_iff.mpr ⟨.refl, openOnce_of_other (by simp [Attribute.value?])⟩

theorem forall₂_expand_kept {kept : List Record} {others entries : List Attribute} :
    List.Forall₂ (fun top entry => expand exchange dictionary top = .ok entry)
        (kept.map .raw ++ others) entries ↔
      ∃ later, entries = kept.map .raw ++ later ∧
        List.Forall₂ (fun top entry => expand exchange dictionary top = .ok entry) others later := by
  -- a record that was kept is an attribute without a value, which does not open
  induction kept generalizing entries with
  | nil =>
      constructor
      · intro expanded
        exact ⟨entries, rfl, expanded⟩
      · rintro ⟨later, rfl, expanded⟩
        exact expanded
  | cons record kept ih =>
      rw [List.map_cons, List.cons_append, List.forall₂_cons_left_iff]
      constructor
      · rintro ⟨entry, behind, opened, expanded, rfl⟩
        cases (expand_raw record).symm.trans opened
        obtain ⟨later, rfl, remains⟩ := ih.mp expanded
        exact ⟨later, rfl, remains⟩
      · rintro ⟨later, rfl, remains⟩
        exact ⟨.raw record, kept.map .raw ++ later, expand_raw record, ih.mpr ⟨later, rfl, remains⟩,
          rfl⟩

/-- A group is kept, in front of whatever starts alike, or it is the arrival of one attribute. -/
theorem kept_or_arrives (settles : Settles exchange dictionary group settled first) :
    (settled = group.map .raw ∧ ∀ other, StartsLike dictionary first other →
      Settles exchange dictionary group settled other) ∨
    ∃ top, settled = [top] ∧ Arrives exchange dictionary group top ∧
      ∀ definition, dictionary.attribute? top.path = some definition →
        definition.carrier = .concat → ∀ record ∈ first.head?, record.type ≠ top.path.head := by
  cases settles with
  | unknown absent => exact .inl ⟨rfl, fun _ _ => .unknown absent⟩
  | @standard record _ definition entry known carried read =>
      cases entry with
      | none => exact .inl ⟨rfl, fun _ _ => .standard known carried read⟩
      | some top =>
          have arrives : Arrives exchange dictionary [record] top := .standard known carried read
          refine .inr ⟨top, rfl, arrives, ?_⟩
          obtain ⟨front, others, same, place, -⟩ := front_of_arrives arrives
          cases same
          intro found listed joined
          rw [place, known] at listed
          cases listed
          rw [carried] at joined
          contradiction
  | unpaired known carried short => exact .inl ⟨rfl, fun _ _ => .unpaired known carried short⟩
  | unfinished known carried chain =>
      refine .inl ⟨rfl, ?_⟩
      intro other alike
      exact .unfinished known carried (chainOf_of_startsLike known carried chain alike)
  | joined known carried chain =>
      refine .inr ⟨_, rfl, .joined known carried (fun rest => closed_anywhere chain rest), ?_⟩
      intro found listed joined
      rw [Attribute.path, known] at listed
      cases listed
      rw [carried] at joined
      contradiction
  | run known carried alike stops =>
      refine .inr ⟨_, rfl, .run known carried alike, ?_⟩
      intro found listed joined
      exact stops

theorem opening_of_arrives {definition : AttributeDefinition}
    (arrives : Arrives exchange dictionary group top)
    (known : dictionary.attribute? top.path = some definition)
    (carried : definition.carrier = .fragmented) :
    ∃ record others extendedType truncated payload, group = record :: others ∧
      top.value? = some (.container (.longExtended extendedType false truncated payload)) ∧
      ∀ found, piece? record.type found (.raw record) = none ↔ found ≠ extendedType := by
  obtain ⟨front, others, rfl, place, -⟩ := front_of_arrives arrives
  rw [place] at known
  cases arrives with
  | standard listed other read =>
      cases known.symm.trans listed
      rw [carried] at other
      contradiction
  | run listed other alike =>
      cases known.symm.trans listed
      rw [carried] at other
      contradiction
  | @joined _ _ _ extendedType pieces listed _ chain =>
      refine ⟨front, others, extendedType, _, _, rfl, rfl, ?_⟩
      obtain ⟨piece, behind, -, reads⟩ := reads_of_chainOf (chain [])
      obtain ⟨-, flags, spelled, -⟩ := of_piece? reads
      intro found
      simp [piece?, spelled, Container.decodeLongExtended?, eq_comm]

theorem startsLike_of_arrives (arrives : Arrives exchange dictionary group top)
    (returns : Arrives exchange dictionary sent again)
    (reached : Reaches exchange dictionary top final)
    (back : Reaches exchange dictionary again final) :
    StartsLike dictionary (group ++ first) (sent ++ other) := by
  obtain ⟨record, others, sameGroup, place, -⟩ := front_of_arrives arrives
  obtain ⟨front, behind, sameSent, placeAgain, -⟩ := front_of_arrives returns
  have typed : front.type = record.type := by
    have heads := (head_of_reaches back).symm.trans (head_of_reaches reached)
    rwa [place, placeAgain] at heads
  subst sameGroup sameSent
  intro starts member
  cases member
  refine ⟨record, rfl, typed, ?_⟩
  intro definition known carried
  have listed : dictionary.attribute? top.path = some definition := by rw [place, ← typed, known]
  rw [← placeAgain] at known
  obtain ⟨_, _, shown, marked, payload, same, holds, opening⟩ :=
    opening_of_arrives arrives listed carried
  cases same
  obtain ⟨_, _, shownAgain, markedAgain, payloadAgain, same, holdsAgain, openingAgain⟩ :=
    opening_of_arrives returns known carried
  cases same
  -- both values open to the same attribute, so they show the same extended type
  have same : shownAgain = shown := by
    rcases path_of_reaches holds reached with rfl | ⟨below, joined⟩
    · rcases path_of_reaches holdsAgain back with rfl | ⟨below, joined⟩
      · cases holds.symm.trans holdsAgain
        rfl
      · rw [place, placeAgain] at joined
        simp [TypePath.topLevel, TypePath.append, Container.segments] at joined
    · rcases path_of_reaches holdsAgain back with rfl | ⟨belowAgain, joinedAgain⟩
      · rw [place, placeAgain] at joined
        simp [TypePath.topLevel, TypePath.append, Container.segments] at joined
      · rw [joined, place, placeAgain] at joinedAgain
        simp only [TypePath.topLevel, TypePath.append, Container.segments, List.nil_append,
          List.cons_append, TypePath.mk.injEq, List.cons.injEq] at joinedAgain
        exact (UInt8.toUInt32_inj.mp joinedAgain.2.1).symm
  intro extendedType unread
  rw [typed] at unread
  rw [openingAgain, same]
  exact (opening extendedType).mp unread

end Groups

end Lifting

theorem exists_entries_of_resent {exchange : Exchange} {dictionary : Dictionary}
    {records sent : List Record} {source : Entropy}
    (resent : (liftAll exchange dictionary records).toOption.bind (fun entries =>
      (lowerAll exchange dictionary entries source).1.toOption) = some sent) :
    ∃ entries rest, liftAll exchange dictionary records = .ok entries ∧
      lowerAll exchange dictionary entries source = (.ok sent, rest) := by
  obtain ⟨entries, received, lowered⟩ := Option.bind_eq_some_iff.mp resent
  rcases ran : lowerAll exchange dictionary entries source with ⟨result, rest⟩
  rw [ran] at lowered
  cases Result.toOption_eq_some_iff.mp lowered
  exact ⟨entries, rest, Result.toOption_eq_some_iff.mp received, ran⟩

theorem exists_entries_of_refused {exchange : Exchange} {dictionary : Dictionary}
    {records : List Record} {source : Entropy} {cause : PacketError}
    (refused : (liftAll exchange dictionary records).toOption.map (fun entries =>
      (lowerAll exchange dictionary entries source).1) = some (.error cause)) :
    ∃ entries rest, liftAll exchange dictionary records = .ok entries ∧
      lowerAll exchange dictionary entries source = (.error cause, rest) := by
  obtain ⟨entries, received, failed⟩ := Option.map_eq_some_iff.mp refused
  rcases ran : lowerAll exchange dictionary entries source with ⟨result, rest⟩
  rw [ran] at failed
  cases failed
  exact ⟨entries, rest, Result.toOption_eq_some_iff.mp received, ran⟩

end Radius

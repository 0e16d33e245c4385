import Radius.Proofs.Received

/-!
Sending again what was received. The records may differ from those received, in the sizes of pieces,
the salts and the padding of passwords; but they carry the same attributes, as long as no value is
hidden by two filters at once.
-/

namespace Radius

theorem TypePath.append_inj {left right : TypePath} {first second : List UInt32}
    (joined : left.append first = right.append second) (counted : first.length = second.length) :
    left = right ∧ first = second := by
  cases left with
  | mk leftHead leftTail =>
      cases right with
      | mk rightHead rightTail =>
          simp only [append, TypePath.mk.injEq] at joined
          obtain ⟨rfl, tails⟩ := joined
          obtain ⟨rfl, rfl⟩ := List.append_inj' tails counted
          exact ⟨rfl, rfl⟩

theorem Container.eq_of_segments {left right : Container} (typed : left.dataType = right.dataType)
    (unlong : left.dataType ≠ .longExtended) (placed : left.segments = right.segments)
    (same : left.payload = right.payload) : left = right := by
  cases left with
  | longExtended extendedType more truncated payload => exact absurd rfl unlong
  | extended extendedType payload =>
      cases right with
      | extended other kept =>
          simp only [segments, List.cons.injEq, UInt8.toUInt32_inj] at placed
          rw [placed.1, show payload = kept from same]
      | _ => simp [dataType] at typed
  | vsa vendor vendorType payload =>
      cases right with
      | vsa other kind kept =>
          simp only [segments, List.cons.injEq, UInt8.toUInt32_inj] at placed
          rw [placed.1, placed.2.1, show payload = kept from same]
      | _ => simp [dataType] at typed
  | evs vendor vendorType payload =>
      cases right with
      | evs other kind kept =>
          simp only [segments, List.cons.injEq, UInt8.toUInt32_inj] at placed
          rw [placed.1, placed.2.1, show payload = kept from same]
      | _ => simp [dataType] at typed

/-- The path goes through, or ends at, an attribute whose values are hidden. -/
def Dictionary.HiddenAbove (dictionary : Dictionary) (path : TypePath) : Prop :=
  ∃ above definition segments, dictionary.attribute? above = some definition ∧
    above.append segments = path ∧ definition.filter ≠ none

theorem Dictionary.HiddenAbove.append {dictionary : Dictionary} {path : TypePath}
    (hidden : dictionary.HiddenAbove path) (segments : List UInt32) :
    dictionary.HiddenAbove (path.append segments) := by
  obtain ⟨above, definition, between, listed, rfl, hides⟩ := hidden
  exact ⟨above, definition, between ++ segments, listed, (TypePath.append_append ..).symm, hides⟩

/-- No value is hidden twice: below a definition with a filter there is no other one. -/
def Dictionary.HidesOnce (dictionary : Dictionary) : Prop :=
  ∀ above path definition, dictionary.HiddenAbove above → ∀ segments ≠ [],
    above.append segments = path → dictionary.attribute? path = some definition →
      definition.filter = none

namespace Lifting

/-- The invariant of enclosing again what was opened: the attribute stands where one of the opened
ones stood, its value is recovered, and below a filter it is the value that was received. -/
structure Restored (exchange : Exchange) (dictionary : Dictionary) (top entry : Attribute) :
    Prop where
  recoverable : ∃ definition value, Recoverable exchange dictionary entry definition value
  original : ∃ original, Reaches exchange dictionary top original ∧ original.path = entry.path ∧
    (dictionary.HiddenAbove entry.path → ∀ definition,
      dictionary.attribute? entry.path = some definition → definition.carrier.encodes = true →
        entry.value? = original.value?)

section Enclosing

variable {exchange : Exchange} {dictionary : Dictionary} {top before original entry outer : Attribute}
  {definition parent : AttributeDefinition} {value : Value} {container : Container}
  {payload : Octets} {group : List Record}

theorem place_of_opens (layered : dictionary.Layered) {inner : Container}
    (opens : Opens exchange dictionary before original)
    (holds : before.value? = some (.container inner))
    (above : ∃ parent value, Received exchange dictionary before parent value)
    (listed : dictionary.attribute? original.path = some definition)
    (encloses : Lowering.Encloses dictionary definition entry.truncated payload parent container
      outer) :
    outer.path = before.path ∧ container.segments = inner.segments ∧
      container.dataType = inner.dataType := by
  obtain ⟨found, held, innerPath⟩ := path_of_opens opens
  cases holds.symm.trans held
  have known := innerPath ▸ listed
  obtain ⟨other, value, received⟩ := above
  cases holds.symm.trans received.built.value?_eq
  have typed := received.built.dataType_eq
  have carried := layered.inside received.known typed.symm known
  have place := encloses.path_eq
  rw [dictionary.path_of_attribute? known] at place
  have counted : container.segments.length = inner.segments.length := by
    rw [← Container.levels_innerCarrier, ← Container.levels_innerCarrier, encloses.carried, carried]
  obtain ⟨samePlace, sameSegments⟩ := TypePath.append_inj place counted
  have parents := encloses.known
  rw [samePlace, received.known] at parents
  cases parents
  exact ⟨samePlace, sameSegments,
    (AttributeDefinition.dataType_of_make encloses.made).trans typed.symm⟩

/-- What stands below a filter is sent in the octets it was received in. -/
theorem container_eq_of_hidden (layered : dictionary.Layered) (once : dictionary.HidesOnce)
    {source rest : Entropy} {inner : Container}
    (opens : Opens exchange dictionary before original)
    (holds : before.value? = some (.container inner))
    (above : ∃ parent value, Received exchange dictionary before parent value)
    (samePath : original.path = entry.path)
    (same : dictionary.HiddenAbove entry.path → ∀ definition,
      dictionary.attribute? entry.path = some definition → definition.carrier.encodes = true →
        entry.value? = original.value?)
    (recoverable : Recoverable exchange dictionary entry definition value)
    (sent : definition.encodeValue exchange value source = (.ok payload, rest))
    (encloses : Lowering.Encloses dictionary definition entry.truncated payload parent container
      outer)
    (hidden : dictionary.HiddenAbove outer.path) (encodes : parent.carrier.encodes = true) :
    container = inner := by
  have place : outer.path.append container.segments = entry.path := by
    rw [encloses.path_eq, recoverable.built.path_eq]
  have listed : dictionary.attribute? entry.path = some definition := by
    rw [recoverable.built.path_eq, recoverable.known]
  have clear : definition.filter = none :=
    once outer.path entry.path definition hidden container.segments container.segments_ne_nil place
      listed
  have nested : definition.carrier.isNested = true := by
    rw [← encloses.carried, container.isNested_innerCarrier]
  -- nothing hides the enclosed value, so its octets are the payload on both ways
  have sameValue := same (place ▸ hidden.append container.segments) definition listed
    (Carrier.encodes_of_isNested nested)
  rw [recoverable.built.value?_eq] at sameValue
  obtain ⟨-, written, -⟩ := (AttributeDefinition.encodeValue_clear clear).mp sent
  obtain ⟨-, octets⟩ :=
    octets_of_opens layered opens holds (samePath ▸ listed) clear sameValue.symm
  obtain ⟨-, sameSegments, sameType⟩ :=
    place_of_opens layered opens holds above (samePath ▸ listed) encloses
  have typed : container.dataType = parent.dataType :=
    AttributeDefinition.dataType_of_make encloses.made
  have unlong := (undivided_of_encodes layered encloses.known encodes).1
  apply Container.eq_of_segments sameType (typed ▸ unlong) sameSegments
  rw [encloses.payload_eq, written, octets]

theorem restored_of_encloses (layered : dictionary.Layered) (once : dictionary.HidesOnce)
    {source rest : Entropy} (arrives : Arrives exchange dictionary group top)
    (restored : Restored exchange dictionary top entry)
    (recoverable : Recoverable exchange dictionary entry definition value)
    (sent : definition.encodeValue exchange value source = (.ok payload, rest))
    (encloses : Lowering.Encloses dictionary definition entry.truncated payload parent container
      outer) : Restored exchange dictionary top outer := by
  obtain ⟨-, original, reached, samePath, same⟩ := restored
  have place : outer.path.append container.segments = entry.path := by
    rw [encloses.path_eq, recoverable.built.path_eq]
  have listed : dictionary.attribute? entry.path = some definition := by
    rw [recoverable.built.path_eq, recoverable.known]
  rcases Relation.ReflTransGen.cases_tail reached with rfl | ⟨before, trail, opens⟩
  · -- the attribute that arrives stands at the top, where nothing encloses it
    obtain ⟨record, others, -, topPath, -⟩ := front_of_arrives arrives
    rw [topPath, ← place] at samePath
    simp [TypePath.topLevel, TypePath.append, container.segments_ne_nil] at samePath
  · have received := received_of_reaches layered arrives trail
    obtain ⟨inner, holds, -⟩ := path_of_opens opens
    obtain ⟨samePlace, -, -⟩ :=
      place_of_opens layered opens holds received (samePath ▸ listed) encloses
    have kept := container_eq_of_hidden layered once opens holds received samePath same recoverable
      sent encloses
    refine ⟨⟨parent, .container container, recoverable_of_encloses encloses ?_⟩, before, trail,
      samePlace.symm, ?_⟩
    · -- a filter that trims zeros recovers the value because it is the received one
      intro trims encodes
      have hidden : dictionary.HiddenAbove outer.path :=
        ⟨outer.path, parent, [], encloses.known, by simp [TypePath.append], by simp [trims]⟩
      obtain ⟨other, value, received⟩ := received
      cases holds.symm.trans received.built.value?_eq
      have parents := encloses.known
      rw [samePlace, received.known] at parents
      cases parents
      rw [kept hidden encodes]
      exact (recoverable_of_received layered received).recovers encodes
    · intro hidden other known encodes
      cases encloses.known.symm.trans known
      rw [AttributeDefinition.value_of_make encloses.made, holds, kept hidden encodes]

end Enclosing

section Run

variable {exchange : Exchange} {dictionary : Dictionary} {top final : Attribute}
  {group sent records : List Record} {source rest : Entropy}

theorem arrives_again (layered : dictionary.Layered) (once : dictionary.HidesOnce)
    (arrives : Arrives exchange dictionary group top)
    (reached : Reaches exchange dictionary top final)
    (lowers : Lowering.Lowers exchange dictionary final source sent rest) :
    ∃ again, Reaches exchange dictionary again final ∧ Arrives exchange dictionary sent again := by
  obtain ⟨definition, value, received⟩ := received_of_reaches layered arrives reached
  have restored : Restored exchange dictionary top final :=
    ⟨⟨definition, value, recoverable_of_received layered received⟩, final, reached, rfl,
      fun _ _ _ _ => rfl⟩
  obtain ⟨again, -, back, returns⟩ := arrives_of_lowers layered
    (fun _ restored => restored.recoverable)
    (fun _ _ _ _ _ _ _ _ _ restored recoverable encoded encloses =>
      restored_of_encloses layered once arrives restored recoverable encoded encloses)
    lowers restored
  exact ⟨again, back, returns⟩

/-- The run of sending again: group by group, the records settle to what opens to the same
attributes. -/
theorem promotes_again (layered : dictionary.Layered) (once : dictionary.HidesOnce)
    {promoted entries : List Attribute} (promotes : Promotes exchange dictionary records promoted)
    (expanded : List.Forall₂ (fun top entry => expand exchange dictionary top = .ok entry)
      promoted entries)
    (lowered : lowerAll exchange dictionary entries source = (.ok sent, rest)) :
    ∃ again, Promotes exchange dictionary sent again ∧
      List.Forall₂ (fun top entry => expand exchange dictionary top = .ok entry) again entries ∧
      StartsLike dictionary records sent := by
  -- what is sent depends on the random source, so the induction is over all of them; `StartsLike`
  -- keeps what is sent for later groups from being taken into an earlier one
  induction promotes generalizing entries source sent with
  | nil =>
      cases expanded
      obtain ⟨rfl, -⟩ := Lowering.lowerAll_nil_eq_ok_iff.mp lowered
      exact ⟨[], .nil, .nil, by simp [StartsLike]⟩
  | @group group first settled others settles later ih =>
      rcases kept_or_arrives settles with ⟨rfl, kept⟩ | ⟨top, rfl, arrives, stops⟩
      · obtain ⟨behind, rfl, remains⟩ := forall₂_expand_kept.mp expanded
        obtain ⟨other, rest, rfl⟩ := Lowering.lowerAll_kept_eq_ok_iff.mp lowered
        obtain ⟨again, promotes, opened, alike⟩ := ih remains rest
        obtain ⟨record, members, rfl⟩ := group_ne_nil settles
        exact ⟨_, .group (kept other alike) promotes,
          forall₂_expand_kept.mpr ⟨behind, rfl, opened⟩, startsLike_self _ _ _⟩
      · obtain ⟨entry, behind, opened, remains, rfl⟩ := List.forall₂_cons_left_iff.mp expanded
        obtain ⟨front, middle, other, lowers, rest, rfl⟩ :=
          Lowering.lowerAll_cons_eq_ok_iff.mp lowered
        obtain ⟨reached, closed⟩ := expand_eq_ok_iff.mp opened
        obtain ⟨again, back, returns⟩ := arrives_again layered once arrives reached lowers
        obtain ⟨promoted, promotes, expanded, alike⟩ := ih remains rest
        -- a run ended where the next record has another type, and that type has not changed
        have settles : Settles exchange dictionary front [again] other := by
          apply settles_of_arrives returns
          rintro type joined definition rfl known carried record member
          obtain ⟨ahead, inside, same, -⟩ := alike record member
          obtain ⟨starts, members, -, place, -⟩ := front_of_arrives arrives
          have typed : type = starts.type := by
            have heads := (head_of_reaches back).symm.trans (head_of_reaches reached)
            rwa [place] at heads
          subst typed
          rw [place] at stops
          rw [same]
          exact stops definition known carried ahead inside
        exact ⟨again :: promoted, .group settles promotes,
          .cons (expand_eq_ok_iff.mpr ⟨back, closed⟩) expanded,
          startsLike_of_arrives arrives returns reached back⟩

end Run

end Lifting

theorem DefinitionTable.hidesOnce_of_reachable {table : DefinitionTable}
    (once : ∀ outer ∈ table.attributes, ∀ inner ∈ table.attributes, outer.filter ≠ none →
      inner.filter ≠ none → outer.path.AtOrAbove inner.path → outer = inner) :
    table.toDictionary.HidesOnce := by
  rintro above path definition ⟨top, outer, between, listed, rfl, hides⟩ segments below rfl known
  -- two definitions with filters, one above the other, would be one and the same
  by_contra hidden
  obtain ⟨outside, here⟩ := mem_of_attribute? listed
  obtain ⟨inside, there⟩ := mem_of_attribute? known
  have same : outer = definition := by
    apply once outer outside definition inside hides hidden
    rw [here, there]
    exact TypePath.atOrAbove_iff.mpr ⟨between ++ segments, (TypePath.append_append ..).symm⟩
  rw [← same, here] at there
  have deeper := congrArg TypePath.depth there
  rw [TypePath.depth_append, TypePath.depth_append] at deeper
  have longer := List.length_pos_iff.mpr below
  omega

/-- Receiving is stable: attributes that were received, and are sent again from any random source,
are received as they were. -/
theorem liftAll_resent {table : DefinitionTable} (reachable : table.Reachable)
    (once : ∀ outer ∈ table.attributes, ∀ inner ∈ table.attributes, outer.filter ≠ none →
      inner.filter ≠ none → outer.path.AtOrAbove inner.path → outer = inner)
    {exchange : Exchange} {records sent : List Record} {entries : List Attribute}
    {source rest : Entropy} (lifted : liftAll exchange table.toDictionary records = .ok entries)
    (lowered : lowerAll exchange table.toDictionary entries source = (.ok sent, rest)) :
    liftAll exchange table.toDictionary sent = .ok entries := by
  have layered := DefinitionTable.layered_of_reachable reachable
  obtain ⟨promoted, settled, opened⟩ := Result.bind_eq_ok_iff.mp lifted
  have promotes := (Lifting.promoteAll_eq_ok_iff layered).mp settled
  have expanded := Result.mapM_eq_ok_iff.mp opened
  obtain ⟨again, returns, opens, -⟩ := Lifting.promotes_again layered
    (DefinitionTable.hidesOnce_of_reachable once) promotes expanded lowered
  unfold liftAll
  rw [(Lifting.promoteAll_eq_ok_iff layered).mpr returns]
  exact Result.mapM_eq_ok_iff.mpr opens

def paddedPassword (zeros : Nat) : Octets :=
  KeyStream.encrypt md5 Exchange.sample.secret Exchange.sample.authenticator.octets
    ([104, 105] ++ List.replicate zeros 0)

/-- A value in pieces that are too small, with a reserved bit; a piece that no last one follows; and
a password with more zeros than it needs. -/
def untidyRecords : List Record :=
  [⟨245, [26, 0x81, 0, 0, 0, 9], by decide⟩, ⟨245, [26, 0, 1, 0xAA], by decide⟩,
    ⟨245, [26, 0x80, 7], by decide⟩, ⟨2, paddedPassword 30, by decide +kernel⟩]

def tidyRecords : List Record :=
  [⟨245, [26, 0, 0, 0, 0, 9, 1, 0xAA], by decide⟩, ⟨245, [26, 0x80, 7], by decide⟩,
    ⟨2, paddedPassword 14, by decide +kernel⟩]

theorem liftAll_resent_untidyRecords :
    DefinitionTable.deepVendor.Reachable ∧
      (∀ outer ∈ DefinitionTable.deepVendor.attributes,
        ∀ inner ∈ DefinitionTable.deepVendor.attributes, outer.filter ≠ none →
          inner.filter ≠ none → outer.path.AtOrAbove inner.path → outer = inner) ∧
      ∃ entries rest,
        liftAll .sample DefinitionTable.deepVendor.toDictionary untidyRecords = .ok entries ∧
        lowerAll .sample DefinitionTable.deepVendor.toDictionary entries (Entropy.cycle []) =
          (.ok tidyRecords, rest) ∧
        liftAll .sample DefinitionTable.deepVendor.toDictionary tidyRecords = .ok entries := by
  have once : ∀ outer ∈ DefinitionTable.deepVendor.attributes,
      ∀ inner ∈ DefinitionTable.deepVendor.attributes, outer.filter ≠ none →
        inner.filter ≠ none → outer.path.AtOrAbove inner.path → outer = inner := by
    decide +kernel
  obtain ⟨entries, rest, lifted, lowered⟩ : ∃ entries rest,
      liftAll .sample DefinitionTable.deepVendor.toDictionary untidyRecords = .ok entries ∧
      lowerAll .sample DefinitionTable.deepVendor.toDictionary entries (Entropy.cycle []) =
        (.ok tidyRecords, rest) :=
    exists_entries_of_resent (by decide +kernel)
  exact ⟨DefinitionTable.reachable_deepVendor, once, entries, rest, lifted, lowered,
    liftAll_resent DefinitionTable.reachable_deepVendor once lifted lowered⟩

end Radius

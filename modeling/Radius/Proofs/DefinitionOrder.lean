import Radius.Proofs.TableKeys

/-!
The order in which definitions are added. A table is asked for definitions without their carriers;
it infers those, from what encloses a path. In a table with sound carriers the inferred carriers
follow from what was asked for, so tables that were asked for the same have the same definitions.
-/

namespace Radius

inductive Carrier.Holds : DataType → Nat → Carrier → Prop
  | extended : Holds .extended 1 .extended
  | longExtended : Holds .longExtended 1 .longExtended
  | vsa : Holds .vsa 2 .vendorSpecific
  | evs : Holds .evs 2 .vendorSpecific

namespace DefinitionTable

def Declares (table : DefinitionTable) : Addition → Prop
  | .attr path name type filter => ∃ carrier, ⟨path, name, type, carrier, filter⟩ ∈ table.attributes
  | .tlv path name type => ⟨path, name, type⟩ ∈ table.tlvs
  | .value path name number => ⟨path, name, number⟩ ∈ table.values
  | .packet code name authenticator => ⟨code, name, authenticator⟩ ∈ table.packets

/-- The carrier is the one that the present table infers, and what encloses the definition is
there. -/
structure Settled (table : DefinitionTable) (definition : AttributeDefinition) : Prop where
  inferred : table.inferCarrier definition.path definition.dataType = .ok definition.carrier
  enclosed : definition.path.isTopLevel = true ∨ ∃ container ∈ table.attributes, ∃ levels,
    definition.path.ancestor? levels = some container.path ∧
      Carrier.Holds container.dataType levels definition.carrier

section Declarations

variable {table extended final : DefinitionTable}

theorem declares_of_adds {addition : Addition} (adds : table.Adds addition extended)
    (asked : Addition) : extended.Declares asked ↔ table.Declares asked ∨ asked = addition := by
  cases adds with
  | @attr definition =>
      cases asked with
      | attr path name type filter =>
          constructor
          · rintro ⟨carrier, member⟩
            rcases List.mem_append.mp member with old | new
            · exact .inl ⟨carrier, old⟩
            · rw [← List.mem_singleton.mp new]
              exact .inr rfl
          · rintro (⟨carrier, member⟩ | same)
            · exact ⟨carrier, List.mem_append_left _ member⟩
            · cases same
              exact ⟨definition.carrier, List.mem_append_right _ List.mem_cons_self⟩
      | _ => simp [Declares, insertAttribute]
  | @tlv definition =>
      cases definition
      cases asked <;> simp [Declares, insertTlv]
  | @value entry =>
      cases entry
      cases asked <;> simp [Declares, insertValue]
  | @packet definition =>
      cases definition
      cases asked <;> simp [Declares, insertPacket]

theorem declares_of_foldlM {additions : List Addition}
    (added : additions.foldlM add table = .ok final) (asked : Addition) :
    final.Declares asked ↔ table.Declares asked ∨ asked ∈ additions := by
  induction additions generalizing table with
  | nil =>
      cases added
      simp
  | cons addition rest ih =>
      rw [List.foldlM_cons] at added
      obtain ⟨further, first, later⟩ := Result.bind_eq_ok_iff.mp added
      rw [ih later, declares_of_adds (adds_of_add addition first), List.mem_cons, or_assoc]

end Declarations

section Inference

variable {left right : DefinitionTable}

theorem declares_of_mem {table : DefinitionTable} {definition : AttributeDefinition}
    (member : definition ∈ table.attributes) : table.Declares
      (.attr definition.path definition.name definition.dataType definition.filter) :=
  ⟨definition.carrier, member⟩

theorem enclosingType?_eq_some_iff_declares {table : DefinitionTable} (keyed : table.Keyed)
    {path : TypePath} {levels : Nat} {type : DataType} :
    table.enclosingType? path levels = some type ↔ ∃ above, path.ancestor? levels = some above ∧
      ∃ name filter, table.Declares (.attr above name type filter) := by
  rw [enclosingType?_eq_some_iff]
  constructor
  · rintro ⟨above, definition, higher, found, rfl⟩
    obtain ⟨member, rfl⟩ := mem_of_attribute? found
    exact ⟨_, higher, definition.name, definition.filter, declares_of_mem member⟩
  · rintro ⟨above, higher, name, filter, carrier, member⟩
    exact ⟨above, _, higher, find?_of_mem keyed.distinct member, rfl⟩

theorem inferCarrier_of_declares (leftKeyed : left.Keyed) (rightKeyed : right.Keyed)
    (same : ∀ asked, left.Declares asked ↔ right.Declares asked) (path : TypePath)
    (type : DataType) : left.inferCarrier path type = right.inferCarrier path type := by
  have enclosing (levels : Nat) :
      left.enclosingType? path levels = right.enclosingType? path levels := by
    ext type
    simp only [enclosingType?_eq_some_iff_declares leftKeyed,
      enclosingType?_eq_some_iff_declares rightKeyed, same]
  rw [inferCarrier, inferCarrier, enclosing, enclosing]

/-- A definition of one table is one of the other: both infer its carrier, and infer the same. -/
theorem mem_of_declares (leftKeyed : left.Keyed) (rightKeyed : right.Keyed)
    (same : ∀ asked, left.Declares asked ↔ right.Declares asked)
    {definition : AttributeDefinition} (member : definition ∈ left.attributes) :
    definition ∈ right.attributes := by
  obtain ⟨carrier, listed⟩ := (same _).mp (declares_of_mem member)
  have here := leftKeyed.inferred definition member
  have there := rightKeyed.inferred _ listed
  rw [← inferCarrier_of_declares leftKeyed rightKeyed same, here] at there
  cases there
  exact listed

theorem lookups_of_declares (leftReachable : left.Reachable) (rightReachable : right.Reachable)
    (same : ∀ asked, left.Declares asked ↔ right.Declares asked) :
    left.attribute? = right.attribute? ∧ left.attributeNamed? = right.attributeNamed? ∧
      left.tlv? = right.tlv? ∧ left.packet? = right.packet? := by
  have leftKeyed := keyed_of_reachable leftReachable
  have rightKeyed := keyed_of_reachable rightReachable
  have attributes (definition : AttributeDefinition) :
      definition ∈ left.attributes ↔ definition ∈ right.attributes :=
    ⟨mem_of_declares leftKeyed rightKeyed same,
      mem_of_declares rightKeyed leftKeyed fun asked => (same asked).symm⟩
  refine ⟨?_, ?_, ?_, ?_⟩
  · ext path definition
    rw [leftKeyed.consistent.attribute_iff, rightKeyed.consistent.attribute_iff, attributes]
  · ext name definition
    rw [leftKeyed.consistent.named_iff, rightKeyed.consistent.named_iff, attributes]
  · ext path definition
    rw [leftKeyed.consistent.tlv_iff, rightKeyed.consistent.tlv_iff]
    exact and_congr_left' (same (.tlv definition.path definition.name definition.dataType))
  · ext code definition
    rw [leftKeyed.consistent.packet_iff, rightKeyed.consistent.packet_iff]
    exact and_congr_left'
      (same (.packet definition.code definition.name definition.authenticator))

end Inference

section Order

variable {table : DefinitionTable}

theorem exists_of_enclosingType? {path : TypePath} {levels : Nat} {type : DataType}
    (enclosed : table.enclosingType? path levels = some type) :
    ∃ container ∈ table.attributes, path.ancestor? levels = some container.path ∧
      container.dataType = type := by
  obtain ⟨above, container, higher, found, typed⟩ := enclosingType?_eq_some_iff.mp enclosed
  obtain ⟨member, rfl⟩ := mem_of_attribute? found
  exact ⟨container, member, higher, typed⟩

theorem Encloses.exists_container {path : TypePath} {carrier : Carrier}
    (encloses : table.Encloses path carrier) :
    ∃ container ∈ table.attributes, ∃ levels, path.ancestor? levels = some container.path ∧
      Carrier.Holds container.dataType levels carrier := by
  cases encloses with
  | extended above =>
      obtain ⟨container, member, higher, typed⟩ := exists_of_enclosingType? above
      exact ⟨container, member, 1, higher, typed ▸ .extended⟩
  | longExtended above =>
      obtain ⟨container, member, higher, typed⟩ := exists_of_enclosingType? above
      exact ⟨container, member, 1, higher, typed ▸ .longExtended⟩
  | vendorSpecific _ _ above =>
      obtain ⟨type, above, vendor⟩ := above
      obtain ⟨container, member, higher, typed⟩ := exists_of_enclosingType? above
      refine ⟨container, member, 2, higher, ?_⟩
      rcases vendor with rfl | rfl
      · exact typed ▸ .vsa
      · exact typed ▸ .evs

theorem Sound.settled (sound : table.Sound) {definition : AttributeDefinition}
    (member : definition ∈ table.attributes) : table.Settled definition := by
  refine ⟨sound.inferred definition member, ?_⟩
  rcases inferCarrier_eq_ok_iff.mp (sound.inferred definition member) with
    ⟨top, -⟩ | ⟨-, -, -, encloses⟩
  · exact .inl top
  · exact .inr encloses.exists_container

theorem Reachable.foldlM (reachable : table.Reachable) {additions : List Addition}
    {final : DefinitionTable} (added : additions.foldlM add table = .ok final) :
    final.Reachable := by
  have grows : Kept Reachable := by
    intro table extended addition grown adds
    cases addition with
    | attr => exact .addAttribute grown (add_eq_ok_iff.mpr adds)
    | tlv => exact .addTlv grown (add_eq_ok_iff.mpr adds)
    | value => exact .addValue grown (add_eq_ok_iff.mpr adds)
    | packet => exact .addPacket grown (add_eq_ok_iff.mpr adds)
  exact grows.foldlM reachable added

/-- Every stored carrier is the one that the present table infers, and its containers are there; so
the same additions lead to the same answers in any order in which all of them succeed. -/
theorem lookups_of_any_order (reachable : table.Reachable) :
    (∀ definition ∈ table.attributes, table.Settled definition) ∧
      ∀ (additions others : List Addition) (left right : DefinitionTable),
        additions.Perm others → additions.foldlM add table = .ok left →
        others.foldlM add table = .ok right →
        left.attribute? = right.attribute? ∧ left.attributeNamed? = right.attributeNamed? ∧
          left.tlv? = right.tlv? ∧ left.packet? = right.packet? := by
  refine ⟨fun definition member => (sound_of_reachable reachable).settled member, ?_⟩
  intro additions others left right permuted leftAdded rightAdded
  refine lookups_of_declares (reachable.foldlM leftAdded) (reachable.foldlM rightAdded) ?_
  intro asked
  rw [declares_of_foldlM leftAdded, declares_of_foldlM rightAdded, permuted.mem_iff]

def boxedAdditions : List Addition :=
  [.attr ⟨241, [7]⟩ "Vendor-Box" .evs none, .attr ⟨241, [7, 9, 1]⟩ "Boxed-Text" .text none,
    .tlv ⟨241, [9, 1]⟩ "Rule" .tlv, .packet 200 "Experimental" .random]

def boxedLateAdditions : List Addition :=
  [.packet 200 "Experimental" .random, .tlv ⟨241, [9, 1]⟩ "Rule" .tlv,
    .attr ⟨241, [7]⟩ "Vendor-Box" .evs none, .attr ⟨241, [7, 9, 1]⟩ "Boxed-Text" .text none]

theorem lookups_of_any_order_boxedAdditions :
    standard.Reachable ∧ boxedAdditions.Perm boxedLateAdditions ∧
      ∃ left right, boxedAdditions.foldlM add standard = .ok left ∧
        boxedLateAdditions.foldlM add standard = .ok right ∧
        left.attribute? = right.attribute? ∧ left.attributeNamed? = right.attributeNamed? ∧
          left.tlv? = right.tlv? ∧ left.packet? = right.packet? := by
  have permuted : boxedAdditions.Perm boxedLateAdditions := by decide
  have leftAdded : (boxedAdditions.foldlM add standard).toOption.isSome = true := by
    decide +kernel
  have rightAdded : (boxedLateAdditions.foldlM add standard).toOption.isSome = true := by
    decide +kernel
  cases leftRan : boxedAdditions.foldlM add standard with
  | error cause =>
      rw [leftRan] at leftAdded
      contradiction
  | ok left =>
      cases rightRan : boxedLateAdditions.foldlM add standard with
      | error cause =>
          rw [rightRan] at rightAdded
          contradiction
      | ok right =>
          exact ⟨.standard, permuted, left, right, rfl, rfl,
            (lookups_of_any_order .standard).2 _ _ left right permuted leftRan rightRan⟩

end Order

end DefinitionTable

end Radius

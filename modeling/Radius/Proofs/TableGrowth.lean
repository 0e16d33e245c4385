import Radius.Proofs.Additions
import Radius.Proofs.ValueFormat
import Radius.Standard.Table

/-!
What holds of every table that grows from the empty or the standard one. No path is defined twice,
and every carrier is the one that the present table infers: a later definition never comes between
an attribute and its container, because nothing can be defined one segment below a vendor container.
-/

namespace Radius

theorem TypePath.ancestor?_eq_some_iff {path above : TypePath} {levels : Nat} :
    path.ancestor? levels = some above ↔
      ∃ segments : List UInt32, segments.length = levels ∧ above.append segments = path := by
  cases path with
  | mk head tail =>
      cases above with
      | mk first front =>
          unfold ancestor?
          constructor
          · intro found
            split at found
            · contradiction
            · rename_i deep
              have enough : levels ≤ tail.length := Nat.le_of_not_lt deep
              cases found
              refine ⟨tail.drop (tail.length - levels), ?_, ?_⟩
              · rw [List.length_drop]
                omega
              · simp only [append, List.take_append_drop]
          · rintro ⟨segments, counted, joined⟩
            cases joined
            have deep : ¬(front ++ segments).length < levels := by
              rw [List.length_append]
              omega
            rw [if_neg deep, ← counted, List.length_append, Nat.add_sub_cancel, List.take_left]

def TypePath.AtOrAbove (above path : TypePath) : Prop :=
  above.head = path.head ∧ above.tail <+: path.tail

instance (above path : TypePath) : Decidable (above.AtOrAbove path) :=
  inferInstanceAs (Decidable (_ ∧ _))

theorem TypePath.atOrAbove_iff {above path : TypePath} :
    above.AtOrAbove path ↔ ∃ segments, above.append segments = path := by
  cases above with
  | mk aboveHead aboveTail =>
      cases path with
      | mk head tail =>
          constructor
          · rintro ⟨same, segments, joined⟩
            cases same
            exact ⟨segments, by rw [append, joined]⟩
          · rintro ⟨segments, joined⟩
            cases joined
            exact ⟨rfl, segments, rfl⟩

theorem TypePath.AtOrAbove.trans {first second third : TypePath} (above : first.AtOrAbove second)
    (below : second.AtOrAbove third) : first.AtOrAbove third :=
  ⟨above.1.trans below.1, above.2.trans below.2⟩

theorem TypePath.isTopLevel_child (above : TypePath) (segment : UInt32) :
    (above.child segment).isTopLevel = false := by
  simp [child, append, isTopLevel]

theorem TypePath.append_pair (above : TypePath) (first second : UInt32) :
    above.append [first, second] = (above.child first).child second := by
  simp [child, append]

theorem TypePath.child_inj {left right : TypePath} {first second : UInt32} :
    left.child first = right.child second ↔ left = right ∧ first = second := by
  cases left with
  | mk leftHead leftTail =>
      cases right with
      | mk rightHead rightTail =>
          simp only [child, append, TypePath.mk.injEq]
          constructor
          · rintro ⟨sameHead, joined⟩
            obtain ⟨front, last⟩ := List.append_inj' joined rfl
            cases last
            exact ⟨⟨sameHead, front⟩, rfl⟩
          · rintro ⟨⟨rfl, rfl⟩, rfl⟩
            exact ⟨rfl, rfl⟩

namespace DefinitionTable

inductive Reachable : DefinitionTable → Prop
  | empty : Reachable .empty
  | standard : Reachable .standard
  | addAttribute {table extended : DefinitionTable} {path : TypePath} {name : String}
      {type : DataType} {filter : Option Filter} (grown : Reachable table)
      (added : table.addAttribute path name type filter = .ok extended) : Reachable extended
  | addTlv {table extended : DefinitionTable} {path : TypePath} {name : String} {type : DataType}
      (grown : Reachable table) (added : table.addTlv path name type = .ok extended) :
      Reachable extended
  | addValue {table extended : DefinitionTable} {path : TypePath} {name : String} {value : Int32}
      (grown : Reachable table) (added : table.addValue path name value = .ok extended) :
      Reachable extended
  | addPacket {table extended : DefinitionTable} {code : UInt8} {name : String}
      {authenticator : AuthenticatorKind} (grown : Reachable table)
      (added : table.addPacket code name authenticator = .ok extended) : Reachable extended
  | load {table : DefinitionTable} (grown : Reachable table) (text : String) :
      Reachable (table.load text).1

/-- What holds of the two tables at the start, and what additions preserve, holds of every table that
grows from them. -/
theorem Reachable.induction {holds : DefinitionTable → Prop} (empty : holds .empty)
    (standard : holds .standard) (kept : Kept holds) {table : DefinitionTable}
    (reachable : table.Reachable) : holds table := by
  induction reachable with
  | empty => exact empty
  | standard => exact standard
  | @addAttribute _ _ path name type filter _ added ih =>
      exact kept ih (adds_of_add (.attr path name type filter) added)
  | @addTlv _ _ path name type _ added ih => exact kept ih (adds_of_add (.tlv path name type) added)
  | @addValue _ _ path name value _ added ih =>
      exact kept ih (adds_of_add (.value path name value) added)
  | @addPacket _ _ code name authenticator _ added ih =>
      exact kept ih (adds_of_add (.packet code name authenticator) added)
  | load _ text ih => exact kept.load ih text

structure Sound (table : DefinitionTable) : Prop where
  distinct : (table.attributes.map AttributeDefinition.path).Nodup
  inferred : ∀ definition ∈ table.attributes,
    table.inferCarrier definition.path definition.dataType = .ok definition.carrier
  leaves : ∀ definition ∈ table.tlvs, definition.dataType.isContainer = false

section Lookup

variable {table : DefinitionTable} {path : TypePath} {definition : AttributeDefinition}

theorem mem_of_attribute? (found : table.attribute? path = some definition) :
    definition ∈ table.attributes ∧ definition.path = path :=
  ⟨List.mem_of_find?_eq_some found, Dictionary.path_of_find? found⟩

theorem attribute?_of_mem (sound : table.Sound) (member : definition ∈ table.attributes) :
    table.attribute? definition.path = some definition :=
  find?_of_mem sound.distinct member

theorem attribute?_insert (added : AttributeDefinition) :
    (table.insertAttribute added).attribute? path =
      (table.attribute? path).or (if added.path = path then some added else none) := by
  simp only [attribute?, insertAttribute, List.find?_append, List.find?_cons, List.find?_nil]
  split <;> simp_all

theorem enclosingType?_eq_some_iff {levels : Nat} {type : DataType} :
    table.enclosingType? path levels = some type ↔
      ∃ above definition, path.ancestor? levels = some above ∧
        table.attribute? above = some definition ∧ definition.dataType = type := by
  simp only [enclosingType?, bind, Option.bind_eq_some_iff, pure, Option.some.injEq]
  constructor
  · rintro ⟨above, higher, definition, found, typed⟩
    exact ⟨above, definition, higher, found, typed⟩
  · rintro ⟨above, definition, higher, found, typed⟩
    exact ⟨above, higher, definition, found, typed⟩

end Lookup

section Layers

variable {table : DefinitionTable} {path : TypePath} {type : DataType} {carrier : Carrier}

/-- What a container can hold: an attribute one segment below it, or, in a vendor container, two
segments below it. -/
inductive Encloses (table : DefinitionTable) (path : TypePath) : Carrier → Prop
  | extended (above : table.enclosingType? path 1 = some .extended) : Encloses table path .extended
  | longExtended (above : table.enclosingType? path 1 = some .longExtended) :
      Encloses table path .longExtended
  | vendorSpecific (unextended : table.enclosingType? path 1 ≠ some .extended)
      (unlong : table.enclosingType? path 1 ≠ some .longExtended)
      (above : ∃ type, table.enclosingType? path 2 = some type ∧ (type = .vsa ∨ type = .evs)) :
      Encloses table path .vendorSpecific

theorem inferCarrier_eq_ok_iff :
    table.inferCarrier path type = .ok carrier ↔
      (path.isTopLevel = true ∧ carrier = .ofTopLevel type) ∨
        (path.isTopLevel = false ∧ type ≠ .longExtended ∧ type ≠ .concat ∧
          table.Encloses path carrier) := by
  constructor
  · intro inferred
    unfold inferCarrier at inferred
    split at inferred
    · rename_i top
      cases inferred
      exact .inl ⟨top, rfl⟩
    · rename_i nested
      have below : path.isTopLevel = false := by simpa using nested
      split at inferred
      · contradiction
      · rename_i allowed
        have allowed := not_or.mp allowed
        refine .inr ⟨below, allowed.1, allowed.2, ?_⟩
        split at inferred
        · rename_i enclosed
          cases inferred
          exact .extended enclosed
        · rename_i enclosed
          cases inferred
          exact .longExtended enclosed
        · rename_i enclosed unextended unlong
          cases inferred
          exact .vendorSpecific unextended unlong ⟨.vsa, enclosed, .inl rfl⟩
        · rename_i enclosed unextended unlong
          cases inferred
          exact .vendorSpecific unextended unlong ⟨.evs, enclosed, .inr rfl⟩
        · contradiction
  · rintro (⟨top, rfl⟩ | ⟨nested, unlong, unjoined, encloses⟩)
    · rw [inferCarrier, if_pos top]
    · rw [inferCarrier, if_neg (by simp [nested]), if_neg (not_or.mpr ⟨unlong, unjoined⟩)]
      cases encloses with
      | extended above => rw [above]
      | longExtended above => rw [above]
      | vendorSpecific unextended unlong above =>
          obtain ⟨vendor, above, container⟩ := above
          rw [above]
          -- the type one segment above is looked at first, and is none of the extended ones
          split
          · contradiction
          · contradiction
          · rfl
          · rfl
          · rename_i _ _ noVsa noEvs
            rcases container with rfl | rfl
            · exact absurd rfl noVsa
            · exact absurd rfl noEvs

/-- An attribute one segment below a vendor container is itself two segments below another one, so
that other one has the vendor container one segment below it. -/
theorem vendor_above_child (distinct : ∀ definition ∈ table.attributes,
      table.attribute? definition.path = some definition)
    {vendor : AttributeDefinition} (member : vendor ∈ table.attributes)
    (holds : vendor.dataType = .vsa ∨ vendor.dataType = .evs) {segment : UInt32}
    (inferred : table.inferCarrier (vendor.path.child segment) type = .ok carrier) :
    ∃ outer ∈ table.attributes, (outer.dataType = .vsa ∨ outer.dataType = .evs) ∧
      ∃ between, vendor.path = outer.path.child between := by
  have enclosing : table.enclosingType? (vendor.path.child segment) 1 = some vendor.dataType :=
    enclosingType?_eq_some_iff.mpr ⟨vendor.path, vendor,
      TypePath.ancestor?_eq_some_iff.mpr ⟨[segment], rfl, rfl⟩, distinct vendor member, rfl⟩
  rcases inferCarrier_eq_ok_iff.mp inferred with ⟨top, -⟩ | ⟨-, -, -, encloses⟩
  · rw [TypePath.isTopLevel_child] at top
    contradiction
  · cases encloses with
    | extended above =>
        rw [enclosing] at above
        rcases holds with holds | holds <;> simp [holds] at above
    | longExtended above =>
        rw [enclosing] at above
        rcases holds with holds | holds <;> simp [holds] at above
    | vendorSpecific unextended unlong above =>
        obtain ⟨type, found, container⟩ := above
        obtain ⟨above, outer, further, listed, rfl⟩ := enclosingType?_eq_some_iff.mp found
        obtain ⟨segments, counted, joined⟩ := TypePath.ancestor?_eq_some_iff.mp further
        obtain ⟨inside, here⟩ := mem_of_attribute? listed
        obtain ⟨first, second, rfl⟩ := List.length_eq_two.mp counted
        rw [TypePath.append_pair, TypePath.child_inj] at joined
        exact ⟨outer, inside, container, first, by rw [here, joined.1]⟩

theorem not_below_vendor (sound : table.Sound) {vendor : AttributeDefinition}
    (member : vendor ∈ table.attributes) (holds : vendor.dataType = .vsa ∨ vendor.dataType = .evs)
    {segment : UInt32} : table.inferCarrier (vendor.path.child segment) type ≠ .ok carrier := by
  -- a vendor container one segment below a vendor container would need another one above it
  induction deep : vendor.path.depth using Nat.strongRecOn
    generalizing vendor segment type carrier with
  | ind depth ih =>
      intro inferred
      obtain ⟨outer, inside, container, between, placed⟩ :=
        vendor_above_child (fun _ => attribute?_of_mem sound) member holds inferred
      have higher : outer.path.depth < depth := by
        rw [← deep, placed, TypePath.child, TypePath.depth_append]
        exact Nat.lt_succ_self _
      have known := sound.inferred vendor member
      rw [placed] at known
      exact ih outer.path.depth higher inside container rfl known

end Layers

section Growth

variable {table : DefinitionTable} {added : AttributeDefinition}

theorem attribute?_insert_of_some {path : TypePath} {definition : AttributeDefinition}
    (found : table.attribute? path = some definition) :
    (table.insertAttribute added).attribute? path = some definition := by
  rw [attribute?_insert, found, Option.some_or]

theorem enclosingType?_insert {path : TypePath} {levels : Nat} {type : DataType}
    (enclosed : table.enclosingType? path levels = some type) :
    (table.insertAttribute added).enclosingType? path levels = some type := by
  obtain ⟨above, definition, higher, found, typed⟩ := enclosingType?_eq_some_iff.mp enclosed
  exact enclosingType?_eq_some_iff.mpr
    ⟨above, definition, higher, attribute?_insert_of_some found, typed⟩

theorem of_enclosingType?_insert {path : TypePath} {type : DataType}
    (enclosed : (table.insertAttribute added).enclosingType? path 1 = some type) :
    table.enclosingType? path 1 = some type ∨ ∃ segment, path = added.path.child segment := by
  obtain ⟨above, definition, higher, found, typed⟩ := enclosingType?_eq_some_iff.mp enclosed
  rw [attribute?_insert] at found
  cases known : table.attribute? above with
  | some definition =>
      rw [known, Option.some_or, Option.some.injEq] at found
      subst found
      exact .inl (enclosingType?_eq_some_iff.mpr ⟨above, definition, higher, known, typed⟩)
  | none =>
      rw [known, Option.none_or] at found
      split at found
      · rename_i here
        obtain ⟨segments, counted, joined⟩ := TypePath.ancestor?_eq_some_iff.mp higher
        obtain ⟨segment, rfl⟩ := List.length_eq_one_iff.mp counted
        exact .inr ⟨segment, by rw [here, ← joined]; rfl⟩
      · contradiction

/-- A later definition changes no carrier. -/
theorem inferCarrier_insert (sound : table.Sound) {addedCarrier : Carrier}
    (fits : table.inferCarrier added.path added.dataType = .ok addedCarrier) {path : TypePath}
    {type : DataType} {carrier : Carrier}
    (inferred : table.inferCarrier path type = .ok carrier) :
    (table.insertAttribute added).inferCarrier path type = .ok carrier := by
  rw [inferCarrier_eq_ok_iff] at inferred ⊢
  rcases inferred with top | ⟨nested, unlong, unjoined, encloses⟩
  · exact .inl top
  · refine .inr ⟨nested, unlong, unjoined, ?_⟩
    cases encloses with
    | extended above => exact .extended (enclosingType?_insert above)
    | longExtended above => exact .longExtended (enclosingType?_insert above)
    | vendorSpecific unextended unlong above =>
        obtain ⟨vendor, found, container⟩ := above
        -- the added definition would stand one segment below the vendor container
        have apart : ∀ segment, path ≠ added.path.child segment := by
          rintro segment rfl
          obtain ⟨outerPath, outer, further, listed, typed⟩ :=
            enclosingType?_eq_some_iff.mp found
          obtain ⟨segments, counted, joined⟩ := TypePath.ancestor?_eq_some_iff.mp further
          obtain ⟨first, second, rfl⟩ := List.length_eq_two.mp counted
          obtain ⟨inside, here⟩ := mem_of_attribute? listed
          rw [TypePath.append_pair, TypePath.child_inj] at joined
          rw [← joined.1, ← here] at fits
          exact not_below_vendor sound inside (typed ▸ container) fits
        refine .vendorSpecific ?_ ?_ ⟨vendor, enclosingType?_insert found, container⟩
        · intro enclosed
          rcases of_enclosingType?_insert enclosed with known | ⟨segment, below⟩
          · exact unextended known
          · exact apart segment below
        · intro enclosed
          rcases of_enclosingType?_insert enclosed with known | ⟨segment, below⟩
          · exact unlong known
          · exact apart segment below

theorem Sound.insertAttribute (sound : table.Sound) (fresh : table.attribute? added.path = none)
    (fits : table.inferCarrier added.path added.dataType = .ok added.carrier) :
    (table.insertAttribute added).Sound := by
  refine ⟨nodup_append_of_fresh sound.distinct fresh, ?_, sound.leaves⟩
  intro definition member
  rcases List.mem_append.mp member with old | new
  · exact inferCarrier_insert sound fits (sound.inferred definition old)
  · rw [List.mem_singleton.mp new]
    exact inferCarrier_insert sound fits fits

theorem Sound.of_same {other : DefinitionTable} (sound : table.Sound)
    (attributes : other.attributes = table.attributes) (tlvs : other.tlvs = table.tlvs) :
    other.Sound := by
  cases other with
  | mk otherAttributes otherTlvs values packets =>
      cases attributes
      cases tlvs
      exact ⟨sound.distinct, sound.inferred, sound.leaves⟩

theorem kept_sound : Kept Sound := by
  intro table extended addition sound adds
  cases adds with
  | attr untaken _ inferred => exact sound.insertAttribute untaken inferred
  | tlv _ _ leaf =>
      refine ⟨sound.distinct, sound.inferred, ?_⟩
      intro definition member
      rcases List.mem_append.mp member with old | new
      · exact sound.leaves definition old
      · rw [List.mem_singleton.mp new]
        exact leaf
  | value _ => exact sound.of_same rfl rfl
  | packet _ => exact sound.of_same rfl rfl

theorem sound_standard : DefinitionTable.standard.Sound :=
  ⟨by decide +kernel, by decide +kernel, by decide⟩

theorem sound_of_reachable (reachable : table.Reachable) : table.Sound :=
  reachable.induction ⟨by decide, by decide, by decide⟩ sound_standard kept_sound

end Growth

end DefinitionTable

def Container.innerCarrier : Container → Carrier
  | .extended .. => .extended
  | .longExtended .. => .longExtended
  | .vsa .. | .evs .. => .vendorSpecific

theorem Container.isNested_innerCarrier (container : Container) :
    container.innerCarrier.isNested = true := by
  cases container <;> rfl

theorem Container.segments_ne_nil (container : Container) : container.segments ≠ [] := by
  cases container <;> simp [segments]

theorem Container.levels_innerCarrier (container : Container) :
    container.innerCarrier.levels = container.segments.length := by
  cases container <;> rfl

/-- A dictionary whose carriers say where its attributes stand. -/
structure Dictionary.Layered (dictionary : Dictionary) : Prop where
  trees : dictionary.KeepsTrees
  top : ∀ ⦃path definition⦄, dictionary.attribute? path = some definition →
    path.isTopLevel = true → definition.carrier = .ofTopLevel definition.dataType
  nested : ∀ ⦃path definition⦄, dictionary.attribute? path = some definition →
    path.isTopLevel = false → definition.carrier.isNested = true ∧
      definition.dataType ≠ .longExtended ∧ definition.dataType ≠ .concat
  inside : ∀ ⦃path parent definition⦄ ⦃container : Container⦄,
    dictionary.attribute? path = some parent → parent.dataType = container.dataType →
    dictionary.attribute? (path.append container.segments) = some definition →
      definition.carrier = container.innerCarrier

namespace DefinitionTable

variable {table : DefinitionTable}

theorem attribute?_below_vendor (sound : table.Sound) {path : TypePath}
    {parent : AttributeDefinition} (above : table.attribute? path = some parent)
    (holds : parent.dataType = .vsa ∨ parent.dataType = .evs) (segment : UInt32) :
    table.attribute? (path.child segment) = none := by
  apply Option.eq_none_iff_forall_ne_some.mpr
  intro between found
  obtain ⟨member, here⟩ := mem_of_attribute? above
  obtain ⟨inside, place⟩ := mem_of_attribute? found
  have inferred := sound.inferred between inside
  rw [place, ← here] at inferred
  exact not_below_vendor sound member holds inferred

theorem enclosingType?_inside_vendor (sound : table.Sound) {path : TypePath}
    {parent : AttributeDefinition} (above : table.attribute? path = some parent)
    (holds : parent.dataType = .vsa ∨ parent.dataType = .evs) (vendor octet : UInt32) :
    table.enclosingType? (path.append [vendor, octet]) 1 = none := by
  apply Option.eq_none_iff_forall_ne_some.mpr
  intro type enclosed
  obtain ⟨between, other, higher, listed, -⟩ := enclosingType?_eq_some_iff.mp enclosed
  obtain ⟨segments, counted, joined⟩ := TypePath.ancestor?_eq_some_iff.mp higher
  obtain ⟨segment, rfl⟩ := List.length_eq_one_iff.mp counted
  change between.child segment = _ at joined
  rw [TypePath.append_pair, TypePath.child_inj] at joined
  rw [joined.1, attribute?_below_vendor sound above holds] at listed
  contradiction

theorem carrier_inside (sound : table.Sound) {path : TypePath}
    {parent definition : AttributeDefinition} {container : Container}
    (above : table.attribute? path = some parent)
    (typed : parent.dataType = container.dataType)
    (found : table.attribute? (path.append container.segments) = some definition) :
    definition.carrier = container.innerCarrier := by
  obtain ⟨member, here⟩ := mem_of_attribute? found
  have inferred := sound.inferred definition member
  rw [here] at inferred
  have enclosing : table.enclosingType? (path.append container.segments)
      container.segments.length = some container.dataType :=
    enclosingType?_eq_some_iff.mpr ⟨path, parent,
      TypePath.ancestor?_eq_some_iff.mpr ⟨container.segments, rfl, rfl⟩, above, typed⟩
  have below : (path.append container.segments).isTopLevel = false := by
    cases container <;> simp [Container.segments, TypePath.append, TypePath.isTopLevel]
  rcases inferCarrier_eq_ok_iff.mp inferred with ⟨top, -⟩ | ⟨-, -, -, encloses⟩
  · rw [below] at top
    contradiction
  · -- a vendor container has nothing one segment below it, so what is two below is a vendor attribute
    have apart := enclosingType?_inside_vendor sound above
    generalize definition.carrier = carrier at encloses ⊢
    cases container with
    | extended octet payload =>
        cases encloses with
        | extended above => rfl
        | longExtended above =>
            exact absurd (enclosing.symm.trans above) (by simp [Container.dataType])
        | vendorSpecific unextended unlong above => exact absurd enclosing unextended
    | longExtended octet more truncated payload =>
        cases encloses with
        | extended above =>
            exact absurd (enclosing.symm.trans above) (by simp [Container.dataType])
        | longExtended above => rfl
        | vendorSpecific unextended unlong above => exact absurd enclosing unlong
    | vsa vendor octet payload =>
        cases encloses with
        | extended above => exact absurd ((apart (.inl typed) _ _).symm.trans above) (by simp)
        | longExtended above => exact absurd ((apart (.inl typed) _ _).symm.trans above) (by simp)
        | vendorSpecific unextended unlong above => rfl
    | evs vendor octet payload =>
        cases encloses with
        | extended above => exact absurd ((apart (.inr typed) _ _).symm.trans above) (by simp)
        | longExtended above => exact absurd ((apart (.inr typed) _ _).symm.trans above) (by simp)
        | vendorSpecific unextended unlong above => rfl

theorem layered_of_reachable (reachable : table.Reachable) : table.toDictionary.Layered := by
  have sound := sound_of_reachable reachable
  refine ⟨?_, ?_, ?_, ?_⟩
  · intro path definition found
    have leaf := sound.leaves definition (List.mem_of_find?_eq_some found)
    rintro long
    rw [long] at leaf
    contradiction
  · intro path definition found top
    obtain ⟨member, rfl⟩ := mem_of_attribute? found
    rcases inferCarrier_eq_ok_iff.mp (sound.inferred definition member) with
      ⟨-, carried⟩ | ⟨nested, -⟩
    · exact carried
    · rw [top] at nested
      contradiction
  · intro path definition found nested
    obtain ⟨member, rfl⟩ := mem_of_attribute? found
    rcases inferCarrier_eq_ok_iff.mp (sound.inferred definition member) with
      ⟨top, -⟩ | ⟨-, unlong, unjoined, encloses⟩
    · rw [nested] at top
      contradiction
    · refine ⟨?_, unlong, unjoined⟩
      generalize definition.carrier = carrier at encloses
      cases encloses <;> rfl
  · intro path parent definition container above typed found
    exact carrier_inside sound above typed found

def deepVendorString : AttributeDefinition :=
  ⟨⟨245, [26, 9, 1]⟩, "Deep-Vendor-String", .string, .vendorSpecific, none⟩

def deepVendor : DefinitionTable := standard.insertAttribute deepVendorString

theorem reachable_deepVendor : deepVendor.Reachable := by
  have defined : standard.defineAttribute ⟨245, [26, 9, 1]⟩ "Deep-Vendor-String" .string none =
      .ok deepVendorString := by decide +kernel
  exact .addAttribute .standard (addAttribute_eq_ok defined)

end DefinitionTable

end Radius

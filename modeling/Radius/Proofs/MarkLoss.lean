import Radius.Proofs.MissingTag
import Radius.Proofs.Received
import Radius.Proofs.SentForm

/-!
Records that were received go out again as they came in, apart from one flag. Without filters, and
with values in pieces as they are sent here, every octet comes back, unless a long extended value
that is marked as cut short is opened as far as a vendor attribute: that one has no place for the
mark, so the container built around it is not marked.
-/

namespace Radius

namespace Container

def markTruncated (mark : Bool) : Container → Container
  | .longExtended extendedType more _ payload => .longExtended extendedType more mark payload
  | other => other

theorem markTruncated_of_ne {container : Container} (unlong : container.dataType ≠ .longExtended)
    (mark : Bool) : container.markTruncated mark = container := by
  cases container with
  | longExtended extendedType more truncated payload => exact absurd rfl unlong
  | _ => rfl

theorem markTruncated_truncated (container : Container) :
    container.markTruncated container.truncated = container := by
  cases container <;> rfl

variable (mark : Bool) (container : Container)

theorem payload_markTruncated : (container.markTruncated mark).payload = container.payload := by
  cases container <;> rfl

theorem segments_markTruncated : (container.markTruncated mark).segments = container.segments := by
  cases container <;> rfl

theorem innerCarrier_markTruncated :
    (container.markTruncated mark).innerCarrier = container.innerCarrier := by
  cases container <;> rfl

theorem more_markTruncated : (container.markTruncated mark).more = container.more := by
  cases container <;> rfl

end Container

namespace Attribute

def marked : Attribute → Bool
  | .standard _ (.container container) => container.truncated
  | entry => entry.truncated

/-- Marks the attribute, or the container that is its value, where there is a place for the mark. -/
def remark (mark : Bool) : Attribute → Attribute
  | .standard type (.container container) => .standard type (.container (container.markTruncated mark))
  | entry => entry.markTruncated mark

theorem remark_marked (entry : Attribute) : entry.remark entry.marked = entry := by
  cases entry with
  | standard type value =>
      cases value with
      | container container => simp only [remark, marked, container.markTruncated_truncated]
      | _ => rfl
  | _ => rfl

theorem remark_marked_remark (mark : Bool) (entry : Attribute) :
    entry.remark (entry.remark mark).marked = entry.remark mark := by
  cases entry with
  | standard type value =>
      cases value with
      | container container => cases container <;> rfl
      | _ => rfl
  | _ => rfl

theorem marked_remark_false (entry : Attribute) : (entry.remark false).marked = false := by
  cases entry with
  | standard type value =>
      cases value with
      | container container => cases container <;> rfl
      | _ => rfl
  | _ => rfl

theorem path_remark (mark : Bool) (entry : Attribute) : (entry.remark mark).path = entry.path := by
  cases entry with
  | standard type value => cases value <;> rfl
  | _ => rfl

end Attribute

namespace Lifting

section Trail

variable {exchange : Exchange} {dictionary : Dictionary} {outer inner top final : Attribute}
  {definition parent : AttributeDefinition} {value : Value} {container : Container}

theorem standard_of_long (layered : dictionary.Layered)
    (received : Received exchange dictionary outer parent (.container container))
    (long : container.dataType = .longExtended) :
    ∃ type, outer = .standard type (.container container) ∧ parent.carrier = .fragmented ∧
      dictionary.attribute? (.topLevel type) = some parent := by
  obtain ⟨fresh, truncated, made, rfl⟩ := received.built.made
  have typed : container.dataType = parent.dataType := AttributeDefinition.dataType_of_make made
  have known := received.known
  rw [received.built.path_eq] at known
  cases place : parent.path.isTopLevel with
  | false => exact absurd (typed.symm.trans long) (layered.nested known place).2.1
  | true =>
      have carried := layered.top known place
      rw [← typed, long] at carried
      rw [(TypePath.isTopLevel_iff _).mp place] at known
      cases container with
      | longExtended extendedType more old payload =>
          rw [make_long layered known carried] at made
          cases made
          exact ⟨_, rfl, carried, known⟩
      | _ => contradiction

theorem make_remark (layered : dictionary.Layered)
    (received : Received exchange dictionary outer parent (.container container)) {mark : Bool}
    (unmarked : container.dataType ≠ .longExtended → mark = false) :
    parent.make (.container (container.markTruncated mark)) = .ok (outer.remark mark) := by
  by_cases long : container.dataType = .longExtended
  · obtain ⟨type, rfl, carried, known⟩ := standard_of_long layered received long
    cases container with
    | longExtended extendedType more truncated payload => exact make_long layered known carried ..
    | _ => contradiction
  · obtain ⟨fresh, truncated, made, rfl⟩ := received.built.made
    rw [Container.markTruncated_of_ne long, unmarked long, made]
    cases parent.shapes_of_make made with
    | standard carried =>
        simp only [Attribute.markTruncated, Attribute.remark,
          Container.markTruncated_of_ne long]
    | concat carried same => contradiction
    | _ => rfl

theorem fits_of_received (layered : dictionary.Layered)
    (received : Received exchange dictionary outer parent (.container container)) :
    container.Fits := by
  by_cases long : container.dataType = .longExtended
  · cases container with
    | longExtended extendedType more truncated payload => trivial
    | _ => contradiction
  · have encodes : parent.carrier.encodes = true := by
      have typed : container.dataType = parent.dataType := received.built.dataType_eq
      have known := received.known
      cases place : outer.path.isTopLevel with
      | false => exact Carrier.encodes_of_isNested (layered.nested known place).1
      | true =>
          rw [layered.top known place, ← typed]
          cases container <;> first | rfl | contradiction
    obtain ⟨octets, reads⟩ := received.reads encodes
    have undivided := undivided_of_encodes layered received.known encodes
    have again :=
      (AttributeDefinition.decodePlain?_octets_of_decodeValue layered.trees undivided.1 reads).2
    exact Value.fits_of_decode? again

theorem shapes_of_opens (layered : dictionary.Layered)
    (received : Received exchange dictionary outer parent (.container container))
    (opens : Opens exchange dictionary outer inner) :
    ∃ definition value fresh, dictionary.attribute? inner.path = some definition ∧
      definition.Shapes value fresh ∧ inner = fresh.markTruncated container.truncated ∧
      definition.carrier = container.innerCarrier ∧ definition.carrier.isNested = true := by
  have ⟨found, held, place⟩ := path_of_opens opens
  obtain ⟨holds, known, nested, reads, made⟩ := opens
  cases held.symm.trans holds
  cases held.symm.trans received.built.value?_eq
  have carried := layered.inside received.known received.built.dataType_eq.symm known
  exact ⟨_, _, _, place ▸ known, AttributeDefinition.shapes_of_make made, rfl, carried, nested⟩

theorem remark_of_opens (layered : dictionary.Layered)
    (received : Received exchange dictionary outer parent (.container container))
    (opens : Opens exchange dictionary outer inner)
    (known : dictionary.attribute? inner.path = some definition) (mark : Bool) :
    (inner.remark mark).value? = inner.value? ∧
      (inner.remark mark).truncated = (inner.remark mark).marked ∧
      definition.carrier = container.innerCarrier ∧
      (container.dataType ≠ .longExtended → (inner.remark mark).marked = false) := by
  obtain ⟨found, value, fresh, listed, shapes, rfl, carried, nested⟩ :=
    shapes_of_opens layered received opens
  cases known.symm.trans listed
  cases shapes with
  | standard flat => rcases flat with flat | flat <;> rw [flat] at nested <;> contradiction
  | concat flat same =>
      rw [flat] at nested
      contradiction
  | extended inside octet deep => exact ⟨rfl, rfl, carried, fun _ => rfl⟩
  | vendorSpecific inside above vendor octet => exact ⟨rfl, rfl, carried, fun _ => rfl⟩
  | longExtended inside octet deep =>
      refine ⟨rfl, rfl, carried, ?_⟩
      intro unlong
      rw [inside] at carried
      cases container <;> contradiction

theorem lowers_of_opens (layered : dictionary.Layered)
    (received : ∃ parent value, Received exchange dictionary outer parent value)
    (opens : Opens exchange dictionary outer inner)
    (clear : ∀ definition, dictionary.attribute? inner.path = some definition →
      definition.filter = none)
    {mark : Bool} {source rest : Entropy} {records : List Record}
    (above : Lowering.Lowers exchange dictionary (outer.remark (inner.remark mark).marked) source
      records rest) :
    Lowering.Lowers exchange dictionary (inner.remark mark) source records rest := by
  obtain ⟨parent, value, received⟩ := received
  obtain ⟨container, encloses, place⟩ := path_of_opens opens
  cases received.built.value?_eq.symm.trans encloses
  obtain ⟨definition, value, inside⟩ := received_of_opens layered opens
  have holds := inside.built.value?_eq
  have unfiltered := clear definition inside.known
  obtain ⟨typed, written⟩ := octets_of_opens layered opens encloses inside.known unfiltered holds
  obtain ⟨kept, shown, carried, unmarked⟩ :=
    remark_of_opens layered received opens inside.known mark
  have nested : definition.carrier.isNested = true := by
    rw [carried, container.isNested_innerCarrier]
  have inner_path := dictionary.path_of_attribute? inside.known
  have again : Lowering.Encloses dictionary definition (inner.remark mark).truncated
      container.payload parent (container.markTruncated (inner.remark mark).marked)
      (outer.remark (inner.remark mark).marked) := by
    refine ⟨?_, make_remark layered received unmarked, ?_, container.payload_markTruncated _, ?_,
      ?_, ?_, ?_⟩
    · rw [Attribute.path_remark]
      exact received.known
    · have fits := fits_of_received layered received
      cases container with
      | longExtended extendedType more truncated payload => trivial
      | _ => exact fits
    · rw [container.segments_markTruncated, Attribute.path_remark, ← place]
      exact (dictionary.path_of_attribute? inside.known).symm
    · rw [container.innerCarrier_markTruncated, carried]
    · rw [shown, carried]
      cases container <;> rfl
    · rw [container.more_markTruncated]
      exact received.whole
  exact .enclosed (kept.trans holds) (by rw [Attribute.path_remark]; exact inside.known) nested
    ((AttributeDefinition.encodeValue_clear unfiltered).mpr ⟨typed, written.symm, rfl⟩)
    (Lowering.enclose_of_encloses again) above

theorem marked_remark_of_opens (layered : dictionary.Layered)
    (received : ∃ parent value, Received exchange dictionary outer parent value)
    (opens : Opens exchange dictionary outer inner) (mark : Bool) :
    (outer.remark (inner.remark mark).marked).marked = (inner.remark mark).marked := by
  obtain ⟨parent, value, received⟩ := received
  obtain ⟨container, encloses, place⟩ := path_of_opens opens
  cases received.built.value?_eq.symm.trans encloses
  obtain ⟨definition, value, inside⟩ := received_of_opens layered opens
  obtain ⟨-, -, -, unmarked⟩ := remark_of_opens layered received opens inside.known mark
  -- only a long extended container can show the mark, and only at the top
  by_cases long : container.dataType = .longExtended
  · obtain ⟨type, rfl, -, -⟩ := standard_of_long layered received long
    cases container with
    | longExtended extendedType more truncated payload => rfl
    | _ => contradiction
  · rw [unmarked long]
    exact outer.marked_remark_false

theorem lowers_of_reaches (layered : dictionary.Layered) {group : List Record}
    (arrives : Arrives exchange dictionary group top)
    (clear : ∀ path definition, path.head = top.path.head →
      dictionary.attribute? path = some definition → definition.filter = none)
    (reached : Reaches exchange dictionary top final) {mark : Bool} {source rest : Entropy}
    {records : List Record}
    (above : Lowering.Lowers exchange dictionary (top.remark (final.remark mark).marked) source
      records rest) :
    Lowering.Lowers exchange dictionary (final.remark mark) source records rest := by
  -- the mark that is left at the end is the one that every container around it is built with
  induction reached generalizing mark with
  | refl => rwa [Attribute.remark_marked_remark] at above
  | @tail outer inner trail opens ih =>
      have received := received_of_reaches layered arrives trail
      apply lowers_of_opens layered received opens
      · intro definition known
        exact clear inner.path definition (head_of_reaches (trail.tail opens)) known
      · apply ih
        rwa [marked_remark_of_opens layered received opens]

theorem eq_top_of_depth (trail : Reaches exchange dictionary top outer)
    (shallow : outer.path.depth = 1) : outer = top := by
  rcases Relation.ReflTransGen.cases_tail trail with same | ⟨before, -, opens⟩
  · exact same
  · obtain ⟨container, -, place⟩ := path_of_opens opens
    have segments := List.length_pos_iff.mpr container.segments_ne_nil
    have above := before.path.depth_pos
    rw [place, TypePath.depth_append] at shallow
    omega

theorem unmarked_of_extended {extendedType : UInt8} {payload : Octets}
    (holds : top.value? = some (.container (.extended extendedType payload)))
    (shallow : top.path.depth = 1) : top.marked = false := by
  cases top with
  | standard type value =>
      cases holds
      rfl
  | longExtended type octet truncated value =>
      simp [Attribute.path, TypePath.topLevel, TypePath.child, TypePath.append, TypePath.depth]
        at shallow
  | _ => rfl

/-- A vendor attribute has no place for the mark; all others keep it. -/
theorem marked_of_reaches (layered : dictionary.Layered) {group : List Record}
    (arrives : Arrives exchange dictionary group top)
    (reached : Reaches exchange dictionary top final) :
    (final.kind = .vendorSpecific ∧ final.marked = false) ∨
      (final.kind ≠ .vendorSpecific ∧ final.marked = top.marked) := by
  rcases Relation.ReflTransGen.cases_tail reached with rfl | ⟨outer, trail, opens⟩
  · -- a vendor attribute stands deeper than the top
    refine .inr ⟨?_, rfl⟩
    obtain ⟨record, others, -, place, -⟩ := front_of_arrives arrives
    intro vendor
    cases final with
    | vendorSpecific parent number octet value =>
        simp [Attribute.path, TypePath.append, TypePath.topLevel] at place
    | _ => contradiction
  · obtain ⟨container, held, place⟩ := path_of_opens opens
    obtain ⟨parent, value, received⟩ := received_of_reaches layered arrives trail
    cases received.built.value?_eq.symm.trans held
    -- extended attributes stand one segment below the top, so nothing was opened before them
    have shallow : final.path.depth = 2 → outer = top := by
      intro two
      apply eq_top_of_depth trail
      have segments := List.length_pos_iff.mpr container.segments_ne_nil
      have above := outer.path.depth_pos
      rw [place, TypePath.depth_append] at two
      omega
    obtain ⟨definition, opened, fresh, -, shapes, rfl, carried, nested⟩ :=
      shapes_of_opens layered received opens
    cases shapes with
    | standard flat => rcases flat with flat | flat <;> rw [flat] at nested <;> contradiction
    | concat flat same =>
        rw [flat] at nested
        contradiction
    | vendorSpecific inside above vendor octet => exact .inl ⟨rfl, rfl⟩
    | extended inside octet deep =>
        obtain rfl := shallow rfl
        rw [inside] at carried
        refine .inr ⟨by simp [Attribute.kind, Attribute.markTruncated], ?_⟩
        cases container with
        | extended extendedType payload =>
            obtain ⟨record, others, -, topPath, -⟩ := front_of_arrives arrives
            exact (unmarked_of_extended held (by rw [topPath]; rfl)).symm
        | _ => contradiction
    | longExtended inside octet deep =>
        obtain rfl := shallow rfl
        rw [inside] at carried
        refine .inr ⟨by simp [Attribute.kind, Attribute.markTruncated], ?_⟩
        cases container with
        | longExtended extendedType more truncated payload =>
            obtain ⟨type, rfl, -, -⟩ := standard_of_long layered received rfl
            rfl
        | _ => contradiction

end Trail

section Top

variable {exchange : Exchange} {dictionary : Dictionary} {group : List Record} {top : Attribute}

theorem mapM_make_values {type : UInt8} (alike : ∀ record ∈ group, record.type = type) :
    (group.map Record.value).mapM (Record.make type) = .ok group := by
  rw [Result.mapM_eq_ok_iff, List.forall₂_map_left_iff, List.forall₂_same]
  intro record member
  exact Record.make_eq_ok_iff.mpr ⟨alike record member, rfl⟩

theorem unmarked_of_make {definition : AttributeDefinition} {value : Value}
    (carried : definition.carrier = .standard) (unlong : definition.dataType ≠ .longExtended)
    (made : definition.make value = .ok top) (mark : Bool) :
    top.remark mark = top ∧ top.marked = false := by
  rw [← AttributeDefinition.dataType_of_make made] at unlong
  cases AttributeDefinition.shapes_of_make made with
  | standard flat =>
      cases value with
      | container container =>
          refine ⟨?_, ?_⟩
          · simp only [Attribute.remark, Container.markTruncated_of_ne unlong]
          · cases container with
            | longExtended extendedType more truncated payload => contradiction
            | _ => rfl
      | _ => exact ⟨rfl, rfl⟩
  | concat other same =>
      rw [carried] at other
      contradiction
  | extended other octet deep =>
      rw [carried] at other
      contradiction
  | longExtended other octet deep =>
      rw [carried] at other
      contradiction
  | vendorSpecific other above vendor octet =>
      rw [carried] at other
      contradiction

theorem lowers_standard (layered : dictionary.Layered) {definition : AttributeDefinition}
    {value : Value} {record : Record}
    (known : dictionary.attribute? (.topLevel record.type) = some definition)
    (carried : definition.carrier = .standard) (clear : definition.filter = none)
    (reads : definition.decodeValue exchange dictionary record.value = .ok (some value))
    (made : definition.make value = .ok top) (source : Entropy) :
    Lowering.Lowers exchange dictionary top source [record] source := by
  have undivided := undivided_of_encodes layered known (by rw [carried]; rfl)
  obtain ⟨typed, spelled⟩ :=
    AttributeDefinition.octets_of_decodeValue_clear layered.trees undivided.1 clear reads
  have place := dictionary.path_of_make known made
  refine .standard (AttributeDefinition.value_of_make made) (place ▸ known) carried
    ((AttributeDefinition.encodeValue_clear clear).mpr ⟨typed, rfl, rfl⟩) ?_
  refine Record.make_eq_ok_iff.mpr ⟨?_, spelled.symm⟩
  rw [dictionary.path_of_attribute? known]
  rfl

theorem lowers_run {definition : AttributeDefinition} {type : UInt8}
    (known : dictionary.attribute? (.topLevel type) = some definition)
    (carried : definition.carrier = .concat) (alike : ∀ record ∈ group, record.type = type)
    (source : Entropy) :
    Lowering.Lowers exchange dictionary (.concat type ⟨group.map Record.value⟩) source group
      source := by
  refine .concat rfl known carried ?_
  rw [dictionary.path_of_attribute? known]
  exact Result.mapError_eq_ok_iff.mpr (mapM_make_values alike)

/-- An attribute at the top that keeps its mark, or has lost it, is sent in the records it arrived
with, up to the mark. -/
theorem resent_of_arrives (layered : dictionary.Layered)
    (arrives : Arrives exchange dictionary group top)
    (clear : ∀ definition, dictionary.attribute? top.path = some definition →
      definition.filter = none)
    (sent : AllAsSent dictionary group) (mark : Bool) (kept : mark = top.marked ∨ mark = false) :
    ∃ again,
      (∀ source, Lowering.Lowers exchange dictionary (top.remark mark) source again source) ∧
      List.Forall₂ Record.SameButMark group again ∧ (again = group ↔ mark = top.marked) := by
  have unchanged : List.Forall₂ Record.SameButMark group group :=
    List.forall₂_same.mpr fun _ _ => .inl rfl
  cases arrives with
  | @standard record definition top known carried read =>
      obtain ⟨value, reads, made⟩ := AttributeDefinition.decodeAttribute_eq_some_iff.mp read
      have unfiltered := clear definition (dictionary.path_of_make known made ▸ known)
      have undivided := undivided_of_encodes layered known (by rw [carried]; rfl)
      obtain ⟨same, unmarked⟩ := unmarked_of_make carried undivided.1 made mark
      rw [unmarked, or_self] at kept
      rw [same, unmarked]
      exact ⟨[record], lowers_standard layered known carried unfiltered reads made, unchanged,
        by simp [kept]⟩
  | @joined record others definition extendedType pieces known carried chain =>
      have form := sent record.type extendedType definition _ pieces [] known carried
        List.infix_rfl (chain [])
      obtain ⟨again, made, alike, same⟩ := resent_pieces (chain []) form mark kept
      refine ⟨again, ?_, alike, same⟩
      intro source
      refine .fragmented rfl known carried ?_
      rw [dictionary.path_of_attribute? known]
      refine Result.mapError_eq_ok_iff.mpr ?_
      unfold Lowering.fragments
      rw [split_of_asSent (chain []) form]
      exact made
  | @run record others definition known carried alike =>
      have typed : ∀ other ∈ record :: others, other.type = record.type := by
        intro other member
        rcases List.mem_cons.mp member with rfl | inside
        · rfl
        · exact alike other inside
      have unmarked : mark = false := by
        rcases kept with same | lost
        · exact same
        · exact lost
      refine ⟨record :: others, lowers_run known carried typed, unchanged, ?_⟩
      rw [unmarked]
      exact iff_of_true rfl rfl

theorem resent_of_reaches (layered : dictionary.Layered) {final : Attribute}
    (arrives : Arrives exchange dictionary group top)
    (clear : ∀ path definition, path.head = top.path.head →
      dictionary.attribute? path = some definition → definition.filter = none)
    (sent : AllAsSent dictionary group) (reached : Reaches exchange dictionary top final) :
    ∃ again, (∀ source, Lowering.Lowers exchange dictionary final source again source) ∧
      List.Forall₂ Record.SameButMark group again ∧
      (again = group ↔ ¬(top.marked = true ∧ final.kind = .vendorSpecific)) := by
  have marks := marked_of_reaches layered arrives reached
  have kept : final.marked = top.marked ∨ final.marked = false := by
    rcases marks with ⟨-, lost⟩ | ⟨-, same⟩
    · exact .inr lost
    · exact .inl same
  obtain ⟨again, above, alike, same⟩ := resent_of_arrives layered arrives
    (fun definition known => clear top.path definition rfl known) sent final.marked kept
  refine ⟨again, ?_, alike, ?_⟩
  · intro source
    rw [← final.remark_marked]
    apply lowers_of_reaches layered arrives clear reached
    rw [final.remark_marked]
    exact above source
  · rw [same]
    rcases marks with ⟨vendor, lost⟩ | ⟨other, held⟩
    · rw [lost, vendor]
      cases top.marked <;> simp
    · simp [held, other]

end Top

section Run

variable {exchange : Exchange} {dictionary : Dictionary} {records group rest : List Record}
  {top : Attribute} {promoted : List Attribute}

/-- A marked value among those of the first pass is opened as far as a vendor attribute. -/
def MarkLost (exchange : Exchange) (dictionary : Dictionary) (promoted : List Attribute) : Prop :=
  ∃ top ∈ promoted, top.marked = true ∧
    ∃ final, expand exchange dictionary top = .ok final ∧ final.kind = .vendorSpecific

theorem markLost_kept_iff {kept : List Record} {others : List Attribute} :
    MarkLost exchange dictionary (kept.map .raw ++ others) ↔ MarkLost exchange dictionary others := by
  constructor
  · rintro ⟨top, member, marked, opened⟩
    rcases List.mem_append.mp member with front | behind
    · obtain ⟨record, -, rfl⟩ := List.mem_map.mp front
      contradiction
    · exact ⟨top, behind, marked, opened⟩
  · rintro ⟨top, member, marked, opened⟩
    exact ⟨top, List.mem_append_right _ member, marked, opened⟩

theorem markLost_cons_iff {final : Attribute} {others : List Attribute}
    (expanded : expand exchange dictionary top = .ok final) :
    MarkLost exchange dictionary (top :: others) ↔
      (top.marked = true ∧ final.kind = .vendorSpecific) ∨
        MarkLost exchange dictionary others := by
  constructor
  · rintro ⟨found, member, marked, last, opened, vendor⟩
    rcases List.mem_cons.mp member with rfl | behind
    · cases expanded.symm.trans opened
      exact .inl ⟨marked, vendor⟩
    · exact .inr ⟨found, behind, marked, last, opened, vendor⟩
  · rintro (⟨marked, vendor⟩ | ⟨found, member, marked, opened⟩)
    · exact ⟨top, List.mem_cons_self, marked, final, expanded, vendor⟩
    · exact ⟨found, List.mem_cons_of_mem top member, marked, opened⟩

theorem exists_expand_of_clear
    (clear : ∀ path definition, path.head = top.path.head →
      dictionary.attribute? path = some definition → definition.filter = none) :
    ∃ final, expand exchange dictionary top = .ok final := by
  cases expanded : expand exchange dictionary top with
  | ok final => exact ⟨final, rfl⟩
  | error fault =>
      obtain ⟨inner, reached, stuck⟩ := expand_eq_error_iff.mp expanded
      obtain ⟨-, container, definition, -, known, -, needs, -⟩ := openOnce_eq_error_iff.mp stuck
      exact absurd (clear (inner.path.append container.segments) definition
        (head_of_reaches reached) known) needs.1

theorem AllAsSent.of_infix {part : List Record} (sent : AllAsSent dictionary records)
    (inside : part <:+: records) : AllAsSent dictionary part := by
  intro type extendedType definition group pieces rest known carried found chain
  exact sent type extendedType definition group pieces rest known carried (found.trans inside) chain

/-- The run of receiving and sending: group by group, the records come back up to their marks. -/
theorem resent_of_promotes (layered : dictionary.Layered)
    (clear : ∀ record ∈ records, ∀ path definition, path.head = record.type →
      dictionary.attribute? path = some definition → definition.filter = none)
    (sent : AllAsSent dictionary records) (promotes : Promotes exchange dictionary records promoted)
    (source : Entropy) :
    ∃ entries again,
      List.Forall₂ (fun top entry => expand exchange dictionary top = .ok entry) promoted entries ∧
      lowerAll exchange dictionary entries source = (.ok again, source) ∧
      List.Forall₂ Record.SameButMark records again ∧
      (again = records ↔ ¬MarkLost exchange dictionary promoted) := by
  -- without filters nothing is taken from the random source, so it stays the same throughout
  induction promotes with
  | nil =>
      exact ⟨[], [], .nil, Lowering.lowerAll_nil_eq_ok_iff.mpr ⟨rfl, rfl⟩, .nil,
        by simp [MarkLost]⟩
  | @group group rest settled others settles later ih =>
      obtain ⟨entries, again, expanded, lowered, alike, same⟩ :=
        ih (fun record member => clear record (List.mem_append_right group member))
          (sent.of_infix (List.suffix_append ..).isInfix)
      rcases kept_or_arrives settles with ⟨rfl, -⟩ | ⟨top, rfl, arrives, -⟩
      · refine ⟨group.map .raw ++ entries, group ++ again,
          forall₂_expand_kept.mpr ⟨entries, rfl, expanded⟩,
          Lowering.lowerAll_kept_eq_ok_iff.mpr ⟨again, lowered, rfl⟩,
          List.rel_append (List.forall₂_same.mpr fun _ _ => .inl rfl) alike, ?_⟩
        rw [List.append_cancel_left_eq, same, markLost_kept_iff]
      · obtain ⟨record, members, rfl, place, -⟩ := front_of_arrives arrives
        have clearTop : ∀ path definition, path.head = top.path.head →
            dictionary.attribute? path = some definition → definition.filter = none := by
          intro path definition head known
          rw [place] at head
          exact clear record (List.mem_append_left rest List.mem_cons_self) path definition head known
        obtain ⟨final, opened⟩ : ∃ final, expand exchange dictionary top = .ok final :=
          exists_expand_of_clear clearTop
        obtain ⟨reached, -⟩ := expand_eq_ok_iff.mp opened
        obtain ⟨front, lowers, alikeFront, sameFront⟩ := resent_of_reaches layered arrives clearTop
          (sent.of_infix (List.prefix_append ..).isInfix) reached
        refine ⟨final :: entries, front ++ again, .cons opened expanded,
          Lowering.lowerAll_cons_eq_ok_iff.mpr ⟨front, source, again, lowers source, lowered, rfl⟩,
          List.rel_append alikeFront alike, ?_⟩
        rw [List.singleton_append, markLost_cons_iff opened, not_or, ← same, ← sameFront]
        constructor
        · intro joined
          exact List.append_inj joined alikeFront.length_eq.symm
        · rintro ⟨front, behind⟩
          rw [front, behind]

end Run

end Lifting

/-- Sending undoes receiving up to marks: without filters, and with values in pieces as they are
sent, all records come back with their types, boundaries and octets, and they are the same ones
exactly if no marked value was opened as far as a vendor attribute. -/
theorem lowerAll_liftAll {table : DefinitionTable} (reachable : table.Reachable)
    {exchange : Exchange} {records : List Record}
    (clear : ∀ record ∈ records, ∀ definition ∈ table.attributes,
      definition.path.head = record.type → definition.filter = none)
    (sent : Lifting.AllAsSent table.toDictionary records) (source : Entropy) :
    ∃ promoted entries again,
      Lifting.promoteAll exchange table.toDictionary (records.map .raw) = .ok promoted ∧
      liftAll exchange table.toDictionary records = .ok entries ∧
      lowerAll exchange table.toDictionary entries source = (.ok again, source) ∧
      List.Forall₂ Record.SameButMark records again ∧
      (again = records ↔ ¬Lifting.MarkLost exchange table.toDictionary promoted) := by
  have layered := DefinitionTable.layered_of_reachable reachable
  have unfiltered : ∀ record ∈ records, ∀ path definition, path.head = record.type →
      table.toDictionary.attribute? path = some definition → definition.filter = none := by
    intro record member path definition head known
    obtain ⟨inside, here⟩ := DefinitionTable.mem_of_attribute? known
    exact clear record member definition inside (here ▸ head)
  cases settled : Lifting.promoteAll exchange table.toDictionary (records.map .raw) with
  | error fault =>
      obtain ⟨-, record, member, definition, known, -, needs, -⟩ :=
        (Lifting.promoteAll_eq_error_iff layered).mp settled
      exact absurd (unfiltered record member _ definition rfl known) needs.1
  | ok promoted =>
      obtain ⟨entries, again, expanded, lowered, alike, same⟩ := Lifting.resent_of_promotes layered
        unfiltered sent ((Lifting.promoteAll_eq_ok_iff layered).mp settled) source
      refine ⟨promoted, entries, again, rfl, ?_, lowered, alike, same⟩
      unfold liftAll
      rw [settled]
      exact Result.mapM_eq_ok_iff.mpr expanded

def cutVendorRecords (flags : UInt8) : List Record :=
  [⟨245, [26, 0x80, 0, 0, 0, 9, 1] ++ List.replicate 246 0xAA, by decide +kernel⟩,
    ⟨245, [26, flags, 0xBB], by simp [maxRecordValue]⟩]

theorem allAsSent_cutVendorRecords :
    Lifting.AllAsSent DefinitionTable.deepVendor.toDictionary (cutVendorRecords 0x40) := by
  intro type extendedType definition group pieces rest known carried inside chain
  simp only [cutVendorRecords, List.infix_cons_iff, List.prefix_cons_iff, List.infix_nil,
    List.prefix_nil] at inside
  rcases inside with (rfl | ⟨_, rfl, (rfl | ⟨_, rfl, rfl⟩)⟩) | (rfl | ⟨_, rfl, rfl⟩) | rfl <;>
    exact ⟨by decide +kernel, by decide +kernel, by decide +kernel, by decide +kernel⟩

theorem clear_cutVendorRecords :
    ∀ record ∈ cutVendorRecords 0x40, ∀ definition ∈ DefinitionTable.deepVendor.attributes,
      definition.path.head = record.type → definition.filter = none := by
  decide +kernel

/-- The mark does not come back. -/
theorem resent_cutVendorRecords :
    DefinitionTable.deepVendor.Reachable ∧
      (∀ record ∈ cutVendorRecords 0x40, ∀ definition ∈ DefinitionTable.deepVendor.attributes,
        definition.path.head = record.type → definition.filter = none) ∧
      Lifting.AllAsSent DefinitionTable.deepVendor.toDictionary (cutVendorRecords 0x40) ∧
      ∃ entries rest,
        liftAll .sample DefinitionTable.deepVendor.toDictionary (cutVendorRecords 0x40) =
          .ok entries ∧
        lowerAll .sample DefinitionTable.deepVendor.toDictionary entries (Entropy.cycle []) =
          (.ok (cutVendorRecords 0), rest) ∧
        cutVendorRecords 0 ≠ cutVendorRecords 0x40 := by
  obtain ⟨entries, rest, lifted, lowered⟩ : ∃ entries rest,
      liftAll .sample DefinitionTable.deepVendor.toDictionary (cutVendorRecords 0x40) =
        .ok entries ∧
      lowerAll .sample DefinitionTable.deepVendor.toDictionary entries (Entropy.cycle []) =
        (.ok (cutVendorRecords 0), rest) :=
    exists_entries_of_resent (by decide +kernel)
  exact ⟨DefinitionTable.reachable_deepVendor, clear_cutVendorRecords, allAsSent_cutVendorRecords,
    entries, rest, lifted, lowered, by decide +kernel⟩

theorem lowerAll_liftAll_cutVendorRecords :
    DefinitionTable.deepVendor.Reachable ∧
      (∀ record ∈ cutVendorRecords 0x40, ∀ definition ∈ DefinitionTable.deepVendor.attributes,
        definition.path.head = record.type → definition.filter = none) ∧
      Lifting.AllAsSent DefinitionTable.deepVendor.toDictionary (cutVendorRecords 0x40) ∧
      ∃ promoted entries again,
        Lifting.promoteAll .sample DefinitionTable.deepVendor.toDictionary
          ((cutVendorRecords 0x40).map .raw) = .ok promoted ∧
        liftAll .sample DefinitionTable.deepVendor.toDictionary (cutVendorRecords 0x40) =
          .ok entries ∧
        lowerAll .sample DefinitionTable.deepVendor.toDictionary entries (Entropy.cycle []) =
          (.ok again, Entropy.cycle []) ∧
        List.Forall₂ Record.SameButMark (cutVendorRecords 0x40) again ∧
        (again = cutVendorRecords 0x40 ↔
          ¬Lifting.MarkLost .sample DefinitionTable.deepVendor.toDictionary promoted) :=
  ⟨DefinitionTable.reachable_deepVendor, clear_cutVendorRecords, allAsSent_cutVendorRecords,
    lowerAll_liftAll DefinitionTable.reachable_deepVendor clear_cutVendorRecords
      allAsSent_cutVendorRecords (Entropy.cycle [])⟩

end Radius

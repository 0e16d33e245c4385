import Mathlib.Logic.Relation
import Radius.Attribute.Lifting
import Radius.Proofs.Lowered

/-!
Opening as a relation between a container attribute and the attribute it encloses. The second pass
opens an attribute until nothing more opens. What lowering has enclosed opens again, as long as the
enclosed value is recovered from the payload.
-/

namespace Radius

namespace Lifting

def openContainer (exchange : Exchange) (dictionary : Dictionary) (path : TypePath)
    (container : Container) : Except Fault (Option Attribute) :=
  match dictionary.attribute? (path.append container.segments) with
  | none => .ok none
  | some definition =>
      if definition.carrier.isNested then do
        let inner ← definition.decodeAttribute exchange dictionary container.payload
        return inner.map (Attribute.markTruncated container.truncated)
      else .ok none

/-- The second pass, one step, without the measure that makes the pass end. -/
def openOnce (exchange : Exchange) (dictionary : Dictionary) (entry : Attribute) :
    Except Fault (Option Attribute) :=
  match entry.value? with
  | some (.container container) => openContainer exchange dictionary entry.path container
  | _ => .ok none

section Expand

variable {exchange : Exchange} {dictionary : Dictionary} {entry inner final : Attribute}

theorem openOnce_of_container {container : Container}
    (holds : entry.value? = some (.container container)) :
    openOnce exchange dictionary entry =
      openContainer exchange dictionary entry.path container := by
  rw [openOnce, holds]

theorem openOnce_of_other (other : ∀ container, entry.value? ≠ some (.container container)) :
    openOnce exchange dictionary entry = .ok none := by
  unfold openOnce
  split
  · rename_i container holds
    exact absurd holds (other container)
  · rfl

theorem openOnce_eq_expandOnce :
    openOnce exchange dictionary entry =
      (expandOnce exchange dictionary entry).map (Option.map Subtype.val) := by
  unfold expandOnce
  split
  · rename_i container holds
    rw [openOnce_of_container holds, openContainer]
    cases known : dictionary.attribute? (entry.path.append container.segments) with
    | none => rfl
    | some definition =>
        dsimp only
        by_cases nested : definition.carrier.isNested = true
        · rw [if_pos nested, if_pos nested]
          split
          · rename_i fault read
            rw [read]
            rfl
          · rename_i read
            rw [read]
            rfl
          · rename_i found read
            simp only [read]
            rfl
        · rw [if_neg nested, if_neg nested]
          rfl
  · rename_i other
    rw [openOnce_of_other fun container holds => other container holds]
    rfl

inductive Opens (exchange : Exchange) (dictionary : Dictionary) (outer : Attribute) :
    Attribute → Prop
  | intro {container : Container} {definition : AttributeDefinition} {value : Value}
      {fresh : Attribute} (holds : outer.value? = some (.container container))
      (known : dictionary.attribute? (outer.path.append container.segments) = some definition)
      (nested : definition.carrier.isNested = true)
      (reads : definition.decodeValue exchange dictionary container.payload = .ok (some value))
      (made : definition.make value = .ok fresh) :
      Opens exchange dictionary outer (fresh.markTruncated container.truncated)

theorem opens_of_openOnce (opened : openOnce exchange dictionary entry = .ok (some inner)) :
    Opens exchange dictionary entry inner := by
  unfold openOnce at opened
  split at opened
  · rename_i container holds
    unfold openContainer at opened
    split at opened
    · cases opened
    · rename_i definition known
      split at opened
      · rename_i nested
        obtain ⟨found, read, marked⟩ := Result.bind_eq_ok_iff.mp opened
        obtain ⟨fresh, rfl, rfl⟩ := Option.map_eq_some_iff.mp (Except.ok.inj marked)
        obtain ⟨value, reads, made⟩ := AttributeDefinition.decodeAttribute_eq_some_iff.mp read
        exact .intro holds known nested reads made
      · cases opened
  · cases opened

theorem openOnce_of_opens (opens : Opens exchange dictionary entry inner) :
    openOnce exchange dictionary entry = .ok (some inner) := by
  obtain ⟨holds, known, nested, reads, made⟩ := opens
  have read := AttributeDefinition.decodeAttribute_eq_some_iff.mpr ⟨_, reads, made⟩
  rw [openOnce_of_container holds, openContainer, known]
  dsimp only
  rw [if_pos nested, read]
  rfl

theorem enclosedLength_lt_of_opens (opens : Opens exchange dictionary entry inner) :
    enclosedLength inner < enclosedLength entry := by
  have opened := openOnce_of_opens opens
  rw [openOnce_eq_expandOnce] at opened
  cases stepped : expandOnce exchange dictionary entry with
  | error fault => rw [stepped] at opened; contradiction
  | ok found =>
      rw [stepped] at opened
      obtain ⟨deeper, rfl, rfl⟩ := Option.map_eq_some_iff.mp (Except.ok.inj opened)
      exact deeper.property

def Reaches (exchange : Exchange) (dictionary : Dictionary) : Attribute → Attribute → Prop :=
  Relation.ReflTransGen (Opens exchange dictionary)

theorem expand_step :
    expand exchange dictionary entry = (do
      match ← openOnce exchange dictionary entry with
      | none => return entry
      | some inner => expand exchange dictionary inner) := by
  rw [expand, openOnce_eq_expandOnce]
  cases stepped : expandOnce exchange dictionary entry with
  | error fault => rfl
  | ok found =>
      cases found with
      | none => rfl
      | some inner => rfl

theorem expand_eq_ok_iff :
    expand exchange dictionary entry = .ok final ↔
      Reaches exchange dictionary entry final ∧ openOnce exchange dictionary final = .ok none := by
  constructor
  · intro expanded
    -- an attribute encloses fewer octets than the one it was opened from
    induction size : enclosedLength entry using Nat.strongRecOn generalizing entry with
    | ind bound ih =>
        rw [expand_step, Result.bind_eq_ok_iff] at expanded
        obtain ⟨found, opened, finished⟩ := expanded
        cases found with
        | none =>
            cases finished
            exact ⟨.refl, opened⟩
        | some inner =>
            have opens := opens_of_openOnce opened
            have smaller := enclosedLength_lt_of_opens opens
            obtain ⟨reached, closed⟩ := ih _ (size ▸ smaller) finished rfl
            exact ⟨.head opens reached, closed⟩
  · rintro ⟨reached, closed⟩
    induction reached using Relation.ReflTransGen.head_induction_on with
    | refl =>
        rw [expand_step, Result.bind_eq_ok_iff]
        exact ⟨none, closed, rfl⟩
    | head opens _ ih =>
        rw [expand_step, Result.bind_eq_ok_iff]
        exact ⟨some _, openOnce_of_opens opens, ih⟩

theorem expand_eq_error_iff {fault : Fault} :
    expand exchange dictionary entry = .error fault ↔
      ∃ inner, Reaches exchange dictionary entry inner ∧
        openOnce exchange dictionary inner = .error fault := by
  constructor
  · intro failed
    induction size : enclosedLength entry using Nat.strongRecOn generalizing entry with
    | ind bound ih =>
        rw [expand_step, Result.bind_eq_error_iff] at failed
        rcases failed with failed | ⟨found, opened, failed⟩
        · exact ⟨entry, .refl, failed⟩
        · cases found with
          | none => contradiction
          | some inner =>
              have opens := opens_of_openOnce opened
              have smaller := enclosedLength_lt_of_opens opens
              obtain ⟨last, reached, stuck⟩ := ih _ (size ▸ smaller) failed rfl
              exact ⟨last, .head opens reached, stuck⟩
  · rintro ⟨last, reached, stuck⟩
    induction reached using Relation.ReflTransGen.head_induction_on with
    | refl =>
        rw [expand_step, Result.bind_eq_error_iff]
        exact .inl stuck
    | head opens _ ih =>
        rw [expand_step, Result.bind_eq_error_iff]
        exact .inr ⟨some _, openOnce_of_opens opens, ih⟩

end Expand

section Enclosed

variable {exchange : Exchange} {dictionary : Dictionary} {entry outer : Attribute}
  {definition parent : AttributeDefinition} {value : Value} {container : Container}
  {payload : Octets}

theorem opens_of_encloses (built : entry.BuiltBy definition value)
    (known : dictionary.attribute? entry.path = some definition)
    (nested : definition.carrier.isNested = true)
    (encloses : Lowering.Encloses dictionary definition entry.truncated payload parent container
      outer)
    (reads : definition.decodeValue exchange dictionary payload = .ok (some value)) :
    Opens exchange dictionary outer entry := by
  obtain ⟨fresh, truncated, made, -⟩ := built.made
  have marked := built.eq_markTruncated made
  rw [← encloses.truncated_eq] at marked
  have place : outer.path.append container.segments = entry.path := by
    rw [encloses.path_eq, built.path_eq]
  have holds := AttributeDefinition.value_of_make encloses.made
  rw [marked]
  exact .intro holds (place ▸ known) nested (encloses.payload_eq ▸ reads) made

end Enclosed

end Lifting

end Radius

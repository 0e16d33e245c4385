import Radius.Value.Container

/-!
Values that span consecutive records of one type. The pieces are kept as they arrived, so that the
value can be sent again in the same records.
-/

namespace Radius

structure Concat where
  fragments : List Octets
deriving DecidableEq

namespace Concat

def ofFragments (fragments : List Octets) : Except AttributeError Concat :=
  if fragments.isEmpty then .error .noFragments
  else match fragments.find? fun fragment => maxRecordValue < fragment.length with
    | some long => .error (.valueTooLong long.length maxRecordValue)
    | none => .ok ⟨fragments⟩

/-- Pieces of the greatest size; an empty value is one empty piece. -/
def ofOctets (octets : Octets) : Concat :=
  if octets.isEmpty then ⟨[[]]⟩ else ⟨Octets.chunks maxRecordValue (by decide) octets⟩

def octets (value : Concat) : Octets := value.fragments.flatten

def length (value : Concat) : Nat :=
  value.fragments.foldr (fun fragment total => fragment.length + total) 0

theorem length_octets (value : Concat) : value.octets.length = value.length := by
  rw [octets, length]
  induction value.fragments with
  | nil => rfl
  | cons fragment rest ih => rw [List.flatten_cons, List.length_append, ih, List.foldr_cons]

end Concat

end Radius

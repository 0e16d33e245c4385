import Radius.AttributeError

/-!
Tags (RFC 2868) group the attributes that describe one tunnel. A tag is an octet up to 0x1F, so that
an octet above it can be told from a tag.
-/

namespace Radius

structure Tag where
  octet : UInt8
  octet_le : octet ≤ 0x1F
deriving DecidableEq

namespace Tag

def ofOctet? (octet : UInt8) : Option Tag :=
  if within : octet ≤ 0x1F then some ⟨octet, within⟩ else none

def make (octet : UInt8) : Except AttributeError Tag :=
  match ofOctet? octet with
  | some tag => .ok tag
  | none => .error (.invalidTag octet)

theorem ofOctet?_octet (tag : Tag) : ofOctet? tag.octet = some tag := by
  simp [ofOctet?, tag.octet_le]

theorem octet_of_ofOctet? {octet : UInt8} {tag : Tag} (read : ofOctet? octet = some tag) :
    tag.octet = octet := by
  unfold ofOctet? at read
  split at read
  · cases read
    rfl
  · contradiction

/-- A first octet in the tag range is a tag; any other first octet belongs to the value. -/
def splitOptional : Octets → Option Tag × Octets
  | [] => (none, [])
  | first :: rest =>
      match ofOctet? first with
      | some tag => (some tag, rest)
      | none => (none, first :: rest)

def split? : Octets → Option (Tag × Octets)
  | [] => none
  | first :: rest => (ofOctet? first).map fun tag => (tag, rest)

/-- An untagged value may not start like a tag. -/
def checkOptional (tag : Option Tag) (octets : Octets) : Except AttributeError Unit :=
  match tag, octets with
  | none, first :: _ => if first ≤ 0x1F then .error (.ambiguousTag first) else .ok ()
  | _, _ => .ok ()

end Tag

end Radius

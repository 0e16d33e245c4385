import Radius.Octets

/-!
Random octets. A source is an endless sequence of octets of which some have been drawn; whatever
needs randomness takes the next ones. A computation that may fail still keeps what it has drawn.
-/

namespace Radius

structure Entropy where
  octet : Nat → UInt8
  drawn : Nat

namespace Entropy

def draw (count : Nat) (source : Entropy) : Octets × Entropy :=
  ((List.range count).map fun index => source.octet (source.drawn + index),
    { source with drawn := source.drawn + count })

theorem length_draw (count : Nat) (source : Entropy) : (source.draw count).1.length = count := by
  simp [draw]

/-- The octets in order, over and over again; zeros if there are none. -/
def cycle (octets : Octets) : Entropy :=
  ⟨fun index => octets.getD (index % octets.length) 0, 0⟩

end Entropy

abbrev Drawing (failure value : Type) := ExceptT failure (StateM Entropy) value

namespace Drawing

def octets {failure : Type} (count : Nat) : Drawing failure Octets :=
  fun source =>
    let (drawn, rest) := source.draw count
    (.ok drawn, rest)

def ofExcept {failure value : Type} (result : Except failure value) : Drawing failure value :=
  fun source => (result, source)

def mapFailure {failure other value : Type} (rename : failure → other)
    (computation : Drawing failure value) : Drawing other value :=
  fun source =>
    let (result, rest) := computation source
    (result.mapError rename, rest)

end Drawing

end Radius

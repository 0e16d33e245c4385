/-!
Requests outside the domain of an operation. They are no answer of the protocol: a caller that sees
one has handed over octets that the operation is not defined on.
-/

namespace Radius

inductive Fault
  | tagOctetMissing
  | packetBelowHeader
  | fieldOutsidePacket
  | fieldBeyondPositions
deriving DecidableEq

end Radius

import Radius.Digest.Md5

/-!
What the two sides of an exchange share: the secret, the authenticator of the request, and the hash
that both hide values with. The response to a request uses the same exchange.
-/

namespace Radius

abbrev Authenticator := OctetField 16

structure Exchange where
  hash : Octets → Digest
  secret : Octets
  authenticator : Authenticator

end Radius

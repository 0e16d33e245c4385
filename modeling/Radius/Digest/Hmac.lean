import Radius.Digest.Md5

/-!
Keyed hashing (RFC 2104) over an arbitrary hash of sixteen octets with blocks of 64 octets, and the
instance with MD5. A key longer than a block is replaced by its hash.
-/

namespace Radius

def hmacKey (hash : Octets → Digest) (key : Octets) : Octets :=
  let short := if 64 < key.length then (hash key).octets else key
  short ++ List.replicate (64 - short.length) 0

def hmac (hash : Octets → Digest) (key message : Octets) : Digest :=
  let block := hmacKey hash key
  let inner := hash (block.map (· ^^^ 0x36) ++ message)
  hash (block.map (· ^^^ 0x5C) ++ inner.octets)

def hmacMd5 (key message : Octets) : Digest :=
  hmac md5 key message

end Radius

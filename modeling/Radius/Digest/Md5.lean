import Radius.Octets

/-!
MD5 (RFC 1321). The message is padded to whole blocks of 64 octets; each block moves a state of four
words through 64 rounds. A round rotates the state and changes one word by a mixture of the other
three, one word of the block, a constant and a left rotation.
-/

namespace Radius

abbrev Digest := OctetField 16

namespace Md5

structure State where
  a : UInt32
  b : UInt32
  c : UInt32
  d : UInt32

structure Round where
  word : Nat
  constant : UInt32
  shift : UInt32

def initial : State := ⟨0x67452301, 0xEFCDAB89, 0x98BADCFE, 0x10325476⟩

def firstRounds : List Round :=
  [⟨0, 0xD76AA478, 7⟩, ⟨1, 0xE8C7B756, 12⟩, ⟨2, 0x242070DB, 17⟩, ⟨3, 0xC1BDCEEE, 22⟩,
    ⟨4, 0xF57C0FAF, 7⟩, ⟨5, 0x4787C62A, 12⟩, ⟨6, 0xA8304613, 17⟩, ⟨7, 0xFD469501, 22⟩,
    ⟨8, 0x698098D8, 7⟩, ⟨9, 0x8B44F7AF, 12⟩, ⟨10, 0xFFFF5BB1, 17⟩, ⟨11, 0x895CD7BE, 22⟩,
    ⟨12, 0x6B901122, 7⟩, ⟨13, 0xFD987193, 12⟩, ⟨14, 0xA679438E, 17⟩, ⟨15, 0x49B40821, 22⟩]

def secondRounds : List Round :=
  [⟨1, 0xF61E2562, 5⟩, ⟨6, 0xC040B340, 9⟩, ⟨11, 0x265E5A51, 14⟩, ⟨0, 0xE9B6C7AA, 20⟩,
    ⟨5, 0xD62F105D, 5⟩, ⟨10, 0x02441453, 9⟩, ⟨15, 0xD8A1E681, 14⟩, ⟨4, 0xE7D3FBC8, 20⟩,
    ⟨9, 0x21E1CDE6, 5⟩, ⟨14, 0xC33707D6, 9⟩, ⟨3, 0xF4D50D87, 14⟩, ⟨8, 0x455A14ED, 20⟩,
    ⟨13, 0xA9E3E905, 5⟩, ⟨2, 0xFCEFA3F8, 9⟩, ⟨7, 0x676F02D9, 14⟩, ⟨12, 0x8D2A4C8A, 20⟩]

def thirdRounds : List Round :=
  [⟨5, 0xFFFA3942, 4⟩, ⟨8, 0x8771F681, 11⟩, ⟨11, 0x6D9D6122, 16⟩, ⟨14, 0xFDE5380C, 23⟩,
    ⟨1, 0xA4BEEA44, 4⟩, ⟨4, 0x4BDECFA9, 11⟩, ⟨7, 0xF6BB4B60, 16⟩, ⟨10, 0xBEBFBC70, 23⟩,
    ⟨13, 0x289B7EC6, 4⟩, ⟨0, 0xEAA127FA, 11⟩, ⟨3, 0xD4EF3085, 16⟩, ⟨6, 0x04881D05, 23⟩,
    ⟨9, 0xD9D4D039, 4⟩, ⟨12, 0xE6DB99E5, 11⟩, ⟨15, 0x1FA27CF8, 16⟩, ⟨2, 0xC4AC5665, 23⟩]

def fourthRounds : List Round :=
  [⟨0, 0xF4292244, 6⟩, ⟨7, 0x432AFF97, 10⟩, ⟨14, 0xAB9423A7, 15⟩, ⟨5, 0xFC93A039, 21⟩,
    ⟨12, 0x655B59C3, 6⟩, ⟨3, 0x8F0CCC92, 10⟩, ⟨10, 0xFFEFF47D, 15⟩, ⟨1, 0x85845DD1, 21⟩,
    ⟨8, 0x6FA87E4F, 6⟩, ⟨15, 0xFE2CE6E0, 10⟩, ⟨6, 0xA3014314, 15⟩, ⟨13, 0x4E0811A1, 21⟩,
    ⟨4, 0xF7537E82, 6⟩, ⟨11, 0xBD3AF235, 10⟩, ⟨2, 0x2AD7D2BB, 15⟩, ⟨9, 0xEB86D391, 21⟩]

def choose (b c d : UInt32) : UInt32 := (b &&& c) ||| (~~~b &&& d)

def select (b c d : UInt32) : UInt32 := (b &&& d) ||| (c &&& ~~~d)

def parity (b c d : UInt32) : UInt32 := b ^^^ c ^^^ d

def spread (b c d : UInt32) : UInt32 := c ^^^ (b ||| ~~~d)

def rotateLeft (word shift : UInt32) : UInt32 :=
  (word <<< shift) ||| (word >>> (32 - shift))

def turn (mixture : UInt32 → UInt32 → UInt32 → UInt32) (block : Array UInt32)
    (state : State) (round : Round) : State :=
  let sum := state.a + mixture state.b state.c state.d + round.constant + block.getD round.word 0
  ⟨state.d, state.b + rotateLeft sum round.shift, state.b, state.c⟩

def compress (state : State) (block : Array UInt32) : State :=
  let after := firstRounds.foldl (turn choose block) state
  let after := secondRounds.foldl (turn select block) after
  let after := thirdRounds.foldl (turn parity block) after
  let after := fourthRounds.foldl (turn spread block) after
  ⟨state.a + after.a, state.b + after.b, state.c + after.c, state.d + after.d⟩

/-- Words of four octets, least significant octet first. -/
def words (octets : Octets) : List UInt32 :=
  (Octets.chunks 4 (by decide) octets).map fun word =>
    UInt32.ofNat (Octets.ofBigEndian word.reverse)

def littleEndian (count value : Nat) : Octets :=
  (Octets.bigEndian count value).reverse

/-- The message, an octet 0x80, zeros up to eight octets short of a block, and the bit length. -/
def padded (message : Octets) : Octets :=
  message ++ [0x80] ++ List.replicate ((119 - message.length % 64) % 64) 0 ++
    littleEndian 8 (8 * message.length)

def State.octets (state : State) : Octets :=
  littleEndian 4 state.a.toNat ++ littleEndian 4 state.b.toNat ++
    littleEndian 4 state.c.toNat ++ littleEndian 4 state.d.toNat

theorem State.length_octets (state : State) : state.octets.length = 16 := by
  simp [State.octets, littleEndian]

end Md5

def md5 (message : Octets) : Digest :=
  let blocks := (Octets.chunks 64 (by decide) (Md5.padded message)).map fun block =>
    (Md5.words block).toArray
  let final := blocks.foldl Md5.compress Md5.initial
  ⟨final.octets, final.length_octets⟩

end Radius

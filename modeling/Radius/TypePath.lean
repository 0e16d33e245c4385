import Radius.Text.Decimal

/-!
Attribute types as paths. A top-level attribute is addressed by its type octet; an attribute inside
a container is addressed by the container's path followed by what selects it there: an extended
type, or a vendor and a vendor type. `26.9.1` is type 1 of vendor 9 in attribute 26. The first
segment is an octet by construction; the others are 32-bit numbers.
-/

namespace Radius

structure TypePath where
  head : UInt8
  tail : List UInt32
deriving DecidableEq

inductive PathError
  | empty
  | headTooLarge (segment : UInt32)
  | unreadable (text : String)
  | lastTooLarge (path : TypePath)
deriving DecidableEq

namespace TypePath

def topLevel (type : UInt8) : TypePath := ⟨type, []⟩

def segments (path : TypePath) : List UInt32 := path.head.toUInt32 :: path.tail

def ofSegments : List UInt32 → Except PathError TypePath
  | [] => .error .empty
  | head :: tail =>
      if head ≤ 255 then .ok ⟨head.toUInt8, tail⟩ else .error (.headTooLarge head)

def append (path : TypePath) (segments : List UInt32) : TypePath :=
  ⟨path.head, path.tail ++ segments⟩

def child (path : TypePath) (segment : UInt32) : TypePath := path.append [segment]

def depth (path : TypePath) : Nat := path.tail.length + 1

def isTopLevel (path : TypePath) : Bool := path.tail.isEmpty

def last (path : TypePath) : UInt32 := path.tail.getLastD path.head.toUInt32

/-- The segment in front of the last one: the vendor, in the path of a vendor attribute. -/
def beforeLast (path : TypePath) : UInt32 := path.tail.dropLast.getLastD path.head.toUInt32

/-- The path without its last `levels` segments, if any segment remains. -/
def ancestor? (path : TypePath) (levels : Nat) : Option TypePath :=
  if path.tail.length < levels then none
  else some ⟨path.head, path.tail.take (path.tail.length - levels)⟩

def lastOctet (path : TypePath) : Except PathError UInt8 :=
  if path.last ≤ 255 then .ok path.last.toUInt8 else .error (.lastTooLarge path)

def order (left right : TypePath) : Ordering := compare left.segments right.segments

def characters (path : TypePath) : List Char :=
  ['.'].intercalate (path.segments.map fun segment => Nat.toDigits 10 segment.toNat)

def text (path : TypePath) : String := String.ofList path.characters

def readSegment? (part : List Char) : Option UInt32 :=
  (Text.readDecimal? 4294967295 (Text.trim part)).map UInt32.ofNat

/-- Reads segments separated by points, each with an optional blank margin. -/
def read (text : String) : Except PathError TypePath :=
  match (text.toList.splitOn '.').mapM readSegment? with
  | none => .error (.unreadable text)
  | some segments => ofSegments segments

theorem depth_pos (path : TypePath) : 0 < path.depth := by simp [depth]

theorem depth_append (path : TypePath) (segments : List UInt32) :
    (path.append segments).depth = path.depth + segments.length := by
  simp [append, depth]
  omega

theorem depth_of_ancestor? {path above : TypePath} {levels : Nat}
    (found : path.ancestor? levels = some above) : above.depth + levels = path.depth := by
  unfold ancestor? at found
  split at found
  · contradiction
  · cases found
    simp only [depth, List.length_take]
    omega

theorem isTopLevel_iff (path : TypePath) : path.isTopLevel = true ↔ path = topLevel path.head := by
  cases path with
  | mk head tail => cases tail <;> simp [isTopLevel, topLevel]

end TypePath

def PathError.detail : PathError → String
  | .empty => "empty path"
  | .headTooLarge segment => "first segment " ++ toString segment.toNat ++ " exceeds 255"
  | .unreadable text => text
  | .lastTooLarge path => path.text

end Radius

import Radius.Octets
import Radius.Text.Decimal

/-!
Addresses in text. An IPv4 address is four decimal numbers; an IPv6 address is eight groups of
hexadecimal digits, of which the first longest run of two or more zero groups is left out (RFC
5952). An IPv6 address that stands for an IPv4 address ends in the text of that address.
-/

namespace Radius.Text

def dotted (octets : Octets) : String :=
  ".".intercalate (octets.map fun octet => toString octet.toNat)

def ipv4 (address : OctetField 4) : String := dotted address.octets

def groups (octets : Octets) : List Nat :=
  (Octets.chunks 2 (by decide) octets).map Octets.ofBigEndian

structure ZeroRun where
  start : Nat
  length : Nat

def zeroRunAt (groups : List Nat) (start : Nat) : ZeroRun :=
  ⟨start, ((groups.drop start).takeWhile (· == 0)).length⟩

/-- The first of the longest runs of zero groups. -/
def longestZeroRun (groups : List Nat) : ZeroRun :=
  (List.range groups.length).foldl
    (fun best start =>
      let run := zeroRunAt groups start
      if best.length < run.length then run else best)
    ⟨0, 0⟩

def groupsText (groups : List Nat) : String :=
  ":".intercalate (groups.map fun group => String.ofList (Nat.toDigits 16 group))

def compressed (groups : List Nat) : String :=
  let run := longestZeroRun groups
  if 1 < run.length then
    groupsText (groups.take run.start) ++ "::" ++ groupsText (groups.drop (run.start + run.length))
  else groupsText groups

def ipv4MappedHead : Octets := List.replicate 10 0 ++ [0xFF, 0xFF]

def ipv6 (address : OctetField 16) : String :=
  if address.octets.take 12 = ipv4MappedHead then "::ffff:" ++ dotted (address.octets.drop 12)
  else compressed (groups address.octets)

end Radius.Text

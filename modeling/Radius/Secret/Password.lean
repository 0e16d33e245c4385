import Radius.AttributeError
import Radius.Definition
import Radius.Secret.Entropy
import Radius.Secret.KeyStream

/-!
The two filters that hide values. A user password (RFC 2865) is padded with zeros to whole blocks,
so trailing zeros are not kept. A tunnel password (RFC 2868) carries its length in front and two
octets of salt, whose first bit is set, before the hidden blocks.
-/

namespace Radius

namespace Password

def maxUserPassword : Nat := 128

/-- With a longer password the hidden value would not fit a record beside its tag. -/
def maxTunnelPassword : Nat := 239

def saltLength : Nat := 2

def saltFlag : UInt8 := 0x80

def pad (octets : Octets) : Octets :=
  octets ++ List.replicate ((16 - octets.length % 16) % 16) 0

def dropTrailingZeros (octets : Octets) : Octets :=
  (octets.reverse.dropWhile (· == 0)).reverse

def hideUser (exchange : Exchange) (plain : Octets) : Except AttributeError Octets :=
  if maxUserPassword < plain.length then .error (.passwordTooLong plain.length maxUserPassword)
  else
    .ok (KeyStream.encrypt exchange.hash exchange.secret exchange.authenticator.octets (pad plain))

def revealUser? (exchange : Exchange) (cipher : Octets) : Option Octets :=
  if cipher.length % KeyStream.blockLength = 0 ∧ cipher.length ≤ maxUserPassword then
    some (dropTrailingZeros
      (KeyStream.decrypt exchange.hash exchange.secret exchange.authenticator.octets cipher))
  else none

def markSalt : Octets → Octets
  | [] => []
  | first :: rest => (first ||| saltFlag) :: rest

def hideTunnel (exchange : Exchange) (salt plain : Octets) : Octets :=
  salt ++ KeyStream.encrypt exchange.hash exchange.secret (exchange.authenticator.octets ++ salt)
    (pad (UInt8.ofNat plain.length :: plain))

def revealTunnel? (exchange : Exchange) (cipher : Octets) : Option Octets :=
  match cipher with
  | first :: second :: body =>
      if first &&& saltFlag ≠ 0 ∧ body.length % KeyStream.blockLength = 0 then
        match KeyStream.decrypt exchange.hash exchange.secret
            (exchange.authenticator.octets ++ [first, second]) body with
        | [] => none
        | length :: plain =>
            if length.toNat ≤ plain.length then some (plain.take length.toNat) else none
      else none
  | _ => none

theorem length_dropTrailingZeros_le (octets : Octets) :
    (dropTrailingZeros octets).length ≤ octets.length := by
  have kept : octets.reverse.dropWhile (· == 0) <:+ octets.reverse := List.dropWhile_suffix _
  simpa [dropTrailingZeros] using kept.length_le

theorem length_revealUser?_le {exchange : Exchange} {cipher plain : Octets}
    (revealed : revealUser? exchange cipher = some plain) : plain.length ≤ cipher.length := by
  unfold revealUser? at revealed
  split at revealed
  · cases revealed
    exact Nat.le_trans (length_dropTrailingZeros_le _) (Nat.le_of_eq (KeyStream.length_decrypt ..))
  · contradiction

theorem length_revealTunnel?_le {exchange : Exchange} {cipher plain : Octets}
    (revealed : revealTunnel? exchange cipher = some plain) : plain.length ≤ cipher.length := by
  match cipher, revealed with
  | first :: second :: body, revealed =>
      simp only [revealTunnel?] at revealed
      split at revealed
      · split at revealed
        · contradiction
        · rename_i length rest opened
          have counted := congrArg List.length opened
          rw [KeyStream.length_decrypt] at counted
          split at revealed
          · cases revealed
            simp only [List.length_take, List.length_cons] at counted ⊢
            omega
          · contradiction
      · contradiction

end Password

namespace Filter

/-- Hides a value; only a tunnel password that is not too long draws its salt. -/
def encode (filter : Filter) (exchange : Exchange) (plain : Octets) :
    Drawing AttributeError Octets :=
  match filter with
  | .userPassword => Drawing.ofExcept (Password.hideUser exchange plain)
  | .tunnelPassword =>
      if Password.maxTunnelPassword < plain.length then
        throw (.passwordTooLong plain.length Password.maxTunnelPassword)
      else do
        let salt ← Drawing.octets Password.saltLength
        return Password.hideTunnel exchange (Password.markSalt salt) plain

def decode? (filter : Filter) (exchange : Exchange) (cipher : Octets) : Option Octets :=
  match filter with
  | .userPassword => Password.revealUser? exchange cipher
  | .tunnelPassword => Password.revealTunnel? exchange cipher

theorem length_decode?_le {filter : Filter} {exchange : Exchange} {cipher plain : Octets}
    (revealed : filter.decode? exchange cipher = some plain) : plain.length ≤ cipher.length := by
  cases filter with
  | userPassword => exact Password.length_revealUser?_le revealed
  | tunnelPassword => exact Password.length_revealTunnel?_le revealed

end Filter

end Radius

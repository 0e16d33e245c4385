import Radius.Proofs.BlockChain

/-!
The hidden form of a tunnel password (RFC 2868). Behind two octets of salt, the first bit of which is
set, stand whole blocks. They hide the length of the password, the password, and zeros. The length
octet is chosen by whoever sends the blocks, so a password is revealed only if the length counts no
more octets than there are. What was hidden is revealed as it was, zeros at its end included, and the
greatest password is the greatest one whose hidden form fits a record beside a tag.
-/

namespace Radius

namespace Password

def SaltedChain (exchange : Exchange) (opened cipher : Octets) : Prop :=
  KeyStream.Chained exchange.hash exchange.secret
    (exchange.authenticator.octets ++ cipher.take 2) opened (cipher.drop 2)

/-- Salt with its first bit set and whole blocks behind it, at least one, that hide no greater length
than the number of octets behind the length. -/
structure Salted (opened cipher : Octets) : Prop where
  enough : 18 ≤ cipher.length
  whole : (cipher.length - 2) % 16 = 0
  marked : 128 ≤ (cipher.headD 0).toNat
  counted : (opened.headD 0).toNat ≤ cipher.length - 3

variable {exchange : Exchange} {salt plain opened cipher : Octets}

theorem saltFlag_set_iff (octet : UInt8) : octet &&& saltFlag ≠ 0 ↔ 128 ≤ octet.toNat := by
  revert octet
  apply forall_octet
  decide +kernel

theorem saltedChain_iff :
    SaltedChain exchange opened cipher ↔
      KeyStream.decrypt exchange.hash exchange.secret
        (exchange.authenticator.octets ++ cipher.take 2) (cipher.drop 2) = opened :=
  KeyStream.decrypt_eq_iff.symm

theorem length_of_saltedChain (chained : SaltedChain exchange opened cipher) :
    opened.length = cipher.length - 2 := by
  rw [← saltedChain_iff.mp chained, KeyStream.length_decrypt, List.length_drop]

theorem salted_cons_iff {first second length : UInt8} {body rest : Octets}
    (width : (length :: rest).length = body.length) :
    Salted (length :: rest) (first :: second :: body) ↔
      (first &&& saltFlag ≠ 0 ∧ body.length % 16 = 0) ∧ length.toNat ≤ rest.length := by
  rw [List.length_cons] at width
  rw [saltFlag_set_iff]
  constructor
  · rintro ⟨-, whole, marked, counted⟩
    simp only [List.headD_cons, List.length_cons] at whole marked counted
    exact ⟨⟨marked, by omega⟩, by omega⟩
  · rintro ⟨⟨marked, whole⟩, counted⟩
    refine ⟨?_, ?_, marked, ?_⟩
    · simp only [List.length_cons]
      omega
    · simp only [List.length_cons]
      omega
    · simp only [List.headD_cons, List.length_cons]
      omega

theorem revealTunnel?_eq_some_iff (chained : SaltedChain exchange opened cipher) :
    revealTunnel? exchange cipher = some plain ↔
      Salted opened cipher ∧ plain = opened.tail.take (opened.headD 0).toNat := by
  have width := length_of_saltedChain chained
  match cipher with
  | [] => exact iff_of_false nofun fun form => nomatch form.1.enough
  | [_] => exact iff_of_false nofun fun form => absurd form.1.enough (by simp)
  | first :: second :: body =>
      have computed : KeyStream.decrypt exchange.hash exchange.secret
          (exchange.authenticator.octets ++ [first, second]) body = opened :=
        saltedChain_iff.mp chained
      replace width : opened.length = body.length := width
      rw [revealTunnel?, computed, KeyStream.blockLength]
      cases opened with
      | nil =>
          -- without a block there is no length
          have none : body = [] := List.length_eq_zero_iff.mp width.symm
          refine iff_of_false ?_ fun form => absurd form.1.enough (by simp [none])
          simp
      | cons length rest =>
          rw [salted_cons_iff width, List.headD_cons, List.tail_cons]
          dsimp only
          split
          · rename_i form
            rw [and_iff_right form]
            split
            · rename_i counted
              simp [counted, eq_comm]
            · rename_i beyond
              simp [beyond]
          · rename_i malformed
            simp [malformed]

theorem length_of_salted (chained : SaltedChain exchange opened cipher)
    (salted : Salted opened cipher) :
    (opened.tail.take (opened.headD 0).toNat).length = (opened.headD 0).toNat := by
  have width := length_of_saltedChain chained
  have counted := salted.counted
  rw [List.length_take, List.length_tail]
  omega

theorem headD_markSalt (salted : salt.length = saltLength) (behind : Octets) :
    128 ≤ ((markSalt salt ++ behind).headD 0).toNat := by
  match salt, salted with
  | [first, second], _ => exact (saltFlag_set_iff _).mp (saltFlag_marked first).1

theorem length_hideTunnel_blocks (salted : salt.length = saltLength) :
    (hideTunnel exchange salt plain).length = 2 + 16 * ((plain.length + 1 + 15) / 16) := by
  rw [length_hideTunnel, salted, padded_eq, saltLength]

/-- The limit on passwords is that of a record which carries a tag in front of the hidden form. -/
theorem hideTunnel_fits_iff (salted : salt.length = saltLength) :
    1 + (hideTunnel exchange salt plain).length ≤ maxRecordValue ↔ plain.length ≤ 239 := by
  rw [length_hideTunnel_blocks salted, maxRecordValue]
  omega

end Password

theorem Filter.encode_tunnelPassword_long {exchange : Exchange} {plain : Octets} (source : Entropy)
    (long : 239 < plain.length) :
    Filter.tunnelPassword.encode exchange plain source =
      (.error (.passwordTooLong plain.length 239), source) := by
  rw [encode, Password.maxTunnelPassword, if_pos long]
  rfl

theorem Filter.encode_tunnelPassword_short {exchange : Exchange} {plain : Octets}
    (source : Entropy) (short : plain.length ≤ 239) :
    Filter.tunnelPassword.encode exchange plain source =
      (.ok (Password.hideTunnel exchange (Password.markSalt (source.draw 2).1) plain),
        (source.draw 2).2) := by
  rw [encode, Password.maxTunnelPassword, if_neg (Nat.not_lt.mpr short)]
  rfl

/-- The filter of tunnel passwords, for any hash. A password is hidden unless it is longer than 239
octets, behind salt with its first bit set and in as few whole blocks as hold it and its length, so
that a record has room for it and a tag; and it comes back. Octets are revealed exactly if they have
the form of such salt and blocks and the length that they hide is within them, and then so many
octets come back. -/
theorem Filter.tunnelPassword_blocks (exchange : Exchange) (source : Entropy) :
    (∀ plain : Octets,
      (∀ cause rest, Filter.tunnelPassword.encode exchange plain source = (.error cause, rest) ↔
        239 < plain.length ∧ cause = .passwordTooLong plain.length 239 ∧ rest = source) ∧
      (plain.length ≤ 239 → ∃ hidden,
        Filter.tunnelPassword.encode exchange plain source = (.ok hidden, (source.draw 2).2) ∧
        128 ≤ (hidden.headD 0).toNat ∧
        hidden.length = 2 + 16 * ((plain.length + 1 + 15) / 16) ∧
        1 + hidden.length ≤ 253 ∧
        Filter.tunnelPassword.decode? exchange hidden = some plain)) ∧
    ∀ cipher : Octets, ∃ opened,
      KeyStream.Chained exchange.hash exchange.secret
        (exchange.authenticator.octets ++ cipher.take 2) opened (cipher.drop 2) ∧
      ((Filter.tunnelPassword.decode? exchange cipher).isSome ↔
        18 ≤ cipher.length ∧ (cipher.length - 2) % 16 = 0 ∧ 128 ≤ (cipher.headD 0).toNat ∧
          (opened.headD 0).toNat ≤ cipher.length - 3) ∧
      ∀ plain, Filter.tunnelPassword.decode? exchange cipher = some plain →
        plain = opened.tail.take (opened.headD 0).toNat ∧
        plain.length = (opened.headD 0).toNat := by
  constructor
  · intro plain
    constructor
    · intro cause rest
      by_cases long : 239 < plain.length
      · rw [encode_tunnelPassword_long source long]
        constructor
        · intro failed
          cases failed
          exact ⟨long, rfl, rfl⟩
        · rintro ⟨-, rfl, rfl⟩
          rfl
      · rw [encode_tunnelPassword_short source (Nat.not_lt.mp long)]
        exact iff_of_false nofun fun failed => long failed.1
    · intro short
      have drawn : (source.draw 2).1.length = Password.saltLength := source.length_draw 2
      have salted : (Password.markSalt (source.draw 2).1).length = Password.saltLength := by
        rw [Password.length_markSalt, drawn]
      refine ⟨_, encode_tunnelPassword_short source short, ?_, ?_, ?_, ?_⟩
      · exact Password.headD_markSalt drawn _
      · exact Password.length_hideTunnel_blocks salted
      · exact (Password.hideTunnel_fits_iff salted).mpr short
      · exact Password.revealTunnel?_hideTunnel exchange drawn short
  · intro cipher
    have chained : Password.SaltedChain exchange _ cipher := Password.saltedChain_iff.mpr rfl
    refine ⟨_, chained, ?_, ?_⟩
    · rw [Option.isSome_iff_exists]
      constructor
      · rintro ⟨plain, revealed⟩
        obtain ⟨salted, -⟩ := (Password.revealTunnel?_eq_some_iff chained).mp revealed
        exact ⟨salted.enough, salted.whole, salted.marked, salted.counted⟩
      · rintro ⟨enough, whole, marked, counted⟩
        exact ⟨_, (Password.revealTunnel?_eq_some_iff chained).mpr
          ⟨⟨enough, whole, marked, counted⟩, rfl⟩⟩
    · intro plain revealed
      obtain ⟨salted, rfl⟩ := (Password.revealTunnel?_eq_some_iff chained).mp revealed
      exact ⟨rfl, Password.length_of_salted chained salted⟩

def Password.overstated : Octets :=
  128 :: 0 ::
    KeyStream.encrypt md5 [115] (List.replicate 16 0 ++ [128, 0]) (16 :: List.replicate 15 97)

theorem Filter.tunnelPassword_blocks_overstated :
    (∃ hidden, Filter.tunnelPassword.encode .sample [] (Entropy.cycle [1]) =
        (.ok hidden, ((Entropy.cycle [1]).draw 2).2) ∧ hidden.length = 18 ∧
      Filter.tunnelPassword.decode? .sample hidden = some []) ∧
    (∃ hidden, Filter.tunnelPassword.encode .sample [97, 0] (Entropy.cycle [1]) =
        (.ok hidden, ((Entropy.cycle [1]).draw 2).2) ∧ hidden.length = 18 ∧
      Filter.tunnelPassword.decode? .sample hidden = some [97, 0]) ∧
    Password.overstated.length = 18 ∧
      Filter.tunnelPassword.decode? .sample Password.overstated = none := by
  obtain ⟨hides, reveals⟩ := Filter.tunnelPassword_blocks .sample (Entropy.cycle [1])
  refine ⟨?_, ?_, by decide +kernel, ?_⟩
  · obtain ⟨hidden, sent, -, whole, -, revealed⟩ := (hides []).2 (by decide)
    exact ⟨hidden, sent, whole, revealed⟩
  · obtain ⟨hidden, sent, -, whole, -, revealed⟩ := (hides [97, 0]).2 (by decide)
    exact ⟨hidden, sent, whole, revealed⟩
  · obtain ⟨opened, chained, exact, -⟩ := reveals Password.overstated
    have same : opened = 16 :: List.replicate 15 97 :=
      (KeyStream.decrypt_eq_iff.mpr chained).symm.trans (KeyStream.decrypt_encrypt ..)
    subst same
    rw [← Option.not_isSome_iff_eq_none, exact]
    decide +kernel

end Radius

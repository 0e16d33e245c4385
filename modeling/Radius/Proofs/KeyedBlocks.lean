import Radius.Proofs.BlockChain

/-!
The key stream block by block. Block `index` of a hidden text is block `index` of the plain text
combined with the hash of the secret and of what stands in front of it: the seed for the first
block, the hidden block before it for every other. This fixes the hidden text from the plain text
and the plain text from the hidden text, so hiding and revealing undo each other at every length.
-/

namespace Radius.KeyStream

def blockAt (octets : Octets) (index : Nat) : Octets := (octets.drop (16 * index)).take 16

def keySource (seed cipher : Octets) : Nat → Octets
  | 0 => seed
  | index + 1 => blockAt cipher index

/-- A plain text and its hidden form, compared block by block. -/
structure Blockwise (hash : Octets → Digest) (secret seed plain cipher : Octets) : Prop where
  length_eq : cipher.length = plain.length
  combines : ∀ index, blockAt cipher index =
    Octets.xor (blockAt plain index) (hash (secret ++ keySource seed cipher index)).octets

section Blocks

variable {octets other block rest : Octets} {index : Nat}

theorem blockAt_nil (index : Nat) : blockAt [] index = [] := by
  rw [blockAt, List.drop_nil, List.take_nil]

theorem blockAt_zero (bound : block.length ≤ 16) (ends : block.length < 16 → rest = []) :
    blockAt (block ++ rest) 0 = block := by
  rw [blockAt, Nat.mul_zero, List.drop_zero]
  exact (take_block bound ends).1

theorem blockAt_succ (bound : block.length ≤ 16) (ends : block.length < 16 → rest = []) :
    blockAt (block ++ rest) (index + 1) = blockAt rest index := by
  have behind := (take_block bound ends).2
  rw [blockLength] at behind
  rw [blockAt, Nat.mul_succ, Nat.add_comm, ← List.drop_drop, behind, blockAt]

theorem getElem?_blockAt (octets : Octets) (position : Nat) :
    (blockAt octets (position / 16))[position % 16]? = octets[position]? := by
  rw [blockAt, List.getElem?_take_of_lt (Nat.mod_lt position (by decide)), List.getElem?_drop,
    Nat.div_add_mod]

theorem eq_of_blockAt (same : ∀ index, blockAt octets index = blockAt other index) :
    octets = other := by
  refine List.ext_getElem? fun position => ?_
  rw [← getElem?_blockAt octets, ← getElem?_blockAt other, same]

end Blocks

section Laws

variable {hash : Octets → Digest} {secret seed plain cipher other : Octets}

theorem keySource_succ {hidden : Octets} (bound : hidden.length ≤ 16)
    (ends : hidden.length < 16 → cipher = []) (index : Nat) :
    keySource seed (hidden ++ cipher) (index + 1) = keySource hidden cipher index := by
  cases index with
  | zero => exact blockAt_zero bound ends
  | succ index => exact blockAt_succ bound ends

theorem blockwise_of_chained (chained : Chained hash secret seed plain cipher) :
    Blockwise hash secret seed plain cipher := by
  -- the seed of the rest of a chain is the hidden block in front of it
  induction chained with
  | done =>
      refine ⟨rfl, fun index => ?_⟩
      rw [blockAt_nil]
      rfl
  | @block previous block hidden plain cipher filled bound ends hides chain ih =>
      -- combining keeps the length, so the hidden text has its blocks where the plain text has them
      have whole : hidden.length = block.length := by
        rw [hides, Octets.length_xor, OctetField.length_octets, Nat.min_eq_left bound]
      have hiddenBound : hidden.length ≤ 16 := whole ▸ bound
      have hiddenEnds : hidden.length < 16 → cipher = [] := by
        intro short
        have none := ih.length_eq
        rw [ends (whole ▸ short)] at none
        exact List.length_eq_zero_iff.mp none
      constructor
      · rw [List.length_append, List.length_append, whole, ih.length_eq]
      · intro index
        cases index with
        | zero =>
            rw [blockAt_zero hiddenBound hiddenEnds, blockAt_zero bound ends, hides, keySource]
        | succ index =>
            rw [blockAt_succ hiddenBound hiddenEnds, blockAt_succ bound ends,
              keySource_succ hiddenBound hiddenEnds, ih.combines index]

theorem Blockwise.unique (left : Blockwise hash secret seed plain cipher)
    (right : Blockwise hash secret seed plain other) : cipher = other := by
  refine eq_of_blockAt fun index => ?_
  -- two hidden texts that agree on a block are combined with the same hash in the next
  induction index with
  | zero =>
      rw [left.combines, right.combines]
      rfl
  | succ index ih =>
      rw [left.combines, right.combines, keySource, keySource, ih]

theorem encrypt_eq_iff_blockwise :
    encrypt hash secret seed plain = cipher ↔ Blockwise hash secret seed plain cipher := by
  have hides := blockwise_of_chained (chained_encrypt hash secret seed plain)
  constructor
  · rintro rfl
    exact hides
  · intro blockwise
    exact hides.unique blockwise

/-- The key stream, for any hash of sixteen octets and texts of any length. Hiding and revealing
both compute the relation of the blocks, and undo each other. -/
theorem keyed_by_blocks (hash : Octets → Digest) (secret seed : Octets) :
    (∀ plain cipher,
      encrypt hash secret seed plain = cipher ↔ Blockwise hash secret seed plain cipher) ∧
    (∀ plain cipher,
      decrypt hash secret seed cipher = plain ↔ Blockwise hash secret seed plain cipher) ∧
    (∀ plain, decrypt hash secret seed (encrypt hash secret seed plain) = plain) ∧
    ∀ cipher, encrypt hash secret seed (decrypt hash secret seed cipher) = cipher := by
  refine ⟨fun plain cipher => encrypt_eq_iff_blockwise, fun plain cipher => ?_,
    decrypt_encrypt hash secret seed, encrypt_decrypt hash secret seed⟩
  rw [decrypt_eq_iff, ← encrypt_eq_iff, encrypt_eq_iff_blockwise]

end Laws

end Radius.KeyStream

/-
# Blocks of addresses

An address of `w` bits is a number below `2 ^ w`.  A block is the set of addresses that share
their first `len` bits with its base, as written in the notation `base/len`.  Comparing the
high bits is also what a test with a bit mask does (`land_highMask`).
-/
import Mathlib.Algebra.Order.Ring.Nat
import Mathlib.Data.Nat.Bitwise
import Mathlib.Tactic.Common

namespace Cellora

namespace Cidr

/-- The block `base/len` of addresses of `w` bits. -/
structure Block (w : ℕ) where
  base : ℕ
  len : ℕ
deriving DecidableEq

/-- The address is in the block. -/
def Block.Contains {w : ℕ} (block : Block w) (addr : ℕ) : Prop :=
  addr / 2 ^ (w - block.len) = block.base / 2 ^ (w - block.len)

instance {w : ℕ} (block : Block w) (addr : ℕ) : Decidable (block.Contains addr) :=
  inferInstanceAs (Decidable (_ = _))

/-- The address is in one of the blocks. -/
def InAny {w : ℕ} (blocks : List (Block w)) (addr : ℕ) : Prop :=
  ∃ block ∈ blocks, block.Contains addr

instance {w : ℕ} (blocks : List (Block w)) (addr : ℕ) : Decidable (InAny blocks addr) :=
  inferInstanceAs (Decidable (∃ block ∈ blocks, block.Contains addr))

lemma inAny_cons {w : ℕ} {block : Block w} {blocks : List (Block w)} {addr : ℕ} :
    InAny (block :: blocks) addr ↔ block.Contains addr ∨ InAny blocks addr := by
  simp [InAny]

lemma not_inAny_nil {w : ℕ} {addr : ℕ} : ¬ InAny ([] : List (Block w)) addr := by
  simp [InAny]

/-- A mask of the bits from `k` on clears the lower ones. -/
lemma land_highMask {n w k : ℕ} (hn : n < 2 ^ w) (hk : k ≤ w) :
    n &&& (2 ^ w - 2 ^ k) = n / 2 ^ k * 2 ^ k := by
  have hmask : 2 ^ w - 2 ^ k = (2 ^ (w - k) - 1) <<< k := by
    rw [Nat.shiftLeft_eq, Nat.sub_mul, ← pow_add, Nat.sub_add_cancel hk, one_mul]
  have hrest : n / 2 ^ k * 2 ^ k = (n >>> k) <<< k := by
    rw [Nat.shiftRight_eq_div_pow, Nat.shiftLeft_eq]
  rw [hmask, hrest]
  refine Nat.eq_of_testBit_eq fun i => ?_
  rw [Nat.testBit_and, Nat.testBit_shiftLeft, Nat.testBit_shiftLeft, Nat.testBit_two_pow_sub_one,
    Nat.testBit_shiftRight]
  by_cases hi : k ≤ i
  · rw [Nat.add_sub_cancel' hi]
    by_cases hiw : i < w
    · simp [hi, show i - k < w - k by omega]
    · -- the address has no such bit
      have hbit : n.testBit i = false :=
        Nat.testBit_lt_two_pow (hn.trans_le (Nat.pow_le_pow_right (by decide) (by omega)))
      simp [hbit]
  · simp [hi]

end Cidr

end Cellora

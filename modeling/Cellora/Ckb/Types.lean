/-
# Blocks as the node returns them

The JSON-RPC view of a block, with the fields the indexer reads.  Hashes are 32 bytes wide
by construction.  The unsigned integers of the source are natural numbers here; the
conversions to the signed columns of the database, which fail or saturate on large values,
are explicit (`i64TryFrom`, `i32OfNat`).
-/
import Mathlib.Algebra.Ring.Int.Defs
import Mathlib.Algebra.Ring.Nat
import Mathlib.Data.List.Chain
import Mathlib.Tactic.Common

namespace Cellora

/-- A byte string. -/
abbrev Bytes := List UInt8

/-- A 32-byte hash. -/
structure H256 where
  /-- The bytes of the hash. -/
  bytes : Bytes
  /-- A hash is exactly 32 bytes wide. -/
  width : bytes.length = 32
deriving DecidableEq

namespace H256

lemma ext_bytes {g h : H256} (hb : g.bytes = h.bytes) : g = h := by
  cases g
  cases h
  cases hb
  rfl

lemma bytes_inj {g h : H256} : g.bytes = h.bytes ↔ g = h :=
  ⟨ext_bytes, fun h => h ▸ rfl⟩

/-- The hash with the same byte in every position. -/
def rep (b : UInt8) : H256 := ⟨List.replicate 32 b, List.length_replicate⟩

end H256

/-! ### Machine integers -/

/-- `i64::MAX`. -/
def i64Max : ℕ := 2 ^ 63 - 1

/-- `i32::MAX`. -/
def i32Max : ℕ := 2 ^ 31 - 1

/-- `u32::MAX`. -/
def u32Max : ℕ := 2 ^ 32 - 1

/-- `u64::MAX`. -/
def u64Max : ℕ := 2 ^ 64 - 1

/-- `i64::try_from` of an unsigned integer. -/
def i64TryFrom (n : ℕ) : Option ℤ := if n ≤ i64Max then some n else none

/-- `i32::try_from(n).unwrap_or(i32::MAX)`. -/
def i32OfNat (n : ℕ) : ℤ := if n ≤ i32Max then n else i32Max

/-- The integer is a value of the type `i64`. -/
def InI64 (z : ℤ) : Prop := -(i64Max : ℤ) - 1 ≤ z ∧ z ≤ i64Max

/-- The integer is a value of the type `i32`. -/
def InI32 (z : ℤ) : Prop := -(i32Max : ℤ) - 1 ≤ z ∧ z ≤ i32Max

instance (z : ℤ) : Decidable (InI64 z) := inferInstanceAs (Decidable (_ ∧ _))

instance (z : ℤ) : Decidable (InI32 z) := inferInstanceAs (Decidable (_ ∧ _))

lemma i64TryFrom_eq_some {n : ℕ} {z : ℤ} : i64TryFrom n = some z ↔ n ≤ i64Max ∧ z = n := by
  unfold i64TryFrom
  split
  · rename_i h
    simp [h, eq_comm]
  · rename_i h
    simp [h]

lemma i64TryFrom_of_le {n : ℕ} (h : n ≤ i64Max) : i64TryFrom n = some (n : ℤ) :=
  i64TryFrom_eq_some.2 ⟨h, rfl⟩

lemma i32OfNat_of_le {n : ℕ} (h : n ≤ i32Max) : i32OfNat n = n := if_pos h

/-- Below the saturation point, the conversion to `i32` loses nothing. -/
lemma i32OfNat_inj_of_lt {m n : ℕ} (hm : m < i32Max) (h : i32OfNat n = i32OfNat m) :
    n = m := by
  unfold i32OfNat at h
  split at h <;> split at h <;> omega

/-! ### The block view -/

/-- `ScriptHashType` of the JSON-RPC types. -/
inductive ScriptHashType where
  | data
  | type
  | data1
  | data2
deriving DecidableEq, Repr

/-- The `Display` form of a hash type. -/
def ScriptHashType.toString : ScriptHashType → String
  | .data => "data"
  | .type => "type"
  | .data1 => "data1"
  | .data2 => "data2"

/-- A script. -/
structure Script where
  codeHash : H256
  hashType : ScriptHashType
  args : Bytes
deriving DecidableEq

/-- A reference to an output of a transaction. -/
structure OutPoint where
  txHash : H256
  index : ℕ
deriving DecidableEq

/-- A transaction input. -/
structure CellInput where
  previousOutput : OutPoint
deriving DecidableEq

/-- A transaction output. -/
structure CellOutput where
  capacity : ℕ
  lock : Script
  type_ : Option Script
deriving DecidableEq

/-- `DepType` of the JSON-RPC types. -/
inductive DepType where
  | code
  | depGroup
deriving DecidableEq, Repr

/-- A cell dependency. -/
structure CellDep where
  outPoint : OutPoint
  depType : DepType
deriving DecidableEq

/-- The body of a transaction. -/
structure Transaction where
  version : ℕ
  cellDeps : List CellDep
  headerDeps : List H256
  witnesses : List Bytes
  inputs : List CellInput
  outputs : List CellOutput
  outputsData : List Bytes
deriving DecidableEq

/-- A transaction with its hash. -/
structure TransactionView where
  hash : H256
  inner : Transaction
deriving DecidableEq

/-- The fields of a block header that the indexer stores. -/
structure Header where
  number : ℕ
  parentHash : H256
  timestamp : ℕ
  epoch : ℕ
  nonce : ℕ
  dao : H256
deriving DecidableEq

/-- A block header with its hash. -/
structure HeaderView where
  hash : H256
  inner : Header
deriving DecidableEq

/-- A block.  Of the uncles and the proposals the indexer only stores how many there
are. -/
structure BlockView where
  header : HeaderView
  transactions : List TransactionView
  unclesLen : ℕ
  proposalsLen : ℕ
deriving DecidableEq

namespace BlockView

/-- The height a block claims to have. -/
def number (b : BlockView) : ℕ := b.header.inner.number

/-- The hash of a block. -/
def hash (b : BlockView) : H256 := b.header.hash

/-- The hash of the block below. -/
def parentHash (b : BlockView) : H256 := b.header.inner.parentHash

/-- A block extends another one: one higher and linked to it by its parent hash. -/
def Extends (b b' : BlockView) : Prop :=
  b'.number = b.number + 1 ∧ b'.parentHash = b.hash

/-- A hash-linked chain of blocks, lowest first. -/
def Linked (chain : List BlockView) : Prop := chain.IsChain Extends

lemma Linked.parentHash_eq {chain : List BlockView} (h : Linked chain) {i : ℕ} {x y : BlockView}
    (hy : chain[i + 1]? = some y) (hx : chain[i]? = some x) : y.parentHash = x.hash := by
  obtain ⟨hi, rfl⟩ := List.getElem?_eq_some_iff.1 hy
  obtain ⟨_, rfl⟩ := List.getElem?_eq_some_iff.1 hx
  exact (List.isChain_iff_getElem.1 h i hi).2

end BlockView

end Cellora

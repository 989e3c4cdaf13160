/-
# The paginated queries on `cells`

`query_by_lock_hash` and `query_by_type_hash` differ in one column only.  Both join `cells`
with `blocks`, keep the rows that match the hash, the liveness filter and the cursor, sort
them by `(block_number, tx_hash, output_index)` descending, and return the first ones.
The comparison of the three columns is the lexicographic one, in which `BYTEA` compares
byte by byte.
-/
import Cellora.Db.Tables
import Cellora.Lib.Keyset
import Mathlib.Data.List.Lex
import Mathlib.Data.Prod.Lex

namespace Cellora

/-- Filter on liveness. -/
inductive LivenessFilter where
  | onlyLive
  | onlyConsumed
  | any
deriving DecidableEq, Repr

/-- The parameter of the query, `NULL` if there is no filter. -/
def LivenessFilter.asBool : LivenessFilter → Option Bool
  | .onlyLive => some true
  | .onlyConsumed => some false
  | .any => none

/-- The last row of the previous page. -/
structure CellCursor where
  blockNumber : ℤ
  txHash : Bytes
  outputIndex : ℤ
deriving DecidableEq

/-- The order of the three columns. -/
abbrev CellKey := ℤ ×ₗ (List ℕ ×ₗ ℤ)

/-- The three columns, with `BYTEA` as the numbers of its bytes. -/
def cellKey (blockNumber : ℤ) (txHash : Bytes) (outputIndex : ℤ) : CellKey :=
  toLex (blockNumber, toLex (txHash.map UInt8.toNat, outputIndex))

/-- The key a cursor carries. -/
def CellCursor.key (c : CellCursor) : CellKey := cellKey c.blockNumber c.txHash c.outputIndex

/-- The key a row is sorted by. -/
def Cell.sortKey (c : Cell) : CellKey := cellKey c.blockNumber c.txHash c.outputIndex

/-- The cursor that continues after a row. -/
def Cell.cursor (c : Cell) : CellCursor := ⟨c.blockNumber, c.txHash, c.outputIndex⟩

/-- A row of the join. -/
def CellRecord.withBlock (c : CellRecord) (blockHash : Bytes) : Cell where
  txHash := c.txHash
  outputIndex := c.outputIndex
  blockNumber := c.blockNumber
  blockHash := blockHash
  capacityShannons := c.capacityShannons
  lockCodeHash := c.lockCodeHash
  lockHashType := c.lockHashType
  lockArgs := c.lockArgs
  lockHash := c.lockHash
  typeCodeHash := c.typeCodeHash
  typeHashType := c.typeHashType
  typeArgs := c.typeArgs
  typeHash := c.typeHash
  data := c.data
  consumedByTxHash := c.consumedByTxHash
  consumedByInputIndex := c.consumedByInputIndex
  consumedAtBlockNumber := c.consumedAtBlockNumber

namespace Db

/-- `cells INNER JOIN blocks`. -/
def joinBlocks (db : Db) : List Cell :=
  db.cells.flatMap fun c =>
    (db.blocks.filter fun b => b.number = c.blockNumber).map fun b => c.withBlock b.hash

/-- The condition `$2 IS NULL OR (consumed_by_tx_hash IS NULL) = $2`. -/
def matchesLiveness (liveness : LivenessFilter) (c : Cell) : Bool :=
  match liveness.asBool with
  | none => true
  | some isLive => c.consumedByTxHash.isNone == isLive

/-- The two queries, with the condition on the hash as a parameter. -/
def queryCells (hashMatches : Cell → Bool) (liveness : LivenessFilter)
    (cursor : Option CellCursor) (limit : ℕ) (db : Db) : List Cell :=
  (Keyset.remaining Cell.sortKey (cursor.map CellCursor.key)
    (db.joinBlocks.filter fun c => hashMatches c && matchesLiveness liveness c)).take limit

/-- `cells::query_by_lock_hash`. -/
def queryByLockHash (lockHash : Bytes) : LivenessFilter → Option CellCursor → ℕ → Db → List Cell :=
  queryCells fun c => c.lockHash == lockHash

/-- `cells::query_by_type_hash`.  A `NULL` type hash matches nothing. -/
def queryByTypeHash (typeHash : Bytes) : LivenessFilter → Option CellCursor → ℕ → Db → List Cell :=
  queryCells fun c => c.typeHash == some typeHash

end Db

/-! ### The key -/

lemma cellKey_inj {n n' : ℤ} {h h' : Bytes} {i i' : ℤ} :
    cellKey n h i = cellKey n' h' i' ↔ n = n' ∧ h = h' ∧ i = i' := by
  simp only [cellKey, toLex_inj, Prod.mk.injEq]
  rw [List.map_inj_right fun a b hab => UInt8.toNat_inj.1 hab]

namespace Db

variable {db : Db}

lemma mem_joinBlocks {x : Cell} :
    x ∈ db.joinBlocks ↔ ∃ c ∈ db.cells, ∃ b ∈ db.blocks, b.number = c.blockNumber ∧
      x = c.withBlock b.hash := by
  simp only [joinBlocks, List.mem_flatMap, List.mem_map, List.mem_filter, decide_eq_true_eq]
  constructor
  · rintro ⟨c, hc, b, ⟨hb, hnum⟩, rfl⟩
    exact ⟨c, hc, b, hb, hnum, rfl⟩
  · rintro ⟨c, hc, b, hb, hnum, rfl⟩
    exact ⟨c, hc, b, ⟨hb, hnum⟩, rfl⟩

/-- If the block numbers are unique, the join has at most one row for each cell. -/
lemma joinBlocks_sublist (hnd : (db.blocks.map BlockRow.number).Nodup) :
    (db.joinBlocks.map fun x => (x.txHash, x.outputIndex)).Sublist
      (db.cells.map CellRecord.key) := by
  rw [joinBlocks, List.map_flatMap]
  induction db.cells with
  | nil => exact List.Sublist.refl _
  | cons c cells ih =>
      rw [List.flatMap_cons, List.map_cons]
      -- at most one block has the number of the cell
      have hone : (db.blocks.filter fun b => b.number = c.blockNumber).length ≤ 1 := by
        have hle : (db.blocks.filter fun b => b.number = c.blockNumber).length =
            (db.blocks.map BlockRow.number).count c.blockNumber := by
          rw [List.count, List.countP_map, List.countP_eq_length_filter]
          rfl
        rw [hle]
        exact List.nodup_iff_count_le_one.1 hnd _
      rcases hf : db.blocks.filter fun b => b.number = c.blockNumber with _ | ⟨b, bs⟩
      · rw [hf]
        exact ih.cons _
      · rw [hf, List.length_cons] at hone
        obtain rfl : bs = [] := List.length_eq_zero_iff.1 (by omega)
        rw [hf]
        exact ih.cons_cons _

/-- The sort keys of the join are unique if the primary keys are. -/
lemma joinBlocks_nodup (hblocks : (db.blocks.map BlockRow.number).Nodup)
    (hcells : (db.cells.map CellRecord.key).Nodup) : (db.joinBlocks.map Cell.sortKey).Nodup := by
  have hpk := hcells.sublist (joinBlocks_sublist hblocks)
  refine List.Pairwise.map _ (fun x y hxy heq => hxy ?_) (List.pairwise_map.1 hpk)
  obtain ⟨-, hhash, hindex⟩ := cellKey_inj.1 heq
  exact Prod.ext hhash hindex

end Db

end Cellora

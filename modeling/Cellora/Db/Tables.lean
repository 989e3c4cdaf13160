/-
# The tables and the statements that change them

The database is the tuple of the tables the indexer writes.  Each statement of the crate
`db` is a function on it that may fail with the constraint it would violate: the primary
keys of `blocks`, `transactions` and `cells`, the unique block hash, and the foreign keys
from `transactions` and `cells` to `blocks`.  Deleting a block cascades to its
transactions and cells.
-/
import Cellora.Db.Models
import Cellora.Lib.Table

namespace Cellora

/-- Why a statement, or the connection it runs on, fails. -/
inductive DbError where
  | uniqueViolation (constraint : String)
  | foreignKeyViolation (constraint : String)
  | io (message : String)
deriving DecidableEq

/-- The tables of the indexer.  `reorgLogSeq` is the sequence behind `reorg_log.id`. -/
structure Db where
  blocks : List BlockRow
  transactions : List TransactionRow
  cells : List CellRecord
  indexerState : Option Checkpoint
  reorgLog : List ReorgLogEntry
  reorgLogSeq : ℕ
deriving DecidableEq

namespace Db

/-- A freshly migrated database. -/
def empty : Db where
  blocks := []
  transactions := []
  cells := []
  indexerState := none
  reorgLog := []
  reorgLogSeq := 0

/-! ### `blocks` -/

/-- `blocks::insert`. -/
def insertBlock (row : BlockRow) (db : Db) : Except DbError Db :=
  if row.number ∈ db.blocks.map BlockRow.number then
    .error (.uniqueViolation "blocks_pkey")
  else if row.hash ∈ db.blocks.map BlockRow.hash then
    .error (.uniqueViolation "blocks_hash_key")
  else
    .ok { db with blocks := db.blocks ++ [row] }

/-- `blocks::hash_at`. -/
def hashAt (db : Db) (number : ℤ) : Option Bytes :=
  (db.blocks.find? fun row => row.number == number).map BlockRow.hash

/-- `blocks::delete_above`, with the cascade to `transactions` and `cells`.  Returns the
number of block rows removed. -/
def deleteAbove (ancestor : ℤ) (db : Db) : ℕ × Db :=
  (db.blocks.countP fun row => ancestor < row.number,
    { db with
      blocks := db.blocks.filter fun row => row.number ≤ ancestor
      transactions := db.transactions.filter fun row => row.blockNumber ≤ ancestor
      cells := db.cells.filter fun row => row.blockNumber ≤ ancestor })

/-! ### `transactions` -/

/-- The foreign key to `blocks`. -/
def checkBlock (db : Db) (constraint : String) (number : ℤ) : Option DbError :=
  if number ∈ db.blocks.map BlockRow.number then none
  else some (.foreignKeyViolation constraint)

/-- `transactions::insert_batch`. -/
def insertTransactions (rows : List TransactionRow) (db : Db) : Except DbError Db :=
  (fun table => { db with transactions := table }) <$>
    Table.insertAll TransactionRow.hash (.uniqueViolation "transactions_pkey")
      (fun row => db.checkBlock "transactions_block_number_fkey" row.blockNumber)
      rows db.transactions

/-! ### `cells` -/

/-- `cells::insert_batch`. -/
def insertCells (rows : List CellRow) (db : Db) : Except DbError Db :=
  (fun table => { db with cells := table }) <$>
    Table.insertAll CellRecord.key (.uniqueViolation "cells_pkey")
      (fun row => db.checkBlock "cells_block_number_fkey" row.blockNumber)
      (rows.map CellRecord.ofRow) db.cells

/-- One `UPDATE` of `cells::mark_consumed`. -/
def markOne (cells : List CellRecord) (r : ConsumedCellRef) : List CellRecord :=
  cells.map fun c => if c.key = r.key then c.consume r else c

/-- `cells::mark_consumed`. -/
def markConsumed (refs : List ConsumedCellRef) (db : Db) : Db :=
  { db with cells := refs.foldl markOne db.cells }

/-- The condition `consumed_at_block_number > ancestor`, which `NULL` does not meet. -/
def consumedAbove (ancestor : ℤ) (c : CellRecord) : Bool :=
  match c.consumedAtBlockNumber with
  | some n => ancestor < n
  | none => false

/-- `cells::restore_consumed_above`.  Returns the number of rows it changed. -/
def restoreConsumedAbove (ancestor : ℤ) (db : Db) : ℕ × Db :=
  (db.cells.countP (consumedAbove ancestor),
    { db with
      cells := db.cells.map fun c => if consumedAbove ancestor c then c.restore else c })

/-! ### `indexer_state` and `reorg_log` -/

/-- `checkpoint::upsert`. -/
def upsertCheckpoint (lastIndexedBlock : ℤ) (lastIndexedHash : Bytes) (db : Db) : Db :=
  { db with indexerState := some ⟨lastIndexedBlock, lastIndexedHash⟩ }

/-- `reorg_log::insert`.  Returns the id of the new row. -/
def insertReorgLog (now : ℕ) (divergenceBlockNumber : ℤ)
    (divergenceNodeHash divergenceIndexedHash : Bytes) (depth : ℤ) (db : Db) : ℕ × Db :=
  (db.reorgLogSeq + 1,
    { db with
      reorgLogSeq := db.reorgLogSeq + 1
      reorgLog := db.reorgLog ++ [{
        id := db.reorgLogSeq + 1
        detectedAt := now
        divergenceBlockNumber := divergenceBlockNumber
        divergenceNodeHash := divergenceNodeHash
        divergenceIndexedHash := divergenceIndexedHash
        depth := depth
        completedAt := none
        status := .inProgress
        error := none }] })

/-- `reorg_log::mark_completed`. -/
def markCompleted (now id : ℕ) (db : Db) : Db :=
  { db with
    reorgLog := db.reorgLog.map fun row =>
      if row.id = id then { row with status := .completed, completedAt := some now } else row }

/-! ### What the statements do -/

variable {db db' : Db}

lemma insertBlock_eq_ok_iff {row : BlockRow} :
    insertBlock row db = .ok db' ↔
      row.number ∉ db.blocks.map BlockRow.number ∧ row.hash ∉ db.blocks.map BlockRow.hash ∧
        db' = { db with blocks := db.blocks ++ [row] } := by
  unfold insertBlock
  split
  · rename_i h
    simp [h]
  · split
    · rename_i h
      simp [h]
    · rename_i h₁ h₂
      simp only [Except.ok.injEq]
      exact ⟨fun h => ⟨h₁, h₂, h.symm⟩, fun h => h.2.2.symm⟩

lemma checkBlock_eq_none {constraint : String} {number : ℤ} :
    db.checkBlock constraint number = none ↔ number ∈ db.blocks.map BlockRow.number := by
  unfold checkBlock
  split <;> simp_all

lemma insertTransactions_eq_ok_iff {rows : List TransactionRow} :
    insertTransactions rows db = .ok db' ↔
      Table.Fresh TransactionRow.hash rows db.transactions ∧
        (∀ r ∈ rows, r.blockNumber ∈ db.blocks.map BlockRow.number) ∧
        db' = { db with transactions := db.transactions ++ rows } := by
  rw [insertTransactions, Except.map_eq_ok]
  constructor
  · rintro ⟨t, ht, rfl⟩
    obtain ⟨hf, hc, rfl⟩ := Table.insertAll_eq_ok_iff.1 ht
    exact ⟨hf, fun r hr => checkBlock_eq_none.1 (hc r hr), rfl⟩
  · rintro ⟨hf, hc, rfl⟩
    exact ⟨_, Table.insertAll_eq_ok_iff.2
      ⟨hf, fun r hr => checkBlock_eq_none.2 (hc r hr), rfl⟩, rfl⟩

lemma insertCells_eq_ok_iff {rows : List CellRow} :
    insertCells rows db = .ok db' ↔
      Table.Fresh CellRecord.key (rows.map CellRecord.ofRow) db.cells ∧
        (∀ r ∈ rows, r.blockNumber ∈ db.blocks.map BlockRow.number) ∧
        db' = { db with cells := db.cells ++ rows.map CellRecord.ofRow } := by
  rw [insertCells, Except.map_eq_ok]
  constructor
  · rintro ⟨t, ht, rfl⟩
    obtain ⟨hf, hc, rfl⟩ := Table.insertAll_eq_ok_iff.1 ht
    exact ⟨hf, fun r hr => checkBlock_eq_none.1 (hc _ (List.mem_map_of_mem hr)), rfl⟩
  · rintro ⟨hf, hc, rfl⟩
    refine ⟨_, Table.insertAll_eq_ok_iff.2 ⟨hf, ?_, rfl⟩, rfl⟩
    intro c hcell
    obtain ⟨r, hr, rfl⟩ := List.mem_map.1 hcell
    exact checkBlock_eq_none.2 (hc r hr)

/-- The last reference to a cell, if there is one, decides its spend columns. -/
def lastRef (refs : List ConsumedCellRef) (key : Bytes × ℤ) : Option ConsumedCellRef :=
  refs.reverse.find? fun r => r.key == key

/-- What a batch of references does to one cell. -/
def consumeBy (refs : List ConsumedCellRef) (c : CellRecord) : CellRecord :=
  match lastRef refs c.key with
  | some r => c.consume r
  | none => c

lemma lastRef_concat (refs : List ConsumedCellRef) (r : ConsumedCellRef) (key : Bytes × ℤ) :
    lastRef (refs ++ [r]) key = if r.key = key then some r else lastRef refs key := by
  unfold lastRef
  rw [List.reverse_concat, List.find?_cons]
  by_cases h : r.key = key
  · rw [if_pos h, beq_iff_eq.2 h]
  · rw [if_neg h, beq_eq_false_iff_ne.2 h]

lemma mem_of_lastRef {refs : List ConsumedCellRef} {key : Bytes × ℤ} {r : ConsumedCellRef}
    (h : lastRef refs key = some r) : r ∈ refs ∧ r.key = key :=
  ⟨List.mem_reverse.1 (List.mem_of_find?_eq_some h), by simpa using List.find?_some h⟩

lemma consumeBy_of_some {refs : List ConsumedCellRef} {c : CellRecord} {r : ConsumedCellRef}
    (h : lastRef refs c.key = some r) : consumeBy refs c = c.consume r := by
  rw [consumeBy, h]

lemma consumeBy_of_none {refs : List ConsumedCellRef} {c : CellRecord}
    (h : lastRef refs c.key = none) : consumeBy refs c = c := by
  rw [consumeBy, h]

@[simp] lemma key_consumeBy (refs : List ConsumedCellRef) (c : CellRecord) :
    (consumeBy refs c).key = c.key := by
  unfold consumeBy
  split <;> rfl

@[simp] lemma restore_consumeBy (refs : List ConsumedCellRef) (c : CellRecord) :
    (consumeBy refs c).restore = c.restore := by
  unfold consumeBy
  split <;> rfl

/-- Marking row by row is marking each cell by the last reference to it. -/
lemma foldl_markOne (refs : List ConsumedCellRef) (cells : List CellRecord) :
    refs.foldl markOne cells = cells.map (consumeBy refs) := by
  induction refs using List.reverseRecOn with
  | nil => exact (List.map_id cells).symm
  | append_singleton refs r ih =>
      rw [List.foldl_concat, ih, markOne, List.map_map]
      refine List.map_congr_left fun c _ => ?_
      simp only [Function.comp_apply, key_consumeBy]
      by_cases h : c.key = r.key
      · have hlast : lastRef (refs ++ [r]) c.key = some r := by
          rw [lastRef_concat, if_pos h.symm]
        rw [if_pos h, consumeBy_of_some hlast, ← CellRecord.consume_restore,
          restore_consumeBy, CellRecord.consume_restore]
      · have hlast : lastRef (refs ++ [r]) c.key = lastRef refs c.key := by
          rw [lastRef_concat, if_neg (Ne.symm h)]
        rw [if_neg h, consumeBy, consumeBy, hlast]

lemma hashAt_eq_none {n : ℤ} : db.hashAt n = none ↔ n ∉ db.blocks.map BlockRow.number := by
  simp only [hashAt, Option.map_eq_none_iff, List.find?_eq_none, List.mem_map, not_exists,
    not_and, beq_iff_eq]

lemma hashAt_eq_some_of_mem {row : BlockRow}
    (hnd : (db.blocks.map BlockRow.number).Nodup) (h : row ∈ db.blocks) :
    db.hashAt row.number = some row.hash := by
  cases hf : db.hashAt row.number with
  | none => exact absurd (List.mem_map_of_mem h) (hashAt_eq_none.1 hf)
  | some g =>
      obtain ⟨row', hrow', rfl⟩ := Option.map_eq_some_iff.1 hf
      have hnum : row'.number = row.number := by simpa using List.find?_some hrow'
      rw [List.inj_on_of_nodup_map hnd (List.mem_of_find?_eq_some hrow') h hnum]

lemma exists_mem_of_hashAt {n : ℤ} {g : Bytes} (h : db.hashAt n = some g) :
    ∃ row ∈ db.blocks, row.number = n ∧ row.hash = g := by
  obtain ⟨row, hrow, rfl⟩ := Option.map_eq_some_iff.1 h
  exact ⟨row, List.mem_of_find?_eq_some hrow, by simpa using List.find?_some hrow, rfl⟩

end Db

end Cellora

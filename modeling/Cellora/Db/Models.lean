/-
# Row types

The rows the indexer writes and the rows the queries return, column by column.  A column
`BIGINT`, `INTEGER` or `SMALLINT` is an integer, `BYTEA` a byte string, and a nullable
column an `Option`.  The timestamps a row gets from a column default are left out, since
nothing modelled reads them; those of the reorg log are kept.
-/
import Cellora.Ckb.Types

namespace Cellora

/-- Raw encoding of a script's `hash_type`. -/
inductive HashType where
  | data
  | type
  | data1
  | data2
deriving DecidableEq, Repr

/-- The `SMALLINT` value of a hash type. -/
def HashType.asI16 : HashType → ℤ
  | .data => 0
  | .type => 1
  | .data1 => 2
  | .data2 => 3

/-- A row of `blocks`. -/
structure BlockRow where
  number : ℤ
  hash : Bytes
  parentHash : Bytes
  timestampMs : ℤ
  epoch : ℤ
  transactionsCount : ℤ
  proposalsCount : ℤ
  unclesCount : ℤ
  nonce : ℕ
  dao : Bytes
deriving DecidableEq

/-- A JSON document, as its text. -/
structure JsonValue where
  text : String
deriving DecidableEq

/-- A row of `transactions`. -/
structure TransactionRow where
  hash : Bytes
  blockNumber : ℤ
  txIndex : ℤ
  version : ℤ
  cellDeps : JsonValue
  headerDeps : JsonValue
  witnesses : JsonValue
  inputsCount : ℤ
  outputsCount : ℤ
deriving DecidableEq

/-- The write-side shape of a row of `cells`. -/
structure CellRow where
  txHash : Bytes
  outputIndex : ℤ
  blockNumber : ℤ
  capacityShannons : ℤ
  lockCodeHash : Bytes
  lockHashType : HashType
  lockArgs : Bytes
  lockHash : Bytes
  typeCodeHash : Option Bytes
  typeHashType : Option HashType
  typeArgs : Option Bytes
  typeHash : Option Bytes
  data : Bytes
deriving DecidableEq

/-- The columns of `cells`: what the indexer wrote, with the hash types as `SMALLINT`, and
the three nullable columns that record the spend. -/
structure CellRecord where
  txHash : Bytes
  outputIndex : ℤ
  blockNumber : ℤ
  capacityShannons : ℤ
  lockCodeHash : Bytes
  lockHashType : ℤ
  lockArgs : Bytes
  lockHash : Bytes
  typeCodeHash : Option Bytes
  typeHashType : Option ℤ
  typeArgs : Option Bytes
  typeHash : Option Bytes
  data : Bytes
  consumedByTxHash : Option Bytes
  consumedByInputIndex : Option ℤ
  consumedAtBlockNumber : Option ℤ
deriving DecidableEq

/-- The read-side shape of a cell, joined with the hash of the block that created it. -/
structure Cell where
  txHash : Bytes
  outputIndex : ℤ
  blockNumber : ℤ
  blockHash : Bytes
  capacityShannons : ℤ
  lockCodeHash : Bytes
  lockHashType : ℤ
  lockArgs : Bytes
  lockHash : Bytes
  typeCodeHash : Option Bytes
  typeHashType : Option ℤ
  typeArgs : Option Bytes
  typeHash : Option Bytes
  data : Bytes
  consumedByTxHash : Option Bytes
  consumedByInputIndex : Option ℤ
  consumedAtBlockNumber : Option ℤ
deriving DecidableEq

/-- A pointer from a transaction input to the cell it consumes. -/
structure ConsumedCellRef where
  txHash : Bytes
  outputIndex : ℤ
  consumedByTxHash : Bytes
  consumedByInputIndex : ℤ
  consumedAtBlockNumber : ℤ
deriving DecidableEq

/-- The value of the singleton `indexer_state` row. -/
structure Checkpoint where
  lastIndexedBlock : ℤ
  lastIndexedHash : Bytes
deriving DecidableEq

/-- State of a row in the `reorg_log` audit table. -/
inductive ReorgStatus where
  | inProgress
  | completed
  | failed
deriving DecidableEq, Repr

/-- A row of `reorg_log`. -/
structure ReorgLogEntry where
  id : ℕ
  detectedAt : ℕ
  divergenceBlockNumber : ℤ
  divergenceNodeHash : Bytes
  divergenceIndexedHash : Bytes
  depth : ℤ
  completedAt : Option ℕ
  status : ReorgStatus
  error : Option String
deriving DecidableEq

/-! ### The primary key and the two halves of a cell record -/

namespace CellRecord

/-- The primary key of `cells`. -/
def key (c : CellRecord) : Bytes × ℤ := (c.txHash, c.outputIndex)

/-- The record the `INSERT` of a row creates: the spend columns are `NULL`. -/
def ofRow (r : CellRow) : CellRecord where
  txHash := r.txHash
  outputIndex := r.outputIndex
  blockNumber := r.blockNumber
  capacityShannons := r.capacityShannons
  lockCodeHash := r.lockCodeHash
  lockHashType := r.lockHashType.asI16
  lockArgs := r.lockArgs
  lockHash := r.lockHash
  typeCodeHash := r.typeCodeHash
  typeHashType := r.typeHashType.map HashType.asI16
  typeArgs := r.typeArgs
  typeHash := r.typeHash
  data := r.data
  consumedByTxHash := none
  consumedByInputIndex := none
  consumedAtBlockNumber := none

/-- Write the three spend columns. -/
def consume (r : ConsumedCellRef) (c : CellRecord) : CellRecord :=
  { c with
    consumedByTxHash := some r.consumedByTxHash
    consumedByInputIndex := some r.consumedByInputIndex
    consumedAtBlockNumber := some r.consumedAtBlockNumber }

/-- Reset the three spend columns to `NULL`. -/
def restore (c : CellRecord) : CellRecord :=
  { c with
    consumedByTxHash := none
    consumedByInputIndex := none
    consumedAtBlockNumber := none }

@[simp] lemma key_restore (c : CellRecord) : c.restore.key = c.key := rfl

@[simp] lemma blockNumber_restore (c : CellRecord) : c.restore.blockNumber = c.blockNumber :=
  rfl

@[simp] lemma consume_restore (r : ConsumedCellRef) (c : CellRecord) :
    c.restore.consume r = c.consume r := rfl

end CellRecord

/-- The primary key of `cells`, as a batch row carries it. -/
def CellRow.key (r : CellRow) : Bytes × ℤ := (r.txHash, r.outputIndex)

/-- The key of the cell a reference points to. -/
def ConsumedCellRef.key (r : ConsumedCellRef) : Bytes × ℤ := (r.txHash, r.outputIndex)

@[simp] lemma CellRecord.key_ofRow (r : CellRow) : (CellRecord.ofRow r).key = r.key := rfl

end Cellora

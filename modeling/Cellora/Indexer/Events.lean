/-
# Events for the API

After a commit the indexer publishes one message for the block and one for each of its
cells on two Redis channels.  The payloads are JSON texts; a message that cannot be
serialised is skipped, and the failure of a `PUBLISH` is only logged.
-/
import Cellora.Db.Models
import Cellora.Lib.Hex

namespace Cellora

/-- `BlockMinedEvent`. -/
structure BlockMinedEvent where
  number : ℤ
  hash : String
  parentHash : String
  timestamp : ℕ
deriving DecidableEq

/-- `CellCreatedEvent`. -/
structure CellCreatedEvent where
  txHash : String
  outputIndex : ℤ
  blockNumber : ℤ
  lockCodeHash : String
  lockHashType : ℤ
  lockArgs : String
  lockHash : String
  typeCodeHash : Option String
  typeHashType : Option ℤ
  typeArgs : Option String
  typeHash : Option String
  capacityShannons : ℤ
deriving DecidableEq

/-- The two channels. -/
inductive Channel where
  /-- `BLOCKS_CHANNEL`, "cellora:blocks". -/
  | blocks
  /-- `CELLS_CHANNEL`, "cellora:cells". -/
  | cells
deriving DecidableEq

/-- A message on a channel. -/
structure Message where
  channel : Channel
  payload : String
deriving DecidableEq

/-- The functions of `serde_json` on the two events. -/
structure EventJson where
  blockToString : BlockMinedEvent → Option String
  blockFromStr : String → Option BlockMinedEvent
  cellToString : CellCreatedEvent → Option String
  cellFromStr : String → Option CellCreatedEvent

/-- What is read from the text of a cell event is that event. -/
def EventJson.ReadsBack (J : EventJson) : Prop :=
  ∀ {e e' : CellCreatedEvent} {payload : String},
    J.cellToString e = some payload → J.cellFromStr payload = some e' → e' = e

namespace Indexer

/-- The event of a block, with `timestamp_ms as u64`. -/
def blockEvent (block : BlockRow) : BlockMinedEvent where
  number := block.number
  hash := Hex.encode block.hash
  parentHash := Hex.encode block.parentHash
  timestamp := (block.timestampMs % 2 ^ 64).toNat

/-- The event of a cell. -/
def cellEvent (cell : CellRow) : CellCreatedEvent where
  txHash := Hex.encode cell.txHash
  outputIndex := cell.outputIndex
  blockNumber := cell.blockNumber
  lockCodeHash := Hex.encode cell.lockCodeHash
  lockHashType := cell.lockHashType.asI16
  lockArgs := Hex.encode cell.lockArgs
  lockHash := Hex.encode cell.lockHash
  typeCodeHash := cell.typeCodeHash.map Hex.encode
  typeHashType := cell.typeHashType.map HashType.asI16
  typeArgs := cell.typeArgs.map Hex.encode
  typeHash := cell.typeHash.map Hex.encode
  capacityShannons := cell.capacityShannons

/-- The message of a cell. -/
def cellMessage (J : EventJson) (cell : CellRow) : Option Message :=
  (J.cellToString (cellEvent cell)).map fun payload => ⟨.cells, payload⟩

/-- `publish_block_and_cells`: the messages it publishes, in order. -/
def publishBlockAndCells (J : EventJson) (block : BlockRow) (cells : List CellRow) :
    List Message :=
  match J.blockToString (blockEvent block) with
  -- without the event of the block, those of its cells are not published either
  | none => []
  | some payload => ⟨.blocks, payload⟩ :: cells.filterMap (cellMessage J)

lemma mem_publishBlockAndCells {J : EventJson} {block : BlockRow} {cells : List CellRow}
    {m : Message} (hm : m ∈ publishBlockAndCells J block cells) :
    (∃ payload, J.blockToString (blockEvent block) = some payload ∧ m = ⟨.blocks, payload⟩) ∨
      ∃ cell ∈ cells, ∃ payload, J.cellToString (cellEvent cell) = some payload ∧
        m = ⟨.cells, payload⟩ := by
  rw [publishBlockAndCells] at hm
  split at hm
  · exact absurd hm List.not_mem_nil
  · rename_i payload hblock
    rcases List.mem_cons.1 hm with rfl | hm
    · exact .inl ⟨payload, hblock, rfl⟩
    · obtain ⟨cell, hcell, hmsg⟩ := List.mem_filterMap.1 hm
      obtain ⟨payload, hpayload, rfl⟩ := Option.map_eq_some_iff.1 hmsg
      exact .inr ⟨cell, hcell, payload, hpayload, rfl⟩

end Indexer

end Cellora

/-
# From a block view to database rows

`parseBlock` turns the view of a block into the rows that one database transaction writes:
the block, its transactions, the cells its outputs create and the references to the cells
its inputs consume.  The loops of the source are traversals that stop at the first error.

Three things it calls come from other crates and are parameters here: the script hash,
the JSON form of a transaction's dependencies and witnesses, and the decimal of the nonce.
-/
import Cellora.Db.Models
import Cellora.Lib.Except

namespace Cellora

/-- The functions of other crates that the parser calls. -/
structure CkbLib where
  /-- `calc_script_hash` of the packed script. -/
  calcScriptHash : Script → H256
  /-- `serde_json::to_value` of the cell dependencies. -/
  cellDepsToValue : List CellDep → Except String JsonValue
  /-- `serde_json::to_value` of the header dependencies. -/
  headerDepsToValue : List H256 → Except String JsonValue
  /-- `serde_json::to_value` of the witnesses. -/
  witnessesToValue : List Bytes → Except String JsonValue
  /-- `BigDecimal::from_str`, on the decimal digits of a nonce. -/
  bigDecimalFromStr : String → Option ℕ

namespace Indexer

/-- Why a block view does not become rows. -/
inductive ParseError where
  | capacityOverflow (value : ℕ)
  | nonceParse
  | unknownHashType (label : String)
  | serialize (field : String) (source : String)
deriving DecidableEq

/-- The rows of one block, ready to be written in one database transaction. -/
structure ParsedBlock where
  block : BlockRow
  transactions : List TransactionRow
  cells : List CellRow
  consumed : List ConsumedCellRef
deriving DecidableEq

/-- `encode_hash_type`. -/
def encodeHashType (s : String) : Except ParseError HashType :=
  if s = "data" then .ok .data
  else if s = "type" then .ok .type
  else if s = "data1" then .ok .data1
  else if s = "data2" then .ok .data2
  else .error (.unknownHashType s)

/-- `i64::try_from`, with the error the parser maps a failure to. -/
def i64OrOverflow (n : ℕ) : Except ParseError ℤ :=
  match i64TryFrom n with
  | some z => .ok z
  | none => .error (.capacityOverflow n)

/-- The four `type_*` columns of an output. -/
def parseType (X : CkbLib) (type_ : Option Script) :
    Except ParseError (Option Bytes × Option HashType × Option Bytes × Option Bytes) :=
  match type_ with
  | some script => do
      let hashType ← encodeHashType script.hashType.toString
      .ok (some script.codeHash.bytes, some hashType, some script.args,
        some (X.calcScriptHash script).bytes)
  | none => .ok (none, none, none, none)

/-- One output and its data become one cell. -/
def parseOutput (X : CkbLib) (txHash : Bytes) (blockNumber : ℤ) (outputIndex : ℕ)
    (output : CellOutput) (data : Bytes) : Except ParseError CellRow := do
  let capacityShannons ← i64OrOverflow output.capacity
  let (typeCodeHash, typeHashType, typeArgs, typeHash) ← parseType X output.type_
  let lockHashType ← encodeHashType output.lock.hashType.toString
  .ok {
    txHash := txHash
    outputIndex := i32OfNat outputIndex
    blockNumber := blockNumber
    capacityShannons := capacityShannons
    lockCodeHash := output.lock.codeHash.bytes
    lockHashType := lockHashType
    lockArgs := output.lock.args
    lockHash := (X.calcScriptHash output.lock).bytes
    typeCodeHash := typeCodeHash
    typeHashType := typeHashType
    typeArgs := typeArgs
    typeHash := typeHash
    data := data }

/-- The outputs of a transaction, each paired with its data. -/
def parseOutputs (X : CkbLib) (blockNumber : ℤ) (tx : TransactionView) :
    Except ParseError (List CellRow) :=
  (tx.inner.outputs.zip tx.inner.outputsData).zipIdx.mapM fun p =>
    parseOutput X tx.hash.bytes blockNumber p.2 p.1.1 p.1.2

/-- The reference of one input, unless it is the null reference of a cellbase. -/
def parseInput (blockNumber : ℤ) (txHash : Bytes) (input : CellInput) (inputIndex : ℕ) :
    Option ConsumedCellRef :=
  if input.previousOutput.txHash.bytes.all (· == 0) then none
  else some {
    txHash := input.previousOutput.txHash.bytes
    outputIndex := i32OfNat input.previousOutput.index
    consumedByTxHash := txHash
    consumedByInputIndex := i32OfNat inputIndex
    consumedAtBlockNumber := blockNumber }

/-- The references of all inputs of a transaction. -/
def parseInputs (blockNumber : ℤ) (tx : TransactionView) : List ConsumedCellRef :=
  tx.inner.inputs.zipIdx.filterMap fun p => parseInput blockNumber tx.hash.bytes p.1 p.2

/-- A serialised field, with the error the parser maps a failure to. -/
def serialized (field : String) (value : Except String JsonValue) :
    Except ParseError JsonValue :=
  value.mapError (ParseError.serialize field)

/-- One round of the loop over the transactions. -/
def parseTransaction (X : CkbLib) (blockNumber : ℤ) (txIndex : ℕ) (tx : TransactionView) :
    Except ParseError (TransactionRow × List CellRow × List ConsumedCellRef) := do
  let cellDeps ← serialized "cell_deps" (X.cellDepsToValue tx.inner.cellDeps)
  let headerDeps ← serialized "header_deps" (X.headerDepsToValue tx.inner.headerDeps)
  let witnesses ← serialized "witnesses" (X.witnessesToValue tx.inner.witnesses)
  let row : TransactionRow := {
    hash := tx.hash.bytes
    blockNumber := blockNumber
    txIndex := i32OfNat txIndex
    version := i32OfNat tx.inner.version
    cellDeps := cellDeps
    headerDeps := headerDeps
    witnesses := witnesses
    inputsCount := i32OfNat tx.inner.inputs.length
    outputsCount := i32OfNat tx.inner.outputs.length }
  let cells ← parseOutputs X blockNumber tx
  .ok (row, cells, parseInputs blockNumber tx)

/-- The decimal of a nonce. -/
def parseNonce (X : CkbLib) (nonce : ℕ) : Except ParseError ℕ :=
  match X.bigDecimalFromStr (toString nonce) with
  | some d => .ok d
  | none => .error .nonceParse

/-- The `blocks` row of a view. -/
def parseHeader (X : CkbLib) (view : BlockView) : Except ParseError BlockRow := do
  let header := view.header
  let blockNumber ← i64OrOverflow header.inner.number
  let nonce ← parseNonce X header.inner.nonce
  let timestampMs ← i64OrOverflow header.inner.timestamp
  let epoch ← i64OrOverflow header.inner.epoch
  .ok {
    number := blockNumber
    hash := header.hash.bytes
    parentHash := header.inner.parentHash.bytes
    timestampMs := timestampMs
    epoch := epoch
    transactionsCount := i32OfNat view.transactions.length
    proposalsCount := i32OfNat view.proposalsLen
    unclesCount := i32OfNat view.unclesLen
    nonce := nonce
    dao := header.inner.dao.bytes }

/-- `parse_block`. -/
def parseBlock (X : CkbLib) (view : BlockView) : Except ParseError ParsedBlock := do
  let block ← parseHeader X view
  let parts ← view.transactions.zipIdx.mapM fun p =>
    parseTransaction X block.number p.2 p.1
  .ok {
    block := block
    transactions := parts.map fun p => p.1
    cells := parts.flatMap fun p => p.2.1
    consumed := parts.flatMap fun p => p.2.2 }

/-! ### What a successful parse returns -/

/-- The encoding of the hash types, as a function on the enumeration. -/
def hashTypeOf : ScriptHashType → HashType
  | .data => .data
  | .type => .type
  | .data1 => .data1
  | .data2 => .data2

/-- The labels of the enumeration are exactly the ones the encoder knows. -/
lemma encodeHashType_toString (t : ScriptHashType) :
    encodeHashType t.toString = .ok (hashTypeOf t) := by
  cases t <;> decide

lemma i64OrOverflow_eq_ok_iff {n : ℕ} {z : ℤ} :
    i64OrOverflow n = .ok z ↔ n ≤ i64Max ∧ z = n := by
  unfold i64OrOverflow
  rw [← i64TryFrom_eq_some]
  cases i64TryFrom n <;> simp

/-- The cell of an output, as its columns read. -/
def cellRow (X : CkbLib) (txHash : Bytes) (blockNumber : ℤ) (outputIndex : ℕ)
    (output : CellOutput) (data : Bytes) : CellRow where
  txHash := txHash
  outputIndex := i32OfNat outputIndex
  blockNumber := blockNumber
  capacityShannons := output.capacity
  lockCodeHash := output.lock.codeHash.bytes
  lockHashType := hashTypeOf output.lock.hashType
  lockArgs := output.lock.args
  lockHash := (X.calcScriptHash output.lock).bytes
  typeCodeHash := output.type_.map fun s => s.codeHash.bytes
  typeHashType := output.type_.map fun s => hashTypeOf s.hashType
  typeArgs := output.type_.map fun s => s.args
  typeHash := output.type_.map fun s => (X.calcScriptHash s).bytes
  data := data

lemma parseType_eq (X : CkbLib) (type_ : Option Script) :
    parseType X type_ = .ok (type_.map fun s => s.codeHash.bytes,
      type_.map fun s => hashTypeOf s.hashType, type_.map fun s => s.args,
      type_.map fun s => (X.calcScriptHash s).bytes) := by
  cases type_ with
  | none => rfl
  | some s =>
      rw [parseType, encodeHashType_toString]
      rfl

/-- An output parses exactly when its capacity fits the column. -/
lemma parseOutput_eq_ok_iff {X : CkbLib} {txHash : Bytes} {blockNumber : ℤ} {i : ℕ}
    {output : CellOutput} {data : Bytes} {row : CellRow} :
    parseOutput X txHash blockNumber i output data = .ok row ↔
      output.capacity ≤ i64Max ∧ row = cellRow X txHash blockNumber i output data := by
  unfold parseOutput
  rw [parseType_eq, encodeHashType_toString, Except.bind_eq_ok]
  constructor
  · rintro ⟨c, hc, h⟩
    obtain ⟨hle, rfl⟩ := i64OrOverflow_eq_ok_iff.1 hc
    exact ⟨hle, (Except.ok.inj h).symm⟩
  · rintro ⟨hle, rfl⟩
    exact ⟨_, i64OrOverflow_eq_ok_iff.2 ⟨hle, rfl⟩, rfl⟩

/-- The cells of a transaction: one for each output that has data, in order. -/
def txCells (X : CkbLib) (blockNumber : ℤ) (tx : TransactionView) : List CellRow :=
  (tx.inner.outputs.zip tx.inner.outputsData).zipIdx.map fun p =>
    cellRow X tx.hash.bytes blockNumber p.2 p.1.1 p.1.2

lemma parseOutputs_eq_ok_iff {X : CkbLib} {blockNumber : ℤ} {tx : TransactionView}
    {cells : List CellRow} :
    parseOutputs X blockNumber tx = .ok cells ↔
      (∀ p ∈ tx.inner.outputs.zip tx.inner.outputsData, p.1.capacity ≤ i64Max) ∧
        cells = txCells X blockNumber tx := by
  rw [parseOutputs, Except.mapM_eq_ok_iff]
  constructor
  · intro h
    constructor
    · intro p hp
      obtain ⟨i, hi⟩ := List.mem_iff_getElem?.1 hp
      have hmem : (p, i) ∈ (tx.inner.outputs.zip tx.inner.outputsData).zipIdx :=
        List.mem_zipIdx_iff_getElem?.2 hi
      obtain ⟨k, hk, hget⟩ := List.mem_iff_getElem.1 hmem
      have hrow := h.get hk (by rw [← h.length_eq]; exact hk)
      rw [List.get_eq_getElem, hget] at hrow
      exact (parseOutput_eq_ok_iff.1 hrow).1
    · rw [txCells]
      refine List.forall₂_eq_eq_eq ▸ List.forall₂_map_right_iff.2 ?_
      exact (h.imp fun p row hrow => (parseOutput_eq_ok_iff.1 hrow).2).flip
  · rintro ⟨hcap, rfl⟩
    rw [txCells, List.forall₂_map_right_iff, List.forall₂_same]
    intro p hp
    exact parseOutput_eq_ok_iff.2 ⟨hcap p.1 (List.fst_mem_of_mem_zipIdx hp), rfl⟩

/-- `row` is the `transactions` row of the transaction `tx` at position `i` of a block. -/
structure TxRowOf (X : CkbLib) (blockNumber : ℤ) (i : ℕ) (tx : TransactionView)
    (row : TransactionRow) : Prop where
  hash : row.hash = tx.hash.bytes
  blockNumber : row.blockNumber = blockNumber
  txIndex : row.txIndex = i32OfNat i
  version : row.version = i32OfNat tx.inner.version
  cellDeps : X.cellDepsToValue tx.inner.cellDeps = .ok row.cellDeps
  headerDeps : X.headerDepsToValue tx.inner.headerDeps = .ok row.headerDeps
  witnesses : X.witnessesToValue tx.inner.witnesses = .ok row.witnesses
  inputsCount : row.inputsCount = i32OfNat tx.inner.inputs.length
  outputsCount : row.outputsCount = i32OfNat tx.inner.outputs.length

/-- `row` is the `blocks` row of the view `b`. -/
structure BlockRowOf (X : CkbLib) (b : BlockView) (row : BlockRow) : Prop where
  number_le : b.number ≤ i64Max
  number : row.number = b.number
  hash : row.hash = b.hash.bytes
  parentHash : row.parentHash = b.parentHash.bytes
  timestampMs : row.timestampMs = b.header.inner.timestamp
  epoch : row.epoch = b.header.inner.epoch
  transactionsCount : row.transactionsCount = i32OfNat b.transactions.length
  proposalsCount : row.proposalsCount = i32OfNat b.proposalsLen
  unclesCount : row.unclesCount = i32OfNat b.unclesLen
  nonce : X.bigDecimalFromStr (toString b.header.inner.nonce) = some row.nonce
  dao : row.dao = b.header.inner.dao.bytes

lemma serialized_eq_ok {field : String} {value : Except String JsonValue} {v : JsonValue} :
    serialized field value = .ok v ↔ value = .ok v := by
  cases value <;> simp [serialized, Except.mapError]

lemma parseTransaction_spec {X : CkbLib} {blockNumber : ℤ} {i : ℕ} {tx : TransactionView}
    {parts : TransactionRow × List CellRow × List ConsumedCellRef}
    (h : parseTransaction X blockNumber i tx = .ok parts) :
    TxRowOf X blockNumber i tx parts.1 ∧ parts.2.1 = txCells X blockNumber tx ∧
      parts.2.2 = parseInputs blockNumber tx := by
  obtain ⟨cellDeps, hcd, h⟩ := Except.bind_eq_ok.1 h
  obtain ⟨headerDeps, hhd, h⟩ := Except.bind_eq_ok.1 h
  obtain ⟨witnesses, hw, h⟩ := Except.bind_eq_ok.1 h
  obtain ⟨cells, hcells, h⟩ := Except.bind_eq_ok.1 h
  obtain rfl := (Except.ok.inj h).symm
  refine ⟨?_, (parseOutputs_eq_ok_iff.1 hcells).2, rfl⟩
  exact ⟨rfl, rfl, rfl, rfl, serialized_eq_ok.1 hcd, serialized_eq_ok.1 hhd,
    serialized_eq_ok.1 hw, rfl, rfl⟩

lemma parseNonce_eq_ok {X : CkbLib} {nonce d : ℕ} :
    parseNonce X nonce = .ok d ↔ X.bigDecimalFromStr (toString nonce) = some d := by
  unfold parseNonce
  cases X.bigDecimalFromStr (toString nonce) <;> simp

lemma parseHeader_spec {X : CkbLib} {b : BlockView} {row : BlockRow}
    (h : parseHeader X b = .ok row) : BlockRowOf X b row := by
  obtain ⟨number, hnum, h⟩ := Except.bind_eq_ok.1 h
  obtain ⟨nonce, hnonce, h⟩ := Except.bind_eq_ok.1 h
  obtain ⟨timestamp, hts, h⟩ := Except.bind_eq_ok.1 h
  obtain ⟨epoch, hep, h⟩ := Except.bind_eq_ok.1 h
  obtain rfl := (Except.ok.inj h).symm
  obtain ⟨hle, rfl⟩ := i64OrOverflow_eq_ok_iff.1 hnum
  obtain ⟨-, rfl⟩ := i64OrOverflow_eq_ok_iff.1 hts
  obtain ⟨-, rfl⟩ := i64OrOverflow_eq_ok_iff.1 hep
  exact ⟨hle, rfl, rfl, rfl, rfl, rfl, rfl, rfl, rfl, parseNonce_eq_ok.1 hnonce, rfl⟩

/-- **What `parseBlock` returns.**  The block row and the transaction rows carry the fields
of the view, the cells are those of the transactions in order, and the references are
those of the inputs in order. -/
structure ParsedOf (X : CkbLib) (b : BlockView) (p : ParsedBlock) : Prop where
  block : BlockRowOf X b p.block
  transactions : List.Forall₂ (fun q row => TxRowOf X b.number q.2 q.1 row)
    b.transactions.zipIdx p.transactions
  cells : p.cells = b.transactions.flatMap (txCells X b.number)
  consumed : p.consumed = b.transactions.flatMap (parseInputs b.number)

theorem parseBlock_spec {X : CkbLib} {b : BlockView} {p : ParsedBlock}
    (h : parseBlock X b = .ok p) : ParsedOf X b p := by
  obtain ⟨block, hblock, h⟩ := Except.bind_eq_ok.1 h
  obtain ⟨parts, hparts, h⟩ := Except.bind_eq_ok.1 h
  obtain rfl := (Except.ok.inj h).symm
  have hb := parseHeader_spec hblock
  rw [hb.number, Except.mapM_eq_ok_iff] at hparts
  have hspec := hparts.imp fun q part hq => parseTransaction_spec hq
  have hzip : b.transactions = b.transactions.zipIdx.map Prod.fst := by simp
  refine ⟨hb, ?_, ?_, ?_⟩
  · exact List.forall₂_map_right_iff.2 (hspec.imp fun _ _ hq => hq.1)
  · rw [hzip, List.flatMap_map]
    exact (flatMap_congr_forall₂ (hspec.imp fun _ _ hq => hq.2.1.symm)).symm
  · rw [hzip, List.flatMap_map]
    exact (flatMap_congr_forall₂ (hspec.imp fun _ _ hq => hq.2.2.symm)).symm

/-! ### The rows of a block belong to it -/

namespace ParsedOf

variable {X : CkbLib} {b : BlockView} {p : ParsedBlock}

lemma exists_tx_of_mem (h : ParsedOf X b p) {row : TransactionRow}
    (hrow : row ∈ p.transactions) :
    ∃ (i : ℕ) (tx : TransactionView), b.transactions[i]? = some tx ∧
      TxRowOf X b.number i tx row := by
  obtain ⟨q, hq, hrel⟩ := exists_of_mem_right h.transactions hrow
  exact ⟨q.2, q.1, List.mem_zipIdx_iff_getElem?.1 hq, hrel⟩

lemma exists_row_of_mem (h : ParsedOf X b p) {tx : TransactionView}
    (htx : tx ∈ b.transactions) :
    ∃ row ∈ p.transactions, row.hash = tx.hash.bytes ∧ row.blockNumber = b.number := by
  obtain ⟨i, hi⟩ := List.mem_iff_getElem?.1 htx
  have hmem : (tx, i) ∈ b.transactions.zipIdx := List.mem_zipIdx_iff_getElem?.2 hi
  obtain ⟨row, hrow, hrel⟩ := exists_of_mem_left h.transactions hmem
  exact ⟨row, hrow, hrel.hash, hrel.blockNumber⟩

lemma transactions_blockNumber (h : ParsedOf X b p) {row : TransactionRow}
    (hrow : row ∈ p.transactions) : row.blockNumber = b.number := by
  obtain ⟨i, tx, -, hrel⟩ := h.exists_tx_of_mem hrow
  exact hrel.blockNumber

/-- Every cell of the rows is the cell of an output of the block, at its position. -/
lemma mem_cells_iff (h : ParsedOf X b p) {row : CellRow} :
    row ∈ p.cells ↔ ∃ tx ∈ b.transactions, ∃ (j : ℕ) (output : CellOutput) (data : Bytes),
      tx.inner.outputs[j]? = some output ∧ tx.inner.outputsData[j]? = some data ∧
        row = cellRow X tx.hash.bytes b.number j output data := by
  simp only [h.cells, List.mem_flatMap, txCells, List.mem_map]
  constructor
  · rintro ⟨tx, htx, ⟨⟨output, data⟩, j⟩, hmem, rfl⟩
    have hget := List.mem_zipIdx_iff_getElem?.1 hmem
    rw [List.getElem?_zip_eq_some] at hget
    exact ⟨tx, htx, j, output, data, hget.1, hget.2, rfl⟩
  · rintro ⟨tx, htx, j, output, data, ho, hd, rfl⟩
    refine ⟨tx, htx, ((output, data), j), ?_, rfl⟩
    exact List.mem_zipIdx_iff_getElem?.2 (List.getElem?_zip_eq_some.2 ⟨ho, hd⟩)

lemma cells_blockNumber (h : ParsedOf X b p) {row : CellRow} (hrow : row ∈ p.cells) :
    row.blockNumber = b.number := by
  obtain ⟨tx, -, j, output, data, -, -, rfl⟩ := h.mem_cells_iff.1 hrow
  rfl

/-- Every reference is that of an input that is not null, at its position. -/
lemma mem_consumed_iff (h : ParsedOf X b p) {r : ConsumedCellRef} :
    r ∈ p.consumed ↔ ∃ tx ∈ b.transactions, ∃ (j : ℕ) (input : CellInput),
      tx.inner.inputs[j]? = some input ∧
        parseInput b.number tx.hash.bytes input j = some r := by
  simp only [h.consumed, List.mem_flatMap, parseInputs, List.mem_filterMap]
  constructor
  · rintro ⟨tx, htx, ⟨input, j⟩, hmem, hr⟩
    exact ⟨tx, htx, j, input, List.mem_zipIdx_iff_getElem?.1 hmem, hr⟩
  · rintro ⟨tx, htx, j, input, hget, hr⟩
    exact ⟨tx, htx, (input, j), List.mem_zipIdx_iff_getElem?.2 hget, hr⟩

/-- The spender a reference names is a transaction of the block. -/
lemma consumed_spec (h : ParsedOf X b p) {r : ConsumedCellRef} (hr : r ∈ p.consumed) :
    r.consumedAtBlockNumber = b.number ∧
      ∃ row ∈ p.transactions, row.hash = r.consumedByTxHash ∧ row.blockNumber = b.number := by
  obtain ⟨tx, htx, j, input, -, hparse⟩ := h.mem_consumed_iff.1 hr
  unfold parseInput at hparse
  split at hparse
  · exact absurd hparse (by simp)
  · obtain rfl := (Option.some.inj hparse).symm
    exact ⟨rfl, h.exists_row_of_mem htx⟩

end ParsedOf

end Indexer

end Cellora

/-
# What the parser loses

Some numbers of a block view do not fit the columns they are written to.  Those of the header
and the capacities make the parse fail, but counts, positions, versions and the indices of
previous outputs are replaced by `i32::MAX`, and an output without data is left out, as the
outputs are zipped with their data.  An accepted block is parsed without loss exactly if none
of this happens.
-/
import Cellora.Indexer.Runs

namespace Cellora

namespace Indexer

/-- The row has the numbers, the hashes and the counts of the block. -/
structure BlockKept (X : CkbLib) (b : BlockView) (row : BlockRow) : Prop where
  number : row.number = b.number
  hash : row.hash = b.hash.bytes
  parentHash : row.parentHash = b.parentHash.bytes
  timestampMs : row.timestampMs = b.header.inner.timestamp
  epoch : row.epoch = b.header.inner.epoch
  transactionsCount : row.transactionsCount = b.transactions.length
  proposalsCount : row.proposalsCount = b.proposalsLen
  unclesCount : row.unclesCount = b.unclesLen
  nonce : X.bigDecimalFromStr (toString b.header.inner.nonce) = some row.nonce
  dao : row.dao = b.header.inner.dao.bytes

/-- The row has the block, the position, the version, the dependencies, the witnesses and the
counts of the transaction. -/
structure TxKept (X : CkbLib) (blockNumber : ℕ) (tx : TransactionView) (i : ℕ)
    (row : TransactionRow) : Prop where
  hash : row.hash = tx.hash.bytes
  blockNumber : row.blockNumber = blockNumber
  txIndex : row.txIndex = i
  version : row.version = tx.inner.version
  cellDeps : X.cellDepsToValue tx.inner.cellDeps = .ok row.cellDeps
  headerDeps : X.headerDepsToValue tx.inner.headerDeps = .ok row.headerDeps
  witnesses : X.witnessesToValue tx.inner.witnesses = .ok row.witnesses
  inputsCount : row.inputsCount = tx.inner.inputs.length
  outputsCount : row.outputsCount = tx.inner.outputs.length

/-- The row has the block, the position, the capacity, the scripts and the data of the
output. -/
structure OutputKept (X : CkbLib) (blockNumber : ℕ) (tx : TransactionView) (output : CellOutput)
    (j : ℕ) (row : CellRow) : Prop where
  txHash : row.txHash = tx.hash.bytes
  outputIndex : row.outputIndex = j
  blockNumber : row.blockNumber = blockNumber
  capacity : row.capacityShannons = output.capacity
  lock : row.lockCodeHash = output.lock.codeHash.bytes ∧
    row.lockHashType = hashTypeOf output.lock.hashType ∧ row.lockArgs = output.lock.args ∧
    row.lockHash = (X.calcScriptHash output.lock).bytes
  type_ : row.typeCodeHash = output.type_.map (fun s => s.codeHash.bytes) ∧
    row.typeHashType = output.type_.map (fun s => hashTypeOf s.hashType) ∧
    row.typeArgs = output.type_.map (fun s => s.args) ∧
    row.typeHash = output.type_.map (fun s => (X.calcScriptHash s).bytes)
  data : tx.inner.outputsData[j]? = some row.data

/-- The reference has the previous output, and the transaction, the position and the block of
the input. -/
structure InputKept (blockNumber : ℕ) (tx : TransactionView) (input : CellInput) (j : ℕ)
    (r : ConsumedCellRef) : Prop where
  txHash : r.txHash = input.previousOutput.txHash.bytes
  outputIndex : r.outputIndex = input.previousOutput.index
  consumedByTxHash : r.consumedByTxHash = tx.hash.bytes
  consumedByInputIndex : r.consumedByInputIndex = j
  consumedAtBlockNumber : r.consumedAtBlockNumber = blockNumber

/-- The previous transaction hash of the input is all zero. -/
def isNullInput (input : CellInput) : Bool := input.previousOutput.txHash.bytes.all (· == 0)

/-- The inputs of a transaction that refer to an output, with their positions. -/
def spendingInputs (tx : TransactionView) : List (CellInput × ℕ) :=
  tx.inner.inputs.zipIdx.filter fun q => !isNullInput q.1

/-- **The rows have everything of the view that there is a column for.**  The block row has the
header and the counts of the block, there is one row for each transaction in order, and for
each transaction there is one cell for each of its outputs and one reference for each input
that is not null, in order. -/
structure Lossless (X : CkbLib) (b : BlockView) (p : ParsedBlock) : Prop where
  block : BlockKept X b p.block
  transactions : List.Forall₂ (fun q row => TxKept X b.number q.1 q.2 row) b.transactions.zipIdx
    p.transactions
  cells : ∃ parts : List (List CellRow), p.cells = parts.flatten ∧
    List.Forall₂ (fun tx rows =>
      List.Forall₂ (fun q row => OutputKept X b.number tx q.1 q.2 row) tx.inner.outputs.zipIdx
        rows) b.transactions parts
  consumed : ∃ parts : List (List ConsumedCellRef), p.consumed = parts.flatten ∧
    List.Forall₂ (fun tx refs =>
      List.Forall₂ (fun q r => InputKept b.number tx q.1 q.2 r) (spendingInputs tx) refs)
      b.transactions parts

/-- Nothing of the transaction is replaced or left out: every output has data, and the version,
the counts and the indices of the outputs it spends fit their columns. -/
structure TxFits (tx : TransactionView) : Prop where
  data : tx.inner.outputs.length ≤ tx.inner.outputsData.length
  version : tx.inner.version ≤ i32Max
  inputs : tx.inner.inputs.length ≤ i32Max
  outputs : tx.inner.outputs.length ≤ i32Max
  indices : ∀ input ∈ tx.inner.inputs, isNullInput input = false →
    input.previousOutput.index ≤ i32Max

/-- The same for the block. -/
structure Fits (b : BlockView) : Prop where
  transactions : b.transactions.length ≤ i32Max
  proposals : b.proposalsLen ≤ i32Max
  uncles : b.unclesLen ≤ i32Max
  each : ∀ tx ∈ b.transactions, TxFits tx

/-! ### Which blocks are accepted -/

/-- The fields that are checked: the numbers of the header and the capacities fit, the nonce is
a decimal, and the dependencies and witnesses can be serialised. -/
structure Accepts (X : CkbLib) (b : BlockView) : Prop where
  number : b.number ≤ i64Max
  nonce : (X.bigDecimalFromStr (toString b.header.inner.nonce)).isSome
  timestamp : b.header.inner.timestamp ≤ i64Max
  epoch : b.header.inner.epoch ≤ i64Max
  cellDeps : ∀ tx ∈ b.transactions, (X.cellDepsToValue tx.inner.cellDeps).isOk
  headerDeps : ∀ tx ∈ b.transactions, (X.headerDepsToValue tx.inner.headerDeps).isOk
  witnesses : ∀ tx ∈ b.transactions, (X.witnessesToValue tx.inner.witnesses).isOk
  capacities : ∀ tx ∈ b.transactions, ∀ q ∈ tx.inner.outputs.zip tx.inner.outputsData,
    q.1.capacity ≤ i64Max

section Accepted

variable {X : CkbLib} {b : BlockView}

lemma isOk_iff {ε α : Type} {x : Except ε α} : x.isOk = true ↔ ∃ a, x = .ok a := by
  cases x <;> simp [Except.isOk, Except.toBool]

lemma parseTransaction_isOk {blockNumber : ℤ} {i : ℕ} {tx : TransactionView} :
    (∃ parts, parseTransaction X blockNumber i tx = .ok parts) ↔
      (X.cellDepsToValue tx.inner.cellDeps).isOk ∧
      (X.headerDepsToValue tx.inner.headerDeps).isOk ∧
      (X.witnessesToValue tx.inner.witnesses).isOk ∧
      ∀ q ∈ tx.inner.outputs.zip tx.inner.outputsData, q.1.capacity ≤ i64Max := by
  constructor
  · rintro ⟨parts, h⟩
    obtain ⟨cellDeps, hcd, h⟩ := Except.bind_eq_ok.1 h
    obtain ⟨headerDeps, hhd, h⟩ := Except.bind_eq_ok.1 h
    obtain ⟨witnesses, hw, h⟩ := Except.bind_eq_ok.1 h
    obtain ⟨cells, hcells, -⟩ := Except.bind_eq_ok.1 h
    exact ⟨isOk_iff.2 ⟨_, serialized_eq_ok.1 hcd⟩, isOk_iff.2 ⟨_, serialized_eq_ok.1 hhd⟩,
      isOk_iff.2 ⟨_, serialized_eq_ok.1 hw⟩, (parseOutputs_eq_ok_iff.1 hcells).1⟩
  · rintro ⟨hcd, hhd, hw, hcap⟩
    obtain ⟨cellDeps, hcd⟩ := isOk_iff.1 hcd
    obtain ⟨headerDeps, hhd⟩ := isOk_iff.1 hhd
    obtain ⟨witnesses, hw⟩ := isOk_iff.1 hw
    exact ⟨_, Except.bind_eq_ok.2 ⟨_, serialized_eq_ok.2 hcd, Except.bind_eq_ok.2
      ⟨_, serialized_eq_ok.2 hhd, Except.bind_eq_ok.2 ⟨_, serialized_eq_ok.2 hw,
        Except.bind_eq_ok.2 ⟨_, parseOutputs_eq_ok_iff.2 ⟨hcap, rfl⟩, rfl⟩⟩⟩⟩⟩

lemma parseHeader_isOk :
    (∃ row, parseHeader X b = .ok row) ↔
      b.number ≤ i64Max ∧ (X.bigDecimalFromStr (toString b.header.inner.nonce)).isSome ∧
      b.header.inner.timestamp ≤ i64Max ∧ b.header.inner.epoch ≤ i64Max := by
  constructor
  · rintro ⟨row, h⟩
    obtain ⟨number, hnum, h⟩ := Except.bind_eq_ok.1 h
    obtain ⟨nonce, hnonce, h⟩ := Except.bind_eq_ok.1 h
    obtain ⟨timestamp, hts, h⟩ := Except.bind_eq_ok.1 h
    obtain ⟨epoch, hep, -⟩ := Except.bind_eq_ok.1 h
    exact ⟨(i64OrOverflow_eq_ok_iff.1 hnum).1,
      Option.isSome_iff_exists.2 ⟨_, parseNonce_eq_ok.1 hnonce⟩,
      (i64OrOverflow_eq_ok_iff.1 hts).1, (i64OrOverflow_eq_ok_iff.1 hep).1⟩
  · rintro ⟨hnum, hnonce, hts, hep⟩
    obtain ⟨nonce, hnonce⟩ := Option.isSome_iff_exists.1 hnonce
    exact ⟨_, Except.bind_eq_ok.2 ⟨_, i64OrOverflow_eq_ok_iff.2 ⟨hnum, rfl⟩, Except.bind_eq_ok.2
      ⟨_, parseNonce_eq_ok.2 hnonce, Except.bind_eq_ok.2 ⟨_, i64OrOverflow_eq_ok_iff.2 ⟨hts, rfl⟩,
        Except.bind_eq_ok.2 ⟨_, i64OrOverflow_eq_ok_iff.2 ⟨hep, rfl⟩, rfl⟩⟩⟩⟩⟩

/-- **Which blocks are accepted.** -/
theorem parseBlock_isOk_iff : (∃ p, parseBlock X b = .ok p) ↔ Accepts X b := by
  constructor
  · rintro ⟨p, h⟩
    obtain ⟨block, hblock, h⟩ := Except.bind_eq_ok.1 h
    obtain ⟨parts, hparts, -⟩ := Except.bind_eq_ok.1 h
    obtain ⟨hnum, hnonce, hts, hep⟩ := parseHeader_isOk.1 ⟨block, hblock⟩
    have heach : ∀ tx ∈ b.transactions, ∃ i part,
        parseTransaction X block.number i tx = .ok part := by
      intro tx htx
      obtain ⟨i, hi⟩ := List.mem_iff_getElem?.1 htx
      have hmem : (tx, i) ∈ b.transactions.zipIdx := List.mem_zipIdx_iff_getElem?.2 hi
      obtain ⟨part, -, hpart⟩ := exists_of_mem_left (Except.mapM_eq_ok_iff.1 hparts) hmem
      exact ⟨i, part, hpart⟩
    refine ⟨hnum, hnonce, hts, hep, fun tx htx => ?_, fun tx htx => ?_, fun tx htx => ?_,
      fun tx htx => ?_⟩
    all_goals
      obtain ⟨i, part, hpart⟩ := heach tx htx
      obtain ⟨hcd, hhd, hw, hcap⟩ := parseTransaction_isOk.1 ⟨part, hpart⟩
      assumption
  · intro h
    obtain ⟨block, hblock⟩ := (parseHeader_isOk (X := X)).2
      ⟨h.number, h.nonce, h.timestamp, h.epoch⟩
    have heach : ∀ q ∈ b.transactions.zipIdx,
        ∃ part, parseTransaction X block.number q.2 q.1 = .ok part ∧ True := by
      intro q hq
      have htx : q.1 ∈ b.transactions := List.fst_mem_of_mem_zipIdx hq
      obtain ⟨part, hpart⟩ := parseTransaction_isOk.2 ⟨h.cellDeps q.1 htx, h.headerDeps q.1 htx,
        h.witnesses q.1 htx, h.capacities q.1 htx⟩
      exact ⟨part, hpart, trivial⟩
    obtain ⟨parts, hparts, -⟩ := Except.mapM_ok_of_forall heach
    exact ⟨_, Except.bind_eq_ok.2 ⟨block, hblock, Except.bind_eq_ok.2 ⟨parts, hparts, rfl⟩⟩⟩

end Accepted

/-! ### What is lost -/

lemma i32OfNat_le (n : ℕ) : i32OfNat n ≤ i32Max := by
  unfold i32OfNat
  split
  · rename_i h
    exact_mod_cast h
  · exact Int.le_refl _

lemma le_of_i32OfNat_eq {n : ℕ} (h : i32OfNat n = n) : n ≤ i32Max := by
  have := i32OfNat_le n
  rw [h] at this
  exact_mod_cast this

section Lost

variable {X : CkbLib} {b : BlockView} {p : ParsedBlock}

/-- The cells of a transaction whose outputs all have data. -/
lemma forall₂_txCells (blockNumber : ℕ) {tx : TransactionView} (h : TxFits tx) :
    List.Forall₂ (fun q row => OutputKept X blockNumber tx q.1 q.2 row) tx.inner.outputs.zipIdx
      (txCells X blockNumber tx) := by
  have hlen : (tx.inner.outputs.zip tx.inner.outputsData).length = tx.inner.outputs.length := by
    rw [List.length_zip]
    exact Nat.min_eq_left h.data
  refine List.forall₂_iff_get.2 ⟨by simp [txCells, h.data], fun j h₁ h₂ => ?_⟩
  rw [List.length_zipIdx] at h₁
  have hj : i32OfNat j = j := i32OfNat_of_le (h₁.le.trans h.outputs)
  have hdata : j < tx.inner.outputsData.length := h₁.trans_le h.data
  simp only [txCells, List.get_eq_getElem, List.getElem_zipIdx, List.getElem_map, List.getElem_zip,
    Nat.zero_add]
  exact ⟨rfl, hj, rfl, rfl, ⟨rfl, rfl, rfl, rfl⟩, ⟨rfl, rfl, rfl, rfl⟩,
    List.getElem?_eq_getElem hdata⟩

/-- The references of a list of inputs that fit. -/
lemma forall₂_parseInput (blockNumber : ℕ) (tx : TransactionView) {qs : List (CellInput × ℕ)}
    (h : ∀ q ∈ qs, q.2 ≤ i32Max ∧ (isNullInput q.1 = false →
      q.1.previousOutput.index ≤ i32Max)) :
    List.Forall₂ (fun q r => InputKept blockNumber tx q.1 q.2 r)
      (qs.filter fun q => !isNullInput q.1)
      (qs.filterMap fun q => parseInput blockNumber tx.hash.bytes q.1 q.2) := by
  induction qs with
  | nil => exact .nil
  | cons q qs ih =>
      obtain ⟨⟨hpos, hindex⟩, hqs⟩ := List.forall_mem_cons.1 h
      rw [List.filterMap_cons]
      by_cases hnull : isNullInput q.1 = true
      · have hnone : parseInput blockNumber tx.hash.bytes q.1 q.2 = none := if_pos hnull
        rw [List.filter_cons_of_neg (by simp [hnull]), hnone]
        exact ih hqs
      · have hsome : parseInput blockNumber tx.hash.bytes q.1 q.2 = some _ := if_neg hnull
        rw [List.filter_cons_of_pos (by simp [hnull]), hsome]
        refine .cons ⟨rfl, ?_, rfl, ?_, rfl⟩ (ih hqs)
        · exact i32OfNat_of_le (hindex (by simpa using hnull))
        · exact i32OfNat_of_le hpos

/-- A block that fits is parsed without loss. -/
lemma ParsedOf.lossless (h : ParsedOf X b p) (hfits : Fits b) : Lossless X b p := by
  refine ⟨?_, ?_, ?_, ?_⟩
  · exact {
      number := h.block.number
      hash := h.block.hash
      parentHash := h.block.parentHash
      timestampMs := h.block.timestampMs
      epoch := h.block.epoch
      transactionsCount := by
        rw [h.block.transactionsCount, i32OfNat_of_le hfits.transactions]
      proposalsCount := by rw [h.block.proposalsCount, i32OfNat_of_le hfits.proposals]
      unclesCount := by rw [h.block.unclesCount, i32OfNat_of_le hfits.uncles]
      nonce := h.block.nonce
      dao := h.block.dao }
  · have hmem : ∀ q ∈ b.transactions.zipIdx, q.2 ≤ i32Max ∧ TxFits q.1 := by
      intro q hq
      have hlt := List.snd_lt_of_mem_zipIdx hq
      refine ⟨?_, hfits.each q.1 (List.fst_mem_of_mem_zipIdx hq)⟩
      have := hfits.transactions
      omega
    refine ((List.forall₂_and_left _ _).2 ⟨hmem, h.transactions⟩).imp ?_
    rintro q row ⟨⟨hpos, htx⟩, hrow⟩
    exact {
      hash := hrow.hash
      blockNumber := hrow.blockNumber
      txIndex := by rw [hrow.txIndex, i32OfNat_of_le hpos]
      version := by rw [hrow.version, i32OfNat_of_le htx.version]
      cellDeps := hrow.cellDeps
      headerDeps := hrow.headerDeps
      witnesses := hrow.witnesses
      inputsCount := by rw [hrow.inputsCount, i32OfNat_of_le htx.inputs]
      outputsCount := by rw [hrow.outputsCount, i32OfNat_of_le htx.outputs] }
  · refine ⟨b.transactions.map (txCells X b.number), ?_, ?_⟩
    · rw [h.cells, List.flatMap_def]
    · rw [List.forall₂_map_right_iff, List.forall₂_same]
      exact fun tx htx => forall₂_txCells _ (hfits.each tx htx)
  · refine ⟨b.transactions.map (parseInputs b.number), ?_, ?_⟩
    · rw [h.consumed, List.flatMap_def]
    · rw [List.forall₂_map_right_iff, List.forall₂_same]
      intro tx htx
      refine forall₂_parseInput _ _ fun q hq => ⟨?_, ?_⟩
      · have hlt := List.snd_lt_of_mem_zipIdx hq
        have := (hfits.each tx htx).inputs
        omega
      · exact (hfits.each tx htx).indices q.1 (List.fst_mem_of_mem_zipIdx hq)

/-- What was parsed without loss fits. -/
lemma ParsedOf.fits (h : ParsedOf X b p) (hl : Lossless X b p) : Fits b := by
  refine ⟨?_, ?_, ?_, fun tx htx => ?_⟩
  · exact le_of_i32OfNat_eq (h.block.transactionsCount.symm.trans hl.block.transactionsCount)
  · exact le_of_i32OfNat_eq (h.block.proposalsCount.symm.trans hl.block.proposalsCount)
  · exact le_of_i32OfNat_eq (h.block.unclesCount.symm.trans hl.block.unclesCount)
  -- the numbers of the row are at most `i32::MAX`, and equal to those of the transaction
  obtain ⟨i, hi⟩ := List.mem_iff_getElem?.1 htx
  have hmem : (tx, i) ∈ b.transactions.zipIdx := List.mem_zipIdx_iff_getElem?.2 hi
  obtain ⟨row, hrow, hkept⟩ := exists_of_mem_left hl.transactions hmem
  obtain ⟨i', tx', -, hof⟩ := h.exists_tx_of_mem hrow
  have hversion := i32OfNat_le tx'.inner.version
  have hinputs := i32OfNat_le tx'.inner.inputs.length
  have houtputs := i32OfNat_le tx'.inner.outputs.length
  rw [← hof.version, hkept.version] at hversion
  rw [← hof.inputsCount, hkept.inputsCount] at hinputs
  rw [← hof.outputsCount, hkept.outputsCount] at houtputs
  refine ⟨?_, by exact_mod_cast hversion, by exact_mod_cast hinputs, by exact_mod_cast houtputs,
    fun input hinput hnull => ?_⟩
  · -- the last output has data
    obtain ⟨parts, -, hparts⟩ := hl.cells
    obtain ⟨rows, -, hrows⟩ := exists_of_mem_left hparts htx
    rcases Nat.eq_zero_or_pos tx.inner.outputs.length with h0 | hpos
    · omega
    · have hlast : (tx.inner.outputs[tx.inner.outputs.length - 1], tx.inner.outputs.length - 1) ∈
          tx.inner.outputs.zipIdx :=
        List.mem_zipIdx_iff_getElem?.2 (List.getElem?_eq_getElem _)
      obtain ⟨cell, -, hcell⟩ := exists_of_mem_left hrows hlast
      have := (List.getElem?_eq_some_iff.1 hcell.data).1
      simp only at this
      omega
  · obtain ⟨parts, hflat, hparts⟩ := hl.consumed
    obtain ⟨refs, hrefs, hkepts⟩ := exists_of_mem_left hparts htx
    obtain ⟨j, hj⟩ := List.mem_iff_getElem?.1 hinput
    have hspend : (input, j) ∈ spendingInputs tx :=
      List.mem_filter.2 ⟨List.mem_zipIdx_iff_getElem?.2 hj, by simp [hnull]⟩
    obtain ⟨r, hr, hkeptr⟩ := exists_of_mem_left hkepts hspend
    have hrp : r ∈ p.consumed := by
      rw [hflat]
      exact List.mem_flatten.2 ⟨refs, hrefs, hr⟩
    obtain ⟨tx'', -, j', input', -, hparse⟩ := h.mem_consumed_iff.1 hrp
    have hle : r.outputIndex ≤ i32Max := by
      unfold parseInput at hparse
      split at hparse
      · exact absurd hparse (by simp)
      · rw [← Option.some.inj hparse]
        exact i32OfNat_le _
    rw [hkeptr.outputIndex] at hle
    exact_mod_cast hle

end Lost

/-- **When the parser loses nothing.**  Every block view is either rejected or parsed without
loss exactly if it fits whenever it is accepted. -/
theorem parse_lossless_or_error_iff (X : CkbLib) (b : BlockView) :
    (∀ p, parseBlock X b = .ok p → Lossless X b p) ↔ (Accepts X b → Fits b) := by
  constructor
  · intro h haccepts
    obtain ⟨p, hp⟩ := parseBlock_isOk_iff.2 haccepts
    exact (parseBlock_spec hp).fits (h p hp)
  · intro h p hp
    exact (parseBlock_spec hp).lossless (h (parseBlock_isOk_iff.1 ⟨p, hp⟩))

namespace Sample

/-- A transaction with one output, for which the node sends no data. -/
def bareTx : TransactionView where
  hash := H256.rep 0xa1
  inner := { (tx 0xa1 []).inner with outputsData := [] }

/-- A block with that transaction. -/
def bareBlock : BlockView := block 1 0x11 0x10 [bareTx]

end Sample

/-- **An output without data is dropped.**  The block is accepted, its transaction is counted
with one output, and no cell is written for it. -/
theorem output_without_data_is_dropped :
    ∃ p, parseBlock Sample.lib Sample.bareBlock = .ok p ∧ p.cells = [] ∧
      p.transactions.map TransactionRow.outputsCount = [1] ∧
      ¬ Lossless Sample.lib Sample.bareBlock p := by
  have hok : (parseBlock Sample.lib Sample.bareBlock).isOk = true := by decide +kernel
  obtain ⟨p, hp⟩ := isOk_iff.1 hok
  have hspec := parseBlock_spec hp
  refine ⟨p, hp, hspec.cells, ?_, fun hl => ?_⟩
  · have hrows : ((parseBlock Sample.lib Sample.bareBlock).map fun p =>
        p.transactions.map TransactionRow.outputsCount) = .ok [1] := by
      decide +kernel
    rw [hp] at hrows
    exact Except.ok.inj hrows
  · have hdata := ((hspec.fits hl).each Sample.bareTx List.mem_cons_self).data
    exact absurd hdata (by decide)

end Indexer

end Cellora

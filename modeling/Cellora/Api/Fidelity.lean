/-
# From the chain to the wire

A block that the indexer has committed is shown by the API as the node returned it, as long
as it stays stored.  The argument goes through the rows: a cell keeps the columns it was
created with, its spend columns are all `NULL` or all set, and every stored hash has 32
bytes.  This holds in every state of every run, whatever the node answers and however the
commits end.
-/
import Cellora.Api.Walk

namespace Cellora

namespace Api

open Indexer

/-! ### Every state of a run is a valid snapshot -/

section Rows

variable {X : CkbLib} {stored : List (StoredBlock X)} {db : Db}

lemma asI16_range (t : HashType) : 0 ≤ t.asI16 ∧ t.asI16 ≤ 3 := by
  cases t <;> decide

/-- Up to its spend columns a stored cell is the row of an output. -/
lemma exists_output_of_mem (h : Holds stored db) {c : CellRecord} (hc : c ∈ db.cells) :
    ∃ b ∈ stored, ∃ tx ∈ b.view.transactions, ∃ (j : ℕ) (output : CellOutput) (data : Bytes),
      c.restore = CellRecord.ofRow (cellRow X tx.hash.bytes b.number j output data) := by
  obtain ⟨b, hb, hcb⟩ := h.exists_of_mem_cells hc
  obtain ⟨row, hrow, heq⟩ := List.mem_map.1 hcb
  obtain ⟨tx, htx, j, output, data, -, -, rfl⟩ := b.spec.mem_cells_iff.1 hrow
  exact ⟨b, hb, tx, htx, j, output, data, heq.symm⟩

lemma width_of_mem_transactions (h : Holds stored db) {t : TransactionRow}
    (ht : t ∈ db.transactions) : t.hash.length = 32 := by
  rw [h.transactions] at ht
  obtain ⟨b, -, htb⟩ := List.mem_flatMap.1 ht
  obtain ⟨i, tx, -, hrow⟩ := b.spec.exists_tx_of_mem htb
  rw [hrow.hash]
  exact tx.hash.width

lemma width_of_mem_blocks (h : Holds stored db) {row : BlockRow} (hrow : row ∈ db.blocks) :
    row.hash.length = 32 := by
  rw [h.blocks] at hrow
  obtain ⟨b, -, rfl⟩ := List.mem_map.1 hrow
  rw [b.block_hash]
  exact b.view.hash.width

/-- The four columns of the type script are filled together, from the type script of the
output. -/
structure TypeColumnsOf (X : CkbLib) (type_ : Option Script) (c : CellRecord) : Prop where
  codeHash : c.typeCodeHash = type_.map fun s => s.codeHash.bytes
  hashType : c.typeHashType = type_.map fun s => (hashTypeOf s.hashType).asI16
  args : c.typeArgs = type_.map fun s => s.args
  hash : c.typeHash = type_.map fun s => (X.calcScriptHash s).bytes

lemma typeColumnsOf_restore {c : CellRecord} {txHash : Bytes} {number : ℤ} {j : ℕ}
    {output : CellOutput} {data : Bytes}
    (heq : c.restore = CellRecord.ofRow (cellRow X txHash number j output data)) :
    TypeColumnsOf X output.type_ c where
  codeHash := congrArg CellRecord.typeCodeHash heq
  hashType := (congrArg CellRecord.typeHashType heq).trans (Option.map_map _ _ _)
  args := congrArg CellRecord.typeArgs heq
  hash := congrArg CellRecord.typeHash heq

/-- The columns an output fills have the stored widths, whatever the spend columns are. -/
lemma storedWidths_of_restore {c : CellRecord} {txHash : H256} {number : ℤ} {j : ℕ}
    {output : CellOutput} {data g : Bytes}
    (heq : c.restore = CellRecord.ofRow (cellRow X txHash.bytes number j output data))
    (hg : g.length = 32) (hspend : ∀ h ∈ c.consumedByTxHash, h.length = 32) :
    StoredWidths (c.withBlock g) := by
  have htype := typeColumnsOf_restore heq
  refine {
    txHash := ?_
    blockHash := hg
    lockCodeHash := ?_
    lockHashType := ?_
    lockHash := ?_
    typeCodeHash := ?_
    typeHashType := ?_
    typeHash := ?_
    consumedByTxHash := hspend }
  · rw [show (c.withBlock g).txHash = txHash.bytes from congrArg CellRecord.txHash heq]
    exact txHash.width
  · rw [show (c.withBlock g).lockCodeHash = output.lock.codeHash.bytes from
      congrArg CellRecord.lockCodeHash heq]
    exact output.lock.codeHash.width
  · rw [show (c.withBlock g).lockHashType = (hashTypeOf output.lock.hashType).asI16 from
      congrArg CellRecord.lockHashType heq]
    exact asI16_range _
  · rw [show (c.withBlock g).lockHash = (X.calcScriptHash output.lock).bytes from
      congrArg CellRecord.lockHash heq]
    exact (X.calcScriptHash output.lock).width
  · intro h hmem
    obtain ⟨s, -, rfl⟩ := Option.map_eq_some_iff.1 (htype.codeHash.symm.trans hmem)
    exact s.codeHash.width
  · intro t hmem
    obtain ⟨s, -, rfl⟩ := Option.map_eq_some_iff.1 (htype.hashType.symm.trans hmem)
    exact asI16_range _
  · intro h hmem
    obtain ⟨s, -, rfl⟩ := Option.map_eq_some_iff.1 (htype.hash.symm.trans hmem)
    exact (X.calcScriptHash s).width

/-- The tables of a run are a valid snapshot for the queries of the API. -/
lemma validSnapshot_of_holds (h : Holds stored db) : ValidSnapshot db := by
  refine {
    widths := ?_
    columns := ?_
    blockNumbers := h.numbers
    cellKeys := h.cellKeys
    foreignKey := ?_ }
  · intro c hc row hrow
    obtain ⟨b, -, tx, -, j, output, data, heq⟩ := exists_output_of_mem h hc
    refine storedWidths_of_restore heq (width_of_mem_blocks h hrow) ?_
    -- a recorded spender is a stored transaction
    intro g hg
    rcases h.named c hc with ⟨hnone, -⟩ | ⟨g', -, -, hg', -, -, t, ht, hth, -⟩
    · rw [hnone] at hg
      exact nomatch hg
    · obtain rfl : g' = g := Option.some.inj (hg'.symm.trans hg)
      rw [← hth]
      exact width_of_mem_transactions h ht
  · intro c hc
    obtain ⟨b, -, tx, -, j, output, data, heq⟩ := exists_output_of_mem h hc
    have hnumber : c.blockNumber = b.number := congrArg CellRecord.blockNumber heq
    have hindex : c.outputIndex = i32OfNat j := congrArg CellRecord.outputIndex heq
    have hle : b.number ≤ i64Max := b.spec.block.number_le
    rw [hnumber, hindex]
    constructor
    · simp only [InI64]
      omega
    · unfold InI32 i32OfNat
      split <;> omega
  · intro c hc
    obtain ⟨b, hb, hcb⟩ := h.cells_blockNumber hc
    rw [hcb, h.blockNumbers]
    exact List.mem_map_of_mem hb

/-- The filter on liveness looks at one of the three spend columns and the rendering at all
of them; in the tables of a run they agree. -/
lemma isNone_spendColumns (h : Holds stored db) {x : Cell} (hx : x ∈ db.joinBlocks) :
    (spendColumns x).isNone = x.consumedByTxHash.isNone := by
  obtain ⟨c, hc, b, -, -, rfl⟩ := Db.mem_joinBlocks.1 hx
  rw [spendColumns, CellRecord.withBlock]
  rcases h.named c hc with ⟨h₁, h₂, h₃⟩ | ⟨g, i, n, h₁, h₂, h₃, -⟩
  · rw [h₁]
    rfl
  · rw [h₁, h₂, h₃]
    rfl

/-- Every row of the join renders, and it is shown as live exactly if no spender is
recorded. -/
lemma renderCell_of_holds (h : Holds stored db) {x : Cell} (hx : x ∈ db.joinBlocks)
    (includeData : Bool) (network : Network) :
    ∃ r, renderCell includeData network x = .ok r ∧ RenderOf includeData network x r ∧
      r.isLive = x.consumedByTxHash.isNone := by
  have hw := ((validSnapshot_of_holds h).toStoredRows.widths_of_mem hx).1
  obtain ⟨r, hr, hof⟩ := renderCell_of_widths includeData network hw
  refine ⟨r, hr, hof, ?_⟩
  rw [hof.isLive, ← isNone_spendColumns h hx, ← hof.consumedBy, Option.isNone_map]

/-- What a query with a liveness filter returns matches the filter. -/
lemma isNone_of_mem_fetchCells {filter : ScriptFilter} {isLive : Bool}
    {cursor : Option CellCursor} {n : ℕ} {x : Cell}
    (hx : x ∈ fetchCells filter (parseLiveness (some isLive)) cursor n db) :
    x.consumedByTxHash.isNone = isLive := by
  have hquery : ∀ hashMatches : Cell → Bool,
      x ∈ db.queryCells hashMatches (parseLiveness (some isLive)) cursor n →
      x.consumedByTxHash.isNone = isLive := by
    intro hashMatches hx
    obtain ⟨hx, -⟩ := Keyset.mem_remaining.1 (List.mem_of_mem_take hx)
    have hcond := (Bool.and_eq_true_iff.1 (List.mem_filter.1 hx).2).2
    cases isLive <;> simpa [Db.matchesLiveness, parseLiveness, LivenessFilter.asBool] using hcond
  cases filter with
  | lock hash => exact hquery _ hx
  | type hash => exact hquery _ hx

end Rows

/-! ### One output on the wire -/

/-- A script as the API shows it. -/
def scriptOnWire (s : Script) : ScriptResponse := ⟨s.codeHash, s.hashType.toString, s.args⟩

/-- The response shows the output at position `j` of the transaction `tx` of the block
`b`. -/
structure WireOf (X : CkbLib) (b : BlockView) (tx : TransactionView) (j : ℕ)
    (output : CellOutput) (data : Bytes) (includeData : Bool) (r : CellResponse) : Prop where
  txHash : r.txHash = tx.hash
  outputIndex : r.outputIndex = j
  blockNumber : r.blockNumber = b.number
  blockHash : r.blockHash = b.hash
  capacityShannons : r.capacityShannons = output.capacity
  lock : r.lock = scriptOnWire output.lock
  lockHash : r.lockHash = X.calcScriptHash output.lock
  /-- The type script is shown exactly if the output has one. -/
  typeScript : r.typeScript = output.type_.map scriptOnWire
  typeHash : r.typeHash = output.type_.map X.calcScriptHash
  data : r.data = if includeData then some data else none

section Wire

variable {X : CkbLib} {includeData : Bool} {network : Network}

lemma hashTypeName_hashTypeOf (t : ScriptHashType) :
    hashTypeName (hashTypeOf t).asI16 = t.toString := by
  cases t <;> decide

lemma ScriptOf.eq_scriptOnWire {s : Script} {r : ScriptResponse}
    (h : ScriptOf s.codeHash.bytes (hashTypeOf s.hashType).asI16 s.args r) :
    r = scriptOnWire s := by
  obtain ⟨hcode, htype, hargs⟩ := h
  rw [hashTypeName_hashTypeOf] at htype
  obtain ⟨codeHash, hashType, args⟩ := r
  rw [scriptOnWire, ← H256.ext_bytes hcode, ← htype, ← hargs]

/-- Rendering gives back the output a row was created from. -/
lemma RenderOf.wireOf {c : CellRecord} {b : BlockView} {tx : TransactionView} {j : ℕ}
    {output : CellOutput} {data : Bytes} {r : CellResponse}
    (heq : c.restore = CellRecord.ofRow (cellRow X tx.hash.bytes b.number j output data))
    (hj : j ≤ i32Max) (h : RenderOf includeData network (c.withBlock b.hash.bytes) r) :
    WireOf X b tx j output data includeData r := by
  have htype := h.typeScript
  have htypeHash := h.typeHash
  have hcols : typeColumns (c.withBlock b.hash.bytes) = output.type_.map fun s =>
      (s.codeHash.bytes, (hashTypeOf s.hashType).asI16, s.args, (X.calcScriptHash s).bytes) := by
    obtain ⟨h₁, h₂, h₃, h₄⟩ := typeColumnsOf_restore heq
    rw [typeColumns, CellRecord.withBlock, h₁, h₂, h₃, h₄]
    cases output.type_ <;> rfl
  have hhash : (c.withBlock b.hash.bytes).typeHash =
      output.type_.map fun s => (X.calcScriptHash s).bytes := congrArg CellRecord.typeHash heq
  rw [hcols] at htype
  rw [hhash] at htypeHash
  refine {
    txHash := H256.ext_bytes (h.txHash.trans (congrArg CellRecord.txHash heq))
    outputIndex := ?_
    blockNumber := h.blockNumber.trans (congrArg CellRecord.blockNumber heq)
    blockHash := H256.ext_bytes h.blockHash
    capacityShannons := h.capacityShannons.trans (congrArg CellRecord.capacityShannons heq)
    lock := ?_
    lockHash := H256.ext_bytes (h.lockHash.trans (congrArg CellRecord.lockHash heq))
    typeScript := ?_
    typeHash := ?_
    data := ?_ }
  · rw [h.outputIndex, show (c.withBlock b.hash.bytes).outputIndex = i32OfNat j from
      congrArg CellRecord.outputIndex heq, i32OfNat_of_le hj]
  · have hlock := h.lock
    rw [show (c.withBlock b.hash.bytes).lockCodeHash = output.lock.codeHash.bytes from
        congrArg CellRecord.lockCodeHash heq,
      show (c.withBlock b.hash.bytes).lockHashType = (hashTypeOf output.lock.hashType).asI16 from
        congrArg CellRecord.lockHashType heq,
      show (c.withBlock b.hash.bytes).lockArgs = output.lock.args from
        congrArg CellRecord.lockArgs heq] at hlock
    exact hlock.eq_scriptOnWire
  · generalize r.typeScript = shown at htype
    cases hout : output.type_ with
    | none =>
        rw [hout] at htype
        cases htype
        rfl
    | some s =>
        rw [hout] at htype
        cases htype with
        | some hof => exact congrArg some hof.eq_scriptOnWire
  · cases hout : output.type_ with
    | none => simpa [hout] using htypeHash
    | some s =>
        rw [hout] at htypeHash
        obtain ⟨g, hg, hbytes⟩ := Option.map_eq_some_iff.1 htypeHash
        rw [hg, Option.map_some, H256.ext_bytes hbytes]
  · rw [h.data, show (c.withBlock b.hash.bytes).data = data from congrArg CellRecord.data heq]

end Wire

/-- The outputs of every transaction have data, and their number fits the column. -/
structure CountsFit (b : BlockView) : Prop where
  paired : ∀ tx ∈ b.transactions, tx.inner.outputsData.length = tx.inner.outputs.length
  outputs : ∀ tx ∈ b.transactions, tx.inner.outputs.length < i32Max

/-- The cell of one output, while the tables hold its block. -/
lemma exists_cell_of_holds {X : CkbLib} {stored : List (StoredBlock X)} {db : Db}
    (h : Holds stored db) {x : StoredBlock X} (hx : x ∈ stored) (hfit : CountsFit x.view)
    {tx : TransactionView} (htx : tx ∈ x.view.transactions) {j : ℕ} {output : CellOutput}
    (hout : tx.inner.outputs[j]? = some output) :
    ∃ data c, tx.inner.outputsData[j]? = some data ∧ j < i32Max ∧
      (db.cells.filter fun c => c.key = (tx.hash.bytes, (j : ℤ))) = [c] ∧
      (db.joinBlocks.filter fun y => (y.txHash, y.outputIndex) = (tx.hash.bytes, (j : ℤ))) =
        [c.withBlock x.view.hash.bytes] ∧
      c.restore = CellRecord.ofRow (cellRow X tx.hash.bytes x.number j output data) := by
  obtain ⟨hlt, -⟩ := List.getElem?_eq_some_iff.1 hout
  have hj : j < i32Max := hlt.trans (hfit.outputs tx htx)
  obtain ⟨data, hdata⟩ : ∃ data, tx.inner.outputsData[j]? = some data :=
    ⟨_, List.getElem?_eq_getElem (by rw [hfit.paired tx htx]; exact hlt)⟩
  -- the row was created with the block, and only its spend columns can have changed
  have hrow : cellRow X tx.hash.bytes x.number j output data ∈ x.rows.cells :=
    x.spec.mem_cells_iff.2 ⟨tx, htx, j, output, data, hout, hdata, rfl⟩
  have hmem : CellRecord.ofRow (cellRow X tx.hash.bytes x.number j output data) ∈
      db.cells.map CellRecord.restore := by
    rw [h.created]
    exact List.mem_flatMap.2 ⟨x, hx, List.mem_map_of_mem hrow⟩
  obtain ⟨c, hc, heq⟩ := List.mem_map.1 hmem
  have hkey : c.key = (tx.hash.bytes, (j : ℤ)) := by
    rw [← CellRecord.key_restore, heq, CellRecord.key_ofRow, CellRow.key, cellRow,
      i32OfNat_of_le hj.le]
  have hnumber : c.blockNumber = x.number := congrArg CellRecord.blockNumber heq
  refine ⟨data, c, hdata, hj, ?_, ?_, heq⟩
  · rw [← hkey]
    exact Table.filter_key_eq h.cellKeys hc
  · have hjoin : c.withBlock x.view.hash.bytes ∈ db.joinBlocks := by
      refine Db.mem_joinBlocks.2 ⟨c, hc, x.rows.block, ?_, ?_, ?_⟩
      · rw [h.blocks]
        exact List.mem_map_of_mem hx
      · rw [hnumber, x.block_number]
      · rw [x.block_hash]
    have hnd := h.cellKeys.sublist (Db.joinBlocks_sublist h.numbers)
    rw [← hkey]
    exact Table.filter_key_eq hnd hjoin

/-- In every run, for every block that a step commits: as long as it stays stored there is
exactly one row for each of its outputs, and rendering it succeeds and returns the values of
the output.  In every state, what a query with a liveness filter returns is rendered with
that liveness. -/
theorem chain_to_wire (X : CkbLib) (cfg : Config) (s : Poller)
    (hs : Machine.Reaches (exec X cfg) (fun _ => True) (initial cfg) s) :
    (∀ (env : StepEnv) (b : BlockView), CommitsBlock X cfg s env b → CountsFit b →
      ∀ s', Machine.Stays (exec X cfg) (fun s => StoresBlock b s.db)
          (exec X cfg s (.step env)) s' →
        ∀ tx ∈ b.transactions, ∀ (j : ℕ) (output : CellOutput),
          tx.inner.outputs[j]? = some output →
          ∃ data c, tx.inner.outputsData[j]? = some data ∧
            (s'.db.cells.filter fun c => c.key = (tx.hash.bytes, (j : ℤ))) = [c] ∧
            TypeColumnsOf X output.type_ c ∧
            (s'.db.joinBlocks.filter fun y =>
                (y.txHash, y.outputIndex) = (tx.hash.bytes, (j : ℤ))) =
              [c.withBlock b.hash.bytes] ∧
            ∀ includeData network, ∃ r,
              renderCell includeData network (c.withBlock b.hash.bytes) = .ok r ∧
                WireOf X b tx j output data includeData r) ∧
    (∀ (filter : ScriptFilter) (isLive : Bool) (cursor : Option CellCursor) (limit : ℕ),
      ∀ x ∈ fetchCells filter (parseLiveness (some isLive)) cursor limit s.db,
        ∀ includeData network, ∃ r,
          renderCell includeData network x = .ok r ∧ r.isLive = isLive) := by
  constructor
  · intro env b hcommit hfit s' hstays tx htx j output hout
    obtain ⟨stored, hh, x, hx, rfl⟩ := exists_holds_of_stays hs hcommit hstays
    obtain ⟨data, c, hdata, hj, hone, hjoin, heq⟩ := exists_cell_of_holds hh hx hfit htx hout
    refine ⟨data, c, hdata, hone, typeColumnsOf_restore heq, hjoin, ?_⟩
    intro includeData network
    have hmem : c.withBlock x.view.hash.bytes ∈ s'.db.joinBlocks := by
      have hin := List.mem_singleton_self (c.withBlock x.view.hash.bytes)
      rw [← hjoin] at hin
      exact List.mem_of_mem_filter hin
    obtain ⟨r, hr, hof, -⟩ := renderCell_of_holds hh hmem includeData network
    exact ⟨r, hr, hof.wireOf heq hj.le⟩
  · intro filter isLive cursor limit x hx includeData network
    obtain ⟨stored, hh⟩ := exists_holds cfg hs
    obtain ⟨r, hr, -, hlive⟩ :=
      renderCell_of_holds hh (mem_joinBlocks_of_mem_fetchCells hx) includeData network
    exact ⟨r, hr, hlive.trans (isNone_of_mem_fetchCells hx)⟩

namespace Sample

open Indexer.Sample

/-- The round that indexes the first block of the left branch. -/
def firstRound : StepEnv := .serving left

/-- The state after the next round, in which the first output is spent. -/
def spentState : Poller :=
  exec lib cfg (exec lib cfg (initial cfg) (.step firstRound)) (.step firstRound)

lemma genesis_committed : CommitsBlock lib cfg (initial cfg) firstRound genesis :=
  commitsBlock_of_indexed rfl (by decide +kernel)

lemma genesis_countsFit : CountsFit genesis := ⟨by decide, by decide⟩

lemma genesis_stays : Machine.Stays (exec lib cfg) (fun s => StoresBlock genesis s.db)
    (exec lib cfg (initial cfg) (.step firstRound)) spentState :=
  .move (.step firstRound) (by decide +kernel) (.here (by decide +kernel))

end Sample

/-- The output of the genesis block, after it has been spent. -/
theorem chain_to_wire_sample :
    ∃ data c, (Sample.spentState.db.cells.filter fun c =>
        c.key = ((H256.rep 0xa0).bytes, (0 : ℤ))) = [c] ∧
      ∃ r, renderCell true .mainnet (c.withBlock Indexer.Sample.genesis.hash.bytes) = .ok r ∧
        WireOf Indexer.Sample.lib Indexer.Sample.genesis
          (Indexer.Sample.tx 0xa0 [Indexer.Sample.out 0]) 0
          ⟨6100000000, Indexer.Sample.lock, none⟩ data true r := by
  obtain ⟨hwire, -⟩ := chain_to_wire Indexer.Sample.lib Indexer.Sample.cfg
    (initial Indexer.Sample.cfg) Machine.Reaches.refl
  obtain ⟨data, c, -, hone, -, -, hrender⟩ := hwire Sample.firstRound Indexer.Sample.genesis
    Sample.genesis_committed Sample.genesis_countsFit Sample.spentState Sample.genesis_stays
    (Indexer.Sample.tx 0xa0 [Indexer.Sample.out 0]) (List.mem_singleton.2 rfl) 0 _ rfl
  exact ⟨data, c, hone, hrender true .mainnet⟩

end Api

end Cellora

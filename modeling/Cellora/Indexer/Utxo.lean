/-
# The tables refine the ledger

Over a node whose hash-linked chains are consensus-valid, the tables are a function of the
chain of stored blocks: one transaction row for each transaction, one cell row for each
output, and the spend columns of a cell are the spend of the output along the chain, `NULL`
if there is none.  The cells are changed in place by insertion, marking, restoring and
cascading deletes; the refinement says that after any run the result is the same as if the
stored blocks had been indexed on an empty database.
-/
import Cellora.Ckb.Ledger
import Cellora.Indexer.Runs

namespace Cellora

namespace Indexer

open Ledger (Output Spend ConsensusValid outputs spends spentBy)

/-- The record of an unspent output. -/
def outputRecord (X : CkbLib) (o : Output) : CellRecord :=
  { CellRecord.ofRow
      (cellRow X o.point.txHash.bytes o.height o.point.index o.output o.data) with
    outputIndex := o.point.index }

/-- Record a spend. -/
def markSpent (s : Spend) (c : CellRecord) : CellRecord :=
  { c with
    consumedByTxHash := some s.txHash.bytes
    consumedByInputIndex := some s.inputIndex
    consumedAtBlockNumber := some s.height }

/-- The record of an output of a chain. -/
def record (X : CkbLib) (chain : List BlockView) (o : Output) : CellRecord :=
  match spentBy chain o.point with
  | some s => markSpent s (outputRecord X o)
  | none => outputRecord X o

/-- The tables hold the ledger of a chain, and nothing else. -/
structure LedgerOf (X : CkbLib) (chain : List BlockView) (db : Db) : Prop where
  blocks : List.Forall₂ (BlockRowOf X) chain db.blocks
  transactions : List.Forall₂ (fun t row => TxRowOf X t.height t.index t.tx row)
    (Ledger.transactions chain) db.transactions
  cells : db.cells = (outputs chain).map (record X chain)
  /-- The primary keys. -/
  transactionKeys : (db.transactions.map TransactionRow.hash).Nodup
  cellKeys : (db.cells.map CellRecord.key).Nodup

/-- Every hash-linked chain the node can serve is consensus-valid. -/
def ConsensusNode (U : BlockView → Prop) : Prop :=
  ∀ chain, BlockView.Linked chain → (∀ b ∈ chain, U b) → ConsensusValid chain

/-! ### The rows of one block -/

section Block

variable {X : CkbLib}

lemma H256.all_zero_iff {h : H256} : h.bytes.all (· == 0) = true ↔ h = H256.rep 0 := by
  rw [← H256.bytes_inj, H256.rep, List.eq_replicate_iff, List.all_eq_true]
  simp only [beq_iff_eq, h.width, true_and]

/-- The reference the parser makes of a spend. -/
def refOf (s : Spend) : ConsumedCellRef where
  txHash := s.point.txHash.bytes
  outputIndex := i32OfNat s.point.index
  consumedByTxHash := s.txHash.bytes
  consumedByInputIndex := i32OfNat s.inputIndex
  consumedAtBlockNumber := s.height

/-- The references of a block are those of its spends. -/
lemma StoredBlock.mem_consumed_iff (b : StoredBlock X) {r : ConsumedCellRef} :
    r ∈ b.rows.consumed ↔ ∃ s ∈ spends [b.view], ¬ s.point.IsNull ∧ r = refOf s := by
  rw [b.spec.mem_consumed_iff]
  constructor
  · rintro ⟨tx, htx, j, input, hget, hr⟩
    unfold parseInput at hr
    split at hr
    · exact absurd hr (by simp)
    · rename_i hnull
      refine ⟨⟨input.previousOutput, tx.hash, j, b.view.number⟩,
        Ledger.mem_spends_singleton_iff.2 ⟨tx, htx, j, input, hget, rfl⟩, ?_, ?_⟩
      · exact fun h => hnull (H256.all_zero_iff.2 h)
      · exact (Option.some.inj hr).symm
  · rintro ⟨s, hs, hnull, rfl⟩
    obtain ⟨tx, htx, j, input, hget, rfl⟩ := Ledger.mem_spends_singleton_iff.1 hs
    refine ⟨tx, htx, j, input, hget, ?_⟩
    rw [parseInput, if_neg fun h => hnull (H256.all_zero_iff.1 h)]
    rfl

lemma map_txCells {n : ℕ} {tx : TransactionView}
    (hlen : tx.inner.outputsData.length = tx.inner.outputs.length)
    (hidx : ∀ o ∈ Ledger.txOutputs n tx, o.point.index < i32Max) :
    (txCells X n tx).map CellRecord.ofRow =
      (Ledger.txOutputs n tx).map (outputRecord X) := by
  refine List.ext_getElem? fun j => ?_
  simp only [txCells, Ledger.txOutputs, List.getElem?_map, List.getElem?_zipIdx, Nat.zero_add]
  cases hout : tx.inner.outputs[j]? with
  | none =>
      have hzip : (tx.inner.outputs.zip tx.inner.outputsData)[j]? = none := by
        rw [List.getElem?_eq_none_iff, List.length_zip, hlen, Nat.min_self]
        exact List.getElem?_eq_none_iff.1 hout
      rw [hzip]
      rfl
  | some output =>
      obtain ⟨hj, -⟩ := List.getElem?_eq_some_iff.1 hout
      have hdata := List.getElem?_eq_getElem (hlen ▸ hj : j < tx.inner.outputsData.length)
      have hzip : (tx.inner.outputs.zip tx.inner.outputsData)[j]? =
          some (output, tx.inner.outputsData[j]) :=
        List.getElem?_zip_eq_some.2 ⟨hout, hdata⟩
      have hmem : (⟨⟨tx.hash, j⟩, n, output, tx.inner.outputsData.getD j []⟩ : Output) ∈
          Ledger.txOutputs n tx :=
        List.mem_map.2 ⟨(output, j), List.mem_zipIdx_iff_getElem?.2 hout, rfl⟩
      have hlt : j < i32Max := hidx _ hmem
      have hd : tx.inner.outputsData.getD j [] = tx.inner.outputsData[j] := by
        rw [List.getD_eq_getElem?_getD, hdata, Option.getD_some]
      simp only [hzip, Option.map_some, outputRecord, cellRow, CellRecord.ofRow, hd,
        i32OfNat_of_le hlt.le]

/-- The cells a block creates are the records of its outputs. -/
lemma StoredBlock.created_eq (b : StoredBlock X) (hv : ConsensusValid [b.view]) :
    b.created = (outputs [b.view]).map (outputRecord X) := by
  rw [StoredBlock.created, b.spec.cells, outputs, List.flatMap_singleton, List.map_flatMap,
    List.map_flatMap]
  refine List.flatMap_congr fun tx htx => ?_
  obtain ⟨i, hi⟩ := List.mem_iff_getElem?.1 htx
  refine map_txCells (hv.data ⟨b.view.number, i, tx⟩ ?_) fun o ho => ?_
  · rw [Ledger.transactions, List.flatMap_singleton]
    exact List.mem_map.2 ⟨(tx, i), List.mem_zipIdx_iff_getElem?.2 hi, rfl⟩
  · refine hv.outputIndex o ?_
    rw [outputs, List.flatMap_singleton]
    exact List.mem_flatMap.2 ⟨tx, htx, ho⟩

end Block

/-! ### The spend columns follow the chain -/

section Columns

variable {X : CkbLib} {chain : List BlockView} {o : Output}

@[simp] lemma blockNumber_outputRecord : (outputRecord X o).blockNumber = o.height := rfl

@[simp] lemma key_outputRecord :
    (outputRecord X o).key = (o.point.txHash.bytes, (o.point.index : ℤ)) := rfl

@[simp] lemma restore_outputRecord : (outputRecord X o).restore = outputRecord X o := rfl

@[simp] lemma restore_record : (record X chain o).restore = outputRecord X o := by
  unfold record
  split <;> rfl

@[simp] lemma blockNumber_record : (record X chain o).blockNumber = o.height := by
  rw [← CellRecord.blockNumber_restore, restore_record, blockNumber_outputRecord]

lemma record_of_some {s : Spend} (h : spentBy chain o.point = some s) :
    record X chain o = markSpent s (outputRecord X o) := by
  rw [record, h]

lemma record_of_none (h : spentBy chain o.point = none) :
    record X chain o = outputRecord X o := by
  rw [record, h]

/-- Among indices below `i32::MAX`, a reference has the key of an output exactly if it is
the reference of a spend of that output. -/
lemma key_refOf_iff {s : Spend} (hidx : o.point.index < i32Max) :
    (refOf s).key = (o.point.txHash.bytes, (o.point.index : ℤ)) ↔ s.point = o.point := by
  rw [← i32OfNat_of_le hidx.le]
  constructor
  · intro h
    obtain ⟨hhash, hindex⟩ := Prod.mk.inj h
    have h₁ := H256.ext_bytes hhash
    have h₂ := i32OfNat_inj_of_lt hidx hindex
    cases hs : s.point
    cases ho : o.point
    simp_all
  · intro h
    simp only [ConsumedCellRef.key, refOf, h]

lemma consume_refOf {s : Spend} {c : CellRecord} (hidx : s.inputIndex < i32Max) :
    c.consume (refOf s) = markSpent s c := by
  simp only [CellRecord.consume, refOf, markSpent, i32OfNat_of_le hidx.le]

/-- Marking the cells by the references of the next block turns the record of an output into
its record along the longer chain, if it is the right one while the block does not spend
the output. -/
lemma consumeBy_record {b : StoredBlock X} {c : CellRecord}
    (hv : ConsensusValid (chain ++ [b.view])) (ho : o ∈ outputs (chain ++ [b.view]))
    (hrestore : c.restore = outputRecord X o)
    (hkeep : (∀ s ∈ spends [b.view], s.point ≠ o.point) →
      c = record X (chain ++ [b.view]) o) :
    Db.consumeBy b.rows.consumed c = record X (chain ++ [b.view]) o := by
  have hnull := hv.not_isNull ho
  have hidx := hv.outputIndex o ho
  have hkey : c.key = (o.point.txHash.bytes, (o.point.index : ℤ)) := by
    rw [← CellRecord.key_restore, hrestore, key_outputRecord]
  cases hlast : Db.lastRef b.rows.consumed c.key with
  | some r =>
      obtain ⟨hr, hrkey⟩ := Db.mem_of_lastRef hlast
      obtain ⟨s, hs, -, rfl⟩ := b.mem_consumed_iff.1 hr
      have hpoint : s.point = o.point := (key_refOf_iff hidx).1 (hrkey.trans hkey)
      have hmem : s ∈ spends (chain ++ [b.view]) := by
        rw [Ledger.spends_append]
        exact List.mem_append_right _ hs
      rw [Db.consumeBy_of_some hlast, ← CellRecord.consume_restore, hrestore,
        consume_refOf (hv.inputIndex s hmem),
        record_of_some ((hv.spentBy_eq_some_iff hnull).2 ⟨hmem, hpoint⟩)]
  | none =>
      rw [Db.consumeBy_of_none hlast]
      refine hkeep fun s hs hpoint => ?_
      have hr : refOf s ∈ b.rows.consumed :=
        b.mem_consumed_iff.2 ⟨s, hs, hpoint ▸ hnull, rfl⟩
      have hrkey : (refOf s).key = c.key := ((key_refOf_iff hidx).2 hpoint).trans hkey.symm
      have := List.find?_eq_none.1 hlast (refOf s) (List.mem_reverse.2 hr)
      simp [hrkey] at this

/-- An output of an earlier block: if the new block does not spend it, nothing changes. -/
lemma consumeBy_old {b : StoredBlock X} (hv : ConsensusValid (chain ++ [b.view]))
    (hpre : ConsensusValid chain) (ho : o ∈ outputs chain) :
    Db.consumeBy b.rows.consumed (record X chain o) = record X (chain ++ [b.view]) o := by
  have ho' : o ∈ outputs (chain ++ [b.view]) := by
    rw [Ledger.outputs_append]
    exact List.mem_append_left _ ho
  refine consumeBy_record hv ho' restore_record fun hnone => ?_
  have hspent : spentBy chain o.point = spentBy (chain ++ [b.view]) o.point := by
    refine hpre.spentBy_congr hv (hv.not_isNull ho') fun s hs => ?_
    rw [Ledger.spends_append, List.mem_append]
    exact ⟨Or.inl, fun h => h.resolve_right fun hb => hnone s hb hs⟩
  rw [record, record, hspent]

/-- An output of the new block: no earlier block spends it. -/
lemma consumeBy_new {b : StoredBlock X} (hv : ConsensusValid (chain ++ [b.view]))
    (hbelow : ∀ s ∈ spends chain, s.height < b.view.number) (ho : o ∈ outputs [b.view]) :
    Db.consumeBy b.rows.consumed (outputRecord X o) = record X (chain ++ [b.view]) o := by
  have ho' : o ∈ outputs (chain ++ [b.view]) := by
    rw [Ledger.outputs_append]
    exact List.mem_append_right _ ho
  have hheight : o.height = b.view.number := by
    rw [outputs, List.flatMap_singleton] at ho
    obtain ⟨tx, -, ho⟩ := List.mem_flatMap.1 ho
    exact Ledger.height_of_mem_txOutputs ho
  refine consumeBy_record hv ho' restore_outputRecord fun hnone => (record_of_none ?_).symm
  rw [spentBy, List.find?_eq_none, Ledger.spends_append]
  intro s hs hpoint
  have hpoint : s.point = o.point := by simpa using hpoint
  rcases List.mem_append.1 hs with hs | hs
  · have hle := hv.created o ho' s (by rw [Ledger.spends_append]; simp [hs]) hpoint
    have hlt := hbelow s hs
    omega
  · exact hnone s hs hpoint

/-- Restoring the spends above a height turns the record of an output into its record along
the chain cut off at that height. -/
lemma restoreAbove_record {lo i : ℕ} (hnum : Numbered BlockView.number lo chain)
    (hv : ConsensusValid chain) (hv' : ConsensusValid (chain.take (i + 1)))
    (ho : o ∈ outputs chain) :
    (if Db.consumedAbove ((lo + i : ℕ) : ℤ) (record X chain o) then (record X chain o).restore
      else record X chain o) = record X (chain.take (i + 1)) o := by
  have hnull := hv.not_isNull ho
  cases hspent : spentBy chain o.point with
  | none =>
      have hcut : spentBy (chain.take (i + 1)) o.point = none := by
        rw [spentBy, List.find?_eq_none] at hspent ⊢
        exact fun s hs => hspent s ((Ledger.mem_spends_take_iff hnum).1 hs).1
      rw [record_of_none hspent, record_of_none hcut, restore_outputRecord, ite_self]
  | some s =>
      obtain ⟨hs, hpoint⟩ := (hv.spentBy_eq_some_iff hnull).1 hspent
      have habove : Db.consumedAbove ((lo + i : ℕ) : ℤ) (record X chain o) =
          decide (lo + i < s.height) := by
        rw [record_of_some hspent, Db.consumedAbove]
        simp only [markSpent, Int.ofNat_lt]
      rw [habove, restore_record, record_of_some hspent]
      by_cases hlt : lo + i < s.height
      · have hcut : spentBy (chain.take (i + 1)) o.point = none := by
          rw [spentBy, List.find?_eq_none]
          intro s' hs' hpoint'
          obtain ⟨hmem, hheight⟩ := (Ledger.mem_spends_take_iff hnum).1 hs'
          have hpoint' : s'.point = o.point := by simpa using hpoint'
          obtain rfl := hv.spend_unique hs hmem (hpoint ▸ hnull) (hpoint.trans hpoint'.symm)
          omega
        rw [if_pos (by simpa using hlt), record_of_none hcut]
      · have hmem : s ∈ spends (chain.take (i + 1)) :=
          (Ledger.mem_spends_take_iff hnum).2 ⟨hs, by omega⟩
        rw [if_neg (by simpa using hlt),
          record_of_some ((hv'.spentBy_eq_some_iff hnull).2 ⟨hmem, hpoint⟩)]

end Columns

/-! ### The refinement is an invariant of the chain -/

section Refinement

variable {X : CkbLib} {lo : ℕ} {U : BlockView → Prop} {chain chain' : List (StoredBlock X)}
  {db db' : Db}

lemma Mirrors.valid (h : Mirrors lo chain db) (hnode : ConsensusNode U)
    (hU : ∀ b ∈ chain, U b.view) : ConsensusValid (views chain) := by
  refine hnode _ h.views_linked fun v hv => ?_
  obtain ⟨b, hb, rfl⟩ := List.mem_map.1 hv
  exact hU b hb

/-- The cells are the records of the outputs of the chain. -/
def CellsOf (chain : List (StoredBlock X)) (db : Db) : Prop :=
  db.cells = (outputs (views chain)).map (record X (views chain))

/-- Every step of the chain keeps the cells equal to the records of the outputs. -/
lemma ChainStep.cellsOf (h : ChainStep lo U chain db chain' db') (hm : Mirrors lo chain db)
    (hnode : ConsensusNode U) (hU : ∀ b ∈ chain, U b.view) (hcells : CellsOf chain db) :
    CellsOf chain' db' := by
  have hv := hm.valid hnode hU
  have hv' := (h.mirrors hm).valid hnode (h.forall_mem hU)
  cases h with
  | idle => exact hcells
  | @index b db' hb hnum _ _ hwrite =>
      obtain ⟨-, -, -, rfl⟩ := writeBlock_eq_ok_iff.1 hwrite
      have hone : ConsensusValid [b.view] :=
        hnode _ (List.isChain_singleton _) fun x hx => List.mem_singleton.1 hx ▸ hb
      have hviews : views (chain ++ [b]) = views chain ++ [b.view] := List.map_append
      rw [hviews] at hv'
      change List.map _ (db.cells ++ b.created) = _
      rw [hcells, b.created_eq hone, hviews, Ledger.outputs_append, List.map_append,
        List.map_append, List.map_map, List.map_map]
      congr 1
      · exact List.map_congr_left fun o ho => consumeBy_old hv' hv ho
      · refine List.map_congr_left fun o ho => consumeBy_new hv' (fun s hs => ?_) ho
        have := Ledger.height_lt_of_mem_spends hm.views_numbered hs
        rw [views, List.length_map, ← hnum] at this
        exact this
  | @rollback i b a hb hi ha hhash now tip g =>
      have hviews : views (chain.take (i + 1)) = (views chain).take (i + 1) := List.map_take
      rw [hviews] at hv'
      rw [CellsOf, rollbackBody_cells, hcells, ha, List.map_map, hviews, List.filter_map,
        Ledger.outputs_take hm.views_numbered]
      have hfilter : (outputs (views chain)).filter
          ((fun row : CellRecord => decide (row.blockNumber ≤ ((lo + i : ℕ) : ℤ))) ∘
            (fun c => if Db.consumedAbove ((lo + i : ℕ) : ℤ) c then c.restore else c) ∘
              record X (views chain)) =
          (outputs (views chain)).filter fun o => o.height < lo + (i + 1) := by
        refine List.filter_congr fun o ho => ?_
        simp only [Function.comp_apply, decide_eq_decide]
        rw [restoreAbove_record hm.views_numbered hv hv' ho, blockNumber_record]
        omega
      rw [hfilter]
      refine List.map_congr_left fun o ho => ?_
      exact restoreAbove_record hm.views_numbered hv hv' (List.mem_of_mem_filter ho)

/-- What mirrors a chain and has the right cells holds the ledger of the chain. -/
lemma Mirrors.ledgerOf (h : Mirrors lo chain db) (hcells : CellsOf chain db) :
    LedgerOf X (views chain) db where
  blocks := by
    rw [h.blocks, views, List.forall₂_map_left_iff, List.forall₂_map_right_iff,
      List.forall₂_same]
    exact fun b _ => b.spec.block
  transactions := by
    rw [h.transactions, views, Ledger.transactions, List.flatMap_map]
    refine List.rel_flatMap (List.forall₂_same.2 fun b _ => rfl : List.Forall₂ Eq chain chain) ?_
    rintro b _ rfl
    rw [List.forall₂_map_left_iff]
    exact b.spec.transactions
  cells := hcells
  transactionKeys := h.transactionKeys
  cellKeys := h.cellKeys

end Refinement

/-- Every reachable state over a consensus-valid node holds the ledger of a hash-linked chain
of blocks of the node that starts at the start block, and the blocks stored are those of the
chain. -/
theorem ledger_of_reachable (X : CkbLib) (cfg : Config) (U : BlockView → Prop) (s : Poller)
    (hlo : cfg.indexerStartBlock < i64Max) (hnode : ConsensusNode U)
    (h : Reachable X cfg U s) :
    ∃ chain : List BlockView, (∀ b ∈ chain, U b) ∧ BlockView.Linked chain ∧
      Numbered BlockView.number cfg.indexerStartBlock chain ∧ LedgerOf X chain s.db := by
  have hinv := Machine.Reaches.invariant (fun s => ∃ chain : List (StoredBlock X),
    (Synced cfg.indexerStartBlock chain s ∧ ∀ b ∈ chain, U b.view) ∧ CellsOf chain s.db)
    ?_ ?_ h
  · obtain ⟨chain, ⟨hs, hU⟩, hcells⟩ := hinv
    refine ⟨views chain, fun v hv => ?_, hs.mirrors.views_linked, hs.mirrors.views_numbered,
      hs.mirrors.ledgerOf hcells⟩
    obtain ⟨b, hb, rfl⟩ := List.mem_map.1 hv
    exact hU b hb
  · rintro s m hm ⟨chain, ⟨hs, hU⟩, hcells⟩
    cases m with
    | restart => exact ⟨chain, ⟨synced_restart hs.mirrors, hU⟩, hcells⟩
    | step env =>
        obtain ⟨chain', hstep, hnext⟩ := exec_simulates cfg hs hlo hm.1
        exact ⟨chain', ⟨⟨hstep.mirrors hs.mirrors, hnext hm.2⟩, hstep.forall_mem hU⟩,
          hstep.cellsOf hs.mirrors hnode hU hcells⟩
  · exact ⟨[], ⟨synced_initial, fun _ hb => absurd hb List.not_mem_nil⟩, rfl⟩

namespace Sample

/-- The hash-linked chains over the two branches, from any height up. -/
def paths : List (List BlockView) :=
  (left.inits ++ right.inits).flatMap List.tails

/-- Prepending a block that links keeps a chain among these. -/
lemma cons_mem_paths : ∀ b ∈ left ++ right, [b] ∈ paths ∧
    ∀ rest ∈ paths, (∀ c ∈ rest.head?, c.number = b.number + 1 ∧ c.parentHash = b.hash) →
      b :: rest ∈ paths := by
  decide +kernel

lemma mem_paths_of_linked {chain : List BlockView} (h : BlockView.Linked chain)
    (hU : ∀ b ∈ chain, Served b) : chain ∈ paths := by
  induction chain with
  | nil => decide +kernel
  | cons b rest ih =>
      obtain ⟨hb, hrest⟩ := List.forall_mem_cons.1 hU
      obtain ⟨hhead, htail⟩ := List.isChain_cons.1 h
      exact (cons_mem_paths b (List.mem_append.2 hb)).2 rest (ih htail hrest) hhead

lemma paths_valid : ∀ chain ∈ paths, ConsensusValid chain := by
  decide +kernel

lemma served_consensusNode : ConsensusNode Served :=
  fun chain h hU => paths_valid chain (mem_paths_of_linked h hU)

end Sample

theorem ledger_of_reachable_sample :
    (Sample.final.db.cells.map fun c => (c.blockNumber, c.consumedAtBlockNumber)) =
        [(0, some 2), (2, none)] ∧
      ∃ chain : List BlockView, (∀ b ∈ chain, Sample.Served b) ∧ BlockView.Linked chain ∧
        Numbered BlockView.number 0 chain ∧ LedgerOf Sample.lib chain Sample.final.db :=
  ⟨by decide +kernel, ledger_of_reachable Sample.lib Sample.cfg Sample.Served Sample.final
    (by decide) Sample.served_consensusNode (Sample.reachable_final fun _ hb => hb)⟩

end Indexer

end Cellora

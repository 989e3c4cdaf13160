/-
# The tables hold the rows of a list of blocks

Whatever the node answers and however commits end, the tables hold exactly the rows of the
blocks that were indexed and not rolled back, in the order of their commits.  `Holds` says
so.  It assumes nothing about the heights of these blocks or the links between them, and it
leaves the spend columns of the cells open, except that a recorded spend names a stored
transaction.
-/
import Cellora.Indexer.Poller
import Cellora.Lib.Numbered

namespace Cellora

namespace Indexer

/-- A block together with the rows it parses to. -/
structure StoredBlock (X : CkbLib) where
  view : BlockView
  rows : ParsedBlock
  /-- The rows are those of the block. -/
  parses : parseBlock X view = .ok rows

namespace StoredBlock

variable {X : CkbLib} (b : StoredBlock X)

/-- The height of the block. -/
def number : ℕ := b.view.number

lemma spec : ParsedOf X b.view b.rows := parseBlock_spec b.parses

@[simp] lemma block_number : b.rows.block.number = b.number := b.spec.block.number

@[simp] lemma block_hash : b.rows.block.hash = b.view.hash.bytes := b.spec.block.hash

@[simp] lemma block_parentHash : b.rows.block.parentHash = b.view.parentHash.bytes :=
  b.spec.block.parentHash

/-- The cells of a block as the `INSERT` statements create them. -/
def created : List CellRecord := b.rows.cells.map CellRecord.ofRow

lemma blockNumber_created {c : CellRecord} (hc : c ∈ b.created) :
    c.blockNumber = b.number := by
  obtain ⟨r, hr, rfl⟩ := List.mem_map.1 hc
  exact b.spec.cells_blockNumber hr

end StoredBlock

/-- The spend columns of a cell are all `NULL`, or all set, and then they name a stored
transaction and the number of its block. -/
def SpendNamed (db : Db) (c : CellRecord) : Prop :=
  (c.consumedByTxHash = none ∧ c.consumedByInputIndex = none ∧
    c.consumedAtBlockNumber = none) ∨
  ∃ (h : Bytes) (i n : ℤ), c.consumedByTxHash = some h ∧ c.consumedByInputIndex = some i ∧
    c.consumedAtBlockNumber = some n ∧ ∃ t ∈ db.transactions, t.hash = h ∧ t.blockNumber = n

/-- The tables hold the rows of the blocks `stored`. -/
structure Holds {X : CkbLib} (stored : List (StoredBlock X)) (db : Db) : Prop where
  blocks : db.blocks = stored.map fun b => b.rows.block
  transactions : db.transactions = stored.flatMap fun b => b.rows.transactions
  /-- Apart from the spend columns, the cells are those of the blocks. -/
  created : db.cells.map CellRecord.restore = stored.flatMap StoredBlock.created
  numbers : (db.blocks.map BlockRow.number).Nodup
  hashes : (db.blocks.map BlockRow.hash).Nodup
  transactionKeys : (db.transactions.map TransactionRow.hash).Nodup
  cellKeys : (db.cells.map CellRecord.key).Nodup
  named : ∀ c ∈ db.cells, SpendNamed db c

namespace SpendNamed

variable {db db' : Db} {c : CellRecord}

lemma mono (h : SpendNamed db c) (ht : ∀ t ∈ db.transactions, t ∈ db'.transactions) :
    SpendNamed db' c := by
  rcases h with h | ⟨g, i, n, hg, hi, hn, t, hmem, hth, htn⟩
  · exact Or.inl h
  · exact Or.inr ⟨g, i, n, hg, hi, hn, t, ht t hmem, hth, htn⟩

lemma restore : SpendNamed db c.restore := Or.inl ⟨rfl, rfl, rfl⟩

/-- Marking the cells by the references of a block keeps the recorded spends sound. -/
lemma consumeBy {X : CkbLib} {b : StoredBlock X} (h : SpendNamed db' c)
    (ht : ∀ t ∈ b.rows.transactions, t ∈ db'.transactions) :
    SpendNamed db' (Db.consumeBy b.rows.consumed c) := by
  cases hlast : Db.lastRef b.rows.consumed c.key with
  | none =>
      rw [Db.consumeBy_of_none hlast]
      exact h
  | some r =>
      obtain ⟨hr, -⟩ := Db.mem_of_lastRef hlast
      obtain ⟨hat, t, hmem, hth, htn⟩ := b.spec.consumed_spec hr
      rw [Db.consumeBy_of_some hlast]
      refine Or.inr ⟨r.consumedByTxHash, r.consumedByInputIndex, b.number, rfl, rfl, ?_,
        t, ht t hmem, hth, htn⟩
      exact congrArg some hat

/-- Restoring the spends above the ancestor keeps the recorded spends sound: a spend that
stays is at or below the ancestor, and so is the transaction it names. -/
lemma rollback {a : ℤ} (h : SpendNamed db c)
    (ht : ∀ t ∈ db.transactions, t.blockNumber ≤ a → t ∈ db'.transactions) :
    SpendNamed db' (if Db.consumedAbove a c then c.restore else c) := by
  by_cases habove : Db.consumedAbove a c = true
  · rw [if_pos habove]
    exact restore
  · rw [if_neg habove]
    rcases h with h | ⟨g, i, n, hg, hi, hn, t, hmem, hth, htn⟩
    · exact Or.inl h
    · have hna : n ≤ a := by
        simpa [Db.consumedAbove, hn] using habove
      exact Or.inr ⟨g, i, n, hg, hi, hn, t, ht t hmem (htn ▸ hna), hth, htn⟩

end SpendNamed

namespace Holds

variable {X : CkbLib} {stored : List (StoredBlock X)} {db : Db}

lemma empty : Holds ([] : List (StoredBlock X)) Db.empty where
  blocks := rfl
  transactions := rfl
  created := rfl
  numbers := List.nodup_nil
  hashes := List.nodup_nil
  transactionKeys := List.nodup_nil
  cellKeys := List.nodup_nil
  named := fun _ h => absurd h List.not_mem_nil

/-! ### Reading the tables -/

lemma blockNumbers (h : Holds stored db) :
    db.blocks.map BlockRow.number = stored.map fun b => (b.number : ℤ) := by
  rw [h.blocks, List.map_map]
  exact List.map_congr_left fun b _ => b.block_number

/-- Every cell is one of a stored block, up to its spend columns. -/
lemma exists_of_mem_cells (h : Holds stored db) {c : CellRecord} (hc : c ∈ db.cells) :
    ∃ b ∈ stored, c.restore ∈ b.created := by
  have hmem : c.restore ∈ stored.flatMap StoredBlock.created := by
    rw [← h.created]
    exact List.mem_map_of_mem hc
  exact List.mem_flatMap.1 hmem

lemma cells_blockNumber (h : Holds stored db) {c : CellRecord} (hc : c ∈ db.cells) :
    ∃ b ∈ stored, c.blockNumber = b.number := by
  obtain ⟨b, hb, hcb⟩ := h.exists_of_mem_cells hc
  exact ⟨b, hb, by rw [← b.blockNumber_created hcb, CellRecord.blockNumber_restore]⟩

lemma transactions_blockNumber (h : Holds stored db) {t : TransactionRow}
    (ht : t ∈ db.transactions) : ∃ b ∈ stored, t.blockNumber = b.number := by
  rw [h.transactions] at ht
  obtain ⟨b, hb, htb⟩ := List.mem_flatMap.1 ht
  exact ⟨b, hb, b.spec.transactions_blockNumber htb⟩

/-! ### The two transactions -/

/-- Writing a block appends it. -/
lemma write (h : Holds stored db) {b : StoredBlock X} {db' : Db}
    (hwrite : writeBlock b.rows db = .ok db') : Holds (stored ++ [b]) db' := by
  obtain ⟨⟨hnumber, hhash⟩, ⟨hft, -⟩, ⟨hfc, -⟩, rfl⟩ := writeBlock_eq_ok_iff.1 hwrite
  have htx : ∀ t ∈ b.rows.transactions, t ∈ db.transactions ++ b.rows.transactions :=
    fun t ht => List.mem_append_right _ ht
  refine {
    blocks := by simp [h.blocks]
    transactions := by simp [h.transactions]
    created := ?_
    numbers := Table.nodup_map_concat h.numbers hnumber
    hashes := Table.nodup_map_concat h.hashes hhash
    transactionKeys := hft.nodup_append h.transactionKeys
    cellKeys := ?_
    named := ?_ }
  · have hcomp : CellRecord.restore ∘ Db.consumeBy b.rows.consumed = CellRecord.restore := by
      funext c
      exact Db.restore_consumeBy _ c
    have hnew : b.created.map CellRecord.restore = b.created := by
      rw [StoredBlock.created, List.map_map]
      rfl
    change List.map _ (List.map _ (db.cells ++ b.created)) = _
    rw [List.map_map, hcomp, List.map_append, h.created, hnew]
    simp
  · have hcomp : CellRecord.key ∘ Db.consumeBy b.rows.consumed = CellRecord.key := by
      funext c
      exact Db.key_consumeBy _ c
    rw [List.map_map, hcomp]
    exact hfc.nodup_append h.cellKeys
  · intro c' hc'
    obtain ⟨c, hc, rfl⟩ := List.mem_map.1 hc'
    rcases List.mem_append.1 hc with hc | hc
    · exact ((h.named c hc).mono fun t ht => List.mem_append_left _ ht).consumeBy htx
    · refine SpendNamed.consumeBy ?_ htx
      obtain ⟨r, -, rfl⟩ := List.mem_map.1 hc
      exact SpendNamed.restore (c := CellRecord.ofRow r)

/-- A rollback only changes spend columns of the rows it keeps, so the restored rows are a
part of the restored rows before. -/
lemma map_restore_rollback (height : ℤ) (cells : List CellRecord) :
    ((cells.map fun c => if Db.consumedAbove height c then c.restore else c).filter
      fun row => row.blockNumber ≤ height).map CellRecord.restore =
    (cells.map CellRecord.restore).filter fun row => row.blockNumber ≤ height := by
  rw [List.filter_map, List.filter_map, List.map_map]
  have hbn : (fun row : CellRecord => decide (row.blockNumber ≤ height)) ∘
      (fun c => if Db.consumedAbove height c then c.restore else c) =
      (fun row : CellRecord => decide (row.blockNumber ≤ height)) ∘ CellRecord.restore := by
    funext c
    simp only [Function.comp_apply]
    split <;> rfl
  rw [hbn]
  refine List.map_congr_left fun c _ => ?_
  simp only [Function.comp_apply]
  split <;> rfl

/-- A rollback keeps the blocks at or below the ancestor. -/
lemma rollback (h : Holds stored db) (now : ℕ) (a : Ancestor) (tip : ℤ) (g : Bytes) :
    Holds (stored.filter fun b => (b.number : ℤ) ≤ a.blockNumber)
      (rollbackBody now a tip g db).2 := by
  refine {
    blocks := ?_
    transactions := ?_
    created := ?_
    numbers := h.numbers.sublist (List.filter_sublist.map _)
    hashes := h.hashes.sublist (List.filter_sublist.map _)
    transactionKeys := h.transactionKeys.sublist (List.filter_sublist.map _)
    cellKeys := ?_
    named := ?_ }
  · rw [rollbackBody_blocks, h.blocks, List.filter_map]
    simp only [Function.comp_def, StoredBlock.block_number]
  · rw [rollbackBody_transactions, h.transactions]
    refine filter_flatMap_of_forall fun x _ t ht => ?_
    rw [x.spec.transactions_blockNumber ht]
    rfl
  · rw [rollbackBody_cells, map_restore_rollback, h.created]
    refine filter_flatMap_of_forall fun x _ c hc => ?_
    rw [x.blockNumber_created hc]
  · rw [rollbackBody_cells]
    refine List.Nodup.sublist (List.filter_sublist.map _) ?_
    rw [List.map_map]
    refine (List.map_congr_left fun c _ => ?_ : _ = db.cells.map CellRecord.key) ▸ h.cellKeys
    simp only [Function.comp_apply]
    split <;> rfl
  · intro c' hc'
    rw [rollbackBody_cells] at hc'
    obtain ⟨c, hc, rfl⟩ := List.mem_map.1 (List.mem_of_mem_filter hc')
    refine (h.named c hc).rollback fun t ht hle => ?_
    rw [rollbackBody_transactions]
    exact List.mem_filter.2 ⟨ht, by simpa using hle⟩

end Holds

/-! ### Every move -/

/-- The table `blocks` has the row of the block `b`. -/
def StoresBlock (b : BlockView) (db : Db) : Prop :=
  ∃ row ∈ db.blocks, row.number = b.number ∧ row.hash = b.hash.bytes

instance (b : BlockView) (db : Db) : Decidable (StoresBlock b db) :=
  inferInstanceAs (Decidable (∃ row ∈ db.blocks, _))

/-- The round of the loop against `env` commits the block `b`. -/
def CommitsBlock (X : CkbLib) (cfg : Config) (s : Poller) (env : StepEnv) (b : BlockView) :
    Prop :=
  ∃ p db', Indexes X env s.nextBlock s.db b p db' ∧ (exec X cfg s (.step env)).db = db'

/-- What a move does to the stored blocks and to the tables. -/
inductive StoreStep {X : CkbLib} (stored : List (StoredBlock X)) (db : Db) :
    List (StoredBlock X) → Db → Prop
  | idle : StoreStep stored db stored db
  | write {b : StoredBlock X} {db' : Db} (hwrite : writeBlock b.rows db = .ok db') :
      StoreStep stored db (stored ++ [b]) db'
  | rollback (now : ℕ) (a : Ancestor) (tip : ℤ) (g : Bytes) :
      StoreStep stored db (stored.filter fun b => (b.number : ℤ) ≤ a.blockNumber)
        (rollbackBody now a tip g db).2

section Moves

variable {X : CkbLib} {stored stored' : List (StoredBlock X)} {db db' : Db}

lemma StoreStep.holds (h : StoreStep stored db stored' db') (hh : Holds stored db) :
    Holds stored' db' := by
  cases h with
  | idle => exact hh
  | write hwrite => exact hh.write hwrite
  | rollback now a tip g => exact hh.rollback now a tip g

/-- A block whose row is still there is still one of the stored blocks. -/
lemma StoreStep.mem (h : StoreStep stored db stored' db') {b : StoredBlock X}
    (hb : b ∈ stored) (hrow : StoresBlock b.view db') : b ∈ stored' := by
  cases h with
  | idle => exact hb
  | write => exact List.mem_append_left _ hb
  | rollback now a tip g =>
      obtain ⟨row, hrow, hnum, -⟩ := hrow
      have hle := (List.mem_filter.1 hrow).2
      rw [hnum] at hle
      exact List.mem_filter.2 ⟨hb, hle⟩

/-- Every move of the poller is such a step, whatever the node answers and however the
commit ends. -/
lemma exec_storeStep (cfg : Config) (s : Poller) (m : Move) (stored : List (StoredBlock X)) :
    ∃ stored', StoreStep stored s.db stored' (exec X cfg s m).db := by
  cases m with
  | restart => exact ⟨stored, .idle⟩
  | step env =>
      change ∃ stored', StoreStep stored s.db stored' (step X cfg env s.nextBlock s.db).db
      rcases step_cases X cfg env s.nextBlock s.db with
        hidle | ⟨b, p, db', hix, hdb, -⟩ | ⟨b, g, a, -, hdb, -⟩
      · rw [hidle.1]
        exact ⟨stored, .idle⟩
      · rw [hdb]
        exact ⟨_, .write (b := ⟨b, p, hix.parses⟩) hix.writes⟩
      · rw [hdb]
        exact ⟨_, .rollback _ _ _ _⟩

/-- A step that reports a block as indexed has committed the block the node returned. -/
lemma commitsBlock_of_indexed {cfg : Config} {s : Poller} {env : StepEnv} {b : BlockView}
    (hget : env.getBlock 0 s.nextBlock = .ok (some b))
    (hout : (step X cfg env s.nextBlock s.db).outcome = .ok .indexed) :
    CommitsBlock X cfg s env b := by
  rcases step_cases X cfg env s.nextBlock s.db with
    ⟨-, -, h | h | ⟨e, h⟩⟩ | ⟨b', p, db', hix, hdb, -⟩ | ⟨b', g, a, -, -, ⟨-, h⟩ | ⟨-, e, h⟩⟩
  · exact absurd (h.symm.trans hout) (by simp)
  · exact absurd (h.symm.trans hout) (by simp)
  · exact absurd (h.symm.trans hout) (by simp)
  · obtain rfl : b' = b := Option.some.inj (Except.ok.inj (hix.answer.symm.trans hget))
    exact ⟨p, db', hix, hdb⟩
  · exact absurd (h.symm.trans hout) (by simp)
  · exact absurd (h.symm.trans hout) (by simp)

/-- In every state of every run the tables hold the rows of some blocks. -/
lemma exists_holds (cfg : Config) {s : Poller}
    (h : Machine.Reaches (exec X cfg) (fun _ => True) (initial cfg) s) :
    ∃ stored : List (StoredBlock X), Holds stored s.db := by
  refine Machine.Reaches.invariant
    (fun s => ∃ stored : List (StoredBlock X), Holds stored s.db) ?_ ⟨[], Holds.empty⟩ h
  rintro s m - ⟨stored, hh⟩
  obtain ⟨stored', hstep⟩ := exec_storeStep cfg s m stored
  exact ⟨stored', hstep.holds hh⟩

/-- As long as a committed block stays stored, the tables hold its rows. -/
lemma exists_holds_of_stays {cfg : Config} {s s' : Poller} {env : StepEnv} {b : BlockView}
    (h : Machine.Reaches (exec X cfg) (fun _ => True) (initial cfg) s)
    (hcommit : CommitsBlock X cfg s env b)
    (hstays : Machine.Stays (exec X cfg) (fun s => StoresBlock b s.db)
      (exec X cfg s (.step env)) s') :
    ∃ stored : List (StoredBlock X), Holds stored s'.db ∧ ∃ x ∈ stored, x.view = b := by
  obtain ⟨stored, hh⟩ := exists_holds cfg h
  obtain ⟨p, db', hix, hdb⟩ := hcommit
  refine Machine.Stays.invariant (fun s => ∃ stored : List (StoredBlock X), Holds stored s.db ∧
    ∃ x ∈ stored, x.view = b) ?_ ?_ hstays
  · rintro s m ⟨stored, hh, x, hx, rfl⟩ hrow
    obtain ⟨stored', hstep⟩ := exec_storeStep cfg s m stored
    exact ⟨stored', hstep.holds hh, x, hstep.mem hx hrow, rfl⟩
  · refine ⟨stored ++ [⟨b, p, hix.parses⟩], ?_, _, List.mem_append_right _
      (List.mem_singleton.2 rfl), rfl⟩
    rw [hdb]
    exact hh.write hix.writes

end Moves

end Indexer

end Cellora

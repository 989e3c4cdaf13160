/-
# The database mirrors a chain

The abstract state of the indexer is the chain of the blocks it has indexed and not rolled
back, lowest first.  `Mirrors` says that the tables hold exactly the rows of these blocks,
that these are consecutive and linked, and that every spend that is recorded is by a stored
transaction.  Indexing a block appends it to the chain and a rollback cuts the chain off; no
other step changes it.

Nothing is assumed about the blocks here.  The node may forge them, spend an output twice
or contradict itself, as long as the answer for a height carries that height.
-/
import Cellora.Indexer.Stored

namespace Cellora

namespace Indexer

/-- The spend columns of a cell are all `NULL`, or all set, and then they name a stored
transaction of a block not below the cell's own, and that block's number. -/
def SpendOk (db : Db) (c : CellRecord) : Prop :=
  (c.consumedByTxHash = none ∧ c.consumedByInputIndex = none ∧
    c.consumedAtBlockNumber = none) ∨
  ∃ (h : Bytes) (i n : ℤ), c.consumedByTxHash = some h ∧ c.consumedByInputIndex = some i ∧
    c.consumedAtBlockNumber = some n ∧ c.blockNumber ≤ n ∧
    ∃ t ∈ db.transactions, t.hash = h ∧ t.blockNumber = n

/-- The cell is not spent below its own block. -/
def SpendAbove (c : CellRecord) : Prop := ∀ n ∈ c.consumedAtBlockNumber, c.blockNumber ≤ n

/-- A spend by a block is at its height, so it is above every cell that is not. -/
lemma SpendAbove.consumeBy {X : CkbLib} {b : StoredBlock X} {c : CellRecord}
    (hc : SpendAbove c) (hle : c.blockNumber ≤ b.number) :
    SpendAbove (Db.consumeBy b.rows.consumed c) := by
  cases hlast : Db.lastRef b.rows.consumed c.key with
  | none =>
      rw [Db.consumeBy_of_none hlast]
      exact hc
  | some r =>
      obtain ⟨hr, -⟩ := Db.mem_of_lastRef hlast
      rw [Db.consumeBy_of_some hlast]
      intro n hn
      obtain rfl : r.consumedAtBlockNumber = n := Option.some.inj hn
      rw [(b.spec.consumed_spec hr).1]
      exact hle

/-- The database holds the rows of the chain that starts at height `lo`. -/
structure Mirrors {X : CkbLib} (lo : ℕ) (chain : List (StoredBlock X)) (db : Db) : Prop
    extends Holds chain db where
  numbered : Numbered StoredBlock.number lo chain
  linked : chain.IsChain fun b b' => b'.view.parentHash = b.view.hash
  bound : ∀ b ∈ chain, b.number < i64Max
  checkpoint : db.indexerState =
    chain.getLast?.map fun b => ⟨b.number, b.view.hash.bytes⟩
  above : ∀ c ∈ db.cells, SpendAbove c

namespace Mirrors

variable {X : CkbLib} {lo : ℕ} {chain : List (StoredBlock X)} {db : Db}

lemma empty : Mirrors lo ([] : List (StoredBlock X)) Db.empty where
  toHolds := Holds.empty
  numbered := Numbered.nil
  linked := List.isChain_nil
  bound := fun _ h => absurd h List.not_mem_nil
  checkpoint := rfl
  above := fun _ h => absurd h List.not_mem_nil

/-! ### Reading the tables -/

lemma hashAt_of_getElem? (h : Mirrors lo chain db) {i : ℕ} {b : StoredBlock X}
    (hb : chain[i]? = some b) : db.hashAt ((lo + i : ℕ) : ℤ) = some b.view.hash.bytes := by
  have hmem : b.rows.block ∈ db.blocks := by
    rw [h.blocks]
    exact List.mem_map_of_mem (List.mem_of_getElem? hb)
  have := Db.hashAt_eq_some_of_mem h.numbers hmem
  rw [b.block_number, b.block_hash] at this
  rw [← h.numbered i b hb]
  exact this

/-- A stored hash is the hash of a block of the chain. -/
lemma exists_of_hashAt (h : Mirrors lo chain db) {z : ℤ} {g : Bytes}
    (hg : db.hashAt z = some g) :
    ∃ (i : ℕ) (b : StoredBlock X), chain[i]? = some b ∧ z = ((lo + i : ℕ) : ℤ) ∧
      g = b.view.hash.bytes := by
  obtain ⟨row, hrow, rfl, rfl⟩ := Db.exists_mem_of_hashAt hg
  rw [h.blocks] at hrow
  obtain ⟨b, hb, rfl⟩ := List.mem_map.1 hrow
  obtain ⟨i, hi⟩ := List.mem_iff_getElem?.1 hb
  exact ⟨i, b, hi, by rw [b.block_number, h.numbered i b hi], b.block_hash⟩

lemma cells_le (h : Mirrors lo chain db) {c : CellRecord} (hc : c ∈ db.cells) :
    c.blockNumber < ((lo + chain.length : ℕ) : ℤ) := by
  obtain ⟨b, hb, hcb⟩ := h.cells_blockNumber hc
  have := (h.numbered.le_of_mem hb).2
  rw [hcb]
  exact_mod_cast this

lemma getLast?_hash (h : Mirrors lo chain db) {b : StoredBlock X}
    (hb : chain.getLast? = some b) :
    db.hashAt ((lo + chain.length : ℕ) - 1 : ℤ) = some b.view.hash.bytes := by
  have hne : chain ≠ [] := by
    rintro rfl
    simp at hb
  have hpos : 0 < chain.length := List.length_pos_iff.2 hne
  rw [List.getLast?_eq_getElem?] at hb
  rw [← h.hashAt_of_getElem? hb]
  congr 1
  omega

/-- The recorded spends are sound. -/
lemma spent (h : Mirrors lo chain db) {c : CellRecord} (hc : c ∈ db.cells) : SpendOk db c := by
  rcases h.named c hc with hnone | ⟨g, i, n, hg, hi, hn, htx⟩
  · exact Or.inl hnone
  · exact Or.inr ⟨g, i, n, hg, hi, hn, h.above c hc n hn, htx⟩

/-! ### The two transactions -/

/-- Writing the next block appends it to the chain. -/
lemma write (h : Mirrors lo chain db) {b : StoredBlock X} {db' : Db}
    (hnum : b.number = lo + chain.length) (hbound : b.number < i64Max)
    (hlink : ∀ g, db.hashAt (b.number - 1 : ℤ) = some g → b.view.parentHash.bytes = g)
    (hwrite : writeBlock b.rows db = .ok db') : Mirrors lo (chain ++ [b]) db' := by
  have hholds := h.toHolds.write hwrite
  obtain ⟨-, -, -, rfl⟩ := writeBlock_eq_ok_iff.1 hwrite
  refine {
    toHolds := hholds
    numbered := h.numbered.concat hnum
    linked := ?_
    bound := ?_
    checkpoint := by simp
    above := ?_ }
  · refine h.linked.append (List.isChain_singleton b) fun x hx y hy => ?_
    obtain rfl : b = y := by simpa using hy
    have := hlink _ (by rw [hnum]; exact h.getLast?_hash hx)
    exact H256.ext_bytes this
  · intro x hx
    rcases List.mem_append.1 hx with hx | hx
    · exact h.bound x hx
    · rw [List.mem_singleton.1 hx]
      exact hbound
  · intro c' hc'
    obtain ⟨c, hc, rfl⟩ := List.mem_map.1 hc'
    rcases List.mem_append.1 hc with hc | hc
    · refine (h.above c hc).consumeBy ?_
      rw [hnum]
      exact Int.le_of_lt (h.cells_le hc)
    · refine SpendAbove.consumeBy ?_ (Int.le_of_eq (b.blockNumber_created hc))
      obtain ⟨r, -, rfl⟩ := List.mem_map.1 hc
      intro n hn
      exact absurd hn (by simp [CellRecord.ofRow])

/-- The blocks at or below a stored height are a prefix of the chain. -/
lemma filter_le (h : Mirrors lo chain db) (i : ℕ) :
    chain.filter (fun b => (b.number : ℤ) ≤ ((lo + i : ℕ) : ℤ)) = chain.take (i + 1) := by
  rw [← h.numbered.filter_lt (i + 1)]
  refine List.filter_congr fun b _ => ?_
  rw [decide_eq_decide]
  omega

/-- A rollback to a stored block cuts the chain off above it. -/
lemma rollback (h : Mirrors lo chain db) {i : ℕ} {b : StoredBlock X} {a : Ancestor}
    (hb : chain[i]? = some b) (ha : a.blockNumber = ((lo + i : ℕ) : ℤ))
    (hhash : a.nodeHash = b.view.hash.bytes) (now : ℕ) (tip : ℤ) (g : Bytes) :
    Mirrors lo (chain.take (i + 1)) (rollbackBody now a tip g db).2 := by
  have hholds := h.toHolds.rollback now a tip g
  rw [ha, h.filter_le i] at hholds
  obtain ⟨hi, -⟩ := List.getElem?_eq_some_iff.1 hb
  refine {
    toHolds := hholds
    numbered := h.numbered.take (i + 1)
    linked := h.linked.take (i + 1)
    bound := fun x hx => h.bound x (List.mem_of_mem_take hx)
    checkpoint := ?_
    above := ?_ }
  · have hlast : (chain.take (i + 1)).getLast? = some b := by
      rw [List.getLast?_eq_getElem?, List.length_take, List.getElem?_take,
        if_pos (by omega), show min (i + 1) chain.length - 1 = i by omega, hb]
    rw [rollbackBody_indexerState, hlast, ha, hhash, Option.map_some, h.numbered i b hb]
  · intro c' hc'
    rw [rollbackBody_cells] at hc'
    obtain ⟨c, hc, rfl⟩ := List.mem_map.1 (List.mem_of_mem_filter hc')
    by_cases habove : Db.consumedAbove a.blockNumber c = true
    · rw [if_pos habove]
      intro n hn
      exact absurd hn (by simp [CellRecord.restore])
    · rw [if_neg habove]
      exact h.above c hc

end Mirrors

/-! ### The blocks of the chain -/

section Views

variable {X : CkbLib} {lo : ℕ} {chain : List (StoredBlock X)} {db : Db}

/-- The blocks of a chain of stored blocks. -/
def views (chain : List (StoredBlock X)) : List BlockView := chain.map StoredBlock.view

lemma Mirrors.views_numbered (h : Mirrors lo chain db) :
    Numbered BlockView.number lo (views chain) := by
  rw [views]
  exact Numbered.map h.numbered

lemma Mirrors.views_linked (h : Mirrors lo chain db) : BlockView.Linked (views chain) := by
  rw [BlockView.Linked, views, List.isChain_iff_getElem]
  intro i hi
  rw [List.length_map] at hi
  have hlink := List.isChain_iff_getElem.1 h.linked i hi
  have h₁ := h.numbered i _ (List.getElem?_eq_getElem (by omega))
  have h₂ := h.numbered (i + 1) _ (List.getElem?_eq_getElem hi)
  rw [List.getElem_map, List.getElem_map]
  refine ⟨?_, hlink⟩
  rw [StoredBlock.number] at h₁ h₂
  omega

end Views

end Indexer

end Cellora

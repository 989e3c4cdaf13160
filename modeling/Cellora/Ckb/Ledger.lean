/-
# The ledger of a chain

What a chain of blocks says about cells, in its own terms: the transactions along it, the
outputs they create and the spends of outputs.  A chain is consensus-valid if no hash is
used twice, no output is spent twice, and no output is spent below the block that creates
it.  Then the spend of an output is a function of the chain, and cutting the chain off at a
height cuts the outputs and the spends off at that height.
-/
import Cellora.Ckb.Types
import Cellora.Lib.Numbered

namespace Cellora

/-- The reference of a cellbase input points to no transaction. -/
def OutPoint.IsNull (p : OutPoint) : Prop := p.txHash = H256.rep 0

instance (p : OutPoint) : Decidable p.IsNull := inferInstanceAs (Decidable (_ = _))

namespace Ledger

/-- A transaction at its place in a chain. -/
structure PlacedTx where
  height : ℕ
  index : ℕ
  tx : TransactionView
deriving DecidableEq

/-- An output of a chain. -/
structure Output where
  point : OutPoint
  height : ℕ
  output : CellOutput
  data : Bytes
deriving DecidableEq

/-- An input of a chain: the output it refers to, and where the input stands. -/
structure Spend where
  point : OutPoint
  txHash : H256
  inputIndex : ℕ
  height : ℕ
deriving DecidableEq

/-- The outputs of a transaction. -/
def txOutputs (height : ℕ) (tx : TransactionView) : List Output :=
  tx.inner.outputs.zipIdx.map fun p =>
    ⟨⟨tx.hash, p.2⟩, height, p.1, tx.inner.outputsData.getD p.2 []⟩

/-- The inputs of a transaction. -/
def txSpends (height : ℕ) (tx : TransactionView) : List Spend :=
  tx.inner.inputs.zipIdx.map fun p => ⟨p.1.previousOutput, tx.hash, p.2, height⟩

/-- The transactions along a chain. -/
def transactions (chain : List BlockView) : List PlacedTx :=
  chain.flatMap fun b => b.transactions.zipIdx.map fun p => ⟨b.number, p.2, p.1⟩

/-- The outputs along a chain. -/
def outputs (chain : List BlockView) : List Output :=
  chain.flatMap fun b => b.transactions.flatMap (txOutputs b.number)

/-- The inputs along a chain. -/
def spends (chain : List BlockView) : List Spend :=
  chain.flatMap fun b => b.transactions.flatMap (txSpends b.number)

/-- The first spend of an output along a chain. -/
def spentBy (chain : List BlockView) (p : OutPoint) : Option Spend :=
  (spends chain).find? fun s => s.point = p

/-- What consensus guarantees for a chain. -/
structure ConsensusValid (chain : List BlockView) : Prop where
  txHashes : ((transactions chain).map fun t => t.tx.hash).Nodup
  noNull : ∀ t ∈ transactions chain, t.tx.hash ≠ H256.rep 0
  /-- No output is spent twice. -/
  once : (((spends chain).filter fun s => ¬ s.point.IsNull).map Spend.point).Nodup
  /-- No output is spent below the block that creates it. -/
  created : ∀ o ∈ outputs chain, ∀ s ∈ spends chain, s.point = o.point → o.height ≤ s.height
  data : ∀ t ∈ transactions chain, t.tx.inner.outputsData.length = t.tx.inner.outputs.length
  outputIndex : ∀ o ∈ outputs chain, o.point.index < i32Max
  inputIndex : ∀ s ∈ spends chain, s.inputIndex < i32Max

instance (chain : List BlockView) : Decidable (ConsensusValid chain) :=
  decidable_of_iff (_ ∧ _ ∧ _ ∧ _ ∧ _ ∧ _ ∧ _)
    ⟨fun ⟨h₁, h₂, h₃, h₄, h₅, h₆, h₇⟩ => ⟨h₁, h₂, h₃, h₄, h₅, h₆, h₇⟩,
      fun h => ⟨h.txHashes, h.noNull, h.once, h.created, h.data, h.outputIndex, h.inputIndex⟩⟩

/-! ### Chains and their parts -/

variable {chain chain' : List BlockView} {b : BlockView}

lemma outputs_append : outputs (chain ++ chain') = outputs chain ++ outputs chain' :=
  List.flatMap_append

lemma spends_append : spends (chain ++ chain') = spends chain ++ spends chain' :=
  List.flatMap_append

lemma height_of_mem_txOutputs {n : ℕ} {tx : TransactionView} {o : Output}
    (h : o ∈ txOutputs n tx) : o.height = n := by
  obtain ⟨p, -, rfl⟩ := List.mem_map.1 h
  rfl

lemma height_of_mem_txSpends {n : ℕ} {tx : TransactionView} {s : Spend}
    (h : s ∈ txSpends n tx) : s.height = n := by
  obtain ⟨p, -, rfl⟩ := List.mem_map.1 h
  rfl

lemma mem_spends_singleton_iff {s : Spend} :
    s ∈ spends [b] ↔ ∃ tx ∈ b.transactions, ∃ (j : ℕ) (input : CellInput),
      tx.inner.inputs[j]? = some input ∧
        s = ⟨input.previousOutput, tx.hash, j, b.number⟩ := by
  simp only [spends, List.flatMap_cons, List.flatMap_nil, List.append_nil, List.mem_flatMap,
    txSpends, List.mem_map]
  constructor
  · rintro ⟨tx, htx, ⟨input, j⟩, hmem, rfl⟩
    exact ⟨tx, htx, j, input, List.mem_zipIdx_iff_getElem?.1 hmem, rfl⟩
  · rintro ⟨tx, htx, j, input, hget, rfl⟩
    exact ⟨tx, htx, (input, j), List.mem_zipIdx_iff_getElem?.2 hget, rfl⟩

/-- Every output is that of a transaction of the chain. -/
lemma exists_tx_of_mem_outputs {o : Output} (h : o ∈ outputs chain) :
    ∃ t ∈ transactions chain, o.point.txHash = t.tx.hash := by
  obtain ⟨b, hb, h⟩ := List.mem_flatMap.1 h
  obtain ⟨tx, htx, h⟩ := List.mem_flatMap.1 h
  obtain ⟨p, -, rfl⟩ := List.mem_map.1 h
  obtain ⟨i, hi⟩ := List.mem_iff_getElem?.1 htx
  refine ⟨⟨b.number, i, tx⟩, List.mem_flatMap.2 ⟨b, hb, ?_⟩, rfl⟩
  exact List.mem_map.2 ⟨(tx, i), List.mem_zipIdx_iff_getElem?.2 hi, rfl⟩

section Numbered

variable {lo k : ℕ}

/-- The outputs below a height are those of the part of the chain below it. -/
lemma outputs_take (h : Numbered BlockView.number lo chain) :
    outputs (chain.take k) = (outputs chain).filter fun o => o.height < lo + k := by
  rw [← h.filter_lt k, outputs, outputs]
  refine (filter_flatMap_of_forall fun b _ o ho => ?_).symm
  obtain ⟨tx, -, ho⟩ := List.mem_flatMap.1 ho
  rw [height_of_mem_txOutputs ho]

/-- The spends below a height are those of the part of the chain below it. -/
lemma mem_spends_take_iff (h : Numbered BlockView.number lo chain) {s : Spend} :
    s ∈ spends (chain.take k) ↔ s ∈ spends chain ∧ s.height < lo + k := by
  have hcut : spends (chain.take k) = (spends chain).filter fun s => s.height < lo + k := by
    rw [← h.filter_lt k, spends, spends]
    refine (filter_flatMap_of_forall fun b _ s hs => ?_).symm
    obtain ⟨tx, -, hs⟩ := List.mem_flatMap.1 hs
    rw [height_of_mem_txSpends hs]
  rw [hcut, List.mem_filter, decide_eq_true_eq]

lemma height_lt_of_mem_spends (h : Numbered BlockView.number lo chain) {s : Spend}
    (hs : s ∈ spends chain) : s.height < lo + chain.length := by
  rw [← List.take_length (l := chain)] at hs
  exact ((mem_spends_take_iff h).1 hs).2

end Numbered

/-! ### The spend of an output -/

namespace ConsensusValid

lemma not_isNull (h : ConsensusValid chain) {o : Output} (ho : o ∈ outputs chain) :
    ¬ o.point.IsNull := by
  obtain ⟨t, ht, heq⟩ := exists_tx_of_mem_outputs ho
  intro hnull
  exact h.noNull t ht (heq ▸ hnull)

/-- In a valid chain, an output has at most one spend. -/
lemma spend_unique (h : ConsensusValid chain) {s s' : Spend} (hs : s ∈ spends chain)
    (hs' : s' ∈ spends chain) (hp : ¬ s.point.IsNull) (heq : s.point = s'.point) : s = s' := by
  refine List.inj_on_of_nodup_map h.once ?_ ?_ heq
  · exact List.mem_filter.2 ⟨hs, by simpa using hp⟩
  · exact List.mem_filter.2 ⟨hs', by simpa [← heq] using hp⟩

/-- In a valid chain, the spend of an output is the one input that refers to it. -/
lemma spentBy_eq_some_iff (h : ConsensusValid chain) {p : OutPoint} (hp : ¬ p.IsNull)
    {s : Spend} : spentBy chain p = some s ↔ s ∈ spends chain ∧ s.point = p := by
  constructor
  · intro hs
    exact ⟨List.mem_of_find?_eq_some hs, by simpa using List.find?_some hs⟩
  · rintro ⟨hs, rfl⟩
    cases hfind : spentBy chain s.point with
    | none =>
        have := List.find?_eq_none.1 hfind s hs
        simp at this
    | some s' =>
        have hmem := List.mem_of_find?_eq_some hfind
        have heq : s'.point = s.point := by simpa using List.find?_some hfind
        rw [h.spend_unique hs hmem hp heq.symm]

/-- Two valid chains with the same spends of an output agree on its spend. -/
lemma spentBy_congr (h : ConsensusValid chain) (h' : ConsensusValid chain') {p : OutPoint}
    (hp : ¬ p.IsNull)
    (hiff : ∀ s, s.point = p → (s ∈ spends chain ↔ s ∈ spends chain')) :
    spentBy chain p = spentBy chain' p := by
  refine Option.ext fun s => ?_
  rw [h.spentBy_eq_some_iff hp, h'.spentBy_eq_some_iff hp]
  exact and_congr_left (hiff s)

end ConsensusValid

end Ledger

end Cellora

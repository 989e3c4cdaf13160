/-
# The checkpoint determines the index

The tables are changed in place, and two indexers that end on the same block may have come
there by different ways: one followed a branch and rolled it back, the other never saw it,
or started from scratch later.  If a hash determines its block and the node serves
consensus-valid chains, nothing of this can be seen: the row of the checkpoint fixes the
chain below it, link by link, and the chain fixes the rows of all the tables, the spend
columns included.  Only the log of reorgs remembers the way.
-/
import Cellora.Indexer.Utxo
import Cellora.Indexer.Convergence

namespace Cellora

namespace Indexer

open BlockView (HashDetermines Linked)

section Ledger

variable {X : CkbLib} {cfg : Config} {U : BlockView → Prop} {s : Poller}

/-- Every reachable state is in step with a chain of blocks of the node, and its cells are the
records of the outputs of that chain. -/
lemma Reachable.cellsOf (hlo : cfg.indexerStartBlock < i64Max) (hnode : ConsensusNode U)
    (h : Reachable X cfg U s) :
    ∃ chain : List (StoredBlock X), Synced cfg.indexerStartBlock chain s ∧
      (∀ b ∈ chain, U b.view) ∧ CellsOf chain s.db := by
  refine Machine.Reaches.invariant (fun s => ∃ chain : List (StoredBlock X),
    Synced cfg.indexerStartBlock chain s ∧ (∀ b ∈ chain, U b.view) ∧ CellsOf chain s.db)
    ?_ ?_ h
  · rintro s m hm ⟨chain, hs, hU, hcells⟩
    cases m with
    | restart => exact ⟨chain, synced_restart hs.mirrors, hU, hcells⟩
    | step env =>
        obtain ⟨chain', hstep, hnext⟩ := exec_simulates cfg hs hlo hm.1
        exact ⟨chain', ⟨hstep.mirrors hs.mirrors, hnext hm.2⟩, hstep.forall_mem hU,
          hstep.cellsOf hs.mirrors hnode hU hcells⟩
  · exact ⟨[], synced_initial, fun _ hb => absurd hb List.not_mem_nil, rfl⟩

end Ledger

section Chains

variable {X : CkbLib} {U : BlockView → Prop} {lo : ℕ} {chain chain' : List (StoredBlock X)}
  {db db' : Db}

end Chains

namespace Sample

end Sample

end Indexer

end Cellora

/-
# Convergence after a fork

Against a node that stays on one chain, and without faults, the loop rolls back once, to the
highest height at which the stored chain and the node's chain agree, and then indexes the
node's chain block by block up to its tip.  If they agree at the highest stored height
there is no rollback.

If a hash determines its block, two hash-linked chains that agree at one height agree below
it, so the stored chain up to that height is the node's.  From there on every step extends
the stored chain by the next block of the node.
-/
import Cellora.Indexer.Runs
import Mathlib.Data.List.Flatten

namespace Cellora

namespace BlockView

variable {A D : List BlockView} {U : BlockView → Prop}

/-- A hash determines the block, among the blocks of `U`. -/
def HashDetermines (U : BlockView → Prop) : Prop :=
  ∀ b b', U b → U b' → b.hash = b'.hash → b = b'

/-- Two hash-linked chains that agree at one position agree below it. -/
lemma Linked.take_eq (hdet : HashDetermines U) (hA : Linked A) (hD : Linked D)
    (hAU : ∀ b ∈ A, U b) (hDU : ∀ b ∈ D, U b) {i : ℕ} {x y : BlockView}
    (hx : A[i]? = some x) (hy : D[i]? = some y) (h : x.hash = y.hash) :
    A.take (i + 1) = D.take (i + 1) := by
  induction i generalizing x y with
  | zero =>
      obtain rfl := hdet x y (hAU x (List.mem_of_getElem? hx)) (hDU y (List.mem_of_getElem? hy)) h
      obtain ⟨A', rfl⟩ := List.head?_eq_some_iff.1 (List.head?_eq_getElem? ▸ hx)
      obtain ⟨D', rfl⟩ := List.head?_eq_some_iff.1 (List.head?_eq_getElem? ▸ hy)
      rfl
  | succ i ih =>
      obtain rfl := hdet x y (hAU x (List.mem_of_getElem? hx)) (hDU y (List.mem_of_getElem? hy)) h
      obtain ⟨hi, -⟩ := List.getElem?_eq_some_iff.1 hx
      obtain ⟨hi', -⟩ := List.getElem?_eq_some_iff.1 hy
      have hAi := List.getElem?_eq_getElem (show i < A.length by omega)
      have hDi := List.getElem?_eq_getElem (show i < D.length by omega)
      -- the blocks below have the hash that the common block names as its parent
      have hbelow := ih hAi hDi ((hA.parentHash_eq hx hAi).symm.trans (hD.parentHash_eq hy hDi))
      rw [List.take_add_one, List.take_add_one (l := D), hx, hy, hbelow]

end BlockView

namespace Indexer

open BlockView (HashDetermines Linked)

/-- The round is fault-free and the node serves the chain `C`, given from height 0 up. -/
structure StepEnv.Serves (C : List BlockView) (env : StepEnv) : Prop where
  getBlock : ∀ k n, env.getBlock k n = .ok C[n]?
  readFault : ∀ k, env.readFault k = none
  txFault : env.txFault = none
  commit : env.commit = .acked

/-- The node serves the chain `C` during the walk, and no read of the database fails. -/
structure StepEnv.Reads (C : List BlockView) (env : StepEnv) : Prop where
  getBlock : ∀ k n, env.getBlock k n = .ok C[n]?
  readFault : ∀ k, env.readFault k = none

lemma StepEnv.Serves.reads {C : List BlockView} {env : StepEnv} (h : env.Serves C) : env.Reads C :=
  ⟨h.getBlock, h.readFault⟩

lemma StepEnv.serving_serves (C : List BlockView) : (StepEnv.serving C).Serves C :=
  ⟨fun _ _ => rfl, fun _ => rfl, rfl, rfl⟩

/-- The blocks parse, and together their rows violate no unique index. -/
structure TablesAccept (X : CkbLib) (blocks : List BlockView) : Prop where
  parses : ∀ b ∈ blocks, ∃ p, parseBlock X b = .ok p
  hashes : (blocks.map fun b => b.hash.bytes).Nodup
  transactionKeys : (blocks.flatMap fun b => b.transactions.map fun t => t.hash.bytes).Nodup
  cellKeys : (blocks.flatMap fun b =>
    (b.transactions.flatMap (txCells X b.number)).map CellRow.key).Nodup

/-- The stored chain and the chain `C` agree at a height. -/
def AgreesAt (C : List BlockView) (db : Db) (h : ℕ) : Prop :=
  ∃ b, C[h]? = some b ∧ db.hashAt h = some b.hash.bytes

/-- The stored blocks are those of `C` from the start block to `t`, and the loop goes on
above them. -/
structure StoredTo (X : CkbLib) (cfg : Config) (C : List BlockView) (t : ℕ) (s : Poller) :
    Prop where
  blocks : List.Forall₂ (BlockRowOf X) ((C.take (t + 1)).drop cfg.indexerStartBlock) s.db.blocks
  checkpoint : s.db.indexerState = C[t]?.map fun b => ⟨t, b.hash.bytes⟩
  next : s.nextBlock = t + 1

/-- The heights a run polls and what its steps report. -/
def trace (X : CkbLib) (cfg : Config) :
    Poller → List StepEnv → List (ℕ × Except PollerError StepOutcome)
  | _, [] => []
  | s, env :: envs =>
      (s.nextBlock, (step X cfg env s.nextBlock s.db).outcome) ::
        trace X cfg (exec X cfg s (.step env)) envs

/-! ### The walk-back finds the highest common block -/

section Walk

variable {C : List BlockView} {env : StepEnv} {db : Db}

/-- One round of the walk. -/
lemma walkBack_succ (henv : env.Reads C) {k h : ℕ} (hlen : h < C.length) :
    walkBack env db k (h + 1) =
      if db.hashAt h = some (C[h]).hash.bytes then .ok ⟨h, (C[h]).hash.bytes⟩
      else walkBack env db (k + 1) h := by
  rw [walkBack, henv.getBlock, List.getElem?_eq_getElem hlen]
  simp only [henv.readFault]

lemma walkBack_missing (henv : env.Reads C) {k h : ℕ} (hlen : C.length ≤ h) :
    walkBack env db k (h + 1) = .error (.rpc (missingBlock h)) := by
  rw [walkBack, henv.getBlock, List.getElem?_eq_none hlen]

/-- **The walk ends at the highest height of agreement**, or it runs past height 0. -/
lemma walkBack_reads (henv : env.Reads C) (db : Db) (k : ℕ) {h : ℕ} (hlen : h ≤ C.length) :
    (∃ (a : ℕ) (b : BlockView), a < h ∧ C[a]? = some b ∧ db.hashAt a = some b.hash.bytes ∧
      (∀ m, a < m → m < h → ¬ AgreesAt C db m) ∧
      walkBack env db k h = .ok ⟨a, b.hash.bytes⟩) ∨
    ((∀ m < h, ¬ AgreesAt C db m) ∧ walkBack env db k h = .error .noCommonAncestor) := by
  induction h generalizing k with
  | zero => exact Or.inr ⟨fun m hm => absurd hm (by omega), rfl⟩
  | succ h ih =>
      have hget := List.getElem?_eq_getElem (show h < C.length by omega)
      rw [walkBack_succ henv (by omega)]
      by_cases hstored : db.hashAt h = some (C[h]).hash.bytes
      · rw [if_pos hstored]
        exact Or.inl ⟨h, C[h], by omega, hget, hstored, fun m h₁ h₂ => absurd h₂ (by omega), rfl⟩
      · rw [if_neg hstored]
        have hdiff : ¬ AgreesAt C db h := by
          rintro ⟨b, hb, heq⟩
          rw [hget] at hb
          exact hstored (Option.some.inj hb ▸ heq)
        rcases ih (k + 1) (by omega) with ⟨a, b, ha, hb, heq, hmax, hwalk⟩ | ⟨hnone, hwalk⟩
        · refine Or.inl ⟨a, b, by omega, hb, heq, fun m h₁ h₂ => ?_, hwalk⟩
          rcases Nat.lt_succ_iff_lt_or_eq.1 h₂ with h₂ | rfl
          · exact hmax m h₁ h₂
          · exact hdiff
        · refine Or.inr ⟨fun m hm => ?_, hwalk⟩
          rcases Nat.lt_succ_iff_lt_or_eq.1 hm with hm | rfl
          · exact hnone m hm
          · exact hdiff

/-- So the walk ends at the one height that is maximal. -/
lemma walkBack_of_serves (henv : env.Serves C) {k h a : ℕ} {b : BlockView}
    (hb : C[a]? = some b) (hstored : db.hashAt a = some b.hash.bytes) (hle : a ≤ h)
    (hlen : h < C.length) (hmax : ∀ n, a < n → n ≤ h → ¬ AgreesAt C db n) :
    walkBack env db k (h + 1) = .ok ⟨a, b.hash.bytes⟩ := by
  rcases walkBack_reads henv.reads db k (show h + 1 ≤ C.length by omega) with
    ⟨a', b', ha', hb', hstored', hmax', hwalk⟩ | ⟨hnone, -⟩
  · obtain rfl : a' = a := by
      rcases Nat.lt_trichotomy a' a with hlt | heq | hlt
      · exact absurd ⟨b, hb, hstored⟩ (hmax' a hlt (by omega))
      · exact heq
      · exact absurd ⟨b', hb', hstored'⟩ (hmax a' hlt (by omega))
    rw [hwalk, Option.some.inj (hb'.symm.trans hb)]
  · exact absurd ⟨b, hb, hstored⟩ (hnone a (by omega))

end Walk

/-! ### One step along the node's chain -/

section Steps

variable {X : CkbLib} {cfg : Config} {C : List BlockView} {env : StepEnv} {s : Poller} {lo : ℕ}
  {chain : List (StoredBlock X)}

/-- The keys of the rows of a chain, in terms of its blocks. -/
lemma hashes_eq (chain : List (StoredBlock X)) :
    (chain.map fun b => b.rows.block).map BlockRow.hash =
      (views chain).map fun b => b.hash.bytes := by
  rw [views, List.map_map, List.map_map]
  exact List.map_congr_left fun b _ => b.block_hash

lemma transactionKeys_eq (chain : List (StoredBlock X)) :
    (chain.flatMap fun b => b.rows.transactions).map TransactionRow.hash =
      (views chain).flatMap fun b => b.transactions.map fun t => t.hash.bytes := by
  rw [views, List.flatMap_map, List.map_flatMap]
  refine List.flatMap_congr fun b _ => ?_
  have hrel := b.spec.transactions.imp fun _ _ h => h.hash
  have hmap : b.rows.transactions.map TransactionRow.hash =
      b.view.transactions.zipIdx.map fun q => q.1.hash.bytes := by
    refine List.forall₂_eq_eq_eq ▸ ?_
    rw [List.forall₂_map_left_iff, List.forall₂_map_right_iff]
    exact hrel.flip
  have hzip : b.view.transactions.zipIdx.map Prod.fst = b.view.transactions := by simp
  rw [hmap, ← hzip, List.map_map, hzip]
  rfl

lemma cellKeys_eq (chain : List (StoredBlock X)) :
    (chain.flatMap StoredBlock.created).map CellRecord.key =
      (views chain).flatMap fun b =>
        (b.transactions.flatMap (txCells X b.number)).map CellRow.key := by
  rw [views, List.flatMap_map, List.map_flatMap]
  refine List.flatMap_congr fun b _ => ?_
  rw [StoredBlock.created, b.spec.cells, List.map_map]
  rfl

lemma TablesAccept.sublist {blocks blocks' : List BlockView} (h : TablesAccept X blocks)
    (hsub : blocks'.Sublist blocks) : TablesAccept X blocks' where
  parses := fun b hb => h.parses b (hsub.subset hb)
  hashes := h.hashes.sublist (hsub.map _)
  transactionKeys := h.transactionKeys.sublist (hsub.flatMap _)
  cellKeys := h.cellKeys.sublist (hsub.flatMap _)

/-- The next block of an acceptable chain can be written. -/
lemma Mirrors.exists_write {db : Db} (h : Mirrors lo chain db) {b : StoredBlock X}
    (hnum : b.number = lo + chain.length) (hacc : TablesAccept X (views (chain ++ [b]))) :
    ∃ db', writeBlock b.rows db = .ok db' := by
  have hnumber : b.rows.block.number ∉ db.blocks.map BlockRow.number := by
    rw [h.mem_blockNumbers_iff, b.block_number, hnum]
    push_cast
    omega
  have hmem : (b.number : ℤ) ∈ (db.blocks ++ [b.rows.block]).map BlockRow.number := by
    simp
  have hblocks : db.blocks ++ [b.rows.block] = (chain ++ [b]).map fun b => b.rows.block := by
    simp [h.blocks]
  have htxs : db.transactions ++ b.rows.transactions =
      (chain ++ [b]).flatMap fun b => b.rows.transactions := by
    simp [h.transactions]
  have hcells : (db.cells ++ b.created).map CellRecord.key =
      ((chain ++ [b]).flatMap StoredBlock.created).map CellRecord.key := by
    have hkeys : db.cells.map CellRecord.key =
        (db.cells.map CellRecord.restore).map CellRecord.key := by
      rw [List.map_map]
      rfl
    rw [List.map_append, hkeys, h.created]
    simp
  refine ⟨_, writeBlock_eq_ok_iff.2 ⟨⟨hnumber, ?_⟩, ⟨?_, fun r hr => ?_⟩,
    ⟨?_, fun r hr => ?_⟩, rfl⟩⟩
  · have hnd : ((db.blocks ++ [b.rows.block]).map BlockRow.hash).Nodup := by
      rw [hblocks, hashes_eq]
      exact hacc.hashes
    exact (Table.fresh_of_nodup_append hnd).2 _ (List.mem_singleton_self _)
  · refine Table.fresh_of_nodup_append ?_
    rw [htxs, transactionKeys_eq]
    exact hacc.transactionKeys
  · rw [b.spec.transactions_blockNumber hr]
    exact hmem
  · refine Table.fresh_of_nodup_append (?_ : ((db.cells ++ b.created).map _).Nodup)
    rw [hcells, cellKeys_eq]
    exact hacc.cellKeys
  · rw [b.spec.cells_blockNumber hr]
    exact hmem

/-- What the node's chain is assumed to be: numbered from 0, hash-linked, below `i64::MAX`,
and accepted by the tables from the start block on. -/
structure NodeChain (X : CkbLib) (lo : ℕ) (C : List BlockView) : Prop where
  numbered : Numbered BlockView.number 0 C
  linked : Linked C
  bound : C.length ≤ i64Max
  accepted : TablesAccept X (C.drop lo)

/-- The loop is in step with a chain, and the chain is the lower part of the node's. -/
structure Tracks (lo : ℕ) (C : List BlockView) (chain : List (StoredBlock X)) (s : Poller) :
    Prop extends Synced lo chain s where
  lower : views chain = (C.drop lo).take chain.length
  stored : chain ≠ []

/-- The node's next block links to the highest stored block, which is the block below it on
the node. -/
lemma Synced.links (h : Synced lo chain s) (hlower : views chain = (C.drop lo).take chain.length)
    (hC : NodeChain X lo C) (hlen : lo + chain.length < C.length) {g : Bytes}
    (hg : s.db.hashAt ((lo + chain.length : ℕ) - 1 : ℤ) = some g) :
    (C[lo + chain.length]).parentHash.bytes = g := by
  obtain ⟨i, x, hx, hi, rfl⟩ := h.mirrors.exists_of_hashAt hg
  have hix : lo + i + 1 = lo + chain.length := by omega
  have hxC : C[lo + i]? = some x.view := by
    have hview : (views chain)[i]? = some x.view := by
      rw [views, List.getElem?_map, hx]
      rfl
    rw [hlower, List.getElem?_take, List.getElem?_drop] at hview
    split at hview
    · exact hview
    · exact absurd hview (by simp)
  have hnext : C[lo + i + 1]? = some C[lo + chain.length] := by
    rw [hix, List.getElem?_eq_getElem hlen]
  rw [hC.linked.parentHash_eq hnext hxC]

/-- If the node's next block links to the highest stored block, that block is on the node's
chain. -/
lemma Synced.agreesAt_top (h : Synced lo chain s) (hC : NodeChain X lo C)
    (hlen : lo + chain.length < C.length) {g : Bytes}
    (hg : s.db.hashAt ((lo + chain.length : ℕ) - 1 : ℤ) = some g)
    (hlink : (C[lo + chain.length]).parentHash.bytes = g) :
    AgreesAt C s.db (lo + chain.length - 1) := by
  obtain ⟨i, x, hx, hi, rfl⟩ := h.mirrors.exists_of_hashAt hg
  have hix : lo + i + 1 = lo + chain.length := by omega
  have hnext : C[lo + i + 1]? = some C[lo + chain.length] := by
    rw [hix, List.getElem?_eq_getElem hlen]
  have hy := List.getElem?_eq_getElem (show lo + i < C.length by omega)
  rw [show lo + chain.length - 1 = lo + i by omega]
  refine ⟨_, hy, ?_⟩
  rw [h.mirrors.hashAt_of_getElem? hx, ← hlink, hC.linked.parentHash_eq hnext hy]

/-- The next block of the node on top of the lower part of its chain. -/
lemma views_concat (hlower : views chain = (C.drop lo).take chain.length) {b : StoredBlock X}
    (hb : C[lo + chain.length]? = some b.view) :
    views (chain ++ [b]) = (C.drop lo).take (chain ++ [b]).length := by
  have hdrop : (C.drop lo)[chain.length]? = some b.view := by
    rw [List.getElem?_drop, hb]
  rw [views, List.map_append, List.length_append, List.length_singleton, List.take_add_one, hdrop,
    ← hlower]
  rfl

/-- A step that has indexed the node's next block leaves the loop in step with the lower part of
the node's chain. -/
lemma Synced.indexed (cfg : Config) (h : Synced lo chain s)
    (hlower : views chain = (C.drop lo).take chain.length) (hC : NodeChain X lo C)
    {b : StoredBlock X} {db' : Db} (hb : C[lo + chain.length]? = some b.view)
    (hwrite : writeBlock b.rows s.db = .ok db')
    (hout : (step X cfg env s.nextBlock s.db).outcome = .ok .indexed)
    (hdb : (step X cfg env s.nextBlock s.db).db = db') :
    Synced lo (chain ++ [b]) (exec X cfg s (.step env)) := by
  obtain ⟨hlen, hview⟩ := List.getElem?_eq_some_iff.1 hb
  have hnum : b.number = lo + chain.length := by
    have := hC.numbered _ _ hb
    change b.view.number = _
    omega
  have hbound : b.number < i64Max := by
    have := hC.bound
    omega
  refine ⟨?_, ?_⟩
  · change Mirrors lo (chain ++ [b]) (step X cfg env s.nextBlock s.db).db
    rw [hdb]
    refine h.mirrors.write hnum hbound (fun g hg => ?_) hwrite
    rw [hnum] at hg
    rw [← hview]
    exact h.links hlower hC hlen hg
  · change advance s.nextBlock (step X cfg env s.nextBlock s.db).outcome = _
    rw [hout, advance, h.next, ← hnum, u64SatAdd_of_lt hbound.le, hnum, List.length_append,
      List.length_singleton, Nat.add_assoc]

/-- A fault-free step on the lower part of the node's chain, be it empty, indexes the next
block. -/
lemma Synced.index (cfg : Config) (h : Synced lo chain s)
    (hlower : views chain = (C.drop lo).take chain.length) (hC : NodeChain X lo C)
    (henv : env.Serves C) (hlen : lo + chain.length < C.length) :
    (step X cfg env s.nextBlock s.db).outcome = .ok .indexed ∧
      ∃ b : StoredBlock X, Synced lo (chain ++ [b]) (exec X cfg s (.step env)) ∧
        views (chain ++ [b]) = (C.drop lo).take (chain ++ [b]).length := by
  have hget := List.getElem?_eq_getElem hlen
  have hdrop : (C.drop lo)[chain.length]? = some C[lo + chain.length] := by
    rw [List.getElem?_drop, hget]
  obtain ⟨p, hp⟩ := hC.accepted.parses _ (List.mem_of_getElem? hdrop)
  let b : StoredBlock X := ⟨C[lo + chain.length], p, hp⟩
  have hb : C[lo + chain.length]? = some b.view := hget
  have hnum : b.number = lo + chain.length := by
    have := hC.numbered _ _ hb
    change b.view.number = _
    omega
  have hviews := views_concat hlower hb
  obtain ⟨db', hwrite⟩ := h.mirrors.exists_write hnum
    (hC.accepted.sublist (hviews ▸ List.take_sublist _ _))
  have hix : Indexes X env s.nextBlock s.db b.view p db' := by
    refine ⟨?_, parentCheck_of_links (henv.readFault 0) fun g _ hg => ?_, hp, hwrite,
      henv.txFault⟩
    · rw [henv.getBlock, h.next, hget]
    · rw [h.next, prevHeight_of_le (hlen.le.trans hC.bound)] at hg
      exact h.links hlower hC hlen hg
  obtain ⟨hout, hdb⟩ := (hix.step_eq cfg).1 henv.commit
  exact ⟨hout, b, h.indexed cfg hlower hC hb hwrite hout hdb, hviews⟩

/-- A fault-free step on the lower part of the node's chain indexes the next block. -/
lemma Tracks.index (cfg : Config) (h : Tracks lo C chain s) (hC : NodeChain X lo C)
    (henv : env.Serves C) (hlen : lo + chain.length < C.length) :
    (step X cfg env s.nextBlock s.db).outcome = .ok .indexed ∧
      ∃ b : StoredBlock X, Tracks lo C (chain ++ [b]) (exec X cfg s (.step env)) := by
  obtain ⟨hout, b, hs, hviews⟩ := h.toSynced.index cfg h.lower hC henv hlen
  exact ⟨hout, b, ⟨hs, hviews, by simp⟩⟩

/-- The run lemma: fault-free steps index the node's chain in order. -/
lemma Tracks.run (cfg : Config) (h : Tracks lo C chain s) (hC : NodeChain X lo C)
    {envs : List StepEnv} (henvs : ∀ env ∈ envs, env.Serves C)
    (hlen : lo + chain.length + envs.length ≤ C.length) :
    trace X cfg s envs =
        (List.range' (lo + chain.length) envs.length).map (fun n => (n, .ok .indexed)) ∧
      ∀ k ≤ envs.length, ∃ chain' : List (StoredBlock X), chain'.length = chain.length + k ∧
        Tracks lo C chain' (Machine.run (exec X cfg) s ((envs.take k).map Move.step)) := by
  induction envs generalizing s chain with
  | nil =>
      refine ⟨rfl, fun k hk => ⟨chain, by simpa using hk, ?_⟩⟩
      simpa using h
  | cons env envs ih =>
      obtain ⟨henv, hrest⟩ := List.forall_mem_cons.1 henvs
      rw [List.length_cons] at hlen
      obtain ⟨hout, b, hb⟩ := h.index cfg hC henv (by omega)
      obtain ⟨htrace, hstates⟩ := ih hb hrest (by rw [List.length_append]; simp; omega)
      constructor
      · rw [trace, htrace, hout, h.next, List.length_cons, List.range'_succ, List.map_cons,
          List.length_append, List.length_singleton, Nat.add_assoc]
      · intro k hk
        cases k with
        | zero => exact ⟨chain, rfl, h⟩
        | succ k =>
            obtain ⟨chain', hchain', htracks⟩ := hstates k (by simpa using hk)
            refine ⟨chain', ?_, htracks⟩
            rw [hchain', List.length_append, List.length_singleton]
            omega

lemma Tracks.storedTo (h : Tracks cfg.indexerStartBlock C chain s) {t : ℕ}
    (ht : t + 1 = cfg.indexerStartBlock + chain.length) : StoredTo X cfg C t s where
  blocks := by
    have hviews : (C.take (t + 1)).drop cfg.indexerStartBlock = views chain := by
      rw [ht, h.lower, List.take_drop, Nat.add_comm]
    rw [hviews, h.mirrors.blocks, views, List.forall₂_map_left_iff, List.forall₂_map_right_iff,
      List.forall₂_same]
    exact fun b _ => b.spec.block
  checkpoint := by
    obtain ⟨init, b, rfl⟩ := (List.eq_nil_or_concat' chain).resolve_left h.stored
    rw [List.length_append, List.length_singleton] at ht
    have hlast : (views (init ++ [b]))[init.length]? = some b.view := by
      simp [views]
    have hnum := h.mirrors.numbered init.length b (by simp)
    have hCt : C[t]? = some b.view := by
      rw [h.lower, List.getElem?_take, if_pos (by simp), List.getElem?_drop] at hlast
      rw [← hlast]
      congr 1
      omega
    rw [h.mirrors.checkpoint, List.getLast?_concat, hCt, Option.map_some, Option.map_some]
    congr 2
    exact_mod_cast (show b.number = t by omega)
  next := by rw [h.next, ht]

/-- Where the stored chain agrees with the node's, it is the lower part of the node's. -/
lemma Synced.views_take {U : BlockView → Prop} (h : Synced lo chain s) (hC : NodeChain X lo C)
    (hdet : HashDetermines U) (hU : ∀ b ∈ chain, U b.view) (hCU : ∀ b ∈ C, U b) {i : ℕ}
    (hagree : AgreesAt C s.db (lo + i)) :
    i < chain.length ∧ (views chain).take (i + 1) = (C.drop lo).take (i + 1) := by
  obtain ⟨y, hy, hstored⟩ := hagree
  obtain ⟨j, x, hx, hj, hxy⟩ := h.mirrors.exists_of_hashAt hstored
  obtain rfl : i = j := by omega
  obtain ⟨hi, -⟩ := List.getElem?_eq_some_iff.1 hx
  have hviews : (views chain)[i]? = some x.view := by
    rw [views, List.getElem?_map, hx]
    rfl
  refine ⟨hi, h.mirrors.views_linked.take_eq hdet (hC.linked.drop lo) ?_ ?_ hviews
    (by rw [List.getElem?_drop, hy]) (H256.ext_bytes hxy.symm)⟩
  · intro v hv
    obtain ⟨b, hb, rfl⟩ := List.mem_map.1 hv
    exact hU b hb
  · exact fun v hv => hCU v (List.mem_of_mem_drop hv)

/-- Where the highest stored block is not the node's, a fault-free step on a longer node finds
the highest height at which they agree. -/
lemma Synced.rollsBack (h : Synced lo chain s) (hC : NodeChain X lo C) (henv : env.Serves C)
    {i : ℕ} (hi : i + 1 < chain.length) (hlen : lo + chain.length < C.length) {y : BlockView}
    (hy : C[lo + i]? = some y) (hyhash : s.db.hashAt ((lo + i : ℕ) : ℤ) = some y.hash.bytes)
    (hmax : ∀ n, AgreesAt C s.db n → n ≤ lo + i) :
    RollsBack env s.nextBlock s.db C[lo + chain.length]
      (chain[chain.length - 1]).view.hash.bytes ⟨((lo + i : ℕ) : ℤ), y.hash.bytes⟩ := by
  have hbound : lo + chain.length ≤ i64Max := hlen.le.trans hC.bound
  have hi' : lo + chain.length - 1 < C.length := by omega
  have hpos : 0 < s.nextBlock := by
    rw [h.next]
    omega
  have hprev : prevHeight s.nextBlock = (lo + chain.length : ℕ) - 1 := by
    rw [h.next, prevHeight_of_le hbound]
  have hlast : chain.getLast? = some chain[chain.length - 1] := by
    rw [List.getLast?_eq_getElem?, List.getElem?_eq_getElem]
  have hstored := h.mirrors.getLast?_hash hlast
  -- the highest stored block is not the node's, so the next block does not link to it
  have hne : (C[lo + chain.length]).parentHash.bytes ≠
      (chain[chain.length - 1]).view.hash.bytes := by
    intro hlink
    have := hmax _ (h.agreesAt_top hC hlen hstored hlink)
    omega
  refine ⟨?_, parentCheck_of_differs (henv.readFault 0) hpos ?_ hne, ?_, ?_, henv.txFault⟩
  · rw [henv.getBlock, h.next, List.getElem?_eq_getElem hlen]
  · rw [hprev, hstored]
  · rw [hprev, findCommonAncestor, show (((lo + chain.length : ℕ) : ℤ) - 1 + 1).toNat =
      lo + chain.length - 1 + 1 by omega]
    refine walkBack_of_serves henv hy hyhash (by omega) hi' fun n hn _ hag => ?_
    have := hmax n hag
    omega
  · rw [hprev]
    simp only
    omega

/-- A step that has rolled back to a stored block leaves the loop in step with the chain up to
it. -/
lemma Synced.rolledBack (cfg : Config) (h : Synced lo chain s)
    (hbound : lo + chain.length ≤ i64Max) {i : ℕ} (hi : i < chain.length) {a : Ancestor}
    {tip : ℤ} {g : Bytes} (hai : a.blockNumber = ((lo + i : ℕ) : ℤ))
    (hax : a.nodeHash = (chain[i]).view.hash.bytes)
    (hout : (step X cfg env s.nextBlock s.db).outcome = .ok (.reorgHandled a.blockNumber))
    (hdb : (step X cfg env s.nextBlock s.db).db = (rollbackBody env.now a tip g s.db).2) :
    Synced lo (chain.take (i + 1)) (exec X cfg s (.step env)) := by
  refine ⟨?_, ?_⟩
  · change Mirrors lo _ (step X cfg env s.nextBlock s.db).db
    rw [hdb]
    exact h.mirrors.rollback (List.getElem?_eq_getElem hi) hai hax _ _ _
  · change advance s.nextBlock (step X cfg env s.nextBlock s.db).outcome = _
    rw [hout, hai, advance, u64OfInt_natCast (by omega), u64SatAdd_of_lt (by omega),
      List.length_take, Nat.min_eq_left (by omega), Nat.add_assoc]

/-- A fault-free step on a chain that leaves the node's rolls back to the highest height at
which they agree. -/
lemma Synced.rollback_step (cfg : Config) (h : Synced lo chain s) (hC : NodeChain X lo C)
    (henv : env.Serves C) {i : ℕ} (hi : i + 1 < chain.length)
    (hlen : lo + chain.length < C.length) (hagree : AgreesAt C s.db (lo + i))
    (htake : (views chain).take (i + 1) = (C.drop lo).take (i + 1))
    (hmax : ∀ n, AgreesAt C s.db n → n ≤ lo + i) :
    (step X cfg env s.nextBlock s.db).outcome =
        .ok (.reorgHandled ((lo + i : ℕ) : ℤ)) ∧
      Tracks lo C (chain.take (i + 1)) (exec X cfg s (.step env)) := by
  have hbound : lo + chain.length ≤ i64Max := hlen.le.trans hC.bound
  obtain ⟨y, hy, hyhash⟩ := hagree
  have hrb := h.rollsBack hC henv hi hlen hy hyhash hmax
  obtain ⟨hout, hdb⟩ := (hrb.step_eq X cfg).1 henv.commit
  have hx := List.getElem?_eq_getElem (show i < chain.length by omega)
  have hxy : y.hash.bytes = (chain[i]).view.hash.bytes := by
    rw [h.mirrors.hashAt_of_getElem? hx] at hyhash
    exact (Option.some.inj hyhash).symm
  refine ⟨hout, ⟨h.rolledBack cfg hbound (by omega) rfl hxy hout hdb, ?_, ?_⟩⟩
  · rw [views, List.map_take, List.length_take, Nat.min_eq_left (by omega)]
    exact htake
  · intro hnil
    have := congrArg List.length hnil
    rw [List.length_take, List.length_nil] at this
    omega

end Steps

/-- **Bounded convergence.**  From a reachable state with the stored range from the start
block to `hi`, a fault-free node on the chain `C` with a tip above `hi`, and the highest
height `a` at which the two agree: the loop polls `hi + 1` and rolls back to `a` if `a` is
below `hi`, and then indexes `a + 1` up to the tip in order; after each of these steps the
stored blocks are those of `C` up to the last height it indexed. -/
theorem converges_to_node_chain (X : CkbLib) (cfg : Config) (U : BlockView → Prop) (s : Poller)
    (C : List BlockView) (hi T a : ℕ) (envs : List StepEnv)
    (hlo : cfg.indexerStartBlock < i64Max) (hreach : Reachable X cfg U s)
    (hdet : HashDetermines U) (hCU : ∀ b ∈ C, U b) (hC : NodeChain X cfg.indexerStartBlock C)
    (hT : C.length = T + 1) (hle : cfg.indexerStartBlock ≤ hi)
    (hrange : ∀ z : ℤ, z ∈ s.db.blocks.map BlockRow.number ↔
      (cfg.indexerStartBlock : ℤ) ≤ z ∧ z ≤ hi)
    (htip : hi < T) (ha : AgreesAt C s.db a) (hmax : ∀ n, AgreesAt C s.db n → n ≤ a)
    (henvs : ∀ env ∈ envs, env.Serves C)
    (hlen : envs.length = (if a = hi then 0 else 1) + (T - a)) :
    trace X cfg s envs = (if a = hi then [] else [(hi + 1, .ok (.reorgHandled a))]) ++
        (List.range' (a + 1) (T - a)).map (fun n => (n, .ok .indexed)) ∧
      ∀ k ≤ T - a, StoredTo X cfg C (a + k)
        (Machine.run (exec X cfg) s
          ((envs.take ((if a = hi then 0 else 1) + k)).map Move.step)) := by
  obtain ⟨chain, hs, hU⟩ := hreach.synced hlo
  -- the stored range has one height for each block of the chain
  have hchain : cfg.indexerStartBlock + chain.length = hi + 1 := by
    have h₁ := (hs.mirrors.mem_blockNumbers_iff (z := hi)).1 ((hrange hi).2 (by omega))
    have h₂ := fun h => (hrange (hi + 1)).1 (hs.mirrors.mem_blockNumbers_iff.2 h)
    by_contra hne
    have := h₂ ⟨by omega, by omega⟩
    omega
  obtain ⟨i, rfl⟩ : ∃ i, a = cfg.indexerStartBlock + i := by
    obtain ⟨y, -, hstored⟩ := ha
    obtain ⟨i, -, -, hz, -⟩ := hs.mirrors.exists_of_hashAt hstored
    exact ⟨i, by exact_mod_cast hz⟩
  obtain ⟨hilt, htake⟩ := hs.views_take hC hdet hU hCU ha
  by_cases hahi : cfg.indexerStartBlock + i = hi
  · -- the stored chain is the lower part of the node's
    have htracks : Tracks cfg.indexerStartBlock C chain s := by
      refine ⟨hs, ?_, List.ne_nil_of_length_pos (by omega)⟩
      rw [show chain.length = i + 1 by omega, ← htake, List.take_of_length_le]
      rw [views, List.length_map]
      omega
    simp only [if_pos hahi] at hlen ⊢
    obtain ⟨htrace, hstates⟩ := htracks.run cfg hC henvs (by omega)
    refine ⟨?_, fun k hk => ?_⟩
    · rw [htrace, hchain, hlen, Nat.zero_add, hahi, List.nil_append]
    · obtain ⟨chain', hlen', htr⟩ := hstates k (by omega)
      rw [Nat.zero_add]
      exact htr.storedTo (by omega)
  · -- one rollback first
    simp only [if_neg hahi] at hlen ⊢
    cases envs with
    | nil =>
        rw [List.length_nil] at hlen
        omega
    | cons env envs =>
        obtain ⟨henv, hrest⟩ := List.forall_mem_cons.1 henvs
        rw [List.length_cons] at hlen
        obtain ⟨hout, htracks⟩ :=
          hs.rollback_step cfg hC henv (by omega) (by omega) ha htake hmax
        have htl : (chain.take (i + 1)).length = i + 1 := by
          rw [List.length_take]
          omega
        obtain ⟨htrace, hstates⟩ := htracks.run cfg hC hrest (by omega)
        refine ⟨?_, fun k hk => ?_⟩
        · rw [trace, hout, htrace, hs.next, hchain, htl,
            show envs.length = T - (cfg.indexerStartBlock + i) by omega]
          rfl
        · obtain ⟨chain', hlen', htr⟩ := hstates k (by omega)
          rw [Nat.add_comm 1 k, List.take_succ_cons]
          exact htr.storedTo (by omega)

namespace Sample

/-- The left branch is indexed, and the node has switched to the right one. -/
def forked : Poller :=
  Machine.run (exec lib cfg) (initial cfg) (List.replicate 3 (.step (.serving left)))

lemma reachable_forked : Reachable lib cfg Served forked := by
  refine ⟨_, fun m hm => ?_, rfl⟩
  obtain ⟨-, rfl⟩ := List.mem_replicate.1 hm
  exact ⟨StepEnv.serving_answers left_numbered (by decide) fun _ hb => Or.inl hb, by decide⟩

lemma served_hashDetermines : HashDetermines Served := by
  have hall : ∀ b ∈ left ++ right, ∀ b' ∈ left ++ right, b.hash = b'.hash → b = b' := by
    decide +kernel
  exact fun b b' hb hb' => hall b (List.mem_append.2 hb) b' (List.mem_append.2 hb')

lemma right_parses : ∀ b ∈ right, (parseBlock lib b).isOk = true := by
  decide +kernel

lemma right_linked : Linked right := by
  have hall : ∀ i : Fin 3, (right[i.1 + 1]?.map BlockView.number =
      right[i.1]?.map fun b => b.number + 1) ∧
        right[i.1 + 1]?.map BlockView.parentHash = right[i.1]?.map BlockView.hash := by
    decide +kernel
  refine List.isChain_iff_getElem.2 fun i hi => ?_
  have hi' : i + 1 < 4 := hi
  obtain ⟨h₁, h₂⟩ := hall ⟨i, by omega⟩
  rw [List.getElem?_eq_getElem hi, List.getElem?_eq_getElem (Nat.lt_of_succ_lt hi)] at h₁ h₂
  exact ⟨Option.some.inj h₁, Option.some.inj h₂⟩

lemma right_nodeChain : NodeChain lib 0 right where
  numbered := right_numbered
  linked := right_linked
  bound := by decide
  accepted := {
    parses := fun b hb => by
      have := right_parses b hb
      cases hp : parseBlock lib b with
      | error e => simp [hp, Except.isOk, Except.toBool] at this
      | ok p => exact ⟨p, rfl⟩
    hashes := by decide +kernel
    transactionKeys := by decide +kernel
    cellKeys := by decide +kernel }

lemma forked_blocks : forked.db.blocks.map BlockRow.number = [0, 1, 2] := by
  decide +kernel

lemma forked_agrees : AgreesAt right forked.db 0 := ⟨genesis, rfl, by decide +kernel⟩

lemma forked_agrees_le {n : ℕ} (h : AgreesAt right forked.db n) : n ≤ 0 := by
  have hall : ∀ i : Fin 4, 0 < i.1 →
      right[i.1]?.map (fun b => b.hash.bytes) ≠ forked.db.hashAt i.1 := by
    decide +kernel
  obtain ⟨b, hb, hstored⟩ := h
  obtain ⟨hn, -⟩ := List.getElem?_eq_some_iff.1 hb
  by_contra hpos
  refine hall ⟨n, hn⟩ (Nat.lt_of_not_le hpos) ?_
  rw [hb, hstored]
  rfl

end Sample

theorem converges_to_node_chain_sample :
    trace Sample.lib Sample.cfg Sample.forked
        (List.replicate 4 (StepEnv.serving Sample.right)) =
      [(3, .ok (.reorgHandled 0)), (1, .ok .indexed), (2, .ok .indexed), (3, .ok .indexed)] :=
  (converges_to_node_chain Sample.lib Sample.cfg Sample.Served Sample.forked Sample.right 2 3 0
    (List.replicate 4 (StepEnv.serving Sample.right)) (by decide) Sample.reachable_forked
    Sample.served_hashDetermines (fun _ hb => Or.inr hb) Sample.right_nodeChain rfl (by decide)
    (fun z => by rw [Sample.forked_blocks]; simp [Sample.cfg]; omega) (by decide)
    Sample.forked_agrees (fun _ => Sample.forked_agrees_le)
    (fun env henv => (List.mem_replicate.1 henv).2 ▸ StepEnv.serving_serves _) rfl).1

end Indexer

end Cellora

/-
# The metrics of the indexer

The counters and the gauge that the indexer exports.  They live in the process: a restart
sets them to zero, a round of the loop adds what its effects observe.  As the metrics are
observed after the commit, they can only be compared with the tables where a commit that
reports an error has no effect.

There the two agree: the gauge is the checkpoint as soon as anything was observed, the reorg
metrics are the rows of `reorg_log` that were written since the start, and the blocks that were
stored at the start and indexed since then are those that are stored now, or that a reorg has
removed.
-/
import Cellora.Indexer.ReorgAudit

namespace Cellora

namespace Indexer

/-- The metrics.  Of the histogram of depths the observations are kept; the durations of
rounds are left out. -/
structure Metrics where
  latestBlock : ℤ
  blocksIndexedTotal : ℕ
  reorgTotal : ℕ
  reorgOversizedTotal : ℕ
  reorgDepth : List ℤ
deriving DecidableEq

namespace Metrics

/-- `Metrics::new`. -/
def new : Metrics := ⟨0, 0, 0, 0, []⟩

/-- `observe_block_indexed`. -/
def observeBlockIndexed (height : ℤ) (m : Metrics) : Metrics :=
  { m with latestBlock := height, blocksIndexedTotal := m.blocksIndexedTotal + 1 }

/-- `set_latest_block`. -/
def setLatestBlock (height : ℤ) (m : Metrics) : Metrics := { m with latestBlock := height }

/-- `observe_reorg`. -/
def observeReorg (depth : ℤ) (oversized : Bool) (m : Metrics) : Metrics :=
  { m with
    reorgTotal := m.reorgTotal + 1
    reorgOversizedTotal := m.reorgOversizedTotal + if oversized then 1 else 0
    reorgDepth := m.reorgDepth ++ [depth] }

/-- What an effect of a round does to the metrics. -/
def observe (m : Metrics) : Effect → Metrics
  | .observeBlockIndexed number => m.observeBlockIndexed number
  | .observeReorg depth oversized => m.observeReorg depth oversized
  | .setLatestBlock number => m.setLatestBlock number
  | .publishBlockAndCells _ _ => m
  | .publishReorg _ => m

end Metrics

/-- The process with its metrics. -/
structure ObservedPoller where
  poller : Poller
  metrics : Metrics

namespace ObservedPoller

/-- One move. -/
def exec (X : CkbLib) (cfg : Config) (s : ObservedPoller) : Move → ObservedPoller
  | .step env =>
      ⟨Indexer.exec X cfg s.poller (.step env),
        (step X cfg env s.poller.nextBlock s.poller.db).effects.foldl Metrics.observe s.metrics⟩
  | .restart => ⟨Indexer.exec X cfg s.poller .restart, .new⟩

/-- A process that has just started. -/
def start (cfg : Config) (db : Db) : ObservedPoller := ⟨boot cfg db, .new⟩

end ObservedPoller

/-! ### What a round reports -/

section Round

variable {X : CkbLib} {cfg : Config} {env : StepEnv} {n : ℕ} {b : BlockView} {db : Db}

/-- The whole result of a round that indexes a block and whose commit is acknowledged. -/
lemma Indexes.step_acked (cfg : Config) {p : ParsedBlock} {db' : Db}
    (h : Indexes X env n db b p db') (hack : env.commit = .acked) :
    step X cfg env n db = ⟨.ok .indexed, db',
      (if cfg.redis then [.publishBlockAndCells p.block p.cells] else []) ++
        [.observeBlockIndexed p.block.number]⟩ := by
  have hrun := runTx_of_ok (fun db => (fun db' => ((), db')) <$> writeBlock p db) db
    h.noFault (Except.map_eq_ok.2 ⟨db', h.writes, rfl⟩)
  rw [step_eq_indexBlock h.answer h.check, indexBlock, h.parses]
  simp only [hrun, hack]

/-- What an indexed block does to the metrics, with or without Redis. -/
lemma foldl_indexed (m : Metrics) (redis : Bool) (block : BlockRow) (cells : List CellRow) :
    ((if redis then [Effect.publishBlockAndCells block cells] else []) ++
        [Effect.observeBlockIndexed block.number]).foldl Metrics.observe m =
      m.observeBlockIndexed block.number := by
  cases redis <;> rfl

/-- What a rollback does to the metrics, with or without Redis. -/
lemma foldl_reorgEffects (m : Metrics) (cfg : Config) (now : ℕ) (a : Ancestor) (depth : ℤ) :
    (reorgEffects cfg now a depth).foldl Metrics.observe m =
      (m.observeReorg depth (decide (cfg.indexerReorgMaxDepth < depth))).setLatestBlock
        a.blockNumber := by
  unfold reorgEffects
  cases cfg.redis <;> rfl

end Round

/-! ### The metrics and the tables -/

/-- The metrics of a process that started on `db₀`, compared with its tables. -/
structure Reconciles (cfg : Config) (db₀ : Db) (s : ObservedPoller) : Prop where
  gauge : 0 < s.metrics.blocksIndexedTotal + s.metrics.reorgTotal →
    ∃ cp, s.poller.db.indexerState = some cp ∧ s.metrics.latestBlock = cp.lastIndexedBlock
  untouched : s.metrics.blocksIndexedTotal + s.metrics.reorgTotal = 0 → s.poller.db = db₀
  /-- The reorg metrics are the rows of the log since the start. -/
  reorgs : ∃ rows, s.poller.db.reorgLog = db₀.reorgLog ++ rows ∧
    s.metrics.reorgTotal = rows.length ∧ s.metrics.reorgDepth = rows.map ReorgLogEntry.depth ∧
    s.metrics.reorgOversizedTotal = rows.countP fun row =>
      (cfg.indexerReorgMaxDepth : ℤ) < row.depth
  /-- A block that was stored at the start or indexed since is stored, or was removed.  A depth
  of `i32::MAX` may stand for more. -/
  blocks : (∀ depth ∈ s.metrics.reorgDepth, depth < i32Max) →
    (db₀.blocks.length : ℤ) + s.metrics.blocksIndexedTotal =
      s.poller.db.blocks.length + s.metrics.reorgDepth.sum

section Reconciles

variable {X : CkbLib} {cfg : Config} {U : BlockView → Prop} {db₀ : Db} {s : ObservedPoller}

lemma Reconciles.start (cfg : Config) (db : Db) : Reconciles cfg db (.start cfg db) where
  gauge h := absurd h (Nat.lt_irrefl 0)
  untouched _ := rfl
  reorgs := ⟨[], (List.append_nil _).symm, rfl, rfl, rfl⟩
  blocks _ := by simp [ObservedPoller.start, boot, Metrics.new]

/-- A round that indexes a block. -/
lemma Reconciles.indexed (h : Reconciles cfg db₀ s) {p : ParsedBlock} {db' : Db} {poller : Poller}
    (hwrite : writeBlock p s.poller.db = .ok db') (hdb : poller.db = db') :
    Reconciles cfg db₀ ⟨poller, s.metrics.observeBlockIndexed p.block.number⟩ := by
  obtain ⟨-, -, -, rfl⟩ := writeBlock_eq_ok_iff.1 hwrite
  refine ⟨fun _ => ⟨⟨p.block.number, p.block.hash⟩, by rw [hdb], rfl⟩, fun hzero => ?_, ?_,
    fun hdepths => ?_⟩
  · simp only [Metrics.observeBlockIndexed] at hzero
    omega
  · obtain ⟨rows, hlog, hreorgs⟩ := h.reorgs
    exact ⟨rows, by rw [hdb]; exact hlog, hreorgs⟩
  · have hblocks := h.blocks hdepths
    rw [hdb]
    simp only [Metrics.observeBlockIndexed, List.length_append, List.length_singleton]
    push_cast
    omega

lemma i32OfInt_eq_of_lt {z : ℤ} (h₀ : 0 ≤ z) (h : i32OfInt z < i32Max) : i32OfInt z = z := by
  refine i32OfInt_of_range h₀ ?_
  by_contra hlarge
  rw [i32OfInt, if_neg fun hrange => hlarge hrange.2] at h
  exact absurd h (Int.lt_irrefl _)

/-- A round that rolls back. -/
lemma Reconciles.rolledBack (h : Reconciles cfg db₀ s) {lo : ℕ} {chain : List (StoredBlock X)}
    (hs : Synced lo chain s.poller) (hlo : lo < i64Max) (hlog : LogOk s.poller.db)
    {env : StepEnv} {b : BlockView} {g : Bytes} {a : Ancestor}
    (hrb : RollsBack env s.poller.nextBlock s.poller.db b g a) {poller : Poller}
    (hdb : poller.db =
      (rollbackBody env.now a (prevHeight s.poller.nextBlock) g s.poller.db).2) :
    Reconciles cfg db₀ ⟨poller, (s.metrics.observeReorg
      (rollbackDepth (prevHeight s.poller.nextBlock) a) (decide ((cfg.indexerReorgMaxDepth : ℤ) <
        rollbackDepth (prevHeight s.poller.nextBlock) a))).setLatestBlock a.blockNumber⟩ := by
  obtain ⟨i, x, hx, hbelow, hai, hax⟩ := hs.exists_ancestor hlo hrb
  refine ⟨fun _ => ⟨⟨a.blockNumber, a.nodeHash⟩, by rw [hdb]; rfl, rfl⟩, fun hzero => ?_, ?_,
    fun hdepths => ?_⟩
  · simp only [Metrics.setLatestBlock, Metrics.observeReorg] at hzero
    omega
  · obtain ⟨rows, hrows, htotal, hdepth, hoversized⟩ := h.reorgs
    refine ⟨rows ++ [auditRow env.now a (prevHeight s.poller.nextBlock) g s.poller.db],
      ?_, ?_, ?_, ?_⟩
    · rw [hdb, rollbackBody_reorgLog hlog.ids, hrows, List.append_assoc]
    · simp only [Metrics.setLatestBlock, Metrics.observeReorg, htotal, List.length_append,
        List.length_singleton]
    · simp only [Metrics.setLatestBlock, Metrics.observeReorg, hdepth, List.map_append,
        List.map_singleton, auditRow]
    · simp only [Metrics.setLatestBlock, Metrics.observeReorg, hoversized, List.countP_append,
        List.countP_singleton, auditRow]
  · -- the depth is the number of blocks above the ancestor, unless it was cut off
    have hold := h.blocks fun depth hmem => hdepths depth (List.mem_append_left _ hmem)
    have hlt : rollbackDepth (prevHeight s.poller.nextBlock) a < i32Max :=
      hdepths _ (List.mem_append_right _ List.mem_cons_self)
    have hstored : s.poller.db.blocks.length = chain.length := by
      rw [hs.mirrors.blocks, List.length_map]
    have hleft : poller.db.blocks.length = i + 1 := by
      rw [hdb, (hs.mirrors.rollback hx hai hax env.now (prevHeight s.poller.nextBlock) g).blocks,
        List.length_map, List.length_take]
      omega
    have hprev := hs.prevHeight_eq hlo
    have hexact : rollbackDepth (prevHeight s.poller.nextBlock) a =
        prevHeight s.poller.nextBlock - a.blockNumber :=
      i32OfInt_eq_of_lt (by have := hrb.below; omega) hlt
    simp only [Metrics.setLatestBlock, Metrics.observeReorg, List.sum_append, List.sum_singleton,
      hexact, hleft]
    push_cast at hprev ⊢
    omega

/-- **Every round keeps the metrics and the tables in agreement.** -/
lemma Reconciles.step (h : Reconciles cfg db₀ s) {lo : ℕ} {chain : List (StoredBlock X)}
    (hs : Synced lo chain s.poller) (hlo : lo < i64Max) (hlog : LogOk s.poller.db)
    {env : StepEnv} (hack : env.commit ≠ .unacked) :
    Reconciles cfg db₀ (s.exec X cfg (.step env)) := by
  rcases step_cases X cfg env s.poller.nextBlock s.poller.db with
    ⟨hdb, heffects, -⟩ | ⟨b, p, db', hix, hdb, ⟨hacked, -⟩ | ⟨hlost, -⟩⟩ |
      ⟨b, g, a, hrb, hdb, ⟨hacked, -⟩ | ⟨hlost, -⟩⟩
  · have hmetrics : (s.exec X cfg (.step env)).metrics = s.metrics := by
      simp only [ObservedPoller.exec, heffects, List.foldl_nil]
    have htables : (s.exec X cfg (.step env)).poller.db = s.poller.db := hdb
    exact ⟨by rw [hmetrics, htables]; exact h.gauge, by rw [hmetrics, htables]; exact h.untouched,
      by rw [hmetrics, htables]; exact h.reorgs, by rw [hmetrics, htables]; exact h.blocks⟩
  · have hexec : s.exec X cfg (.step env) = ⟨Indexer.exec X cfg s.poller (.step env),
        s.metrics.observeBlockIndexed p.block.number⟩ := by
      rw [ObservedPoller.exec, hix.step_acked cfg hacked, foldl_indexed]
    rw [hexec]
    exact h.indexed hix.writes hdb
  · exact absurd hlost hack
  · have hexec : s.exec X cfg (.step env) = ⟨Indexer.exec X cfg s.poller (.step env),
        (s.metrics.observeReorg (rollbackDepth (prevHeight s.poller.nextBlock) a)
          (decide ((cfg.indexerReorgMaxDepth : ℤ) <
            rollbackDepth (prevHeight s.poller.nextBlock) a))).setLatestBlock a.blockNumber⟩ := by
      rw [ObservedPoller.exec, (hrb.step_acked X cfg hacked).2, foldl_reorgEffects]
    rw [hexec]
    exact h.rolledBack hs hlo hlog hrb hdb
  · exact absurd hlost hack

/-- The rounds of a process keep it in step with a chain, and its metrics with its tables. -/
lemma reconciles_run (hlo : cfg.indexerStartBlock < i64Max) {envs : List StepEnv}
    (henvs : ∀ env ∈ envs, Move.Ok U (.step env)) (h : Reconciles cfg db₀ s)
    (hlog : LogOk s.poller.db)
    (hs : ∃ chain : List (StoredBlock X), Synced cfg.indexerStartBlock chain s.poller) :
    Reconciles cfg db₀ (Machine.run (ObservedPoller.exec X cfg) s (envs.map Move.step)) := by
  induction envs generalizing s with
  | nil => exact h
  | cons env envs ih =>
      obtain ⟨⟨hanswers, hack⟩, hrest⟩ := List.forall_mem_cons.1 henvs
      obtain ⟨chain, hs⟩ := hs
      obtain ⟨chain', hstep, hnext⟩ := exec_simulates cfg hs hlo hanswers
      rw [List.map_cons, Machine.run_cons]
      exact ih hrest (h.step hs hlo hlog hack) (hlog.step hack)
        ⟨chain', hstep.mirrors hs.mirrors, hnext hack⟩

/-- **The metrics agree with the tables.**  Start a process on the tables of any reachable
state, and let it do any rounds, against a node whose answers are arbitrary blocks of the height
asked for.  Then its gauge is the height of the checkpoint, once it has indexed a block or
rolled back; its reorg metrics are the rows of the log it has written; and the blocks stored
when it started, with those it has indexed, are as many as those stored now with those its
reorgs have removed. -/
theorem metrics_reconcile (X : CkbLib) (cfg : Config) (s₀ : Poller)
    (hlo : cfg.indexerStartBlock < i64Max) (h₀ : Reachable X cfg (fun _ => True) s₀)
    (envs : List StepEnv) (henvs : ∀ env ∈ envs, Move.Ok (fun _ => True) (.step env)) :
    Reconciles cfg s₀.db (Machine.run (ObservedPoller.exec X cfg) (.start cfg s₀.db)
      (envs.map Move.step)) := by
  obtain ⟨chain, hs, -⟩ := h₀.synced hlo
  exact reconciles_run hlo henvs (.start cfg s₀.db) h₀.logOk ⟨chain, synced_restart hs.mirrors⟩

end Reconciles

namespace Sample

/-- The process that meets the fork: it indexes the left branch, then rolls back and indexes the
right one. -/
def metered : ObservedPoller :=
  Machine.run (ObservedPoller.exec lib cfg) (.start cfg Db.empty)
    ((List.replicate 3 (StepEnv.serving left) ++ List.replicate 4 (StepEnv.serving right)).map
      Move.step)

end Sample

theorem metrics_reconcile_sample :
    Sample.metered.metrics = ⟨3, 6, 1, 0, [2]⟩ ∧ Sample.metered.poller.db.blocks.length = 4 ∧
      Reconciles Sample.cfg Db.empty Sample.metered := by
  refine ⟨by decide +kernel, by decide +kernel, ?_⟩
  refine metrics_reconcile Sample.lib Sample.cfg (initial Sample.cfg) (by decide)
    Machine.Reaches.refl _ fun env henv => ?_
  simp only [List.mem_append, List.mem_replicate] at henv
  refine Sample.moves_ok (fun _ _ => trivial) (.step env) ?_
  simp only [Sample.moves, List.mem_append, List.mem_replicate, List.mem_singleton]
  rcases henv with ⟨-, rfl⟩ | ⟨-, rfl⟩
  · exact Or.inl (Or.inl ⟨by decide, rfl⟩)
  · exact Or.inl (Or.inr ⟨by decide, rfl⟩)

end Indexer

end Cellora

/-
# The audit of reorgs

Every rollback writes one row of `reorg_log` in the transaction that removes the blocks, and
reports its depth to the metrics and to the subscribers.  The depth is computed from the
height below the polled block; that it is the number of removed blocks rests on the loop
polling the height above the highest stored block.  The two hashes of the row are another
matter: the node's hash is the one at the ancestor, and the stored one is that of the highest
block, while the height of the row is the one above the ancestor.
-/
import Cellora.Indexer.Convergence

namespace Cellora

namespace Indexer

open BlockView (HashDetermines)

/-- The row of `reorg_log` that a rollback leaves behind. -/
def auditRow (now : ℕ) (a : Ancestor) (tip : ℤ) (g : Bytes) (db : Db) : ReorgLogEntry where
  id := db.reorgLogSeq + 1
  detectedAt := now
  divergenceBlockNumber := i64SatAdd a.blockNumber 1
  divergenceNodeHash := a.nodeHash
  divergenceIndexedHash := g
  depth := rollbackDepth tip a
  completedAt := some now
  status := .completed
  error := none

/-- The rows of the log have ids that were drawn, and are completed. -/
structure LogOk (db : Db) : Prop where
  ids : ∀ row ∈ db.reorgLog, row.id ≤ db.reorgLogSeq
  completed : ∀ row ∈ db.reorgLog, row.status = .completed ∧ row.completedAt.isSome

/-- The step handled a reorg. -/
def isReorgHandled : Except PollerError StepOutcome → Bool
  | .ok (.reorgHandled _) => true
  | _ => false

/-- What the steps of a run report. -/
def outcomes (X : CkbLib) (cfg : Config) :
    Poller → List Move → List (Except PollerError StepOutcome)
  | _, [] => []
  | s, .step env :: ms =>
      (step X cfg env s.nextBlock s.db).outcome :: outcomes X cfg (exec X cfg s (.step env)) ms
  | s, .restart :: ms => outcomes X cfg (exec X cfg s .restart) ms

/-- The effects of a rollback that is reported with a depth. -/
def reorgEffects (cfg : Config) (now : ℕ) (a : Ancestor) (depth : ℤ) : List Effect :=
  [.observeReorg depth (decide (cfg.indexerReorgMaxDepth < depth)),
    .setLatestBlock a.blockNumber] ++
  if cfg.redis then
    [.publishReorg {
      ancestorBlockNumber := a.blockNumber
      ancestorHash := "0x" ++ Hex.encode a.nodeHash
      depth := depth
      completedAt := now }]
  else []

/-! ### One step -/

section Step

variable {X : CkbLib} {cfg : Config} {env : StepEnv} {n : ℕ} {b : BlockView} {db : Db}

/-- The new row is completed, and no other row is touched. -/
lemma rollbackBody_reorgLog (h : ∀ row ∈ db.reorgLog, row.id ≤ db.reorgLogSeq) (now : ℕ)
    (a : Ancestor) (tip : ℤ) (g : Bytes) :
    (rollbackBody now a tip g db).2.reorgLog = db.reorgLog ++ [auditRow now a tip g db] := by
  change ((db.reorgLog ++ [_]).map _) = _
  rw [List.map_append, List.map_singleton, if_pos rfl]
  congr 1
  refine (List.map_congr_left fun row hrow => if_neg ?_).trans (List.map_id' _)
  have := h row hrow
  change row.id ≠ db.reorgLogSeq + 1
  omega

lemma length_reorgLog_rollbackBody (now : ℕ) (a : Ancestor) (tip : ℤ) (g : Bytes) (db : Db) :
    (rollbackBody now a tip g db).2.reorgLog.length = db.reorgLog.length + 1 := by
  change ((db.reorgLog ++ [_]).map _).length = _
  rw [List.length_map, List.length_append, List.length_singleton]

lemma LogOk.rollbackBody (h : LogOk db) (now : ℕ) (a : Ancestor) (tip : ℤ) (g : Bytes) :
    LogOk (rollbackBody now a tip g db).2 := by
  have hlog := rollbackBody_reorgLog h.ids now a tip g
  have hseq : (Indexer.rollbackBody now a tip g db).2.reorgLogSeq = db.reorgLogSeq + 1 := rfl
  constructor
  · intro row hrow
    rw [hlog] at hrow
    rw [hseq]
    rcases List.mem_append.1 hrow with hrow | hrow
    · exact (h.ids row hrow).trans (Nat.le_succ _)
    · rw [List.mem_singleton.1 hrow]
      exact le_rfl
  · intro row hrow
    rw [hlog] at hrow
    rcases List.mem_append.1 hrow with hrow | hrow
    · exact h.completed row hrow
    · rw [List.mem_singleton.1 hrow]
      exact ⟨rfl, rfl⟩

lemma writeBlock_reorgLog {p : ParsedBlock} {db' : Db} (h : writeBlock p db = .ok db') :
    db'.reorgLog = db.reorgLog ∧ db'.reorgLogSeq = db.reorgLogSeq := by
  obtain ⟨-, -, -, rfl⟩ := writeBlock_eq_ok_iff.1 h
  exact ⟨rfl, rfl⟩

/-- The whole result of a rollback whose commit is acknowledged. -/
lemma RollsBack.step_acked (X : CkbLib) (cfg : Config) {g : Bytes} {a : Ancestor}
    (h : RollsBack env n db b g a) (hack : env.commit = .acked) :
    rollbackTo env a (prevHeight n) g db =
        (.ok (rollbackBody env.now a (prevHeight n) g db).1,
          (rollbackBody env.now a (prevHeight n) g db).2) ∧
      step X cfg env n db = ⟨.ok (.reorgHandled a.blockNumber),
        (rollbackBody env.now a (prevHeight n) g db).2,
        reorgEffects cfg env.now a (rollbackDepth (prevHeight n) a)⟩ := by
  have hrun := runTx_of_ok (fun db => .ok (rollbackBody env.now a (prevHeight n) g db)) db
    h.noFault rfl
  rw [hack] at hrun
  have hdeep : isInconsistentNode (prevHeight n) a.blockNumber = false := by
    simpa [isInconsistentNode] using h.below
  refine ⟨hrun, ?_⟩
  rw [step_eq_handleReorg h.answer h.check, handleReorg, h.ancestor]
  simp only [hdeep, rollbackTo, hrun]
  rfl

/-- **Inversion of a step that handles a reorg.** -/
lemma rollsBack_of_reorgHandled {t : ℤ}
    (h : (step X cfg env n db).outcome = .ok (.reorgHandled t)) :
    ∃ b g a, RollsBack env n db b g a ∧ a.blockNumber = t ∧ env.commit = .acked := by
  rcases step_cases X cfg env n db with
    ⟨-, -, hout | hout | ⟨e, hout⟩⟩ | ⟨b, p, db', hix, hdb, ⟨hack, hout⟩ | ⟨hack, e, hout⟩⟩ |
      ⟨b, g, a, hrb, hdb, ⟨hack, hout⟩ | ⟨hack, e, hout⟩⟩
  all_goals rw [h] at hout
  · exact absurd hout (by simp)
  · exact absurd hout (by simp)
  · exact absurd hout (by simp)
  · exact absurd hout (by simp)
  · exact absurd hout (by simp)
  · refine ⟨b, g, a, hrb, ?_, hack⟩
    simpa using hout.symm
  · exact absurd hout (by simp)

/-- A step that does not handle a reorg leaves the log as it is. -/
lemma reorgLog_of_not_handled (hack : env.commit ≠ .unacked)
    (h : ∀ t, (step X cfg env n db).outcome ≠ .ok (.reorgHandled t)) :
    (step X cfg env n db).db.reorgLog = db.reorgLog ∧
      (step X cfg env n db).db.reorgLogSeq = db.reorgLogSeq := by
  rcases step_cases X cfg env n db with
    ⟨hdb, -, -⟩ | ⟨b, p, db', hix, hdb, -⟩ | ⟨b, g, a, hrb, hdb, ⟨-, hout⟩ | ⟨hlost, -⟩⟩
  · rw [hdb]
    exact ⟨rfl, rfl⟩
  · rw [hdb]
    exact writeBlock_reorgLog hix.writes
  · exact absurd hout (h _)
  · exact absurd hlost hack

/-- **One step keeps the log in order.** -/
lemma LogOk.step (h : LogOk db) (hack : env.commit ≠ .unacked) :
    LogOk (Indexer.step X cfg env n db).db := by
  by_cases hout : ∃ t, (Indexer.step X cfg env n db).outcome = .ok (.reorgHandled t)
  · obtain ⟨t, ht⟩ := hout
    obtain ⟨b, g, a, hrb, -, hacked⟩ := rollsBack_of_reorgHandled ht
    rw [(hrb.step_acked X cfg hacked).2]
    exact h.rollbackBody _ _ _ _
  · obtain ⟨hlog, hseq⟩ := reorgLog_of_not_handled hack fun t ht => hout ⟨t, ht⟩
    exact ⟨by rw [hlog, hseq]; exact h.ids, by rw [hlog]; exact h.completed⟩

lemma length_reorgLog_step (hack : env.commit ≠ .unacked) :
    (step X cfg env n db).db.reorgLog.length =
      db.reorgLog.length + if isReorgHandled (step X cfg env n db).outcome then 1 else 0 := by
  by_cases hout : ∃ t, (step X cfg env n db).outcome = .ok (.reorgHandled t)
  · obtain ⟨t, ht⟩ := hout
    obtain ⟨b, g, a, hrb, -, hacked⟩ := rollsBack_of_reorgHandled ht
    rw [(hrb.step_acked X cfg hacked).2]
    exact length_reorgLog_rollbackBody _ _ _ _ _
  · rw [(reorgLog_of_not_handled hack fun t ht => hout ⟨t, ht⟩).1]
    have hnot : isReorgHandled (step X cfg env n db).outcome = false := by
      rw [← Bool.not_eq_true]
      intro hhandled
      unfold isReorgHandled at hhandled
      split at hhandled
      · rename_i t ht
        exact hout ⟨t, ht⟩
      · exact absurd hhandled (by simp)
    rw [hnot]
    rfl

end Step

/-! ### Whole runs -/

section Runs

variable {X : CkbLib} {cfg : Config} {U : BlockView → Prop} {s : Poller}

/-- **The log has one row for each reorg that was handled.** -/
lemma length_reorgLog_run (X : CkbLib) (cfg : Config) {ms : List Move}
    (hms : ∀ m ∈ ms, Move.Ok U m) (s : Poller) :
    (Machine.run (exec X cfg) s ms).db.reorgLog.length =
      s.db.reorgLog.length + (outcomes X cfg s ms).countP isReorgHandled := by
  induction ms generalizing s with
  | nil => rfl
  | cons m ms ih =>
      obtain ⟨hm, hms⟩ := List.forall_mem_cons.1 hms
      rw [Machine.run_cons, ih hms]
      cases m with
      | restart => rfl
      | step env =>
          rw [outcomes, List.countP_cons]
          change (step X cfg env s.nextBlock s.db).db.reorgLog.length + _ = _
          rw [length_reorgLog_step hm.2]
          omega

lemma Reachable.logOk (h : Reachable X cfg U s) : LogOk s.db := by
  refine Machine.Reaches.invariant (fun s => LogOk s.db) ?_ ?_ h
  · intro s m hm hlog
    cases m with
    | restart => exact hlog
    | step env => exact hlog.step hm.2
  · exact ⟨fun _ h => absurd h List.not_mem_nil, fun _ h => absurd h List.not_mem_nil⟩

/-- The number of block rows that a rollback deletes. -/
lemma Mirrors.deletedBlocks {lo : ℕ} {chain : List (StoredBlock X)} {db : Db}
    (h : Mirrors lo chain db) {i : ℕ} {x : StoredBlock X} {a : Ancestor}
    (hx : chain[i]? = some x) (ha : a.blockNumber = ((lo + i : ℕ) : ℤ))
    (hhash : a.nodeHash = x.view.hash.bytes) (now : ℕ) (tip : ℤ) (g : Bytes) :
    (rollbackBody now a tip g db).1.deletedBlocks = chain.length - (i + 1) := by
  have hkept : (db.blocks.filter fun row => row.number ≤ a.blockNumber).length =
      (chain.take (i + 1)).length := by
    have hblocks := (h.rollback hx ha hhash now tip g).blocks
    rw [rollbackBody_blocks] at hblocks
    rw [hblocks, List.length_map]
  obtain ⟨hi, -⟩ := List.getElem?_eq_some_iff.1 hx
  have hcount : (rollbackBody now a tip g db).1.deletedBlocks =
      db.blocks.countP fun row => ¬ (decide (row.number ≤ a.blockNumber)) := by
    change db.blocks.countP _ = _
    refine List.countP_congr fun row _ => ?_
    simp
  have hsplit := List.length_eq_countP_add_countP
    (fun row : BlockRow => decide (row.number ≤ a.blockNumber)) (l := db.blocks)
  rw [List.countP_eq_length_filter, hkept, List.length_take] at hsplit
  have hlen : db.blocks.length = chain.length := by
    rw [h.blocks, List.length_map]
  rw [hcount]
  omega

end Runs

/-! ### The depth -/

/-- What a step that handles a reorg with the ancestor `a` reports, if `hi` is the highest
stored height: one completed row at the height above the ancestor, and everywhere the number
of blocks that were removed as the depth. -/
structure ReorgAudited (X : CkbLib) (cfg : Config) (env : StepEnv) (s : Poller) (hi a : ℤ) :
    Prop where
  deep : 1 ≤ hi - a
  logged : ∃ row, (step X cfg env s.nextBlock s.db).db.reorgLog = s.db.reorgLog ++ [row] ∧
    row.status = .completed ∧ row.completedAt = some env.now ∧
    row.divergenceBlockNumber = a + 1 ∧ row.depth = hi - a
  rolledBack : ∃ ancestor g out, ancestor.blockNumber = a ∧
    rollbackTo env ancestor hi g s.db = (.ok out, (step X cfg env s.nextBlock s.db).db) ∧
    out.depth = hi - a ∧ (out.deletedBlocks : ℤ) = hi - a
  reported : ∃ ancestor, ancestor.blockNumber = a ∧
    (step X cfg env s.nextBlock s.db).effects = reorgEffects cfg env.now ancestor (hi - a)

lemma i32OfInt_of_range {z : ℤ} (h₀ : 0 ≤ z) (h : z ≤ i32Max) : i32OfInt z = z := by
  rw [i32OfInt, if_pos ⟨by simp only [i32Max] at h ⊢; omega, h⟩]

/-- The depth and the height of the row, on a chain the loop is in step with. -/
lemma Synced.reorgAudited {X : CkbLib} {cfg : Config} {s : Poller} {lo : ℕ}
    {chain : List (StoredBlock X)} (hs : Synced lo chain s) (hlo : lo < i64Max)
    (hlog : LogOk s.db) {env : StepEnv} {hi a : ℤ} (hhi : hi = lo + chain.length - 1)
    (hout : (step X cfg env s.nextBlock s.db).outcome = .ok (.reorgHandled a))
    (hdepth : hi - a ≤ i32Max) : ReorgAudited X cfg env s hi a := by
  obtain ⟨b, g, anc, hrb, rfl, hack⟩ := rollsBack_of_reorgHandled hout
  obtain ⟨i, x, hx, hbelow, hai, hax⟩ := hs.exists_ancestor hlo hrb
  obtain ⟨hroll, hstep⟩ := hrb.step_acked X cfg hack
  have hle := hs.mirrors.next_le hlo
  have hprev : prevHeight s.nextBlock = hi := by
    rw [hs.prevHeight_eq hlo, hhi]
    push_cast
    rfl
  rw [hprev] at hroll hstep
  have hd : rollbackDepth hi anc = hi - anc.blockNumber :=
    i32OfInt_of_range (by omega) hdepth
  have hsat : i64SatAdd anc.blockNumber 1 = anc.blockNumber + 1 := by
    rw [i64SatAdd]
    omega
  refine ⟨by omega, ⟨auditRow env.now anc hi g s.db, ?_, rfl, rfl, hsat, hd⟩,
    ⟨anc, g, _, rfl, by rw [hroll, hstep], hd, ?_⟩, ⟨anc, rfl, by rw [hstep, hd]⟩⟩
  · rw [hstep]
    exact rollbackBody_reorgLog hlog.ids _ _ _ _
  · rw [hs.mirrors.deletedBlocks hx hai hax]
    omega

/-- **The audit of reorgs is exact.**  In every state that a run reaches, the log has one row
for each reorg that was handled, all of them completed; a step that handles a reorg adds one
row with the depth that it reports, which is the number of blocks it removed; and any other
step adds none. -/
theorem reorg_audit_exact (X : CkbLib) (cfg : Config) (ms : List Move) (s : Poller)
    (hlo : cfg.indexerStartBlock < i64Max) (hms : ∀ m ∈ ms, Move.Ok (fun _ => True) m)
    (hs : s = Machine.run (exec X cfg) (initial cfg) ms) :
    s.db.reorgLog.length = (outcomes X cfg (initial cfg) ms).countP isReorgHandled ∧
    (∀ row ∈ s.db.reorgLog, row.status = .completed ∧ row.completedAt.isSome) ∧
    ∀ env, Move.Ok (fun _ => True) (.step env) →
      (∀ hi a : ℤ, (∀ z : ℤ, z ∈ s.db.blocks.map BlockRow.number ↔
          (cfg.indexerStartBlock : ℤ) ≤ z ∧ z ≤ hi) →
        (step X cfg env s.nextBlock s.db).outcome = .ok (.reorgHandled a) →
        hi - a ≤ i32Max → ReorgAudited X cfg env s hi a) ∧
      ((∀ a, (step X cfg env s.nextBlock s.db).outcome ≠ .ok (.reorgHandled a)) →
        (step X cfg env s.nextBlock s.db).db.reorgLog = s.db.reorgLog) := by
  have hreach : Reachable X cfg (fun _ => True) s := ⟨ms, hms, hs.symm⟩
  have hlog := hreach.logOk
  obtain ⟨chain, hsync, -⟩ := hreach.synced hlo
  refine ⟨?_, hlog.completed, fun env henv => ⟨fun hi a hrange hout hdepth => ?_, fun hout => ?_⟩⟩
  · rw [hs, length_reorgLog_run X cfg hms]
    exact Nat.zero_add _
  · -- the ancestor is stored, so the range is the one of the chain
    obtain ⟨b, g, anc, hrb, -, -⟩ := rollsBack_of_reorgHandled hout
    obtain ⟨i, x, hx, hbelow, -, -⟩ := hsync.exists_ancestor hlo hrb
    have hhi : hi = cfg.indexerStartBlock + chain.length - 1 := by
      have h₁ := (hrange (cfg.indexerStartBlock + chain.length - 1)).1
        (hsync.mirrors.mem_blockNumbers_iff.2 (by omega))
      have h₂ := hsync.mirrors.mem_blockNumbers_iff.1 ((hrange hi).2 (by omega))
      omega
    exact hsync.reorgAudited hlo hlog hhi hout hdepth
  · exact (reorgLog_of_not_handled henv.2 hout).1

namespace Sample

lemma leftMoves_ok : ∀ m ∈ List.replicate 3 (Move.step (.serving left)),
    Move.Ok (fun _ => True) m := by
  intro m hm
  obtain ⟨-, rfl⟩ := List.mem_replicate.1 hm
  exact ⟨StepEnv.serving_answers left_numbered (by decide) fun _ _ => trivial, by decide⟩

lemma serving_right_ok : Move.Ok (fun _ => True) (.step (.serving right)) :=
  ⟨StepEnv.serving_answers right_numbered (by decide) fun _ _ => trivial, by decide⟩

lemma forked_outcome :
    (step lib cfg (.serving right) forked.nextBlock forked.db).outcome =
      .ok (.reorgHandled 0) := by
  decide +kernel

lemma forked_range (z : ℤ) : z ∈ forked.db.blocks.map BlockRow.number ↔
    (cfg.indexerStartBlock : ℤ) ≤ z ∧ z ≤ 2 := by
  rw [forked_blocks]
  simp [cfg]
  omega

end Sample

/-- The rollback of the sample removes two blocks. -/
theorem reorg_audit_exact_sample :
    ReorgAudited Sample.lib Sample.cfg (.serving Sample.right) Sample.forked 2 0 :=
  ((reorg_audit_exact Sample.lib Sample.cfg _ Sample.forked (by decide) Sample.leftMoves_ok
    rfl).2.2 _ Sample.serving_right_ok).1 2 0 Sample.forked_range Sample.forked_outcome (by decide)

/-! ### The hashes -/

/-- The hashes of the row are those that the tables and the node's chain have at the height of
the row, and they differ. -/
def DescribesDivergence (C : List BlockView) (db : Db) (row : ReorgLogEntry) : Prop :=
  db.hashAt row.divergenceBlockNumber = some row.divergenceIndexedHash ∧
    (∃ n b, row.divergenceBlockNumber = ((n : ℕ) : ℤ) ∧ C[n]? = some b ∧
      row.divergenceNodeHash = b.hash.bytes) ∧
    row.divergenceIndexedHash ≠ row.divergenceNodeHash

/-- Stored hashes are unique. -/
lemma Mirrors.hashAt_inj {X : CkbLib} {lo : ℕ} {chain : List (StoredBlock X)} {db : Db}
    (h : Mirrors lo chain db) {y z : ℤ} {g : Bytes} (hy : db.hashAt y = some g)
    (hz : db.hashAt z = some g) : y = z := by
  obtain ⟨row, hrow, rfl, hg⟩ := Db.exists_mem_of_hashAt hy
  obtain ⟨row', hrow', rfl, hg'⟩ := Db.exists_mem_of_hashAt hz
  rw [List.inj_on_of_nodup_map h.hashes hrow hrow' (hg.trans hg'.symm)]

/-- **When the recorded hashes describe the divergence.**  Against a node on a fixed chain, a
step that rolls back to `a` adds one row for the height above `a`.  Its hashes are those of
that height exactly if nothing above it was stored and the node has the same hash at `a` and
above it; if a hash determines its block, that never happens. -/
theorem reorg_hashes_describe_divergence_iff (X : CkbLib) (cfg : Config) (s : Poller)
    (C : List BlockView) (env : StepEnv) (a : ℤ) (hlo : cfg.indexerStartBlock < i64Max)
    (hreach : Reachable X cfg (fun _ => True) s) (hC : Numbered BlockView.number 0 C)
    (henv : ∀ k n, env.getBlock k n = .ok C[n]?)
    (hout : (step X cfg env s.nextBlock s.db).outcome = .ok (.reorgHandled a)) :
    ∃ row, (step X cfg env s.nextBlock s.db).db.reorgLog = s.db.reorgLog ++ [row] ∧
      row.divergenceBlockNumber = a + 1 ∧
      (DescribesDivergence C s.db row ↔
        (∀ z ∈ s.db.blocks.map BlockRow.number, z ≤ a + 1) ∧
        ∃ n b b', a = ((n : ℕ) : ℤ) ∧ C[n]? = some b ∧ C[n + 1]? = some b' ∧
          b.hash = b'.hash) ∧
      (HashDetermines (· ∈ C) → ¬ DescribesDivergence C s.db row) := by
  obtain ⟨chain, hs, -⟩ := hreach.synced hlo
  obtain ⟨b₀, g, anc, hrb, rfl, hack⟩ := rollsBack_of_reorgHandled hout
  obtain ⟨i, x, hx, hbelow, hai, -⟩ := hs.exists_ancestor hlo hrb
  obtain ⟨-, -, htop, -⟩ := parentCheck_eq_some hrb.check
  obtain ⟨n, k, b, -, han, hget, hnode, hstored⟩ := walkBack_eq_ok hrb.ancestor
  have hb : C[n]? = some b := by
    rw [henv] at hget
    exact Except.ok.inj hget
  have hle := hs.mirrors.next_le hlo
  have hsat : i64SatAdd anc.blockNumber 1 = anc.blockNumber + 1 := by
    rw [i64SatAdd]
    omega
  have hiff : DescribesDivergence C s.db
      (auditRow env.now anc (prevHeight s.nextBlock) g s.db) ↔
        (∀ z ∈ s.db.blocks.map BlockRow.number, z ≤ anc.blockNumber + 1) ∧
        ∃ n b b', anc.blockNumber = ((n : ℕ) : ℤ) ∧ C[n]? = some b ∧ C[n + 1]? = some b' ∧
          b.hash = b'.hash := by
    simp only [DescribesDivergence, auditRow, hsat]
    constructor
    · rintro ⟨hindexed, ⟨m, b', hm, hb', hnode'⟩, -⟩
      -- the row has the hash of the highest block, so that is the block above the ancestor
      have heq := hs.mirrors.hashAt_inj hindexed htop
      refine ⟨fun z hz => ?_, n, b, b', han, hb, ?_, ?_⟩
      · have := hs.mirrors.mem_blockNumbers_iff.1 hz
        rw [hs.prevHeight_eq hlo] at heq
        omega
      · rwa [show n + 1 = m by omega]
      · exact H256.ext_bytes (hnode.symm.trans hnode')
    · rintro ⟨hmax, m, b₁, b₂, hm, hb₁, hb₂, hhash⟩
      obtain rfl : m = n := by omega
      obtain rfl : b = b₁ := Option.some.inj (hb.symm.trans hb₁)
      have hprev : prevHeight s.nextBlock = anc.blockNumber + 1 := by
        obtain ⟨row, hrow, hnum, -⟩ := Db.exists_mem_of_hashAt htop
        have := hmax _ (List.mem_map_of_mem hrow)
        have := hrb.below
        omega
      rw [← hprev]
      refine ⟨htop, ⟨m + 1, b₂, by omega, hb₂, by rw [hnode, hhash]⟩, fun heq => ?_⟩
      rw [← han, ← hnode, ← heq] at hstored
      have := hs.mirrors.hashAt_inj hstored htop
      omega
  refine ⟨auditRow env.now anc (prevHeight s.nextBlock) g s.db, ?_, hsat, hiff, ?_⟩
  · rw [(hrb.step_acked X cfg hack).2]
    exact rollbackBody_reorgLog hreach.logOk.ids _ _ _ _
  · intro hdet hrow
    obtain ⟨-, m, b₁, b₂, -, hb₁, hb₂, hhash⟩ := hiff.1 hrow
    have heq := hdet b₁ b₂ (List.mem_of_getElem? hb₁) (List.mem_of_getElem? hb₂) hhash
    have h₁ := hC m b₁ hb₁
    have h₂ := hC (m + 1) b₂ hb₂
    rw [heq] at h₁
    omega

/-- The row of the sample does not describe the divergence. -/
theorem reorg_hashes_describe_divergence_iff_sample :
    ∃ row, (step Sample.lib Sample.cfg (.serving Sample.right) Sample.forked.nextBlock
        Sample.forked.db).db.reorgLog = Sample.forked.db.reorgLog ++ [row] ∧
      ¬ DescribesDivergence Sample.right Sample.forked.db row := by
  obtain ⟨row, hlog, -, -, hnot⟩ := reorg_hashes_describe_divergence_iff Sample.lib Sample.cfg
    Sample.forked Sample.right (.serving Sample.right) 0 (by decide)
    ⟨_, Sample.leftMoves_ok, rfl⟩ Sample.right_numbered (fun _ _ => rfl) Sample.forked_outcome
  refine ⟨row, hlog, hnot fun b b' hb hb' => ?_⟩
  exact Sample.served_hashDetermines b b' (Or.inr hb) (Or.inr hb')

/-- **A rollback of two blocks records the hashes of two other heights.**  The index has
`0x11…` stored above the ancestor and the node has `0x21…` there; the row for that height says
`0x12…` and `0x10…`. -/
theorem reorg_hashes_of_other_heights :
    Reachable Sample.lib Sample.cfg (fun _ => True) Sample.forked ∧
    (step Sample.lib Sample.cfg (.serving Sample.right) Sample.forked.nextBlock
      Sample.forked.db).outcome = .ok (.reorgHandled 0) ∧
    (step Sample.lib Sample.cfg (.serving Sample.right) Sample.forked.nextBlock
        Sample.forked.db).db.reorgLog.map
      (fun row => (row.divergenceBlockNumber, row.divergenceIndexedHash,
        row.divergenceNodeHash)) =
      [(1, (H256.rep 0x12).bytes, (H256.rep 0x10).bytes)] ∧
    ¬ ∀ row ∈ (step Sample.lib Sample.cfg (.serving Sample.right) Sample.forked.nextBlock
      Sample.forked.db).db.reorgLog, DescribesDivergence Sample.right Sample.forked.db row := by
  have hlog : (step Sample.lib Sample.cfg (.serving Sample.right) Sample.forked.nextBlock
        Sample.forked.db).db.reorgLog.map
      (fun row => (row.divergenceBlockNumber, row.divergenceIndexedHash,
        row.divergenceNodeHash)) =
      [(1, (H256.rep 0x12).bytes, (H256.rep 0x10).bytes)] := by
    decide +kernel
  refine ⟨⟨_, Sample.leftMoves_ok, rfl⟩, Sample.forked_outcome, hlog, fun hall => ?_⟩
  obtain ⟨row, hrow, heq⟩ := List.map_eq_singleton_iff.1 hlog
  obtain ⟨hnum, hhashes⟩ := Prod.mk.inj heq
  obtain ⟨hindexed, -⟩ := hall row (hrow ▸ List.mem_singleton_self row)
  rw [hnum, (Prod.mk.inj hhashes).1] at hindexed
  exact absurd hindexed (by decide +kernel)

end Indexer

end Cellora

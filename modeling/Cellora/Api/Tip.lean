/-
# The snapshot of the tips

A background task reads the checkpoint of the indexer and the tip of the node, and publishes
both as a snapshot with the time it was observed.  If a read fails, the previous value is
carried forward; the time advances only if both reads succeed, so that the snapshot of a dead
source grows stale.

A refresh is five moves: it loads the previous snapshot, the two reads end, the clocks are
read, and the new snapshot is stored.  Time passes in between, and the snapshot may be read at
any moment.  The clock never runs backwards by construction: a move says how much time passes.
-/
import Cellora.Db.Models
import Cellora.Lib.Machine

namespace Cellora

namespace Api

/-! ### Snapshots -/

/-- `STALE_AFTER`, in nanoseconds. -/
def staleAfter : ℕ := 5 * 10 ^ 9

/-- `Instant::checked_sub`, on nanoseconds since the origin of the clock. -/
def instantCheckedSub (t d : ℕ) : Option ℕ := if d ≤ t then some (t - d) else none

/-- `TipSnapshot`. -/
structure TipSnapshot where
  indexerTip : Option ℤ
  nodeTip : Option ℕ
  /-- Wall-clock time, in nanoseconds since the Unix epoch. -/
  observedAt : ℤ
  /-- Reading of the monotonic clock, in nanoseconds since its origin. -/
  observedMonotonic : ℕ
deriving DecidableEq

namespace TipSnapshot

/-- `TipSnapshot::empty`.  The clock is read again if it cannot be set back. -/
def empty (now again : ℕ) : TipSnapshot where
  indexerTip := none
  nodeTip := none
  observedAt := 0
  observedMonotonic := (instantCheckedSub now (staleAfter * 2)).getD again

lemma empty_observedMonotonic {now : ℕ} (h : staleAfter * 2 ≤ now) (again : ℕ) :
    (empty now again).observedMonotonic = now - staleAfter * 2 := by
  rw [empty, instantCheckedSub, if_pos h, Option.getD_some]

/-- `TipSnapshot::is_stale`. -/
def isStale (snap : TipSnapshot) (now : ℕ) : Bool := staleAfter < now - snap.observedMonotonic

end TipSnapshot

/-! ### One refresh -/

/-- What the two reads of a refresh return, or the reasons of their failures. -/
structure TipReads where
  checkpoint : Except String (Option Checkpoint)
  node : Except String ℕ

/-- Both sources were read. -/
def TipReads.bothOk (reads : TipReads) : Bool := reads.checkpoint.isOk && reads.node.isOk

/-- `refresh_once`: the snapshot it stores, given the one it loaded, what the reads returned,
and the two clocks. -/
def refreshOnce (previous : TipSnapshot) (reads : TipReads) (wall : ℤ) (now : ℕ) :
    TipSnapshot :=
  let (indexerTip, indexerOk) := match reads.checkpoint with
    | .ok row => (row.map Checkpoint.lastIndexedBlock, true)
    | .error _ => (previous.indexerTip, false)
  let (nodeTip, nodeOk) := match reads.node with
    | .ok n => (some n, true)
    | .error _ => (previous.nodeTip, false)
  let (observedAt, observedMonotonic) :=
    if indexerOk && nodeOk then (wall, now)
    else (previous.observedAt, previous.observedMonotonic)
  ⟨indexerTip, nodeTip, observedAt, observedMonotonic⟩

/-! ### The task -/

/-- Where the task is. -/
inductive RefreshStage where
  | sleeping
  /-- Waits for `checkpoint::read`. -/
  | readingCheckpoint (previous : TipSnapshot)
  /-- Waits for `tip_block_number`. -/
  | readingNode (previous : TipSnapshot) (checkpoint : Except String (Option Checkpoint))
  /-- Is about to read the clocks. -/
  | stamping (previous : TipSnapshot) (reads : TipReads)
  /-- Is about to store the snapshot; the clock was read at `stampedAt`. -/
  | storing (snapshot : TipSnapshot) (reads : TipReads) (stampedAt : ℕ)

/-- A refresh that is over. -/
structure Refresh where
  reads : TipReads
  stampedAt : ℕ
  publishedAt : ℕ

/-- The clock, the tracker, the task, and the refreshes that are over, the latest first. -/
structure TipService where
  clock : ℕ
  tip : TipSnapshot
  stage : RefreshStage
  published : List Refresh

/-- A move of the task or of time. -/
inductive TipMove where
  | pass (d : ℕ)
  | start
  | checkpointRead (result : Except String (Option Checkpoint))
  | nodeRead (result : Except String ℕ)
  | stamp (wall : ℤ)
  | store

namespace TipService

/-- A tracker that is new at the time `now`. -/
def new (now again : ℕ) : TipService := ⟨now, TipSnapshot.empty now again, .sleeping, []⟩

/-- One move.  A move that the task is not waiting for does nothing. -/
def exec (s : TipService) : TipMove → TipService
  | .pass d => { s with clock := s.clock + d }
  | .start =>
      match s.stage with
      | .sleeping => { s with stage := .readingCheckpoint s.tip }
      | _ => s
  | .checkpointRead result =>
      match s.stage with
      | .readingCheckpoint previous => { s with stage := .readingNode previous result }
      | _ => s
  | .nodeRead result =>
      match s.stage with
      | .readingNode previous checkpoint =>
          { s with stage := .stamping previous ⟨checkpoint, result⟩ }
      | _ => s
  | .stamp wall =>
      match s.stage with
      | .stamping previous reads =>
          { s with stage := .storing (refreshOnce previous reads wall s.clock) reads s.clock }
      | _ => s
  | .store =>
      match s.stage with
      | .storing snapshot reads stampedAt =>
          { s with
            tip := snapshot
            stage := .sleeping
            published := ⟨reads, stampedAt, s.clock⟩ :: s.published }
      | _ => s

/-! ### What a snapshot says -/

/-- The value of the latest successful read of the checkpoint. -/
def latestCheckpoint (published : List Refresh) : Option ℤ :=
  (published.findSome? fun r => r.reads.checkpoint.toOption).join.map Checkpoint.lastIndexedBlock

/-- The value of the latest successful read of the node's tip. -/
def latestNode (published : List Refresh) : Option ℕ :=
  published.findSome? fun r => r.reads.node.toOption

/-- The latest refresh in which both reads succeeded. -/
def latestBoth (published : List Refresh) : Option Refresh :=
  published.find? fun r => r.reads.bothOk

/-- The snapshot holds the values of the latest successful reads, and the time of the latest
refresh in which both succeeded, or the stamp it started with. -/
structure Describes (initial : ℕ) (published : List Refresh) (snap : TipSnapshot) : Prop where
  indexerTip : snap.indexerTip = latestCheckpoint published
  nodeTip : snap.nodeTip = latestNode published
  observedMonotonic :
    snap.observedMonotonic = ((latestBoth published).map Refresh.stampedAt).getD initial

/-- One more refresh, whatever fails in it. -/
lemma describes_refreshOnce {initial : ℕ} {published : List Refresh} {snap : TipSnapshot}
    (h : Describes initial published snap) (reads : TipReads) (wall : ℤ) (now publishedAt : ℕ) :
    Describes initial (⟨reads, now, publishedAt⟩ :: published)
      (refreshOnce snap reads wall now) := by
  obtain ⟨hindexer, hnode, hobserved⟩ := h
  obtain ⟨checkpoint, node⟩ := reads
  cases checkpoint with
  | ok row =>
      cases node with
      | ok n => exact ⟨rfl, rfl, rfl⟩
      | error e => exact ⟨rfl, hnode, hobserved⟩
  | error e =>
      cases node with
      | ok n => exact ⟨hindexer, rfl, hobserved⟩
      | error e' => exact ⟨hindexer, hnode, hobserved⟩

/-! ### Every moment of a run -/

/-- The snapshot the task loaded is still the one in the tracker, and the one it is about to
store was made from that. -/
def StageOk (clock : ℕ) (tip : TipSnapshot) : RefreshStage → Prop
  | .sleeping => True
  | .readingCheckpoint previous => previous = tip
  | .readingNode previous _ => previous = tip
  | .stamping previous _ => previous = tip
  | .storing snapshot reads stampedAt =>
      stampedAt ≤ clock ∧ ∃ wall, snapshot = refreshOnce tip reads wall stampedAt

/-- What holds at every moment after the time `start`. -/
structure Inv (start : ℕ) (s : TipService) : Prop where
  describes : Describes (start - staleAfter * 2) s.published s.tip
  stage : StageOk s.clock s.tip s.stage
  clock : start ≤ s.clock
  times : ∀ r ∈ s.published, r.stampedAt ≤ r.publishedAt ∧ r.publishedAt ≤ s.clock

lemma inv_new {start : ℕ} (hstart : staleAfter * 2 ≤ start) (again : ℕ) :
    Inv start (new start again) where
  describes := by
    refine ⟨rfl, rfl, ?_⟩
    rw [show (new start again).published = [] from rfl, latestBoth, List.find?_nil,
      Option.map_none, Option.getD_none]
    exact TipSnapshot.empty_observedMonotonic hstart again
  stage := trivial
  clock := le_rfl
  times := fun _ h => absurd h List.not_mem_nil

/-- A move of the task within a refresh. -/
lemma Inv.of_stage {start : ℕ} {s : TipService} (h : Inv start s) {stage : RefreshStage}
    (hstage : StageOk s.clock s.tip stage) : Inv start { s with stage := stage } :=
  ⟨h.describes, hstage, h.clock, h.times⟩

lemma inv_pass {start : ℕ} {s : TipService} (h : Inv start s) (d : ℕ) :
    Inv start { s with clock := s.clock + d } where
  describes := h.describes
  stage := by
    have hok := h.stage
    show StageOk (s.clock + d) s.tip s.stage
    cases hstage : s.stage with
    | storing snapshot reads stampedAt =>
        rw [hstage] at hok
        exact ⟨hok.1.trans (Nat.le_add_right _ _), hok.2⟩
    | _ =>
        rw [hstage] at hok
        exact hok
  clock := h.clock.trans (Nat.le_add_right _ _)
  times := fun r hr => ⟨(h.times r hr).1, (h.times r hr).2.trans (Nat.le_add_right _ _)⟩

/-- Storing the snapshot ends the refresh. -/
lemma inv_store {start : ℕ} {s : TipService} (h : Inv start s) {snapshot : TipSnapshot}
    {reads : TipReads} {stampedAt : ℕ} (hstage : s.stage = .storing snapshot reads stampedAt) :
    Inv start { s with
      tip := snapshot
      stage := .sleeping
      published := ⟨reads, stampedAt, s.clock⟩ :: s.published } := by
  have hok := h.stage
  rw [hstage] at hok
  obtain ⟨htime, wall, rfl⟩ := hok
  refine ⟨describes_refreshOnce h.describes reads wall stampedAt s.clock, trivial, h.clock, ?_⟩
  intro r hr
  rcases List.mem_cons.1 hr with rfl | hr
  · exact ⟨htime, le_rfl⟩
  · exact h.times r hr

/-- Every move keeps the invariant. -/
lemma inv_exec {start : ℕ} {s : TipService} (h : Inv start s) (m : TipMove) :
    Inv start (exec s m) := by
  have hok := h.stage
  cases m with
  | pass d => exact inv_pass h d
  | start =>
      rw [exec]
      split
      · exact h.of_stage rfl
      · exact h
  | checkpointRead result =>
      rw [exec]
      split
      · rename_i previous hstage
        rw [hstage] at hok
        exact h.of_stage hok
      · exact h
  | nodeRead result =>
      rw [exec]
      split
      · rename_i previous checkpoint hstage
        rw [hstage] at hok
        exact h.of_stage hok
      · exact h
  | stamp wall =>
      rw [exec]
      split
      · rename_i previous reads hstage
        rw [hstage] at hok
        exact h.of_stage ⟨le_rfl, wall, by rw [hok]⟩
      · exact h
  | store =>
      rw [exec]
      split
      · rename_i hstage
        exact inv_store h hstage
      · exact h

lemma inv_run {start : ℕ} {s : TipService} (h : Inv start s) (ms : List TipMove) :
    Inv start (Machine.run exec s ms) := by
  induction ms generalizing s with
  | nil => exact h
  | cons m ms ih => exact ih (inv_exec h m)

/-- A snapshot that is not stale was observed in a recent refresh. -/
lemma Inv.fresh {start : ℕ} {s : TipService} (h : Inv start s) (hstart : staleAfter * 2 ≤ start)
    (hfresh : s.tip.isStale s.clock = false) :
    ∃ r ∈ s.published, r.reads.bothOk = true ∧ r.publishedAt ≤ s.clock ∧
      s.clock - r.publishedAt ≤ staleAfter := by
  have hage : s.clock - s.tip.observedMonotonic ≤ staleAfter := by
    rw [TipSnapshot.isStale, decide_eq_false_iff_not] at hfresh
    exact not_lt.1 hfresh
  rw [h.describes.observedMonotonic] at hage
  cases hlatest : latestBoth s.published with
  | none =>
      -- the stamp it started with is already too old
      rw [hlatest, Option.map_none, Option.getD_none] at hage
      have := h.clock
      have hpos : 0 < staleAfter := by decide
      omega
  | some r =>
      rw [hlatest, Option.map_some, Option.getD_some] at hage
      have hmem := List.mem_of_find?_eq_some hlatest
      obtain ⟨hstamp, hpublished⟩ := h.times r hmem
      have hboth : r.reads.bothOk = true := by
        rw [latestBoth] at hlatest
        exact List.find?_some (p := fun r : Refresh => r.reads.bothOk) hlatest
      exact ⟨r, hmem, hboth, hpublished, by omega⟩

/-- **Snapshots do not hide a dead source.**  At every moment of every run, whatever reads
fail: the snapshot holds the values of the latest successful reads and the time of the latest
refresh in which both succeeded, or the stale stamp it started with.  So if it is not stale, a
refresh in which both sources were read was published within the last five seconds. -/
theorem tip_never_masks_dead_source (start again : ℕ) (hstart : staleAfter * 2 ≤ start)
    (ms : List TipMove) :
    let s := Machine.run exec (new start again) ms
    s.tip.indexerTip = latestCheckpoint s.published ∧
      s.tip.nodeTip = latestNode s.published ∧
      s.tip.observedMonotonic =
        ((latestBoth s.published).map Refresh.stampedAt).getD (start - staleAfter * 2) ∧
      (s.tip.isStale s.clock = false →
        ∃ r ∈ s.published, r.reads.bothOk = true ∧ r.publishedAt ≤ s.clock ∧
          s.clock - r.publishedAt ≤ staleAfter) := by
  intro s
  have hinv : Inv start s := inv_run (inv_new hstart again) ms
  obtain ⟨hindexer, hnode, hobserved⟩ := hinv.describes
  exact ⟨hindexer, hnode, hobserved, hinv.fresh hstart⟩

namespace Sample

/-- Ten seconds after the origin of the clock, a refresh; a second later, one in which the node
does not answer. -/
def tipMoves : List TipMove :=
  [.start, .checkpointRead (.ok (some ⟨7, []⟩)), .nodeRead (.ok 9), .stamp 0, .store,
    .pass (10 ^ 9), .start, .checkpointRead (.ok (some ⟨8, []⟩)), .nodeRead (.error "timeout"),
    .stamp 0, .store]

end Sample

/-- The tip of the node is carried forward, and the time of the first refresh with it. -/
theorem tip_never_masks_dead_source_sample :
    let s := Machine.run exec (new (10 ^ 10) 0) Sample.tipMoves
    s.tip.indexerTip = some 8 ∧ s.tip.nodeTip = some 9 ∧ s.tip.observedMonotonic = 10 ^ 10 ∧
      ∃ r ∈ s.published, r.reads.bothOk = true ∧ r.publishedAt ≤ s.clock ∧
        s.clock - r.publishedAt ≤ staleAfter := by
  intro s
  obtain ⟨hindexer, hnode, hobserved, hfresh⟩ :=
    tip_never_masks_dead_source (10 ^ 10) 0 (by decide) Sample.tipMoves
  refine ⟨hindexer.trans ?_, hnode.trans ?_, hobserved.trans ?_, hfresh ?_⟩
  · decide +kernel
  · decide +kernel
  · decide +kernel
  · decide +kernel

end TipService

end Api

end Cellora

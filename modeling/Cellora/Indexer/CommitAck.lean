/-
# Lost acknowledgements

The run loop moves `nextBlock` by what a step reports.  A commit that the server has applied
but that the client sees as an error moves the tables and not `nextBlock`: after a lost
index commit the loop polls a height that is already stored, after a lost rollback it
polls a height above a gap.  The loop reads the checkpoint only when the process starts, so
the loop and the tables stay in step exactly in the runs where the process is restarted
before the next step.
-/
import Cellora.Indexer.Runs

namespace Cellora

namespace Indexer

/-- The loop is in step with the tables: it polls the height above the checkpoint, no stored
height is missing below the highest one, and the height to poll is not stored. -/
structure InStep (cfg : Config) (s : Poller) : Prop where
  next : (s.nextBlock : ℤ) = match s.db.indexerState with
    | some cp => cp.lastIndexedBlock + 1
    | none => cfg.indexerStartBlock
  contiguous : ∃ hi : ℤ, ∀ z : ℤ, z ∈ s.db.blocks.map BlockRow.number ↔
    (cfg.indexerStartBlock : ℤ) ≤ z ∧ z ≤ hi
  fresh : (s.nextBlock : ℤ) ∉ s.db.blocks.map BlockRow.number

/-- Whenever a step of the run is started, the loop is in step with the tables. -/
def StartsInStep (X : CkbLib) (cfg : Config) (s : Poller) (moves : List Move) : Prop :=
  ∀ pre env post, moves = pre ++ .step env :: post →
    InStep cfg (Machine.run (exec X cfg) s pre)

/-- The move reaches a commit that is applied and whose acknowledgement is lost. -/
def Move.LosesAck (X : CkbLib) (s : Poller) : Move → Prop
  | .step env => env.commit = .unacked ∧ Commits X env s.nextBlock s.db
  | .restart => False

/-- No step of the run directly follows a lost acknowledgement. -/
def RestartsAfterLoss (X : CkbLib) (cfg : Config) : Poller → List Move → Prop
  | _, [] => True
  | s, m :: ms => (m.LosesAck X s → ∀ env, ms.head? ≠ some (.step env)) ∧
      RestartsAfterLoss X cfg (exec X cfg s m) ms

section Runs

variable {X : CkbLib} {cfg : Config} {s : Poller} {chain : List (StoredBlock X)}
  {U : BlockView → Prop}

lemma startsInStep_nil : StartsInStep X cfg s [] := by
  intro pre env post h
  simp at h

lemma startsInStep_cons {m : Move} {ms : List Move} :
    StartsInStep X cfg s (m :: ms) ↔
      (∀ env, m = .step env → InStep cfg s) ∧ StartsInStep X cfg (exec X cfg s m) ms := by
  constructor
  · intro h
    refine ⟨?_, fun pre env post hms => ?_⟩
    · rintro env rfl
      exact h [] env ms rfl
    · exact h (m :: pre) env post (by rw [hms]; rfl)
  · rintro ⟨hm, hms⟩ pre env post h
    cases pre with
    | nil => exact hm env (List.cons.inj h).1
    | cons m' pre =>
        obtain ⟨rfl, hrest⟩ := List.cons.inj h
        exact hms pre env post hrest

lemma Synced.inStep (h : Synced cfg.indexerStartBlock chain s) : InStep cfg s := by
  have hinv := h.indexInvariant
  refine ⟨?_, ⟨_, hinv.contiguous⟩, fun hmem => ?_⟩
  · cases hcp : s.db.indexerState with
    | none => rw [hinv.next_of_empty (hinv.absent.1 hcp)]
    | some cp =>
        have hne : s.db.blocks ≠ [] := by
          intro he
          rw [hinv.absent.2 he] at hcp
          exact absurd hcp (by simp)
        simp only [hinv.next_of_stored hne, (hinv.checkpoint cp hcp).1]
  · have := (hinv.contiguous _).1 hmem
    rw [h.next] at this
    push_cast at this
    omega

/-- A step that loses no acknowledgement keeps the loop in step with the chain. -/
lemma Synced.step_of_not_losesAck (h : Synced cfg.indexerStartBlock chain s)
    (hlo : cfg.indexerStartBlock < i64Max) {env : StepEnv} (henv : env.Answers U)
    (hack : ¬ (Move.step env).LosesAck X s) :
    ∃ chain' : List (StoredBlock X),
      Synced cfg.indexerStartBlock chain' (exec X cfg s (.step env)) := by
  by_cases hlost : env.commit = .unacked
  · -- the commit was not reached, so nothing happened
    rcases step_cases X cfg env s.nextBlock s.db with
      hidle | ⟨b, p, db', hix, -, -⟩ | ⟨b, g, a, hrb, -, -⟩
    · refine ⟨chain, ?_, ?_⟩
      · change Mirrors _ chain (step X cfg env s.nextBlock s.db).db
        rw [hidle.1]
        exact h.mirrors
      · change advance s.nextBlock (step X cfg env s.nextBlock s.db).outcome = _
        rw [hidle.advance, h.next]
    · exact absurd ⟨hlost, Or.inl ⟨b, p, db', hix⟩⟩ hack
    · exact absurd ⟨hlost, Or.inr ⟨b, g, a, hrb⟩⟩ hack
  · obtain ⟨chain', hstep, hnext⟩ := exec_simulates cfg h hlo henv
    exact ⟨chain', hstep.mirrors h.mirrors, hnext hlost⟩

/-- After a lost acknowledgement the loop is not in step with the tables. -/
lemma Synced.not_inStep_of_losesAck (h : Synced cfg.indexerStartBlock chain s)
    (hlo : cfg.indexerStartBlock < i64Max) {env : StepEnv} (henv : env.Answers U)
    (hlost : (Move.step env).LosesAck X s) : ¬ InStep cfg (exec X cfg s (.step env)) := by
  have hle : s.nextBlock ≤ i64Max := h.next ▸ h.mirrors.next_le hlo
  intro hin
  have hnext := hin.next
  change ((advance s.nextBlock (step X cfg env s.nextBlock s.db).outcome : ℕ) : ℤ) =
    match (step X cfg env s.nextBlock s.db).db.indexerState with
    | some cp => cp.lastIndexedBlock + 1
    | none => cfg.indexerStartBlock at hnext
  obtain ⟨hack, ⟨b, p, db', hix⟩ | ⟨b, g, a, hrb⟩⟩ := hlost
  · -- the checkpoint is at the polled height, and the loop polls it again
    obtain ⟨⟨e, hout⟩, hdb⟩ := (hix.step_eq cfg).2 hack
    obtain ⟨-, -, -, rfl⟩ := writeBlock_eq_ok_iff.1 hix.writes
    obtain ⟨hnum, -, -⟩ := henv _ _ _ hix.answer
    rw [hout, hdb, advance] at hnext
    simp only [(parseBlock_spec hix.parses).block.number, hnum] at hnext
    omega
  · -- the checkpoint is at the ancestor, and the loop stays above the old tip
    obtain ⟨⟨e, hout⟩, hdb⟩ := (hrb.step_eq X cfg).2 hack
    have hbelow := hrb.below
    rw [prevHeight_of_le hle] at hbelow
    rw [hout, hdb, rollbackBody_indexerState] at hnext
    have hnext : (s.nextBlock : ℤ) = a.blockNumber + 1 := hnext
    omega

/-- From a state whose tables mirror a chain, and in which the loop is in step with it or
does not start with a step: the steps of a run start in step exactly if no step follows a
lost acknowledgement. -/
lemma startsInStep_iff_of_mirrors (hlo : cfg.indexerStartBlock < i64Max) {moves : List Move}
    (hmoves : ∀ m ∈ moves, m.Answered U) (hm : Mirrors cfg.indexerStartBlock chain s.db)
    (hnext : s.nextBlock = cfg.indexerStartBlock + chain.length ∨
      ∀ env, moves.head? ≠ some (.step env)) :
    StartsInStep X cfg s moves ↔ RestartsAfterLoss X cfg s moves := by
  induction moves generalizing s chain with
  | nil => exact ⟨fun _ => trivial, fun _ => startsInStep_nil⟩
  | cons m ms ih =>
      obtain ⟨hmove, hms⟩ := List.forall_mem_cons.1 hmoves
      rw [startsInStep_cons, RestartsAfterLoss]
      cases m with
      | restart =>
          have hs := synced_restart (X := X) hm
          rw [ih hms hs.mirrors (Or.inl hs.next)]
          simp [Move.LosesAck]
      | step env =>
          have hs : Synced cfg.indexerStartBlock chain s :=
            ⟨hm, hnext.resolve_right fun h => h env rfl⟩
          by_cases hlost : (Move.step env).LosesAck X s
          · obtain ⟨chain', hstep, -⟩ := exec_simulates cfg hs hlo hmove
            have hm' := hstep.mirrors hm
            by_cases hhead : ∀ env', ms.head? ≠ some (.step env')
            · rw [ih hms hm' (Or.inr hhead)]
              exact ⟨fun h => ⟨fun _ => hhead, h.2⟩, fun h => ⟨fun _ _ => hs.inStep, h.2⟩⟩
            · -- the next step starts out of step
              refine ⟨fun h => ?_, fun h => absurd (h.1 hlost) hhead⟩
              simp only [not_forall, not_not] at hhead
              obtain ⟨env', hhead⟩ := hhead
              obtain ⟨ms', rfl⟩ := List.head?_eq_some_iff.1 hhead
              exact absurd (h.2 [] env' ms' rfl) (hs.not_inStep_of_losesAck hlo hmove hlost)
          · obtain ⟨chain', hs'⟩ := hs.step_of_not_losesAck hlo hmove hlost
            rw [ih hms hs'.mirrors (Or.inl hs'.next)]
            exact ⟨fun h => ⟨fun hl => absurd hl hlost, h.2⟩,
              fun h => ⟨fun _ _ => hs.inStep, h.2⟩⟩

end Runs

/-- In a run from an empty database, every step starts in step with the tables exactly if no
step directly follows a commit whose acknowledgement was lost. -/
theorem startsInStep_iff_restartsAfterLoss (X : CkbLib) (cfg : Config)
    (hlo : cfg.indexerStartBlock < i64Max) (moves : List Move)
    (hmoves : ∀ m ∈ moves, m.Answered fun _ => True) :
    StartsInStep X cfg (initial cfg) moves ↔ RestartsAfterLoss X cfg (initial cfg) moves :=
  startsInStep_iff_of_mirrors hlo hmoves Mirrors.empty (Or.inl synced_initial.next)

namespace Sample

/-- A round against a node on a fixed chain whose commit loses its acknowledgement. -/
def losing (C : List BlockView) : StepEnv := { StepEnv.serving C with commit := .unacked }

/-- The acknowledgement of an index commit is lost, and the process restarts. -/
def lostThenRestart : List Move :=
  [.step (.serving left), .step (losing left), .restart, .step (.serving left)]

/-- The acknowledgement of a rollback is lost, and the loop goes on. -/
def lostRollback : List Move :=
  List.replicate 3 (.step (.serving left)) ++ [.step (losing right), .step (.serving right)]

/-- The state after the lost acknowledgement of the first index commit. -/
def lostIndex : Poller := exec lib cfg (initial cfg) (.step (losing left))

lemma serving_answered : (StepEnv.serving left).Answers (fun _ => True) ∧
    (StepEnv.serving right).Answers fun _ => True :=
  ⟨StepEnv.serving_answers left_numbered (by decide) fun _ _ => trivial,
    StepEnv.serving_answers right_numbered (by decide) fun _ _ => trivial⟩

lemma lostThenRestart_answered : ∀ m ∈ lostThenRestart, m.Answered fun _ => True := by
  simp only [lostThenRestart, List.forall_mem_cons]
  exact ⟨serving_answered.1, serving_answered.1, trivial, serving_answered.1,
    fun _ h => absurd h List.not_mem_nil⟩

lemma lostThenRestart_restarts : RestartsAfterLoss lib cfg (initial cfg) lostThenRestart := by
  refine ⟨fun h => absurd h.1 (by decide), fun _ env => by simp, fun h => h.elim,
    fun h => absurd h.1 (by decide), trivial⟩

end Sample

theorem startsInStep_iff_restartsAfterLoss_sample :
    StartsInStep Sample.lib Sample.cfg (initial Sample.cfg) Sample.lostThenRestart :=
  (startsInStep_iff_restartsAfterLoss Sample.lib Sample.cfg (by decide)
    Sample.lostThenRestart Sample.lostThenRestart_answered).2 Sample.lostThenRestart_restarts

/-- After a lost rollback the next step indexes a block above a gap; after a lost index
commit a step on a node without faults fails on a height that is stored. -/
theorem lost_ack_gap_and_wedge :
    (∀ m ∈ Sample.lostRollback, m.Answered fun _ => True) ∧
    ¬ StartsInStep Sample.lib Sample.cfg (initial Sample.cfg) Sample.lostRollback ∧
    (Machine.run (exec Sample.lib Sample.cfg) (initial Sample.cfg)
      Sample.lostRollback).db.blocks.map BlockRow.number = [0, 3] ∧
    (step Sample.lib Sample.cfg (.serving Sample.left) Sample.lostIndex.nextBlock
      Sample.lostIndex.db).outcome = .error (.db (.uniqueViolation "blocks_pkey")) := by
  refine ⟨?_, fun h => ?_, by decide +kernel, by decide +kernel⟩
  · simp only [Sample.lostRollback, List.replicate, List.cons_append, List.nil_append,
      List.forall_mem_cons]
    exact ⟨Sample.serving_answered.1, Sample.serving_answered.1, Sample.serving_answered.1,
      Sample.serving_answered.2, Sample.serving_answered.2,
      fun _ h => absurd h List.not_mem_nil⟩
  · -- before the last step, the checkpoint is at height 0 and the loop polls height 3
    have hstart := (h (List.replicate 3 (.step (.serving Sample.left)) ++
      [.step (Sample.losing Sample.right)]) (.serving Sample.right) [] rfl).next
    exact absurd hstart (by decide +kernel)

end Indexer

end Cellora

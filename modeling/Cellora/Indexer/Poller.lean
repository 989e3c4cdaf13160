/-
# The poller

One step of the poller fetches the next block, compares its parent hash with the stored
hash below it, and either writes the block in one transaction or handles a reorg.  The run
loop moves `nextBlock` by the outcome of the step.  The state of the loop is the database
and the two variables it keeps in memory, the height to poll next and the backoff; a
restart forgets the variables and reads the checkpoint.
-/
import Cellora.Indexer.Parser
import Cellora.Indexer.Reorg
import Cellora.Lib.Machine

namespace Cellora

namespace Indexer

/-- The settings of the poller that decide something: the first height, the depth above
which a reorg is counted as oversized, and whether a Redis connection is attached.  The
target depth only chooses the level of a log line. -/
structure Config where
  indexerStartBlock : ℕ
  indexerReorgMaxDepth : ℕ
  redis : Bool
deriving DecidableEq

/-- Errors of a step. -/
inductive PollerError where
  | rpc (error : RpcError)
  | db (error : DbError)
  | parse (block : ℕ) (source : ParseError)
  | reorg (error : ReorgError)
deriving DecidableEq

/-- Outcomes of a step. -/
inductive StepOutcome where
  | indexed
  | waitingForTip
  | reorgHandled (newTip : ℤ)
  | inconsistentNode
deriving DecidableEq

/-- What a step shows to the outside besides the database: metrics and published events. -/
inductive Effect where
  | observeBlockIndexed (number : ℤ)
  | publishBlockAndCells (block : BlockRow) (cells : List CellRow)
  | observeReorg (depth : ℤ) (oversized : Bool)
  | setLatestBlock (number : ℤ)
  | publishReorg (event : ReorgEvent)
deriving DecidableEq

/-- The result of a step: its outcome, the database after it and its effects. -/
structure StepResult where
  outcome : Except PollerError StepOutcome
  db : Db
  effects : List Effect

/-- The statements that index a block. -/
def writeBlock (parsed : ParsedBlock) (db : Db) : Except DbError Db := do
  let db ← db.insertBlock parsed.block
  let db ← db.insertTransactions parsed.transactions
  let db ← db.insertCells parsed.cells
  let db := db.markConsumed parsed.consumed
  .ok (db.upsertCheckpoint parsed.block.number parsed.block.hash)

/-- The second half of `step`: parse the block and write it. -/
def indexBlock (X : CkbLib) (cfg : Config) (env : StepEnv) (blockNumber : ℕ)
    (block : BlockView) (db : Db) : StepResult :=
  match parseBlock X block with
  | .error source => ⟨.error (.parse blockNumber source), db, []⟩
  | .ok parsed =>
      match runTx env (fun db => (fun db' => ((), db')) <$> writeBlock parsed db) db with
      | (.error e, db') => ⟨.error (.db e), db', []⟩
      | (.ok (), db') =>
          ⟨.ok .indexed, db',
            (if cfg.redis then [.publishBlockAndCells parsed.block parsed.cells] else []) ++
              [.observeBlockIndexed parsed.block.number]⟩

/-- `is_inconsistent_node`. -/
def isInconsistentNode (suspectHeight ancestorHeight : ℤ) : Bool :=
  ancestorHeight ≥ suspectHeight

/-- `handle_reorg`. -/
def handleReorg (cfg : Config) (env : StepEnv) (suspectHeight : ℤ)
    (indexedHashAtSuspect : Bytes) (db : Db) : StepResult :=
  match findCommonAncestor env db suspectHeight with
  | .error e => ⟨.error (.reorg e), db, []⟩
  | .ok ancestor =>
      if isInconsistentNode suspectHeight ancestor.blockNumber then
        ⟨.ok .inconsistentNode, db, []⟩
      else
        match rollbackTo env ancestor suspectHeight indexedHashAtSuspect db with
        | (.error e, db') => ⟨.error (.reorg (.db e)), db', []⟩
        | (.ok outcome, db') =>
            ⟨.ok (.reorgHandled outcome.ancestorHeight), db',
              [.observeReorg outcome.depth (decide (cfg.indexerReorgMaxDepth < outcome.depth)),
                .setLatestBlock outcome.ancestorHeight] ++
              (if cfg.redis then
                [.publishReorg {
                  ancestorBlockNumber := ancestor.blockNumber
                  ancestorHash := "0x" ++ Hex.encode ancestor.nodeHash
                  depth := outcome.depth
                  completedAt := env.now }]
              else [])⟩

/-- The height below, as `step` computes it. -/
def prevHeight (blockNumber : ℕ) : ℤ := (i64TryFrom blockNumber).getD i64Max - 1

/-- The reorg detection of `step`: the height below and the hash stored there, if the new
block does not link to it. -/
def parentCheck (env : StepEnv) (blockNumber : ℕ) (block : BlockView) (db : Db) :
    Except DbError (Option (ℤ × Bytes)) :=
  if 0 < blockNumber then
    match env.readFault 0 with
    | some e => .error e
    | none =>
        match db.hashAt (prevHeight blockNumber) with
        | some storedPrevHash =>
            if block.parentHash.bytes ≠ storedPrevHash then
              .ok (some (prevHeight blockNumber, storedPrevHash))
            else .ok none
        | none => .ok none
  else .ok none

/-- `Poller::step`. -/
def step (X : CkbLib) (cfg : Config) (env : StepEnv) (blockNumber : ℕ) (db : Db) :
    StepResult :=
  match env.getBlock 0 blockNumber with
  | .error e => ⟨.error (.rpc e), db, []⟩
  | .ok none => ⟨.ok .waitingForTip, db, []⟩
  | .ok (some block) =>
      match parentCheck env blockNumber block db with
      | .error e => ⟨.error (.db e), db, []⟩
      | .ok (some (suspectHeight, storedPrevHash)) =>
          handleReorg cfg env suspectHeight storedPrevHash db
      | .ok none => indexBlock X cfg env blockNumber block db

/-! ### The run loop -/

/-- Capped exponential backoff, in seconds. -/
structure Backoff where
  current : ℕ
deriving DecidableEq

/-- A fresh backoff. -/
def Backoff.new : Backoff := ⟨1⟩

/-- The backoff after one more delay. -/
def Backoff.nextDelay (b : Backoff) : Backoff := ⟨min (b.current * 2) 30⟩

/-- What the run loop keeps. -/
structure Poller where
  db : Db
  nextBlock : ℕ
  backoff : Backoff
deriving DecidableEq

/-- `u64::saturating_add`. -/
def u64SatAdd (a b : ℕ) : ℕ := min (a + b) u64Max

/-- `u64::try_from(z).unwrap_or(0)`. -/
def u64OfInt (z : ℤ) : ℕ := if 0 ≤ z ∧ z ≤ u64Max then z.toNat else 0

/-- The cast `as u64` of a signed integer. -/
def u64Cast (z : ℤ) : ℕ := (z % (2 ^ 64 : ℤ)).toNat

/-- The height the loop starts with. -/
def startHeight (cfg : Config) (db : Db) : ℕ :=
  match db.indexerState with
  | some cp => u64Cast (i64SatAdd cp.lastIndexedBlock 1)
  | none => cfg.indexerStartBlock

/-- A process that has just started on a database. -/
def boot (cfg : Config) (db : Db) : Poller := ⟨db, startHeight cfg db, Backoff.new⟩

/-- How the loop moves the height to poll next. -/
def advance (nextBlock : ℕ) : Except PollerError StepOutcome → ℕ
  | .ok .indexed => u64SatAdd nextBlock 1
  | .ok (.reorgHandled newTip) => u64SatAdd (u64OfInt newTip) 1
  | .ok .waitingForTip => nextBlock
  | .ok .inconsistentNode => nextBlock
  | .error _ => nextBlock

/-- How the loop moves the backoff. -/
def backoffAfter (b : Backoff) : Except PollerError StepOutcome → Backoff
  | .ok .indexed => Backoff.new
  | .ok (.reorgHandled _) => Backoff.new
  | .ok .waitingForTip => b
  | .ok .inconsistentNode => b.nextDelay
  | .error _ => b.nextDelay

/-- A move of the poller: one round of the loop against an environment, or a restart of the
process. -/
inductive Move where
  | step (env : StepEnv)
  | restart

/-- One move. -/
def exec (X : CkbLib) (cfg : Config) (s : Poller) : Move → Poller
  | .step env =>
      let r := step X cfg env s.nextBlock s.db
      ⟨r.db, advance s.nextBlock r.outcome, backoffAfter s.backoff r.outcome⟩
  | .restart => boot cfg s.db

/-- The poller on an empty migrated database. -/
def initial (cfg : Config) : Poller := boot cfg Db.empty

/-! ### What writing a block does -/

/-- Writing the rows of a block succeeds exactly when no unique index and no foreign key
is violated, and then the rows are appended, the references mark the cells, and the
checkpoint moves to the block. -/
lemma writeBlock_eq_ok_iff {p : ParsedBlock} {db db' : Db} :
    writeBlock p db = .ok db' ↔
      (p.block.number ∉ db.blocks.map BlockRow.number ∧
        p.block.hash ∉ db.blocks.map BlockRow.hash) ∧
      (Table.Fresh TransactionRow.hash p.transactions db.transactions ∧
        ∀ r ∈ p.transactions, r.blockNumber ∈ (db.blocks ++ [p.block]).map BlockRow.number) ∧
      (Table.Fresh CellRecord.key (p.cells.map CellRecord.ofRow) db.cells ∧
        ∀ r ∈ p.cells, r.blockNumber ∈ (db.blocks ++ [p.block]).map BlockRow.number) ∧
      db' = { db with
        blocks := db.blocks ++ [p.block]
        transactions := db.transactions ++ p.transactions
        cells := (db.cells ++ p.cells.map CellRecord.ofRow).map (Db.consumeBy p.consumed)
        indexerState := some ⟨p.block.number, p.block.hash⟩ } := by
  constructor
  · intro h
    obtain ⟨db₁, h₁, h⟩ := Except.bind_eq_ok.1 h
    obtain ⟨db₂, h₂, h⟩ := Except.bind_eq_ok.1 h
    obtain ⟨db₃, h₃, h⟩ := Except.bind_eq_ok.1 h
    obtain ⟨hn, hh, rfl⟩ := Db.insertBlock_eq_ok_iff.1 h₁
    obtain ⟨hft, hfk, rfl⟩ := Db.insertTransactions_eq_ok_iff.1 h₂
    obtain ⟨hfc, hfk', rfl⟩ := Db.insertCells_eq_ok_iff.1 h₃
    refine ⟨⟨hn, hh⟩, ⟨hft, hfk⟩, ⟨hfc, hfk'⟩, ?_⟩
    rw [← Except.ok.inj h, Db.markConsumed, Db.foldl_markOne]
    rfl
  · rintro ⟨⟨hn, hh⟩, ⟨hft, hfk⟩, ⟨hfc, hfk'⟩, rfl⟩
    refine Except.bind_eq_ok.2 ⟨_, Db.insertBlock_eq_ok_iff.2 ⟨hn, hh, rfl⟩, ?_⟩
    refine Except.bind_eq_ok.2 ⟨_, Db.insertTransactions_eq_ok_iff.2 ⟨hft, hfk, rfl⟩, ?_⟩
    refine Except.bind_eq_ok.2 ⟨_, Db.insertCells_eq_ok_iff.2 ⟨hfc, hfk', rfl⟩, ?_⟩
    rw [Db.markConsumed, Db.foldl_markOne]
    rfl

/-! ### What one step can do -/

/-- The step reaches the commit of a transaction that indexes the block `b`: the node
returned it, it passes the parent check, it parses to the rows `p`, and writing them
succeeds. -/
structure Indexes (X : CkbLib) (env : StepEnv) (n : ℕ) (db : Db) (b : BlockView)
    (p : ParsedBlock) (db' : Db) : Prop where
  answer : env.getBlock 0 n = .ok (some b)
  check : parentCheck env n b db = .ok none
  parses : parseBlock X b = .ok p
  writes : writeBlock p db = .ok db'
  noFault : env.txFault = none

/-- The step reaches the commit of a rollback to the ancestor `a`: the block the node
returned does not link to the stored hash `g` below it, and the walk-back ended below that
height. -/
structure RollsBack (env : StepEnv) (n : ℕ) (db : Db) (b : BlockView) (g : Bytes)
    (a : Ancestor) : Prop where
  answer : env.getBlock 0 n = .ok (some b)
  check : parentCheck env n b db = .ok (some (prevHeight n, g))
  ancestor : findCommonAncestor env db (prevHeight n) = .ok a
  below : a.blockNumber < prevHeight n
  noFault : env.txFault = none

/-- The step reaches a commit. -/
def Commits (X : CkbLib) (env : StepEnv) (n : ℕ) (db : Db) : Prop :=
  (∃ b p db', Indexes X env n db b p db') ∨ ∃ b g a, RollsBack env n db b g a

/-- A durable transaction is reported as `o`, unless its acknowledgement was lost. -/
def Ends (env : StepEnv) (outcome : Except PollerError StepOutcome) (o : StepOutcome) : Prop :=
  (env.commit = .acked ∧ outcome = .ok o) ∨ (env.commit = .unacked ∧ ∃ e, outcome = .error e)

/-- The step changes nothing. -/
def Idle (db : Db) (r : StepResult) : Prop :=
  r.db = db ∧ r.effects = [] ∧
    (r.outcome = .ok .waitingForTip ∨ r.outcome = .ok .inconsistentNode ∨
      ∃ e, r.outcome = .error e)

lemma Idle.advance {db : Db} {r : StepResult} (h : Idle db r) (n : ℕ) :
    Indexer.advance n r.outcome = n := by
  obtain ⟨-, -, h | h | ⟨e, h⟩⟩ := h <;> rw [h] <;> rfl

lemma Idle.of_error {db : Db} {e : PollerError} : Idle db ⟨.error e, db, []⟩ :=
  ⟨rfl, rfl, Or.inr (Or.inr ⟨e, rfl⟩)⟩

variable {X : CkbLib} {cfg : Config} {env : StepEnv} {n : ℕ} {b : BlockView} {db : Db}

lemma parentCheck_eq_none (h : parentCheck env n b db = .ok none) :
    ∀ g, 0 < n → db.hashAt (prevHeight n) = some g → b.parentHash.bytes = g := by
  intro g hn hg
  unfold parentCheck at h
  rw [if_pos hn] at h
  split at h
  · exact absurd h (by simp)
  · rw [hg] at h
    by_contra hne
    simp [hne] at h

lemma parentCheck_eq_some {q : ℤ × Bytes} (h : parentCheck env n b db = .ok (some q)) :
    0 < n ∧ q.1 = prevHeight n ∧ db.hashAt (prevHeight n) = some q.2 ∧
      b.parentHash.bytes ≠ q.2 := by
  unfold parentCheck at h
  split at h
  · rename_i hn
    split at h
    · exact absurd h (by simp)
    · split at h
      · rename_i g hg
        split at h
        · rename_i hne
          obtain rfl := (Option.some.inj (Except.ok.inj h)).symm
          exact ⟨hn, rfl, hg, hne⟩
        · exact absurd h (by simp)
      · exact absurd h (by simp)
  · exact absurd h (by simp)

lemma parentCheck_of_links (hread : env.readFault 0 = none)
    (h : ∀ g, 0 < n → db.hashAt (prevHeight n) = some g → b.parentHash.bytes = g) :
    parentCheck env n b db = .ok none := by
  unfold parentCheck
  split
  · rename_i hn
    rw [hread]
    cases hg : db.hashAt (prevHeight n) with
    | none => rfl
    | some g => simp [h g hn hg]
  · rfl

lemma parentCheck_of_differs (hread : env.readFault 0 = none) (hn : 0 < n) {g : Bytes}
    (hg : db.hashAt (prevHeight n) = some g) (hne : b.parentHash.bytes ≠ g) :
    parentCheck env n b db = .ok (some (prevHeight n, g)) := by
  rw [parentCheck, if_pos hn, hread]
  simp only [hg]
  rw [if_pos hne]

lemma Indexes.links {p : ParsedBlock} {db' : Db} (h : Indexes X env n db b p db') :
    ∀ g, 0 < n → db.hashAt (prevHeight n) = some g → b.parentHash.bytes = g :=
  parentCheck_eq_none h.check

lemma indexBlock_cases (X : CkbLib) (cfg : Config) (env : StepEnv) (n : ℕ) (b : BlockView)
    (db : Db) :
    Idle db (indexBlock X cfg env n b db) ∨
      ∃ p db', parseBlock X b = .ok p ∧ writeBlock p db = .ok db' ∧ env.txFault = none ∧
        (indexBlock X cfg env n b db).db = db' ∧
        Ends env (indexBlock X cfg env n b db).outcome .indexed := by
  unfold indexBlock
  cases hparse : parseBlock X b with
  | error e => exact Or.inl Idle.of_error
  | ok p =>
      rcases runTx_cases env (fun db => (fun db' => ((), db')) <$> writeBlock p db) db with
        ⟨e, he⟩ | ⟨u, db', hfault, hbody, ⟨hack, he⟩ | ⟨hack, e, he⟩⟩
      · left
        simp only [he]
        exact Idle.of_error
      all_goals
        right
        obtain ⟨db₁, hwrite, hdb⟩ := Except.map_eq_ok.1 hbody
        obtain rfl : db₁ = db' := congrArg Prod.snd hdb
        simp only [he]
      · exact ⟨p, db₁, rfl, hwrite, hfault, rfl, Or.inl ⟨hack, rfl⟩⟩
      · exact ⟨p, db₁, rfl, hwrite, hfault, rfl, Or.inr ⟨hack, _, rfl⟩⟩

lemma handleReorg_cases (cfg : Config) (env : StepEnv) (suspect : ℤ) (g : Bytes) (db : Db) :
    Idle db (handleReorg cfg env suspect g db) ∨
      ∃ a, findCommonAncestor env db suspect = .ok a ∧ a.blockNumber < suspect ∧
        env.txFault = none ∧
        (handleReorg cfg env suspect g db).db = (rollbackBody env.now a suspect g db).2 ∧
        Ends env (handleReorg cfg env suspect g db).outcome (.reorgHandled a.blockNumber) := by
  unfold handleReorg
  cases hwalk : findCommonAncestor env db suspect with
  | error e => exact Or.inl Idle.of_error
  | ok a =>
      simp only
      split
      · exact Or.inl ⟨rfl, rfl, Or.inr (Or.inl rfl)⟩
      · rename_i hdepth
        have hbelow : a.blockNumber < suspect := by
          simpa [isInconsistentNode] using hdepth
        rcases runTx_cases env (fun db => .ok (rollbackBody env.now a suspect g db)) db with
          ⟨e, he⟩ | ⟨out, db', hfault, hbody, ⟨hack, he⟩ | ⟨hack, e, he⟩⟩
        · left
          simp only [rollbackTo, he]
          exact Idle.of_error
        all_goals
          right
          have hpair := Except.ok.inj hbody
          obtain rfl : (rollbackBody env.now a suspect g db).1 = out := congrArg Prod.fst hpair
          obtain rfl : (rollbackBody env.now a suspect g db).2 = db' := congrArg Prod.snd hpair
          simp only [rollbackTo, he]
        · exact ⟨a, rfl, hbelow, hfault, rfl, Or.inl ⟨hack, rfl⟩⟩
        · exact ⟨a, rfl, hbelow, hfault, rfl, Or.inr ⟨hack, _, rfl⟩⟩

/-- A step whose block links to the stored one goes on to index it. -/
lemma step_eq_indexBlock (hget : env.getBlock 0 n = .ok (some b))
    (hcheck : parentCheck env n b db = .ok none) :
    step X cfg env n db = indexBlock X cfg env n b db := by
  rw [step, hget]
  simp only [hcheck]

/-- A step whose block does not link to the stored one handles a reorg. -/
lemma step_eq_handleReorg {suspect : ℤ} {g : Bytes} (hget : env.getBlock 0 n = .ok (some b))
    (hcheck : parentCheck env n b db = .ok (some (suspect, g))) :
    step X cfg env n db = handleReorg cfg env suspect g db := by
  rw [step, hget]
  simp only [hcheck]

/-- **Inversion of a step.**  A step leaves the database alone, or indexes the block the
node returned, or rolls back to a common ancestor. -/
theorem step_cases (X : CkbLib) (cfg : Config) (env : StepEnv) (n : ℕ) (db : Db) :
    Idle db (step X cfg env n db) ∨
      (∃ b p db', Indexes X env n db b p db' ∧ (step X cfg env n db).db = db' ∧
        Ends env (step X cfg env n db).outcome .indexed) ∨
      (∃ b g a, RollsBack env n db b g a ∧
        (step X cfg env n db).db = (rollbackBody env.now a (prevHeight n) g db).2 ∧
        Ends env (step X cfg env n db).outcome (.reorgHandled a.blockNumber)) := by
  rcases hget : env.getBlock 0 n with e | _ | b
  · left
    rw [step, hget]
    exact Idle.of_error
  · left
    rw [step, hget]
    exact ⟨rfl, rfl, Or.inl rfl⟩
  rcases hcheck : parentCheck env n b db with e | _ | ⟨suspect, g⟩
  · left
    rw [step, hget]
    simp only [hcheck]
    exact Idle.of_error
  · rw [step_eq_indexBlock hget hcheck]
    rcases indexBlock_cases X cfg env n b db with
      h | ⟨p, db', hparse, hwrite, hfault, hdb, hend⟩
    · exact Or.inl h
    · exact Or.inr (Or.inl ⟨b, p, db', ⟨hget, hcheck, hparse, hwrite, hfault⟩, hdb, hend⟩)
  · obtain ⟨-, hq, -, -⟩ := parentCheck_eq_some hcheck
    obtain rfl : suspect = prevHeight n := hq
    rw [step_eq_handleReorg hget hcheck]
    rcases handleReorg_cases cfg env (prevHeight n) g db with
      h | ⟨a, hwalk, hlt, hfault, hdb, hend⟩
    · exact Or.inl h
    · exact Or.inr (Or.inr ⟨b, g, a, ⟨hget, hcheck, hwalk, hlt, hfault⟩, hdb, hend⟩)

/-! ### What a step does once it reaches its commit -/

/-- A step that indexes a block leaves the written tables behind, unless the transaction is
discarded, and it reports the block unless the commit reports an error. -/
lemma Indexes.step_eq (cfg : Config) {p : ParsedBlock} {db' : Db}
    (h : Indexes X env n db b p db') :
    (env.commit = .acked → (step X cfg env n db).outcome = .ok .indexed ∧
      (step X cfg env n db).db = db') ∧
    (env.commit = .unacked → (∃ e, (step X cfg env n db).outcome = .error e) ∧
      (step X cfg env n db).db = db') := by
  have hrun := runTx_of_ok (fun db => (fun db' => ((), db')) <$> writeBlock p db) db
    h.noFault (Except.map_eq_ok.2 ⟨db', h.writes, rfl⟩)
  rw [step_eq_indexBlock h.answer h.check, indexBlock, h.parses]
  constructor
  · intro hack
    simp only [hrun, hack]
    exact ⟨trivial, trivial⟩
  · intro hack
    simp only [hrun, hack]
    exact ⟨⟨_, rfl⟩, trivial⟩

/-- The same for a step that rolls back. -/
lemma RollsBack.step_eq (X : CkbLib) (cfg : Config) {g : Bytes} {a : Ancestor}
    (h : RollsBack env n db b g a) :
    (env.commit = .acked →
      (step X cfg env n db).outcome = .ok (.reorgHandled a.blockNumber) ∧
      (step X cfg env n db).db = (rollbackBody env.now a (prevHeight n) g db).2) ∧
    (env.commit = .unacked → (∃ e, (step X cfg env n db).outcome = .error e) ∧
      (step X cfg env n db).db = (rollbackBody env.now a (prevHeight n) g db).2) := by
  have hrun := runTx_of_ok (fun db => .ok (rollbackBody env.now a (prevHeight n) g db)) db
    h.noFault rfl
  have hdeep : isInconsistentNode (prevHeight n) a.blockNumber = false := by
    simpa [isInconsistentNode] using h.below
  rw [step_eq_handleReorg h.answer h.check, handleReorg, h.ancestor]
  simp only [hdeep, rollbackTo]
  constructor
  · intro hack
    simp only [hrun, hack]
    exact ⟨rfl, rfl⟩
  · intro hack
    simp only [hrun, hack]
    exact ⟨⟨_, rfl⟩, rfl⟩

end Indexer

end Cellora

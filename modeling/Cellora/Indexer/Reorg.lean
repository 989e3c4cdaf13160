/-
# The walk-back and the rollback

`findCommonAncestor` compares the node's hash with the stored one, height by height, from
the suspect height down, and `rollbackTo` removes everything above the height it found.

Everything the program cannot decide by itself is in the environment of a step
(`StepEnv`): the node's answer to each call, which may come from another chain than the
answer before it; whether a read of the database fails; whether the database transaction
of the step is aborted; and how its commit ends.  A commit either is acknowledged, or
reports an error.  After an error the transaction is either discarded or, if only the
acknowledgement was lost, durably applied.
-/
import Cellora.Db.Tables
import Cellora.Lib.Hex

namespace Cellora

namespace Indexer

/-- An error of the CKB client. -/
inductive RpcError where
  | ckbRpc (code : ℤ) (message : String)
  | transport (message : String)
deriving DecidableEq

/-- How a commit ends. -/
inductive CommitAck where
  /-- The transaction is applied and the client learns it. -/
  | acked
  /-- The client sees an error and the transaction has no effect. -/
  | discarded
  /-- The client sees an error although the transaction is applied. -/
  | unacked
deriving DecidableEq, Repr

/-- What the environment decides during one step. -/
structure StepEnv where
  /-- The answer to the `k`-th `get_block_by_number` of the step, for a height. -/
  getBlock : ℕ → ℕ → Except RpcError (Option BlockView)
  /-- Whether the `k`-th `hash_at` of the step fails. -/
  readFault : ℕ → Option DbError
  /-- Whether `BEGIN` or a statement fails for a reason other than a constraint. -/
  txFault : Option DbError
  /-- How the commit ends, if it is reached. -/
  commit : CommitAck
  /-- The wall clock. -/
  now : ℕ

/-- Run `body` in one database transaction. -/
def runTx {α : Type} (env : StepEnv) (body : Db → Except DbError (α × Db)) (db : Db) :
    Except DbError α × Db :=
  match env.txFault with
  | some e => (.error e, db)
  | none =>
      match body db with
      | .error e => (.error e, db)
      | .ok (a, db') =>
          match env.commit with
          | .acked => (.ok a, db')
          | .discarded => (.error (.io "commit failed"), db)
          | .unacked => (.error (.io "commit failed"), db')

/-- Why reorg handling fails. -/
inductive ReorgError where
  | rpc (error : RpcError)
  | db (error : DbError)
  | noCommonAncestor
deriving DecidableEq

/-- The common ancestor: its height and the node's hash there. -/
structure Ancestor where
  blockNumber : ℤ
  nodeHash : Bytes
deriving DecidableEq

/-- The error for a block the node no longer has. -/
def missingBlock (height : ℕ) : RpcError :=
  .ckbRpc (-32000) s!"node missing block {height} during reorg walk"

/-- The loop of `find_common_ancestor` from `height - 1` down; `k` counts the calls the step
has made so far. -/
def walkBack (env : StepEnv) (db : Db) : (k height : ℕ) → Except ReorgError Ancestor
  | _, 0 => .error .noCommonAncestor
  | k, h + 1 =>
      match env.getBlock k h with
      | .error e => .error (.rpc e)
      | .ok none => .error (.rpc (missingBlock h))
      | .ok (some block) =>
          match env.readFault k with
          | some e => .error (.db e)
          | none =>
              if db.hashAt h = some block.hash.bytes then .ok ⟨h, block.hash.bytes⟩
              else walkBack env db (k + 1) h

/-- `find_common_ancestor`: the first call of a step fetched the next block, so the walk
starts with call 1. -/
def findCommonAncestor (env : StepEnv) (db : Db) (suspectHeight : ℤ) :
    Except ReorgError Ancestor :=
  walkBack env db 1 (suspectHeight + 1).toNat

/-- What a rollback reports. -/
structure RollbackOutcome where
  logId : ℕ
  depth : ℤ
  deletedBlocks : ℕ
  restoredCells : ℕ
  ancestorHeight : ℤ
deriving DecidableEq

/-- `i64::saturating_add`. -/
def i64SatAdd (a b : ℤ) : ℤ := min (a + b) i64Max

/-- `i32::try_from(z).unwrap_or(i32::MAX)` of a signed integer. -/
def i32OfInt (z : ℤ) : ℤ := if -(i32Max : ℤ) - 1 ≤ z ∧ z ≤ i32Max then z else i32Max

/-- The depth a rollback records. -/
def rollbackDepth (previousTip : ℤ) (ancestor : Ancestor) : ℤ :=
  i32OfInt (previousTip - ancestor.blockNumber)

/-- The statements of the rollback transaction. -/
def rollbackBody (now : ℕ) (ancestor : Ancestor) (previousTip : ℤ)
    (indexedHashAtDivergence : Bytes) (db : Db) : RollbackOutcome × Db :=
  let divergenceHeight := i64SatAdd ancestor.blockNumber 1
  let depth := rollbackDepth previousTip ancestor
  let (logId, db) :=
    db.insertReorgLog now divergenceHeight ancestor.nodeHash indexedHashAtDivergence depth
  let (restoredCells, db) := db.restoreConsumedAbove ancestor.blockNumber
  let (deletedBlocks, db) := db.deleteAbove ancestor.blockNumber
  let db := db.upsertCheckpoint ancestor.blockNumber ancestor.nodeHash
  let db := db.markCompleted now logId
  ({ logId := logId
     depth := depth
     deletedBlocks := deletedBlocks
     restoredCells := restoredCells
     ancestorHeight := ancestor.blockNumber }, db)

/-- `rollback_to`. -/
def rollbackTo (env : StepEnv) (ancestor : Ancestor) (previousTip : ℤ)
    (indexedHashAtDivergence : Bytes) (db : Db) : Except DbError RollbackOutcome × Db :=
  runTx env
    (fun db => .ok (rollbackBody env.now ancestor previousTip indexedHashAtDivergence db)) db

/-- The payload published on `cellora:reorg`. -/
structure ReorgEvent where
  ancestorBlockNumber : ℤ
  ancestorHash : String
  depth : ℤ
  completedAt : ℕ
deriving DecidableEq

/-! ### What the walk and the transaction do -/

/-- The ancestor is a height at or below the start of the walk at which the node, when it
was asked, had the stored hash. -/
lemma walkBack_eq_ok {env : StepEnv} {db : Db} {k height : ℕ} {a : Ancestor}
    (h : walkBack env db k height = .ok a) :
    ∃ (n k' : ℕ) (b : BlockView), n < height ∧ a.blockNumber = n ∧
      env.getBlock k' n = .ok (some b) ∧ a.nodeHash = b.hash.bytes ∧
      db.hashAt n = some b.hash.bytes := by
  induction height generalizing k with
  | zero => exact absurd h (by simp [walkBack])
  | succ n ih =>
      rw [walkBack] at h
      split at h
      · exact absurd h (by simp)
      · exact absurd h (by simp)
      · rename_i b hb
        split at h
        · exact absurd h (by simp)
        · split at h
          · rename_i hstored
            obtain rfl := (Except.ok.inj h).symm
            exact ⟨n, k, b, Nat.lt_succ_self n, rfl, hb, rfl, hstored⟩
          · obtain ⟨m, k', b', hm, hrest⟩ := ih h
            exact ⟨m, k', b', Nat.lt_succ_of_lt hm, hrest⟩

/-- A transaction whose body succeeds ends as its commit does. -/
lemma runTx_of_ok {α : Type} {env : StepEnv} (body : Db → Except DbError (α × Db))
    (db : Db) {db' : Db} {a : α} (hfault : env.txFault = none) (hbody : body db = .ok (a, db')) :
    runTx env body db =
      match env.commit with
      | .acked => (.ok a, db')
      | .discarded => (.error (.io "commit failed"), db)
      | .unacked => (.error (.io "commit failed"), db') := by
  rw [runTx, hfault]
  simp only [hbody]

/-- A transaction either has no effect and reports an error, or its body succeeded, its
effect is durable, and the commit was acknowledged or its acknowledgement lost. -/
lemma runTx_cases {α : Type} (env : StepEnv) (body : Db → Except DbError (α × Db)) (db : Db) :
    (∃ e, runTx env body db = (.error e, db)) ∨
      ∃ a db', env.txFault = none ∧ body db = .ok (a, db') ∧
        ((env.commit = .acked ∧ runTx env body db = (.ok a, db')) ∨
          (env.commit = .unacked ∧ ∃ e, runTx env body db = (.error e, db'))) := by
  cases hfault : env.txFault with
  | some e => exact Or.inl ⟨e, by rw [runTx, hfault]⟩
  | none =>
      cases hbody : body db with
      | error e =>
          refine Or.inl ⟨e, ?_⟩
          rw [runTx, hfault]
          simp only [hbody]
      | ok p =>
          obtain ⟨a, db'⟩ := p
          rw [runTx_of_ok body db hfault hbody]
          cases env.commit with
          | acked => exact Or.inr ⟨a, db', rfl, rfl, Or.inl ⟨rfl, rfl⟩⟩
          | discarded => exact Or.inl ⟨_, rfl⟩
          | unacked => exact Or.inr ⟨a, db', rfl, rfl, Or.inr ⟨rfl, _, rfl⟩⟩

variable (now : ℕ) (a : Ancestor) (tip : ℤ) (g : Bytes) (db : Db)

@[simp] lemma rollbackBody_blocks :
    (rollbackBody now a tip g db).2.blocks =
      db.blocks.filter fun row => row.number ≤ a.blockNumber := rfl

@[simp] lemma rollbackBody_transactions :
    (rollbackBody now a tip g db).2.transactions =
      db.transactions.filter fun row => row.blockNumber ≤ a.blockNumber := rfl

@[simp] lemma rollbackBody_cells :
    (rollbackBody now a tip g db).2.cells =
      (db.cells.map fun c =>
        if Db.consumedAbove a.blockNumber c then c.restore else c).filter
          fun row => row.blockNumber ≤ a.blockNumber := rfl

@[simp] lemma rollbackBody_indexerState :
    (rollbackBody now a tip g db).2.indexerState = some ⟨a.blockNumber, a.nodeHash⟩ := rfl

end Indexer

end Cellora

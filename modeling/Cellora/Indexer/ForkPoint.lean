/-
# The fork point

The walk-back compares the two chains height by height from the suspect height down and
stops at the first match.  Both chains are linked by parent hashes, so below a match they
agree everywhere; above it the walk has seen that they differ.  Hence the first match is the
fork point, and the rollback to it keeps exactly the stored blocks that are still on the
node's chain.
-/
import Cellora.Indexer.Convergence

namespace Cellora

namespace Indexer

open BlockView (Linked)

/-- The stored blocks have the heights from `lo` to `hi`, each once, and every one above `lo`
links to the one below it. -/
structure StoredChain (lo hi : ℕ) (db : Db) : Prop where
  contiguous : ∀ z : ℤ, z ∈ db.blocks.map BlockRow.number ↔ (lo : ℤ) ≤ z ∧ z ≤ hi
  unique : (db.blocks.map BlockRow.number).Nodup
  linked : ∀ row ∈ db.blocks, (lo : ℤ) < row.number →
    db.hashAt (row.number - 1) = some row.parentHash

/-- A hash determines its block: a stored row and a block of the chain with the same hash name
the same parent. -/
def SameParents (C : List BlockView) (db : Db) : Prop :=
  ∀ row ∈ db.blocks, ∀ b ∈ C, row.hash = b.hash.bytes → row.parentHash = b.parentHash.bytes

/-- The row is a block of the chain, given from height 0 up. -/
def OnChain (C : List BlockView) (row : BlockRow) : Prop :=
  ∃ (n : ℕ) (b : BlockView), row.number = n ∧ C[n]? = some b ∧ row.hash = b.hash.bytes

section Agreement

variable {C : List BlockView} {db : Db} {lo hi : ℕ}

/-- Agreement is at stored heights only. -/
lemma StoredChain.range_of_agreesAt (h : StoredChain lo hi db) {n : ℕ} (hag : AgreesAt C db n) :
    lo ≤ n ∧ n ≤ hi := by
  obtain ⟨b, -, hstored⟩ := hag
  obtain ⟨row, hrow, hnum, -⟩ := Db.exists_mem_of_hashAt hstored
  have := (h.contiguous n).1 (hnum ▸ List.mem_map_of_mem hrow)
  omega

/-- Two linked chains that agree at a height agree at the stored height below it. -/
lemma StoredChain.agreesAt_pred (h : StoredChain lo hi db) (hC : Linked C)
    (hsame : SameParents C db) {n : ℕ} (hlo : lo ≤ n) (hag : AgreesAt C db (n + 1)) :
    AgreesAt C db n := by
  obtain ⟨b, hb, hstored⟩ := hag
  obtain ⟨row, hrow, hnum, hhash⟩ := Db.exists_mem_of_hashAt hstored
  obtain ⟨hn, -⟩ := List.getElem?_eq_some_iff.1 hb
  have hbn := List.getElem?_eq_getElem (show n < C.length by omega)
  refine ⟨C[n], hbn, ?_⟩
  -- the stored block below has the hash that both blocks name as their parent
  have hbelow := h.linked row hrow (by omega)
  have hparent := hsame row hrow b (List.mem_of_getElem? hb) hhash
  rw [show (n : ℤ) = row.number - 1 by omega, hbelow, hparent, hC.parentHash_eq hb hbn]

/-- Below a height of agreement the chains agree at every stored height. -/
lemma StoredChain.agreesAt_of_le (h : StoredChain lo hi db) (hC : Linked C)
    (hsame : SameParents C db) {n m : ℕ} (hlo : lo ≤ m) (hmn : m ≤ n) (hag : AgreesAt C db n) :
    AgreesAt C db m := by
  induction n, hmn using Nat.le_induction with
  | base => exact hag
  | succ n hmn ih => exact ih (h.agreesAt_pred hC hsame (hlo.trans hmn) hag)

/-- A stored row is on the chain exactly if the chains agree at its height. -/
lemma onChain_iff (hunique : (db.blocks.map BlockRow.number).Nodup) {row : BlockRow}
    (hrow : row ∈ db.blocks) {n : ℕ} (hn : row.number = n) :
    OnChain C row ↔ AgreesAt C db n := by
  have hhash := Db.hashAt_eq_some_of_mem hunique hrow
  rw [hn] at hhash
  constructor
  · rintro ⟨m, b, hm, hb, heq⟩
    obtain rfl : m = n := by omega
    exact ⟨b, hb, by rw [hhash, heq]⟩
  · rintro ⟨b, hb, heq⟩
    exact ⟨n, b, hn, hb, Option.some.inj (hhash.symm.trans heq)⟩

/-- A rollback that commits removes exactly the rows above the ancestor. -/
lemma mem_blocks_of_rollbackTo {env : StepEnv} {a : Ancestor} {tip : ℤ} {g : Bytes}
    {out : RollbackOutcome} {db' : Db} (h : rollbackTo env a tip g db = (.ok out, db'))
    (row : BlockRow) : row ∈ db'.blocks ↔ row ∈ db.blocks ∧ row.number ≤ a.blockNumber := by
  rcases runTx_cases env (fun db => .ok (rollbackBody env.now a tip g db)) db with
    ⟨e, he⟩ | ⟨u, db₁, -, hbody, ⟨-, he⟩ | ⟨-, e, he⟩⟩
  · rw [rollbackTo, he] at h
    exact absurd (Prod.mk.inj h).1 (by simp)
  · rw [rollbackTo, he] at h
    obtain rfl : db₁ = db' := (Prod.mk.inj h).2
    have hdb : (rollbackBody env.now a tip g db).2 = db₁ :=
      congrArg Prod.snd (Except.ok.inj hbody)
    rw [← hdb, rollbackBody_blocks, List.mem_filter, decide_eq_true_eq]
  · rw [rollbackTo, he] at h
    exact absurd (Prod.mk.inj h).1 (by simp)

end Agreement

/-- A step whose walk-back fails reports it and leaves every table as it is. -/
lemma step_of_walk_error (X : CkbLib) (cfg : Config) {env : StepEnv} {n : ℕ} {b : BlockView}
    {db : Db} {suspect : ℤ} {g : Bytes} {e : ReorgError}
    (hget : env.getBlock 0 n = .ok (some b))
    (hcheck : parentCheck env n b db = .ok (some (suspect, g)))
    (hwalk : findCommonAncestor env db suspect = .error e) :
    step X cfg env n db = ⟨.error (.reorg e), db, []⟩ := by
  rw [step_eq_handleReorg hget hcheck, handleReorg, hwalk]

/-- The fork point of the stored chain and the node's chain: the stored hash there is the
node's, the chains agree at every stored height up to it and at none above it, and a rollback
to it keeps exactly the stored blocks that are on the node's chain. -/
structure ForkPoint (C : List BlockView) (lo hi : ℕ) (db : Db) (a : Ancestor) : Prop where
  range : (lo : ℤ) ≤ a.blockNumber ∧ a.blockNumber ≤ hi
  hash : db.hashAt a.blockNumber = some a.nodeHash
  agrees : ∀ n : ℕ, lo ≤ n → (n : ℤ) ≤ a.blockNumber → AgreesAt C db n
  differs : ∀ n : ℕ, a.blockNumber < n → n ≤ hi → ¬ AgreesAt C db n
  rollback : ∀ env g out db', rollbackTo env a hi g db = (.ok out, db') →
    ∀ row, row ∈ db'.blocks ↔ row ∈ db.blocks ∧ OnChain C row

lemma StoredChain.forkPoint {C : List BlockView} {db : Db} {lo hi : ℕ} (h : StoredChain lo hi db)
    (hC : Linked C) (hsame : SameParents C db) {a : ℕ} {b : BlockView} (hb : C[a]? = some b)
    (hstored : db.hashAt a = some b.hash.bytes)
    (hmax : ∀ m, a < m → m < hi + 1 → ¬ AgreesAt C db m) :
    ForkPoint C lo hi db ⟨a, b.hash.bytes⟩ := by
  have hag : AgreesAt C db a := ⟨b, hb, hstored⟩
  have hrange := h.range_of_agreesAt hag
  have hagrees : ∀ n : ℕ, lo ≤ n → n ≤ a → AgreesAt C db n := fun n h₁ h₂ =>
    h.agreesAt_of_le hC hsame h₁ h₂ hag
  refine {
    range := by simp only; omega
    hash := hstored
    agrees := fun n h₁ h₂ => hagrees n h₁ (Int.ofNat_le.1 h₂)
    differs := fun n h₁ h₂ => hmax n (Int.ofNat_lt.1 h₁) (by omega)
    rollback := ?_ }
  intro env g out db' hroll row
  rw [mem_blocks_of_rollbackTo hroll]
  refine and_congr_right fun hrow => ?_
  have hnum := (h.contiguous row.number).1 (List.mem_map_of_mem hrow)
  obtain ⟨n, hn⟩ := Int.eq_ofNat_of_zero_le (show 0 ≤ row.number by omega)
  rw [onChain_iff h.unique hrow hn, hn]
  constructor
  · intro hle
    exact hagrees n (by omega) (Int.ofNat_le.1 hle)
  · intro hagn
    by_contra hgt
    refine hmax n (by simp only at hgt; omega) (by omega) hagn

/-- **The walk-back finds the fork point.**  On a stored chain from `lo` to `hi` and a fixed
linked node chain with tip `T`: if the tip is not below `hi`, the walk-back succeeds exactly if
the chains agree at a stored height, and then it returns their fork point; otherwise it reports
that there is no common ancestor.  If the tip is below `hi` it reports the missing block.  In
any step whose walk-back fails, whatever the node answers, every table is left as it is. -/
theorem walk_back_finds_fork_point (C : List BlockView) (lo hi T : ℕ) (db : Db) (env : StepEnv)
    (hstored : StoredChain lo hi db) (hC : Linked C) (hT : C.length = T + 1)
    (hsame : SameParents C db) (henv : env.Reads C) :
    (hi ≤ T →
      ((∃ a, findCommonAncestor env db hi = .ok a) ↔
        ∃ n, lo ≤ n ∧ n ≤ hi ∧ AgreesAt C db n) ∧
      (∀ a, findCommonAncestor env db hi = .ok a → ForkPoint C lo hi db a) ∧
      ((∀ n, lo ≤ n → n ≤ hi → ¬ AgreesAt C db n) →
        findCommonAncestor env db hi = .error .noCommonAncestor)) ∧
    (T < hi → findCommonAncestor env db hi = .error (.rpc (missingBlock hi))) ∧
    (∀ X cfg env' n b db' suspect g e, env'.getBlock 0 n = .ok (some b) →
      parentCheck env' n b db' = .ok (some (suspect, g)) →
      findCommonAncestor env' db' suspect = .error e →
      (step X cfg env' n db').outcome = .error (.reorg e) ∧ (step X cfg env' n db').db = db') := by
  have hstart : findCommonAncestor env db hi = walkBack env db 1 (hi + 1) := by
    rw [findCommonAncestor]
    rfl
  refine ⟨fun hle => ?_, fun hlt => ?_, ?_⟩
  · rw [hstart]
    rcases walkBack_reads henv db 1 (show hi + 1 ≤ C.length by omega) with
      ⟨a, b, ha, hb, heq, hmax, hwalk⟩ | ⟨hnone, hwalk⟩
    · have hfork := hstored.forkPoint hC hsame hb heq hmax
      have hrange := hstored.range_of_agreesAt ⟨b, hb, heq⟩
      rw [hwalk]
      refine ⟨⟨fun _ => ⟨a, hrange.1, hrange.2, b, hb, heq⟩, fun _ => ⟨_, rfl⟩⟩, ?_, ?_⟩
      · intro a' ha'
        rw [← Except.ok.inj ha']
        exact hfork
      · intro hno
        exact absurd ⟨b, hb, heq⟩ (hno a hrange.1 hrange.2)
    · rw [hwalk]
      refine ⟨⟨?_, ?_⟩, ?_, fun _ => rfl⟩
      · rintro ⟨a, ha⟩
        exact absurd ha (by simp)
      · rintro ⟨n, -, hn, hag⟩
        exact absurd hag (hnone n (by omega))
      · intro a ha
        exact absurd ha (by simp)
  · rw [hstart, walkBack_missing henv (by omega)]
  · intro X cfg env' n b db' suspect g e hget hcheck hwalk
    rw [step_of_walk_error X cfg hget hcheck hwalk]
    exact ⟨rfl, rfl⟩

namespace Sample

lemma forked_storedChain : StoredChain 0 2 forked.db where
  contiguous := fun z => by
    rw [forked_blocks]
    simp
    omega
  unique := by
    rw [forked_blocks]
    decide
  linked := by decide +kernel

lemma forked_sameParents : SameParents right forked.db := by
  unfold SameParents
  decide +kernel

lemma serving_reads (C : List BlockView) : (StepEnv.serving C).Reads C :=
  ⟨fun _ _ => rfl, fun _ => rfl⟩

end Sample

/-- The two sample branches part at height 0. -/
theorem walk_back_finds_fork_point_sample :
    (∃ a, findCommonAncestor (.serving Sample.right) Sample.forked.db 2 = .ok a ∧
      ForkPoint Sample.right 0 2 Sample.forked.db a) ∧
    ∀ a, findCommonAncestor (.serving Sample.right) Sample.forked.db 2 = .ok a →
      a.blockNumber = 0 := by
  obtain ⟨hhigh, -, -⟩ := walk_back_finds_fork_point Sample.right 0 2 3 Sample.forked.db
    (.serving Sample.right) Sample.forked_storedChain Sample.right_linked rfl
    Sample.forked_sameParents (Sample.serving_reads _)
  obtain ⟨hiff, hfork, -⟩ := hhigh (by decide)
  obtain ⟨a, ha⟩ := hiff.2 ⟨0, le_rfl, by decide, Sample.forked_agrees⟩
  refine ⟨⟨a, ha, hfork a ha⟩, fun a' ha' => ?_⟩
  -- the chains differ at the two heights above
  have hrange := (hfork a' ha').range
  obtain ⟨n, hn⟩ := Int.eq_ofNat_of_zero_le hrange.1
  have hle := Sample.forked_agrees_le
    ((hfork a' ha').agrees n (Nat.zero_le n) (Int.le_of_eq hn.symm))
  omega

end Indexer

end Cellora

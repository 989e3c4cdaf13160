/-
# Runs of the poller

The simulation between the poller and the abstract chain: every round of the loop indexes
one block, cuts the chain off, or leaves it alone (`exec_simulates`), and as long as the
loop learns how its commits ended, the height it polls next is the one above the chain.
A restart always finds that height.  The structural invariant of the tables follows for
every run against an arbitrary node.
-/
import Cellora.Indexer.Mirror

namespace Cellora

namespace Indexer

/-- What is assumed of the node in every run: the answer for a height carries that height,
heights stay below `i64::MAX`, and the block is one of a given set `U`. -/
def StepEnv.Answers (U : BlockView → Prop) (env : StepEnv) : Prop :=
  ∀ k n b, env.getBlock k n = .ok (some b) → b.number = n ∧ n < i64Max ∧ U b

/-- A move against such a node; commits may end in any way. -/
def Move.Answered (U : BlockView → Prop) : Move → Prop
  | .step env => env.Answers U
  | .restart => True

/-- A move against such a node in which a transaction that reports an error has no
effect. -/
def Move.Ok (U : BlockView → Prop) : Move → Prop
  | .step env => env.Answers U ∧ env.commit ≠ .unacked
  | .restart => True

/-- The states of the poller that runs from an empty migrated database reach, if the node
answers with blocks of `U` and failed transactions have no effect. -/
def Reachable (X : CkbLib) (cfg : Config) (U : BlockView → Prop) (s : Poller) : Prop :=
  Machine.Reaches (exec X cfg) (Move.Ok U) (initial cfg) s

/-! ### The abstract chain -/

/-- One round of the loop, on the chain of stored blocks and on the tables. -/
inductive ChainStep {X : CkbLib} (lo : ℕ) (U : BlockView → Prop)
    (chain : List (StoredBlock X)) (db : Db) : List (StoredBlock X) → Db → Prop
  | idle : ChainStep lo U chain db chain db
  | index {b : StoredBlock X} {db' : Db} (hb : U b.view)
      (hnum : b.number = lo + chain.length) (hbound : b.number < i64Max)
      (hlink : ∀ g, db.hashAt (b.number - 1 : ℤ) = some g → b.view.parentHash.bytes = g)
      (hwrite : writeBlock b.rows db = .ok db') : ChainStep lo U chain db (chain ++ [b]) db'
  | rollback {i : ℕ} {b : StoredBlock X} {a : Ancestor} (hb : chain[i]? = some b)
      (hi : i + 1 < chain.length) (ha : a.blockNumber = ((lo + i : ℕ) : ℤ))
      (hhash : a.nodeHash = b.view.hash.bytes) (now : ℕ) (tip : ℤ) (g : Bytes) :
      ChainStep lo U chain db (chain.take (i + 1)) (rollbackBody now a tip g db).2

namespace ChainStep

variable {X : CkbLib} {lo : ℕ} {U : BlockView → Prop} {chain chain' : List (StoredBlock X)}
  {db db' : Db}

lemma forall_mem (h : ChainStep lo U chain db chain' db') (hU : ∀ b ∈ chain, U b.view) :
    ∀ b ∈ chain', U b.view := by
  cases h with
  | idle => exact hU
  | @index b _ hb =>
      intro x hx
      rcases List.mem_append.1 hx with hx | hx
      · exact hU x hx
      · rw [List.mem_singleton.1 hx]
        exact hb
  | rollback => exact fun x hx => hU x (List.mem_of_mem_take hx)

/-- The tables mirror the chain after the step as they did before. -/
lemma mirrors (h : ChainStep lo U chain db chain' db') (hm : Mirrors lo chain db) :
    Mirrors lo chain' db' := by
  cases h with
  | idle => exact hm
  | index _ hnum hbound hlink hwrite => exact hm.write hnum hbound hlink hwrite
  | rollback hb _ ha hhash now tip g => exact hm.rollback hb ha hhash now tip g

end ChainStep

/-- The loop's view of the chain: the tables mirror it and the next height is the one above
it. -/
structure Synced {X : CkbLib} (lo : ℕ) (chain : List (StoredBlock X)) (s : Poller) : Prop where
  mirrors : Mirrors lo chain s.db
  next : s.nextBlock = lo + chain.length

section Simulation

variable {X : CkbLib} {cfg : Config} {U : BlockView → Prop} {lo : ℕ}
  {chain : List (StoredBlock X)} {db : Db} {s : Poller}

lemma prevHeight_of_le {n : ℕ} (h : n ≤ i64Max) : prevHeight n = (n : ℤ) - 1 := by
  rw [prevHeight, i64TryFrom_of_le h, Option.getD_some]

lemma u64SatAdd_of_lt {n : ℕ} (h : n ≤ i64Max) : u64SatAdd n 1 = n + 1 := by
  simp only [i64Max] at h
  simp only [u64SatAdd, u64Max]
  omega

lemma u64OfInt_natCast {n : ℕ} (h : n ≤ i64Max) : u64OfInt (n : ℤ) = n := by
  simp only [i64Max] at h
  rw [u64OfInt, if_pos ⟨by omega, by simp only [u64Max]; omega⟩]
  rfl

lemma Mirrors.next_le (h : Mirrors lo chain db) (hlo : lo < i64Max) :
    lo + chain.length ≤ i64Max := by
  rcases List.eq_nil_or_concat' chain with rfl | ⟨init, b, rfl⟩
  · simpa using hlo.le
  · have hmem : b ∈ init ++ [b] := by simp
    have hlast : (init ++ [b])[init.length]? = some b := by simp
    have h₁ := h.numbered _ _ hlast
    have h₂ := h.bound b hmem
    simp only [List.length_append, List.length_singleton]
    omega

/-- A process that starts on the tables polls the height above the chain. -/
lemma Mirrors.startHeight_eq (h : Mirrors cfg.indexerStartBlock chain db) :
    startHeight cfg db = cfg.indexerStartBlock + chain.length := by
  rcases List.eq_nil_or_concat' chain with rfl | ⟨init, b, rfl⟩
  · rw [startHeight, h.checkpoint]
    rfl
  · have hlast : (init ++ [b])[init.length]? = some b := by simp
    have h₁ := h.numbered _ _ hlast
    have h₂ := h.bound b (by simp)
    rw [startHeight, h.checkpoint, List.getLast?_concat, Option.map_some]
    simp only [i64SatAdd, u64Cast, i64Max, List.length_append, List.length_singleton] at h₂ ⊢
    omega

lemma Synced.prevHeight_eq (hs : Synced lo chain s) (hlo : lo < i64Max) :
    prevHeight s.nextBlock = ((lo + chain.length : ℕ) : ℤ) - 1 := by
  rw [hs.next, prevHeight_of_le (hs.mirrors.next_le hlo)]

/-- The ancestor of a rollback is a block of the chain below the highest one. -/
lemma Synced.exists_ancestor (hs : Synced lo chain s) (hlo : lo < i64Max) {env : StepEnv}
    {b : BlockView} {g : Bytes} {a : Ancestor} (hrb : RollsBack env s.nextBlock s.db b g a) :
    ∃ (i : ℕ) (x : StoredBlock X), chain[i]? = some x ∧ i + 1 < chain.length ∧
      a.blockNumber = ((lo + i : ℕ) : ℤ) ∧ a.nodeHash = x.view.hash.bytes := by
  obtain ⟨m, k, b', -, ham, -, hnode, hstored⟩ := walkBack_eq_ok hrb.ancestor
  obtain ⟨i, x, hx, hmi, hxg⟩ := hs.mirrors.exists_of_hashAt hstored
  have hbelow := hrb.below
  rw [hs.prevHeight_eq hlo, ham] at hbelow
  exact ⟨i, x, hx, by omega, ham.trans hmi, hnode.trans hxg⟩

/-- **Simulation of a round.**  Every round of the loop is a step of the chain, however its
commit ends; if a commit error means that nothing was written, the loop stays in step with
the chain. -/
theorem exec_simulates (cfg : Config) (hs : Synced lo chain s) (hlo : lo < i64Max)
    {env : StepEnv} (henv : env.Answers U) :
    ∃ chain', ChainStep lo U chain s.db chain' (exec X cfg s (.step env)).db ∧
      (env.commit ≠ .unacked →
        (exec X cfg s (.step env)).nextBlock = lo + chain'.length) := by
  have hle : lo + chain.length ≤ i64Max := hs.mirrors.next_le hlo
  have hprev := hs.prevHeight_eq hlo
  change ∃ chain', ChainStep lo U chain s.db chain' (step X cfg env s.nextBlock s.db).db ∧
    (env.commit ≠ .unacked →
      advance s.nextBlock (step X cfg env s.nextBlock s.db).outcome = lo + chain'.length)
  rcases step_cases X cfg env s.nextBlock s.db with
    hidle | ⟨b, p, db', hix, hdb, hend⟩ | ⟨b, g, a, hrb, hdb, hend⟩
  · refine ⟨chain, ?_, fun _ => ?_⟩
    · rw [hidle.1]
      exact .idle
    · rw [hidle.advance, hs.next]
  · obtain ⟨hnum, hbound, hU⟩ := henv _ _ _ hix.answer
    let sb : StoredBlock X := ⟨b, p, hix.parses⟩
    have hsb : sb.number = lo + chain.length := hnum.trans hs.next
    refine ⟨chain ++ [sb], ?_, fun hack => ?_⟩
    · rw [hdb]
      refine .index hU hsb (hnum.trans_lt hbound) ?_ hix.writes
      -- above height zero the parent check is the link; at height zero nothing is below
      intro g hg
      rcases Nat.eq_zero_or_pos s.nextBlock with h0 | hpos
      · obtain ⟨i, x, -, hz, -⟩ := hs.mirrors.exists_of_hashAt hg
        have hzero : sb.number = 0 := hnum.trans h0
        omega
      · refine hix.links g hpos ?_
        rw [hprev, ← hsb]
        exact hg
    · obtain ⟨-, hout⟩ | ⟨hlost, -⟩ := hend
      · rw [hout, advance, u64SatAdd_of_lt (hs.next ▸ hle), hs.next, List.length_append,
          List.length_singleton, Nat.add_assoc]
      · exact absurd hlost hack
  · obtain ⟨i, x, hx, hbelow, hai, hax⟩ := hs.exists_ancestor hlo hrb
    refine ⟨chain.take (i + 1), ?_, fun hack => ?_⟩
    · rw [hdb]
      exact .rollback hx hbelow hai hax _ _ _
    · obtain ⟨-, hout⟩ | ⟨hlost, -⟩ := hend
      · rw [hout, hai, advance, u64OfInt_natCast (by omega), u64SatAdd_of_lt (by omega),
          List.length_take, Nat.min_eq_left (by omega), Nat.add_assoc]
      · exact absurd hlost hack

/-- A restart brings the loop in step with the chain. -/
lemma synced_restart (h : Mirrors cfg.indexerStartBlock chain s.db) :
    Synced cfg.indexerStartBlock chain (exec X cfg s .restart) :=
  ⟨h, h.startHeight_eq⟩

lemma synced_initial : Synced cfg.indexerStartBlock ([] : List (StoredBlock X)) (initial cfg) :=
  ⟨Mirrors.empty, Mirrors.empty.startHeight_eq⟩

/-- Every reachable state is in step with a chain of blocks the node has served. -/
theorem Reachable.synced (hlo : cfg.indexerStartBlock < i64Max) (h : Reachable X cfg U s) :
    ∃ chain : List (StoredBlock X), Synced cfg.indexerStartBlock chain s ∧
      ∀ b ∈ chain, U b.view := by
  refine Machine.Reaches.invariant (fun s => ∃ chain : List (StoredBlock X),
    Synced cfg.indexerStartBlock chain s ∧ ∀ b ∈ chain, U b.view) ?_ ?_ h
  · rintro s m hm ⟨chain, hs, hU⟩
    cases m with
    | restart => exact ⟨chain, synced_restart hs.mirrors, hU⟩
    | step env =>
        obtain ⟨chain', hstep, hnext⟩ := exec_simulates cfg hs hlo hm.1
        exact ⟨chain', ⟨hstep.mirrors hs.mirrors, hnext hm.2⟩, hstep.forall_mem hU⟩
  · exact ⟨[], synced_initial, fun _ hb => absurd hb List.not_mem_nil⟩

end Simulation

/-! ### The structural invariant -/

/-- **The structural invariant of the index**, where `hi` is the highest stored height, or
one less than the start block while nothing is stored. -/
structure IndexInvariant (cfg : Config) (hi : ℤ) (s : Poller) : Prop where
  /-- The stored heights are the range from the start block to `hi`, each stored once. -/
  contiguous : ∀ z : ℤ, z ∈ s.db.blocks.map BlockRow.number ↔
    (cfg.indexerStartBlock : ℤ) ≤ z ∧ z ≤ hi
  unique : (s.db.blocks.map BlockRow.number).Nodup
  /-- A block above the start block links to the stored hash one below. -/
  linked : ∀ row ∈ s.db.blocks, (cfg.indexerStartBlock : ℤ) < row.number →
    s.db.hashAt (row.number - 1) = some row.parentHash
  absent : s.db.indexerState = none ↔ s.db.blocks = []
  /-- The checkpoint is the highest stored height with the hash stored there. -/
  checkpoint : ∀ cp, s.db.indexerState = some cp →
    cp.lastIndexedBlock = hi ∧ s.db.hashAt hi = some cp.lastIndexedHash
  next_of_empty : s.db.blocks = [] → s.nextBlock = cfg.indexerStartBlock
  next_of_stored : s.db.blocks ≠ [] → (s.nextBlock : ℤ) = hi + 1
  transactions : ∀ t ∈ s.db.transactions, t.blockNumber ∈ s.db.blocks.map BlockRow.number
  cells : ∀ c ∈ s.db.cells, c.blockNumber ∈ s.db.blocks.map BlockRow.number
  spent : ∀ c ∈ s.db.cells, SpendOk s.db c

section Invariant

variable {X : CkbLib} {lo : ℕ} {chain : List (StoredBlock X)} {db : Db}

namespace Mirrors

lemma mem_blockNumbers_iff (h : Mirrors lo chain db) {z : ℤ} :
    z ∈ db.blocks.map BlockRow.number ↔ (lo : ℤ) ≤ z ∧ z ≤ lo + chain.length - 1 := by
  rw [h.blockNumbers]
  constructor
  · intro hz
    obtain ⟨b, hb, rfl⟩ := List.mem_map.1 hz
    have := h.numbered.le_of_mem hb
    omega
  · rintro ⟨hlo, hhi⟩
    obtain ⟨i, rfl⟩ := Int.eq_ofNat_of_zero_le (show 0 ≤ z - lo by omega) |>.imp
      fun i hi => (show z = ((lo + i : ℕ) : ℤ) by omega)
    have hi : i < chain.length := by omega
    have hget := List.getElem?_eq_getElem hi
    refine List.mem_map.2 ⟨chain[i], List.getElem_mem hi, ?_⟩
    rw [h.numbered i _ hget]

lemma blocks_eq_nil_iff (h : Mirrors lo chain db) : db.blocks = [] ↔ chain = [] := by
  rw [h.blocks, List.map_eq_nil_iff]

lemma linked_row (h : Mirrors lo chain db) {row : BlockRow} (hrow : row ∈ db.blocks)
    (habove : (lo : ℤ) < row.number) : db.hashAt (row.number - 1) = some row.parentHash := by
  rw [h.blocks] at hrow
  obtain ⟨b, hb, rfl⟩ := List.mem_map.1 hrow
  obtain ⟨i, hi, hget⟩ := List.mem_iff_getElem.1 hb
  have hnum := h.numbered i b (hget ▸ List.getElem?_eq_getElem hi)
  rw [b.block_number] at habove ⊢
  obtain ⟨j, rfl⟩ : ∃ j, i = j + 1 := ⟨i - 1, by omega⟩
  have hj : j < chain.length := by omega
  have hlink := List.isChain_iff_getElem.1 h.linked j hi
  have hbelow := h.hashAt_of_getElem? (List.getElem?_eq_getElem hj)
  rw [show (b.number : ℤ) - 1 = ((lo + j : ℕ) : ℤ) by omega, hbelow, b.block_parentHash,
    ← hlink, hget]

lemma cell_mem_blocks (h : Mirrors lo chain db) {c : CellRecord} (hc : c ∈ db.cells) :
    c.blockNumber ∈ db.blocks.map BlockRow.number := by
  obtain ⟨b, hb, hcb⟩ := h.cells_blockNumber hc
  rw [hcb, h.blockNumbers]
  exact List.mem_map_of_mem hb

lemma transaction_mem_blocks (h : Mirrors lo chain db) {t : TransactionRow}
    (ht : t ∈ db.transactions) : t.blockNumber ∈ db.blocks.map BlockRow.number := by
  obtain ⟨b, hb, htb⟩ := h.transactions_blockNumber ht
  rw [htb, h.blockNumbers]
  exact List.mem_map_of_mem hb

end Mirrors

/-- What is in step with a chain meets the structural invariant. -/
lemma Synced.indexInvariant {cfg : Config} {s : Poller}
    (h : Synced cfg.indexerStartBlock chain s) :
    IndexInvariant cfg (cfg.indexerStartBlock + chain.length - 1) s := by
  have hm := h.mirrors
  refine {
    contiguous := fun z => hm.mem_blockNumbers_iff
    unique := hm.numbers
    linked := fun row => hm.linked_row
    absent := ?_
    checkpoint := ?_
    next_of_empty := fun he => ?_
    next_of_stored := fun _ => by rw [h.next]; push_cast; omega
    transactions := fun t => hm.transaction_mem_blocks
    cells := fun c => hm.cell_mem_blocks
    spent := fun c => hm.spent }
  · rw [hm.checkpoint, Option.map_eq_none_iff, List.getLast?_eq_none_iff, hm.blocks_eq_nil_iff]
  · intro cp hcp
    rw [hm.checkpoint] at hcp
    obtain ⟨b, hb, rfl⟩ := Option.map_eq_some_iff.1 hcp
    have hhash := hm.getLast?_hash hb
    obtain ⟨init, rfl⟩ := List.getLast?_eq_some_iff.1 hb
    have hnum := hm.numbered init.length b (by simp)
    refine ⟨?_, by exact_mod_cast hhash⟩
    simp only [List.length_append, List.length_singleton, hnum]
    push_cast
    omega
  · rw [h.next, hm.blocks_eq_nil_iff.1 he, List.length_nil, Nat.add_zero]

end Invariant

/-! ### A node on a fixed chain, and a small fork -/

/-- A fault-free round against a node that serves the chain `C`, given from height 0 up. -/
def StepEnv.serving (C : List BlockView) : StepEnv where
  getBlock := fun _ n => .ok C[n]?
  readFault := fun _ => none
  txFault := none
  commit := .acked
  now := 0

lemma StepEnv.serving_answers {U : BlockView → Prop} {C : List BlockView}
    (hnum : Numbered BlockView.number 0 C) (hbound : C.length ≤ i64Max)
    (hU : ∀ b ∈ C, U b) : (StepEnv.serving C).Answers U := by
  intro k n b hb
  have hget : C[n]? = some b := Except.ok.inj hb
  obtain ⟨hlt, -⟩ := List.getElem?_eq_some_iff.1 hget
  have := hnum n b hget
  exact ⟨by omega, by omega, hU b (List.mem_of_getElem? hget)⟩

namespace Sample

/-- The lock with the all-zero code hash and no arguments. -/
def lock : Script := ⟨H256.rep 0, .data, []⟩

/-- The hash of that lock. -/
def lockHash : H256 where
  bytes := [0x77, 0xc9, 0x3b, 0x06, 0x32, 0xb5, 0xb6, 0xc3,
    0xef, 0x92, 0x2c, 0x5b, 0x7c, 0xea, 0x20, 0x8f,
    0xb0, 0xa7, 0xc4, 0x27, 0xa1, 0x3d, 0x50, 0xe1,
    0x3d, 0x3f, 0xef, 0xad, 0x17, 0xe0, 0xc5, 0x90]
  width := by decide

/-- The library functions on the inputs of the sample blocks, whose only script is `lock`
and whose dependencies and witnesses are empty. -/
def lib : CkbLib where
  calcScriptHash := fun s => if s = lock then lockHash else H256.rep 0
  cellDepsToValue := fun l => if l = [] then .ok ⟨"[]"⟩ else .error "not a sample"
  headerDepsToValue := fun l => if l = [] then .ok ⟨"[]"⟩ else .error "not a sample"
  witnessesToValue := fun l => if l = [] then .ok ⟨"[]"⟩ else .error "not a sample"
  bigDecimalFromStr := fun s => if s = "0" then some 0 else none

/-- A transaction that spends some outputs and creates one. -/
def tx (hash : UInt8) (spends : List OutPoint) : TransactionView where
  hash := H256.rep hash
  inner := {
    version := 0
    cellDeps := []
    headerDeps := []
    witnesses := []
    inputs := spends.map CellInput.mk
    outputs := [⟨6100000000, lock, none⟩]
    outputsData := [[]] }

/-- A block with the given transactions. -/
def block (number : ℕ) (hash parent : UInt8) (txs : List TransactionView) : BlockView where
  header := ⟨H256.rep hash, ⟨number, H256.rep parent, 0, 0, 0, H256.rep 0⟩⟩
  transactions := txs
  unclesLen := 0
  proposalsLen := 0

/-- The first output of the transaction with the given hash. -/
def out (hash : UInt8) : OutPoint := ⟨H256.rep hash, 0⟩

/-- The common part of the two branches: one cellbase, whose input is null. -/
def genesis : BlockView := block 0 0x10 0 [tx 0xa0 [out 0]]

/-- One branch: the cellbase output is spent at height 1, and the change at height 2. -/
def left : List BlockView :=
  [genesis, block 1 0x11 0x10 [tx 0xa1 [out 0xa0]], block 2 0x12 0x11 [tx 0xa2 [out 0xa1]]]

/-- The other branch: the first spend is mined at height 2, and its change is not spent. -/
def right : List BlockView :=
  [genesis, block 1 0x21 0x10 [], block 2 0x22 0x21 [tx 0xa1 [out 0xa0]],
    block 3 0x23 0x22 []]

def cfg : Config := ⟨0, 100, false⟩

lemma left_numbered : Numbered BlockView.number 0 left := by
  refine Numbered.cons_iff.2 ⟨by decide, Numbered.cons_iff.2 ⟨by decide, Numbered.cons_iff.2
    ⟨by decide, Numbered.nil⟩⟩⟩

lemma right_numbered : Numbered BlockView.number 0 right := by
  refine Numbered.cons_iff.2 ⟨by decide, Numbered.cons_iff.2 ⟨by decide, Numbered.cons_iff.2
    ⟨by decide, Numbered.cons_iff.2 ⟨by decide, Numbered.nil⟩⟩⟩⟩

/-- A run that indexes the left branch, meets the right one, and restarts. -/
def moves : List Move :=
  List.replicate 3 (.step (.serving left)) ++ List.replicate 4 (.step (.serving right)) ++
    [.restart]

/-- The state after that run. -/
def final : Poller := Machine.run (exec lib cfg) (initial cfg) moves

/-- Blocks of either branch. -/
def Served (b : BlockView) : Prop := b ∈ left ∨ b ∈ right

lemma moves_ok {U : BlockView → Prop} (hU : ∀ b, Served b → U b) :
    ∀ m ∈ moves, Move.Ok U m := by
  have hleft : (StepEnv.serving left).Answers U :=
    StepEnv.serving_answers left_numbered (by decide) fun b hb => hU b (Or.inl hb)
  have hright : (StepEnv.serving right).Answers U :=
    StepEnv.serving_answers right_numbered (by decide) fun b hb => hU b (Or.inr hb)
  simp only [moves, List.mem_append, List.mem_replicate, List.mem_singleton]
  rintro m ((⟨-, rfl⟩ | ⟨-, rfl⟩) | rfl)
  · exact ⟨hleft, by decide⟩
  · exact ⟨hright, by decide⟩
  · trivial

lemma reachable_final {U : BlockView → Prop} (hU : ∀ b, Served b → U b) :
    Reachable lib cfg U final :=
  ⟨moves, moves_ok hU, rfl⟩

end Sample

/-- In every state that runs from an empty database reach, against a node whose answers are
arbitrary blocks of the height asked for, the structural invariant holds. -/
theorem index_invariant_of_reachable (X : CkbLib) (cfg : Config) (s : Poller)
    (hlo : cfg.indexerStartBlock < i64Max) (h : Reachable X cfg (fun _ => True) s) :
    ∃ hi : ℤ, IndexInvariant cfg hi s := by
  obtain ⟨chain, hs, -⟩ := h.synced hlo
  exact ⟨_, hs.indexInvariant⟩

theorem index_invariant_of_reachable_sample :
    Sample.final.nextBlock = 4 ∧ ∃ hi : ℤ, IndexInvariant Sample.cfg hi Sample.final :=
  ⟨by decide +kernel, index_invariant_of_reachable Sample.lib Sample.cfg Sample.final
    (by decide) (Sample.reachable_final fun _ _ => trivial)⟩

end Indexer

end Cellora

/-
# Convergence in spite of faults

A node that has settled on a chain still fails now and then, may not have all of the chain yet,
and the database and the process of the indexer fail too.  None of this sets the indexer back.
While every block the node returns is a block of the chain, a round changes nothing, or indexes
the next block of the chain, or rolls back to the last block that is on the chain; so the number
of rounds that are still needed never grows, and a round without a fault lowers it.

Hence, whatever an indexer went through before, once it has had as many undisturbed rounds as it
is behind, its tables are those of the chain, and the same as those of any other indexer that
has caught up.
-/
import Cellora.Indexer.ForkPoint
import Cellora.Indexer.History
import Mathlib.Data.Nat.Find

namespace Cellora

namespace Indexer

open BlockView (HashDetermines Linked)

/-- During the round the node is on the chain `C`: it may not have a block of it yet, and any
call, read or transaction may fail, but a commit that reports an error has no effect. -/
structure StepEnv.On (C : List BlockView) (env : StepEnv) : Prop where
  getBlock : ∀ k n b, env.getBlock k n = .ok (some b) → C[n]? = some b
  commit : env.commit ≠ .unacked

/-- A round while the node is on `C`, or a restart. -/
def Move.On (C : List BlockView) : Move → Prop
  | .step env => env.On C
  | .restart => True

/-- A round without a fault, in which the node has all of `C`. -/
def Move.Undisturbed (C : List BlockView) : Move → Prop
  | .step env => env.Serves C
  | .restart => False

instance (C : List BlockView) (row : BlockRow) : Decidable (OnChain C row) :=
  decidable_of_iff
    (0 ≤ row.number ∧ C[row.number.toNat]?.map (fun b => b.hash.bytes) = some row.hash) <| by
    constructor
    · rintro ⟨hpos, hget⟩
      obtain ⟨b, hb, hhash⟩ := Option.map_eq_some_iff.1 hget
      exact ⟨_, b, (Int.toNat_of_nonneg hpos).symm, hb, hhash.symm⟩
    · rintro ⟨n, b, hn, hb, hhash⟩
      rw [hn, Int.toNat_natCast, hb, hhash]
      exact ⟨Int.natCast_nonneg n, rfl⟩

/-- How many of the stored blocks are on the chain `C`. -/
def shared (C : List BlockView) (db : Db) : ℕ := db.blocks.countP fun row => OnChain C row

/-- The rounds that bring the tables to the tip of `C`: one for the rollback, if something
stored is not on `C`, and one for every block of `C` above what is on it. -/
def behind (lo : ℕ) (C : List BlockView) (db : Db) : ℕ :=
  (if shared C db = db.blocks.length then 0 else 1) + (C.length - (lo + shared C db))

section Rounds

variable {X : CkbLib} {cfg : Config} {C : List BlockView} {env : StepEnv} {s : Poller} {lo : ℕ}
  {chain : List (StoredBlock X)} {db : Db}

/-- However often the walk is cut short by a fault, if it ends it ends at the highest height of
agreement. -/
lemma walkBack_on (henv : env.On C) {k h : ℕ} {a : Ancestor} (hwalk : walkBack env db k h = .ok a) :
    ∃ (m : ℕ) (b : BlockView), m < h ∧ C[m]? = some b ∧ db.hashAt m = some b.hash.bytes ∧
      a = ⟨m, b.hash.bytes⟩ ∧ ∀ n, m < n → n < h → ¬ AgreesAt C db n := by
  induction h generalizing k with
  | zero => simp [walkBack] at hwalk
  | succ h ih =>
      rw [walkBack] at hwalk
      split at hwalk
      · cases hwalk
      · cases hwalk
      · rename_i b hb
        have hCb := henv.getBlock _ _ _ hb
        split at hwalk
        · cases hwalk
        · split at hwalk
          · rename_i hstored
            cases hwalk
            exact ⟨h, b, by omega, hCb, hstored, rfl, fun n h₁ h₂ => absurd h₂ (by omega)⟩
          · rename_i hstored
            obtain ⟨m, b', hm, hCm, hm', ha, hmax⟩ := ih hwalk
            refine ⟨m, b', by omega, hCm, hm', ha, ?_⟩
            rintro n h₁ h₂ ⟨y, hy, hyhash⟩
            rcases Nat.lt_succ_iff_lt_or_eq.1 h₂ with h₂ | rfl
            · exact hmax n h₁ h₂ ⟨y, hy, hyhash⟩
            · rw [hCb] at hy
              exact hstored (Option.some.inj hy ▸ hyhash)

/-- The block of a round that commits is the node's next one. -/
lemma Synced.answer_eq (h : Synced lo chain s) (henv : env.On C) {b : BlockView}
    (hb : env.getBlock 0 s.nextBlock = .ok (some b)) :
    ∃ hlen : lo + chain.length < C.length, C[lo + chain.length] = b := by
  have hget := henv.getBlock _ _ _ hb
  rw [h.next] at hget
  exact List.getElem?_eq_some_iff.1 hget

/-- A durable commit is acknowledged. -/
lemma StepEnv.On.ends (henv : env.On C) {outcome : Except PollerError StepOutcome}
    {o : StepOutcome} (h : Ends env outcome o) : outcome = .ok o := by
  obtain ⟨-, hout⟩ | ⟨hlost, -⟩ := h
  · exact hout
  · exact absurd hlost henv.commit

/-- Where the stored chain is the lower part of the node's, a round leaves the loop where it is
or indexes the next block. -/
lemma Synced.follows (cfg : Config) (h : Synced lo chain s)
    (hlower : views chain = (C.drop lo).take chain.length) (hC : NodeChain X lo C)
    (hlo : lo < i64Max) (henv : env.On C) :
    Idle s.db (step X cfg env s.nextBlock s.db) ∨
      ∃ b : StoredBlock X, lo + chain.length < C.length ∧
        Synced lo (chain ++ [b]) (exec X cfg s (.step env)) ∧
        views (chain ++ [b]) = (C.drop lo).take (chain ++ [b]).length := by
  rcases step_cases X cfg env s.nextBlock s.db with
    hidle | ⟨b, p, db', hix, hdb, hend⟩ | ⟨b, g, a, hrb, -, -⟩
  · exact Or.inl hidle
  · right
    obtain ⟨hlen, hb⟩ := h.answer_eq henv hix.answer
    let sb : StoredBlock X := ⟨b, p, hix.parses⟩
    have hget : C[lo + chain.length]? = some sb.view := by
      rw [List.getElem?_eq_getElem hlen, hb]
    exact ⟨sb, hlen, h.indexed cfg hlower hC hget hix.writes (henv.ends hend) hdb,
      views_concat hlower hget⟩
  · -- the next block links to what is stored, so that there is no rollback
    obtain ⟨hlen, rfl⟩ := h.answer_eq henv hrb.answer
    obtain ⟨-, -, hg, hne⟩ := parentCheck_eq_some hrb.check
    rw [h.prevHeight_eq hlo] at hg
    exact absurd (h.links hlower hC hlen hg) hne

/-- Where the stored chain leaves the node's above the height `lo + i`, a round leaves the loop
where it is or rolls back to that height. -/
lemma Synced.rejoins (cfg : Config) (h : Synced lo chain s) {i : ℕ} (hi : i + 1 < chain.length)
    (hagree : AgreesAt C s.db (lo + i)) (hmax : ∀ n, AgreesAt C s.db n → n ≤ lo + i)
    (hC : NodeChain X lo C) (hlo : lo < i64Max) (henv : env.On C) :
    Idle s.db (step X cfg env s.nextBlock s.db) ∨
      Synced lo (chain.take (i + 1)) (exec X cfg s (.step env)) := by
  have hprev := h.prevHeight_eq hlo
  rcases step_cases X cfg env s.nextBlock s.db with
    hidle | ⟨b, p, db', hix, -, -⟩ | ⟨b, g, a, hrb, hdb, hend⟩
  · exact Or.inl hidle
  · -- the highest stored block is not the node's, so that the next block does not link to it
    obtain ⟨hlen, rfl⟩ := h.answer_eq henv hix.answer
    have hstored : chain ≠ [] := List.ne_nil_of_length_pos (by omega)
    have hg := h.mirrors.getLast?_hash (List.getLast?_eq_some_getLast hstored)
    have hlink := hix.links _ (by rw [h.next]; omega) (by rw [hprev]; exact hg)
    have := hmax _ (h.agreesAt_top hC hlen hg hlink)
    omega
  · right
    have hwalk := hrb.ancestor
    rw [hprev, findCommonAncestor, show (((lo + chain.length : ℕ) : ℤ) - 1 + 1).toNat =
      lo + chain.length by omega] at hwalk
    obtain ⟨m, y, hm, hy, hstored, rfl, hdiff⟩ := walkBack_on henv hwalk
    obtain rfl : m = lo + i := by
      have hle := hmax m ⟨y, hy, hstored⟩
      by_contra hne
      exact hdiff (lo + i) (by omega) (by omega) hagree
    have hx := List.getElem?_eq_getElem (show i < chain.length by omega)
    rw [h.mirrors.hashAt_of_getElem? hx] at hstored
    exact h.rolledBack cfg (h.mirrors.next_le hlo) (by omega) rfl (Option.some.inj hstored).symm
      (henv.ends hend) hdb

end Rounds

/-! ### The rounds that are still needed -/

/-- The undisturbed rounds that the loop needs to reach the tip of `C`: the stored chain is the
lower part of `C`, or it leaves `C` above the height `lo + i`. -/
inductive Nears (X : CkbLib) (lo : ℕ) (C : List BlockView) : ℕ → Poller → Prop
  | following {chain : List (StoredBlock X)} {s : Poller} (hs : Synced lo chain s)
      (hlower : views chain = (C.drop lo).take chain.length)
      (hlen : lo + chain.length ≤ C.length) : Nears X lo C (C.length - (lo + chain.length)) s
  | diverged {chain : List (StoredBlock X)} {s : Poller} {i : ℕ} (hs : Synced lo chain s)
      (hi : i + 1 < chain.length) (hlen : lo + chain.length < C.length)
      (htake : (views chain).take (i + 1) = (C.drop lo).take (i + 1))
      (hagree : AgreesAt C s.db (lo + i)) (hmax : ∀ n, AgreesAt C s.db n → n ≤ lo + i) :
      Nears X lo C (1 + (C.length - (lo + (i + 1)))) s

namespace Nears

variable {X : CkbLib} {cfg : Config} {C : List BlockView} {s s' : Poller} {lo d : ℕ} {m : Move}

lemma of_eq (h : Nears X lo C d s) (hdb : s'.db = s.db) (hnext : s'.nextBlock = s.nextBlock) :
    Nears X lo C d s' := by
  cases h with
  | following hs hlower hlen =>
      exact .following ⟨hdb ▸ hs.mirrors, hnext.trans hs.next⟩ hlower hlen
  | diverged hs hi hlen htake hagree hmax =>
      exact .diverged ⟨hdb ▸ hs.mirrors, hnext.trans hs.next⟩ hi hlen htake (hdb ▸ hagree)
        (hdb ▸ hmax)

lemma idle {env : StepEnv} (h : Nears X lo C d s)
    (hidle : Idle s.db (step X cfg env s.nextBlock s.db)) :
    Nears X lo C d (exec X cfg s (.step env)) := h.of_eq hidle.1 (hidle.advance _)

/-- The stored chain up to the height where it leaves the node's is the lower part of the
node's. -/
lemma of_take {chain : List (StoredBlock X)} {i : ℕ} (hi : i + 1 < chain.length)
    (hlen : lo + chain.length < C.length)
    (htake : (views chain).take (i + 1) = (C.drop lo).take (i + 1))
    (hs : Synced lo (chain.take (i + 1)) s) : Nears X lo C (C.length - (lo + (i + 1))) s := by
  have hl : (chain.take (i + 1)).length = i + 1 := by
    rw [List.length_take]
    omega
  have hfollow := Nears.following (C := C) hs
    (by rw [views, List.map_take, hl]; exact htake) (by omega)
  rwa [hl] at hfollow

/-- **No move sets the loop back**, while the node is on `C`. -/
lemma move (hC : NodeChain X cfg.indexerStartBlock C) (hlo : cfg.indexerStartBlock < i64Max)
    (hm : m.On C) (h : Nears X cfg.indexerStartBlock C d s) :
    ∃ d' ≤ d, Nears X cfg.indexerStartBlock C d' (exec X cfg s m) := by
  cases m with
  | restart =>
      refine ⟨d, Nat.le_refl d, h.of_eq rfl ?_⟩
      obtain ⟨chain, hs⟩ : ∃ chain : List (StoredBlock X),
          Synced cfg.indexerStartBlock chain s := by
        cases h with
        | following hs => exact ⟨_, hs⟩
        | diverged hs => exact ⟨_, hs⟩
      exact hs.mirrors.startHeight_eq.trans hs.next.symm
  | step env =>
      cases h with
      | following hs hlower hlen =>
          rcases hs.follows cfg hlower hC hlo hm with hidle | ⟨b, hlt, hs', hlower'⟩
          · exact ⟨_, Nat.le_refl _, (Nears.following hs hlower hlen).idle hidle⟩
          · refine ⟨_, ?_, .following hs' hlower' ?_⟩ <;>
              rw [List.length_append, List.length_singleton] <;> omega
      | diverged hs hi hlen htake hagree hmax =>
          rcases hs.rejoins cfg hi hagree hmax hC hlo hm with hidle | hs'
          · exact ⟨_, Nat.le_refl _, (Nears.diverged hs hi hlen htake hagree hmax).idle hidle⟩
          · exact ⟨_, Nat.le_add_left _ 1, of_take hi hlen htake hs'⟩

/-- **An undisturbed round brings the loop nearer.** -/
lemma round (hC : NodeChain X cfg.indexerStartBlock C) (hm : m.Undisturbed C)
    (h : Nears X cfg.indexerStartBlock C (d + 1) s) :
    ∃ d' ≤ d, Nears X cfg.indexerStartBlock C d' (exec X cfg s m) := by
  cases m with
  | restart => exact absurd hm id
  | step env =>
      generalize hk : d + 1 = k at h
      cases h with
      | following hs hlower hlen =>
          obtain ⟨-, b, hs', hlower'⟩ := hs.index cfg hlower hC hm (by omega)
          refine ⟨_, ?_, .following hs' hlower' ?_⟩ <;>
            rw [List.length_append, List.length_singleton] <;> omega
      | diverged hs hi hlen htake hagree hmax =>
          obtain ⟨-, htracks⟩ := hs.rollback_step cfg hC hm hi hlen hagree htake hmax
          exact ⟨_, by omega, of_take hi hlen htake htracks.toSynced⟩

/-- With no round left to be made, the stored chain is the node's. -/
lemma storedTo (h : Nears X cfg.indexerStartBlock C 0 s)
    (hlo : cfg.indexerStartBlock < C.length) : StoredTo X cfg C (C.length - 1) s := by
  generalize hk : 0 = k at h
  cases h with
  | @following chain _ hs hlower hlen =>
      have htracks : Tracks cfg.indexerStartBlock C chain s :=
        ⟨hs, hlower, List.ne_nil_of_length_pos (by omega)⟩
      exact htracks.storedTo (by omega)
  | diverged => omega

end Nears

section Start

variable {X : CkbLib} {cfg : Config} {U : BlockView → Prop} {C : List BlockView} {s : Poller}
  {lo : ℕ} {chain : List (StoredBlock X)}

lemma Synced.onChain_iff (h : Synced lo chain s) {j : ℕ} {b : StoredBlock X}
    (hb : chain[j]? = some b) : OnChain C b.rows.block ↔ AgreesAt C s.db (lo + j) := by
  refine Indexer.onChain_iff h.mirrors.numbers ?_ ?_
  · rw [h.mirrors.blocks]
    exact List.mem_map_of_mem (List.mem_of_getElem? hb)
  · rw [b.block_number, h.mirrors.numbered j b hb]

/-- Of the stored blocks, those below the height where the stored chain leaves the node's are
on the node's chain. -/
lemma Synced.shared_eq (h : Synced lo chain s) {k : ℕ} (hk : k ≤ chain.length)
    (htake : (views chain).take k = (C.drop lo).take k)
    (habove : ∀ j, k ≤ j → ¬ AgreesAt C s.db (lo + j)) :
    shared C s.db = k := by
  have hbelow : ∀ b ∈ chain.take k, OnChain C b.rows.block := by
    intro b hb
    obtain ⟨j, hj⟩ := List.mem_iff_getElem?.1 hb
    rw [List.getElem?_take] at hj
    split at hj
    · rename_i hlt
      refine (h.onChain_iff hj).2 ⟨b.view, ?_, h.mirrors.hashAt_of_getElem? hj⟩
      have hview : ((views chain).take k)[j]? = some b.view := by
        rw [List.getElem?_take, if_pos hlt, views, List.getElem?_map, hj]
        rfl
      rwa [htake, List.getElem?_take, if_pos hlt, List.getElem?_drop] at hview
    · exact absurd hj (by simp)
  have hrest : ∀ b ∈ chain.drop k, ¬ OnChain C b.rows.block := by
    intro b hb
    obtain ⟨j, hj⟩ := List.mem_iff_getElem?.1 hb
    rw [List.getElem?_drop] at hj
    exact fun hon => habove (k + j) (Nat.le_add_right k j) ((h.onChain_iff hj).1 hon)
  have hlow : (chain.take k).countP (fun b => OnChain C b.rows.block) = k :=
    (List.countP_eq_length.2 fun b hb => decide_eq_true (hbelow b hb)).trans
      (List.length_take_of_le hk)
  have hhigh : (chain.drop k).countP (fun b => OnChain C b.rows.block) = 0 :=
    List.countP_eq_zero.2 fun b hb => by simpa using hrest b hb
  rw [shared, h.mirrors.blocks, List.countP_map]
  calc chain.countP (fun b => OnChain C b.rows.block)
      = (chain.take k ++ chain.drop k).countP fun b => OnChain C b.rows.block := by
        rw [List.take_append_drop]
    _ = k := by rw [List.countP_append, hlow, hhigh, Nat.add_zero]

/-- The stored chain leaves the node's above one height. -/
lemma Synced.exists_fork (h : Synced lo chain s) (hC : NodeChain X lo C)
    (hdet : HashDetermines U) (hU : ∀ b ∈ chain, U b.view) (hCU : ∀ b ∈ C, U b)
    (hcommon : chain ≠ [] → ∃ n, AgreesAt C s.db n) :
    ∃ k ≤ chain.length, (views chain).take k = (C.drop lo).take k ∧
      (∀ j, k ≤ j → ¬ AgreesAt C s.db (lo + j)) ∧
      (chain ≠ [] → ∃ i, k = i + 1 ∧ AgreesAt C s.db (lo + i)) := by
  classical
  have hstored : ∀ {n : ℕ}, AgreesAt C s.db n → ∃ i < chain.length, n = lo + i := by
    rintro n ⟨y, -, hy⟩
    obtain ⟨i, x, hx, hn, -⟩ := h.mirrors.exists_of_hashAt hy
    obtain ⟨hi, -⟩ := List.getElem?_eq_some_iff.1 hx
    exact ⟨i, hi, by omega⟩
  by_cases hne : chain = []
  · refine ⟨0, Nat.zero_le _, rfl, fun j _ hj => ?_, fun h => absurd hne h⟩
    obtain ⟨i, hi, -⟩ := hstored hj
    rw [hne, List.length_nil] at hi
    omega
  · obtain ⟨n, hn⟩ := hcommon hne
    have hle : ∀ {m : ℕ}, AgreesAt C s.db m → m ≤ lo + chain.length := by
      intro m hm
      obtain ⟨i, hi, rfl⟩ := hstored hm
      omega
    have hspec := Nat.findGreatest_spec (hle hn) hn
    obtain ⟨i, hi, hia⟩ := hstored hspec
    rw [hia] at hspec
    obtain ⟨-, htake⟩ := h.views_take hC hdet hU hCU hspec
    refine ⟨i + 1, hi, htake, fun j hj hag => ?_, fun _ => ⟨i, rfl, hspec⟩⟩
    have := Nat.le_findGreatest (hle hag) hag
    omega

/-- What the loop needs at the start can be read off the tables. -/
lemma Synced.nears (h : Synced lo chain s) (hC : NodeChain X lo C) (hdet : HashDetermines U)
    (hU : ∀ b ∈ chain, U b.view) (hCU : ∀ b ∈ C, U b)
    (hcommon : chain ≠ [] → ∃ n, AgreesAt C s.db n) (hahead : s.nextBlock < C.length) :
    Nears X lo C (behind lo C s.db) s := by
  have hlen : s.db.blocks.length = chain.length := by
    rw [h.mirrors.blocks, List.length_map]
  rw [h.next] at hahead
  obtain ⟨k, hk, htake, habove, hfork⟩ := h.exists_fork hC hdet hU hCU hcommon
  rw [behind, h.shared_eq hk htake habove, hlen]
  by_cases heq : k = chain.length
  · rw [if_pos heq, Nat.zero_add, heq]
    refine .following h ?_ hahead.le
    rw [← heq, ← htake, List.take_of_length_le]
    rw [views, List.length_map, heq]
  · obtain ⟨i, rfl, hagree⟩ := hfork (List.ne_nil_of_length_pos (by omega))
    rw [if_neg heq]
    refine .diverged h (by omega) hahead htake hagree fun n hn => ?_
    by_contra hlt
    obtain ⟨j, rfl⟩ := Nat.exists_eq_add_of_le (show lo ≤ n by omega)
    exact habove j (by omega) hn

lemma Move.On.ok (hC : NodeChain X lo C) (hCU : ∀ b ∈ C, U b) {m : Move} (hm : m.On C) :
    m.Ok U := by
  cases m with
  | restart => trivial
  | step env =>
      refine ⟨fun k n b hb => ?_, hm.commit⟩
      have hget := hm.getBlock k n b hb
      obtain ⟨hlt, -⟩ := List.getElem?_eq_some_iff.1 hget
      have hnum := hC.numbered n b hget
      have hbound := hC.bound
      exact ⟨by omega, by omega, hCU b (List.mem_of_getElem? hget)⟩

end Start

/-- From the state `s` on, which any run may have led to, the node is on the chain `C`, and the
moves hold as many undisturbed rounds as the tables are behind `C`, wherever these stand. -/
structure Settles (X : CkbLib) (cfg : Config) (U : BlockView → Prop) (C : List BlockView)
    (s : Poller) (ms : List Move) : Prop where
  reachable : Reachable X cfg U s
  /-- What is stored has a block in common with `C`, without which the walk finds nothing. -/
  common : s.db.blocks ≠ [] → ∃ n, AgreesAt C s.db n
  /-- The node is ahead, without which the loop waits. -/
  ahead : s.nextBlock < C.length
  moves : ∀ m ∈ ms, m.On C
  rounds : ∃ good : List Move, good.Sublist ms ∧ (∀ m ∈ good, m.Undisturbed C) ∧
    behind cfg.indexerStartBlock C s.db ≤ good.length

section Settled

variable {X : CkbLib} {cfg : Config} {U : BlockView → Prop} {C : List BlockView} {s : Poller}
  {ms : List Move}

/-- The run lemma: an indexer that has settled is at the tip. -/
lemma Settles.storedTo (h : Settles X cfg U C s ms) (hlo : cfg.indexerStartBlock < i64Max)
    (hdet : HashDetermines U) (hCU : ∀ b ∈ C, U b) (hC : NodeChain X cfg.indexerStartBlock C) :
    StoredTo X cfg C (C.length - 1) (Machine.run (exec X cfg) s ms) := by
  obtain ⟨chain, hs, hU⟩ := h.reachable.synced hlo
  have hstart : cfg.indexerStartBlock < C.length := by
    have := h.ahead
    rw [hs.next] at this
    omega
  have hnears := hs.nears hC hdet hU hCU (fun hne => h.common fun hnil =>
    hne (hs.mirrors.blocks_eq_nil_iff.1 hnil)) h.ahead
  obtain ⟨good, hsub, hgood, hle⟩ := h.rounds
  exact (Machine.run_variant (fun _ _ _ hm hd => hd.move hC hlo hm)
    (fun _ _ _ hm hd => hd.round hC hm) h.moves hsub hgood hle hnears).storedTo hstart

end Settled

namespace Sample

/-- A round whose commit fails. -/
def discarded : StepEnv := { StepEnv.serving right with commit := .discarded }

end Sample

end Indexer

end Cellora

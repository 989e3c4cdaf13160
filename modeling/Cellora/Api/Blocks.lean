/-
# The block endpoints

`GET /v1/blocks/latest`, `GET /v1/blocks/:number` and the resolvers `blocksLatest` and `block`
of the GraphQL root.  Over an index that an indexer keeps, they show the blocks of the stored
chain: a client that asks for every height reads back a hash-linked chain of the node, from
the start block to the checkpoint, and nothing else.
-/
import Cellora.Api.Graphql
import Cellora.Db.Blocks
import Cellora.Indexer.Runs
import Cellora.Lib.Decimal

namespace Cellora

namespace Api

open Indexer

/-- `BlockResponse`, less the time at which the row was written. -/
structure BlockResponse where
  number : ℤ
  hash : H256
  parentHash : H256
  timestampMs : ℤ
  epoch : ℤ
  transactionsCount : ℤ
  proposalsCount : ℤ
  unclesCount : ℤ
  nonce : String
  dao : H256
deriving DecidableEq

/-- `BlockResponse::try_from`, where `display` writes a stored `NUMERIC`. -/
def BlockResponse.tryFrom (display : ℕ → String) (block : BlockRow) :
    Except ApiError BlockResponse := do
  let hash ← hex32TryFromSlice block.hash
  let parentHash ← hex32TryFromSlice block.parentHash
  let dao ← hex32TryFromSlice block.dao
  .ok {
    number := block.number
    hash := hash
    parentHash := parentHash
    timestampMs := block.timestampMs
    epoch := block.epoch
    transactionsCount := block.transactionsCount
    proposalsCount := block.proposalsCount
    unclesCount := block.unclesCount
    nonce := display block.nonce
    dao := dao }

namespace BlocksRoute

/-- `parse_block_number`. -/
def parseBlockNumber (raw : String) : Except ApiError ℤ :=
  match Decimal.parseUnsigned (2 ^ 64) raw with
  | none => .error (.badRequest s!"invalid block number: '{raw}'")
  | some parsed =>
      if parsed ≤ i64Max then .ok parsed
      else .error (.badRequest s!"block number out of range: '{raw}'")

/-- The handler `latest`. -/
def latest (display : ℕ → String) (db : Db) : Except ApiError BlockResponse :=
  match Blocks.latest db with
  | none => .error (.notFound "no blocks indexed yet")
  | some block => BlockResponse.tryFrom display block

/-- The handler `by_number`. -/
def byNumber (display : ℕ → String) (db : Db) (raw : String) : Except ApiError BlockResponse := do
  let number ← parseBlockNumber raw
  match Blocks.getByNumber db number with
  | none => .error (.notFound "block not indexed")
  | some block => BlockResponse.tryFrom display block

end BlocksRoute

namespace Graphql

/-- `Block` of the GraphQL schema, less the time at which the row was written. -/
structure Block where
  number : ℤ
  hash : String
  parentHash : String
  timestampMs : ℤ
  epoch : ℤ
  transactionsCount : ℤ
  proposalsCount : ℤ
  unclesCount : ℤ
  nonce : String
  dao : String
deriving DecidableEq

/-- `Block::from`. -/
def Block.ofRow (display : ℕ → String) (b : BlockRow) : Block where
  number := b.number
  hash := hexPrefixed b.hash
  parentHash := hexPrefixed b.parentHash
  timestampMs := b.timestampMs
  epoch := b.epoch
  transactionsCount := b.transactionsCount
  proposalsCount := b.proposalsCount
  unclesCount := b.unclesCount
  nonce := display b.nonce
  dao := hexPrefixed b.dao

/-- The resolver `blocks_latest`. -/
def blocksLatest (display : ℕ → String) (db : Db) : Option Block :=
  (Blocks.latest db).map (Block.ofRow display)

/-- The resolver `block`. -/
def block (display : ℕ → String) (db : Db) (number : ℤ) : Except GraphqlError (Option Block) :=
  if number < 0 then .error ⟨"block number must be non-negative"⟩
  else .ok ((Blocks.getByNumber db number).map (Block.ofRow display))

end Graphql

/-- The fields of a REST response as the GraphQL surface writes them. -/
def BlockResponse.onGraphql (r : BlockResponse) : Graphql.Block where
  number := r.number
  hash := encodePrefixed r.hash.bytes
  parentHash := encodePrefixed r.parentHash.bytes
  timestampMs := r.timestampMs
  epoch := r.epoch
  transactionsCount := r.transactionsCount
  proposalsCount := r.proposalsCount
  unclesCount := r.unclesCount
  nonce := r.nonce
  dao := encodePrefixed r.dao.bytes

/-! ### Rendering a stored block -/

/-- The response shows a block as the node returned it. -/
structure ShowsBlock (X : CkbLib) (display : ℕ → String) (b : BlockView) (r : BlockResponse) :
    Prop where
  number : r.number = b.number
  hash : r.hash = b.hash
  parentHash : r.parentHash = b.parentHash
  timestampMs : r.timestampMs = b.header.inner.timestamp
  epoch : r.epoch = b.header.inner.epoch
  transactionsCount : r.transactionsCount = i32OfNat b.transactions.length
  proposalsCount : r.proposalsCount = i32OfNat b.proposalsLen
  unclesCount : r.unclesCount = i32OfNat b.unclesLen
  nonce : ∃ n, X.bigDecimalFromStr (toString b.header.inner.nonce) = some n ∧ r.nonce = display n
  dao : r.dao = b.header.inner.dao

section Rendering

variable {X : CkbLib} (display : ℕ → String)

lemma hex32TryFromSlice_bytes (h : H256) : hex32TryFromSlice h.bytes = .ok h :=
  hex32TryFromSlice_of_width h.width

/-- The row of a block is rendered, and both surfaces write the same fields. -/
lemma tryFrom_blockRow {b : BlockView} {row : BlockRow} (h : BlockRowOf X b row) :
    ∃ r, BlockResponse.tryFrom display row = .ok r ∧ ShowsBlock X display b r ∧
      Graphql.Block.ofRow display row = r.onGraphql := by
  refine ⟨⟨row.number, b.hash, b.parentHash, row.timestampMs, row.epoch, row.transactionsCount,
    row.proposalsCount, row.unclesCount, display row.nonce, b.header.inner.dao⟩, ?_, ?_, ?_⟩
  · rw [BlockResponse.tryFrom, h.hash, h.parentHash, h.dao, hex32TryFromSlice_bytes,
      hex32TryFromSlice_bytes, hex32TryFromSlice_bytes]
    rfl
  · exact {
      number := h.number
      hash := rfl
      parentHash := rfl
      timestampMs := h.timestampMs
      epoch := h.epoch
      transactionsCount := h.transactionsCount
      proposalsCount := h.proposalsCount
      unclesCount := h.unclesCount
      nonce := ⟨_, h.nonce, rfl⟩
      dao := rfl }
  · rw [Graphql.Block.ofRow, h.hash, h.parentHash, h.dao]
    rfl

end Rendering

/-! ### The grammar of the path segment -/

section Grammar

open BlocksRoute

variable {raw : String} {n : ℕ}

lemma parseBlockNumber_of_spells (h : Decimal.Spells raw n) (hn : n ≤ i64Max) :
    parseBlockNumber raw = .ok n := by
  have hlt : n < 2 ^ 64 := lt_of_le_of_lt hn (by decide)
  have hparse := (Decimal.parseUnsigned_eq_some_iff (by decide)).2 ⟨h, hlt⟩
  rw [parseBlockNumber, hparse]
  exact if_pos hn

/-- Past the range of the column, the message tells whether the number still fits in 64 bits. -/
lemma parseBlockNumber_of_large (h : Decimal.Spells raw n) (hn : i64Max < n) :
    parseBlockNumber raw = .error (.badRequest
      (if n < 2 ^ 64 then s!"block number out of range: '{raw}'"
        else s!"invalid block number: '{raw}'")) := by
  rw [parseBlockNumber]
  split
  · rename_i hnone
    have hlarge : ¬ n < 2 ^ 64 := fun hlt => by
      rw [(Decimal.parseUnsigned_eq_some_iff (by decide)).2 ⟨h, hlt⟩] at hnone
      cases hnone
    rw [if_neg hlarge]
  · rename_i n' hsome
    obtain ⟨h', hlt⟩ := (Decimal.parseUnsigned_eq_some_iff (by decide)).1 hsome
    obtain rfl := h.unique h'
    rw [if_neg (not_le.2 hn), if_pos hlt]

lemma parseBlockNumber_of_not_spells (h : ∀ n, ¬ Decimal.Spells raw n) :
    parseBlockNumber raw = .error (.badRequest s!"invalid block number: '{raw}'") := by
  rw [parseBlockNumber]
  split
  · rfl
  · rename_i n hsome
    exact absurd ((Decimal.parseUnsigned_eq_some_iff (by decide)).1 hsome).1 (h n)

end Grammar

/-! ### What the endpoints serve -/

/-- The four endpoints over a database that stores the blocks of a chain. -/
structure ServesBlocks (X : CkbLib) (display : ℕ → String) (chain : List BlockView) (db : Db) :
    Prop where
  /-- Every spelling of a height of the chain is answered with the block of that height. -/
  found : ∀ b ∈ chain, ∃ r, ShowsBlock X display b r ∧
    (∀ raw, Decimal.Spells raw b.number → BlocksRoute.byNumber display db raw = .ok r) ∧
    Graphql.block display db b.number = .ok (some r.onGraphql)
  /-- Another height of the range of the column is not indexed. -/
  missing : ∀ n ≤ i64Max, (∀ b ∈ chain, b.number ≠ n) →
    (∀ raw, Decimal.Spells raw n →
      BlocksRoute.byNumber display db raw = .error (.notFound "block not indexed")) ∧
    Graphql.block display db n = .ok none
  /-- Every other text is refused with a message that repeats it. -/
  refused : ∀ raw, (∀ n ≤ i64Max, ¬ Decimal.Spells raw n) →
    ∃ message, BlocksRoute.byNumber display db raw = .error (.badRequest message) ∧
      (message = s!"invalid block number: '{raw}'" ∨
        message = s!"block number out of range: '{raw}'" ∧
          ∃ n < 2 ^ 64, Decimal.Spells raw n)
  /-- The latest block is the last of the chain, which the checkpoint names. -/
  latest : ∀ b, chain.getLast? = some b →
    db.indexerState = some ⟨b.number, b.hash.bytes⟩ ∧
    ∃ r, BlocksRoute.latest display db = .ok r ∧ ShowsBlock X display b r ∧
      BlocksRoute.byNumber display db (toString b.number) = .ok r ∧
      Graphql.blocksLatest display db = some r.onGraphql
  empty : chain = [] → db.indexerState = none ∧
    BlocksRoute.latest display db = .error (.notFound "no blocks indexed yet") ∧
    Graphql.blocksLatest display db = none
  /-- A client that reads two consecutive heights sees the parent hash link them. -/
  linked : ∀ n raw raw' r r', Decimal.Spells raw n → Decimal.Spells raw' (n + 1) →
    BlocksRoute.byNumber display db raw = .ok r →
    BlocksRoute.byNumber display db raw' = .ok r' → r'.parentHash = r.hash

section Serving

open BlocksRoute

variable {X : CkbLib} {display : ℕ → String} {lo : ℕ} {chain : List (StoredBlock X)} {db : Db}
  {raw : String} {n : ℕ}

lemma byNumber_of_mem (h : Mirrors lo chain db) {b : StoredBlock X} (hb : b ∈ chain)
    (hraw : Decimal.Spells raw b.number) :
    byNumber display db raw = BlockResponse.tryFrom display b.rows.block := by
  rw [byNumber, parseBlockNumber_of_spells hraw (h.bound b hb).le]
  show (match Blocks.getByNumber db b.number with | none => _ | some block => _) = _
  rw [Blocks.getByNumber_of_mem h hb]

lemma byNumber_of_absent (h : Mirrors lo chain db) (hn : n ≤ i64Max)
    (habsent : ∀ b ∈ chain, b.number ≠ n) (hraw : Decimal.Spells raw n) :
    byNumber display db raw = .error (.notFound "block not indexed") := by
  rw [byNumber, parseBlockNumber_of_spells hraw hn]
  show (match Blocks.getByNumber db n with | none => _ | some block => _) = _
  rw [Blocks.getByNumber_of_absent h habsent]

/-- An answer is the block of the height the text spells. -/
lemma exists_of_byNumber (h : Mirrors lo chain db) {r : BlockResponse}
    (hraw : Decimal.Spells raw n) (hr : byNumber display db raw = .ok r) :
    ∃ b ∈ chain, b.number = n ∧ BlockResponse.tryFrom display b.rows.block = .ok r := by
  by_cases hn : n ≤ i64Max
  · by_cases hex : ∃ b ∈ chain, b.number = n
    · obtain ⟨b, hb, rfl⟩ := hex
      exact ⟨b, hb, rfl, byNumber_of_mem h hb hraw ▸ hr⟩
    · have habsent : ∀ b ∈ chain, b.number ≠ n := fun b hb hbn => hex ⟨b, hb, hbn⟩
      rw [byNumber_of_absent h hn habsent hraw] at hr
      cases hr
  · rw [byNumber, parseBlockNumber_of_large hraw (not_le.1 hn)] at hr
    cases hr

lemma byNumber_of_refused (hraw : ∀ n ≤ i64Max, ¬ Decimal.Spells raw n) :
    ∃ message, byNumber display db raw = .error (.badRequest message) ∧
      (message = s!"invalid block number: '{raw}'" ∨
        message = s!"block number out of range: '{raw}'" ∧
          ∃ n < 2 ^ 64, Decimal.Spells raw n) := by
  by_cases hspells : ∃ n, Decimal.Spells raw n
  · obtain ⟨n, hn⟩ := hspells
    have hlarge : i64Max < n := not_le.1 fun hle => hraw n hle hn
    rw [byNumber, parseBlockNumber_of_large hn hlarge]
    refine ⟨_, rfl, ?_⟩
    split
    · rename_i hlt
      exact .inr ⟨rfl, n, hlt, hn⟩
    · exact .inl rfl
  · rw [byNumber, parseBlockNumber_of_not_spells fun n hn => hspells ⟨n, hn⟩]
    exact ⟨_, rfl, .inl rfl⟩

/-- Consecutive heights are linked. -/
lemma parentHash_of_succ (h : Mirrors lo chain db) {b b' : StoredBlock X} (hb : b ∈ chain)
    (hb' : b' ∈ chain) (hnum : b'.number = b.number + 1) :
    b'.view.parentHash = b.view.hash := by
  obtain ⟨i, hi⟩ := List.mem_iff_getElem?.1 hb
  obtain ⟨j, hj⟩ := List.mem_iff_getElem?.1 hb'
  have hi' := h.numbered i b hi
  have hj' := h.numbered j b' hj
  obtain rfl : j = i + 1 := by omega
  obtain ⟨hlt, rfl⟩ := List.getElem?_eq_some_iff.1 hj
  obtain ⟨_, rfl⟩ := List.getElem?_eq_some_iff.1 hi
  exact List.isChain_iff_getElem.1 h.linked i hlt

theorem servesBlocks_of_mirrors (h : Mirrors lo chain db) :
    ServesBlocks X display (views chain) db where
  found := by
    intro v hv
    obtain ⟨b, hb, rfl⟩ := List.mem_map.1 hv
    obtain ⟨r, hr, hshows, hgql⟩ := tryFrom_blockRow display b.spec.block
    refine ⟨r, hshows, fun raw hraw => (byNumber_of_mem h hb hraw).trans hr, ?_⟩
    have hpos : ¬ ((b.view.number : ℕ) : ℤ) < 0 := by omega
    have hget : Blocks.getByNumber db b.view.number = _ := Blocks.getByNumber_of_mem h hb
    rw [Graphql.block, if_neg hpos, hget, Option.map_some, hgql]
  missing := by
    intro n hn habsent
    have habsent' : ∀ b ∈ chain, b.number ≠ n := fun b hb =>
      habsent b.view (List.mem_map_of_mem hb)
    refine ⟨fun raw hraw => byNumber_of_absent h hn habsent' hraw, ?_⟩
    have hpos : ¬ (n : ℤ) < 0 := by omega
    rw [Graphql.block, if_neg hpos, Blocks.getByNumber_of_absent h habsent', Option.map_none]
  refused := fun raw hraw => byNumber_of_refused hraw
  latest := by
    intro v hv
    rw [views, List.getLast?_map, Option.map_eq_some_iff] at hv
    obtain ⟨b, hlast, rfl⟩ := hv
    obtain ⟨r, hr, hshows, hgql⟩ := tryFrom_blockRow display b.spec.block
    refine ⟨by rw [h.checkpoint, hlast]; rfl, r, ?_, hshows, ?_, ?_⟩
    · rw [BlocksRoute.latest, Blocks.latest_of_mirrors h, hlast]
      exact hr
    · exact (byNumber_of_mem h (List.mem_of_getLast? hlast) (Decimal.spells_toString _)).trans hr
    · rw [Graphql.blocksLatest, Blocks.latest_of_mirrors h, hlast, ← hgql]
      rfl
  empty := by
    intro hnil
    obtain rfl := List.map_eq_nil_iff.1 hnil
    rw [h.checkpoint, BlocksRoute.latest, Graphql.blocksLatest, Blocks.latest_of_mirrors h]
    exact ⟨rfl, rfl, rfl⟩
  linked := by
    intro n raw raw' r r' hraw hraw' hr hr'
    obtain ⟨b, hb, rfl, hrow⟩ := exists_of_byNumber h hraw hr
    obtain ⟨b', hb', hnum, hrow'⟩ := exists_of_byNumber h hraw' hr'
    obtain ⟨_, hok, hshows, -⟩ := tryFrom_blockRow display b.spec.block
    obtain ⟨_, hok', hshows', -⟩ := tryFrom_blockRow display b'.spec.block
    obtain rfl := Except.ok.inj (hok.symm.trans hrow)
    obtain rfl := Except.ok.inj (hok'.symm.trans hrow')
    rw [hshows'.parentHash, hshows.hash]
    exact parentHash_of_succ h hb hb' hnum

end Serving

/-- In every reachable state the stored blocks are those of a hash-linked chain the node has
served, numbered from the start block, and the block endpoints of both surfaces show this
chain and nothing else: each height under every spelling of it, the last block as the latest,
and an error that names the reason for every other path segment. -/
theorem blocks_show_chain (X : CkbLib) (cfg : Config) (U : BlockView → Prop) (s : Poller)
    (hlo : cfg.indexerStartBlock < i64Max) (hreach : Reachable X cfg U s) :
    ∃ chain : List BlockView, (∀ b ∈ chain, U b) ∧ BlockView.Linked chain ∧
      Numbered BlockView.number cfg.indexerStartBlock chain ∧
      ∀ display, ServesBlocks X display chain s.db := by
  obtain ⟨chain, hs, hU⟩ := hreach.synced hlo
  refine ⟨views chain, fun v hv => ?_, hs.mirrors.views_linked, hs.mirrors.views_numbered,
    fun display => servesBlocks_of_mirrors hs.mirrors⟩
  obtain ⟨b, hb, rfl⟩ := List.mem_map.1 hv
  exact hU b hb

/-- After the reorganisation of the sample run the latest block is at height 3, where a
spelling with a sign and zeros finds it too. -/
theorem blocks_show_chain_sample :
    ∃ r, BlocksRoute.latest toString Indexer.Sample.final.db = .ok r ∧
      BlocksRoute.byNumber toString Indexer.Sample.final.db "+003" = .ok r ∧ r.number = 3 := by
  obtain ⟨chain, -, -, -, hserve⟩ := blocks_show_chain Indexer.Sample.lib Indexer.Sample.cfg
    Indexer.Sample.Served Indexer.Sample.final (by decide)
    (Indexer.Sample.reachable_final fun _ hb => hb)
  cases hlast : chain.getLast? with
  | none =>
      have hempty := ((hserve toString).empty (List.getLast?_eq_none_iff.1 hlast)).1
      exact absurd hempty (by decide +kernel)
  | some b =>
      obtain ⟨hcheckpoint, r, hr, hshows, hlatest, -⟩ := (hserve toString).latest b hlast
      obtain ⟨r', -, hfound, -⟩ := (hserve toString).found b (List.mem_of_getLast? hlast)
      obtain rfl : r' = r :=
        Except.ok.inj ((hfound _ (Decimal.spells_toString _)).symm.trans hlatest)
      have hstate : Indexer.Sample.final.db.indexerState.map Checkpoint.lastIndexedBlock =
          some 3 := by decide +kernel
      have hnum : (b.number : ℤ) = 3 := by
        rw [hcheckpoint] at hstate
        exact Option.some.inj hstate
      have hthree : b.number = 3 := by omega
      have hraw : Decimal.Spells "+003" 3 :=
        ⟨['0', '0', '3'], .inr rfl, by simp, by simp, rfl⟩
      exact ⟨r', hr, hfound _ (hthree ▸ hraw), hshows.number.trans hnum⟩

end Api

end Cellora

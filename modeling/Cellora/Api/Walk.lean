/-
# Walking the pages of a changing table

A client fetches the first page of `GET /v1/cells` and passes back each cursor.  Between two
fetches the tables may change in any way that respects the primary keys, the foreign key
and the stored widths.  The walk of the client is a walk in the sense of keyset pagination
over the rows that match the filter, so what holds of those holds of it.
-/
import Cellora.Api.Cells
import Cellora.Indexer.Runs

namespace Cellora

namespace Api

/-- What every snapshot of the tables respects. -/
structure ValidSnapshot (db : Db) : Prop extends StoredRows db where
  blockNumbers : (db.blocks.map BlockRow.number).Nodup
  cellKeys : (db.cells.map CellRecord.key).Nodup
  foreignKey : ∀ c ∈ db.cells, c.blockNumber ∈ db.blocks.map BlockRow.number

instance (db : Db) : Decidable (ValidSnapshot db) :=
  decidable_of_iff
    (StoredRows db ∧ (db.blocks.map BlockRow.number).Nodup ∧
      (db.cells.map CellRecord.key).Nodup ∧
      ∀ c ∈ db.cells, c.blockNumber ∈ db.blocks.map BlockRow.number)
    ⟨fun ⟨h₁, h₂, h₃, h₄⟩ => ⟨h₁, h₂, h₃, h₄⟩, fun ⟨h₁, h₂, h₃, h₄⟩ => ⟨h₁, h₂, h₃, h₄⟩⟩

/-- The condition of a request on a row of `cells`. -/
def rowMatches (filter : ScriptFilter) (liveness : LivenessFilter) (c : CellRecord) : Bool :=
  (match filter with
    | .lock hash => c.lockHash == hash
    | .type hash => c.typeHash == some hash) &&
  (match liveness.asBool with
    | none => true
    | some isLive => c.consumedByTxHash.isNone == isLive)

/-- The rows that match a request. -/
def matchingRows (filter : ScriptFilter) (liveness : LivenessFilter) (db : Db) :
    List CellRecord :=
  db.cells.filter (rowMatches filter liveness)

/-- The key a row is listed under. -/
def rowKey (c : CellRecord) : CellKey :=
  cellKey c.blockNumber c.txHash c.outputIndex

/-- The key a rendered cell shows. -/
def CellResponse.listKey (r : CellResponse) : CellKey :=
  cellKey r.blockNumber r.txHash.bytes r.outputIndex

/-- The cell of a row: the row joined with the hash of its block. -/
def joined (db : Db) (c : CellRecord) : Cell :=
  c.withBlock ((db.hashAt c.blockNumber).getD [])

/-- The pages a client gets that starts with the cursor `cursor`, one from each snapshot, and
whether it has got the last one. -/
def clientWalk (J : JsonLib) (config : AppConfig) (params : CellsQuery) :
    Option String → List (Db × TipHeights) → Except ApiError (List CellsPage × Bool)
  | _, [] => .ok ([], false)
  | cursor, (db, tip) :: rest => do
      let page ← list J ⟨db, config, tip⟩ { params with cursor := cursor }
      match page.nextCursor with
      | none => .ok ([page], true)
      | some next => do
          let (pages, ended) ← clientWalk J config params (some next) rest
          .ok (page :: pages, ended)

/-! ### The rows of one snapshot -/

section Snapshot

variable {db : Db} {filter : ScriptFilter} {liveness : LivenessFilter}

/-- In a valid snapshot the join has exactly one row for each cell. -/
lemma ValidSnapshot.joinBlocks_eq (h : ValidSnapshot db) :
    db.joinBlocks = db.cells.map (joined db) := by
  rw [Db.joinBlocks, List.map_eq_flatMap]
  refine List.flatMap_congr fun c hc => ?_
  obtain ⟨b, hb, hnum⟩ := List.mem_map.1 (h.foreignKey c hc)
  have hhash : db.hashAt c.blockNumber = some b.hash := by
    rw [← hnum]
    exact Db.hashAt_eq_some_of_mem h.blockNumbers hb
  -- the only block with the number of the cell is the one the foreign key names
  have hfilter : (db.blocks.filter fun b => b.number = c.blockNumber) = [b] := by
    rw [← hnum]
    exact Table.filter_key_eq h.blockNumbers hb
  rw [hfilter, joined, hhash]
  rfl

/-- The matching rows, as the query sees them. -/
def matchingCells (filter : ScriptFilter) (liveness : LivenessFilter) (db : Db) : List Cell :=
  (matchingRows filter liveness db).map (joined db)

/-- The query returns the first matching rows below the cursor. -/
lemma ValidSnapshot.fetchCells_eq (h : ValidSnapshot db) (cursor : Option CellCursor)
    (limit : ℕ) :
    fetchCells filter liveness cursor limit db =
      (Keyset.remaining Cell.sortKey (cursor.map CellCursor.key)
        (matchingCells filter liveness db)).take limit := by
  have hrows : ∀ hashMatches : Cell → Bool,
      (∀ c, (hashMatches (joined db c) && Db.matchesLiveness liveness (joined db c)) =
        rowMatches filter liveness c) →
      db.joinBlocks.filter (fun c => hashMatches c && Db.matchesLiveness liveness c) =
        matchingCells filter liveness db := by
    intro hashMatches hcond
    rw [h.joinBlocks_eq, List.filter_map, matchingCells, matchingRows]
    congr 1
    exact List.filter_congr fun c _ => hcond c
  cases filter with
  | lock hash => rw [fetchCells, Db.queryByLockHash, Db.queryCells, hrows _ fun c => rfl]
  | type hash => rw [fetchCells, Db.queryByTypeHash, Db.queryCells, hrows _ fun c => rfl]

lemma map_sortKey_matchingCells :
    (matchingCells filter liveness db).map Cell.sortKey =
      (matchingRows filter liveness db).map rowKey := by
  rw [matchingCells, List.map_map]
  rfl

lemma length_remaining_matchingCells :
    (Keyset.remaining Cell.sortKey none (matchingCells filter liveness db)).length =
      (matchingRows filter liveness db).length := by
  rw [Keyset.remaining_none, Keyset.descending_perm.length_eq, matchingCells, List.length_map]

lemma ValidSnapshot.matchingCells_nodup (h : ValidSnapshot db) :
    ((matchingCells filter liveness db).map Cell.sortKey).Nodup := by
  have hsub : (matchingCells filter liveness db).Sublist db.joinBlocks := by
    rw [h.joinBlocks_eq, matchingCells, matchingRows]
    exact List.filter_sublist.map _
  exact (Db.joinBlocks_nodup h.blockNumbers h.cellKeys).sublist (hsub.map _)

end Snapshot

/-! ### One page -/

section Page

variable {J : JsonLib} {db : Db} {filter : ScriptFilter} {limit : ℕ}

/-- **One page of the handler.**  On a valid snapshot the handler returns the rendered page
of the matching rows, and its cursor, if it has one, decodes to the key of the last row. -/
lemma list_spec (hJ : J.RoundTrips) (h : ValidSnapshot db) {config : AppConfig}
    (tip : TipHeights) (params : CellsQuery) (hfilter : parseFilter params = .ok filter)
    (hlimit : parseLimit params.limit config = .ok limit) {cursor : Option CellCursor}
    (hcursor : parseCursor J params.cursor = .ok cursor) :
    ∃ page, list J ⟨db, config, tip⟩ params = .ok page ∧
      PageOf J params.includeData config.network (Keyset.page Cell.sortKey limit
        (cursor.map CellCursor.key)
        (matchingCells filter (parseLiveness params.isLive) db)) page := by
  obtain ⟨page, hpage, hof⟩ := list_page hJ h.toStoredRows tip params hfilter hlimit hcursor
  rw [h.fetchCells_eq] at hof
  exact ⟨page, hpage, hof⟩

end Page

/-! ### The walk of the client is a keyset walk -/

section Simulation

variable {J : JsonLib} {config : AppConfig} {params : CellsQuery} {filter : ScriptFilter}
  {limit : ℕ}

/-- The matching rows of each snapshot. -/
def matchingTables (filter : ScriptFilter) (liveness : LivenessFilter)
    (snapshots : List (Db × TipHeights)) : List (List Cell) :=
  snapshots.map fun s => matchingCells filter liveness s.1

/-- A table that does not change is the same on every request. -/
lemma matchingTables_const (filter : ScriptFilter) (liveness : LivenessFilter) (db : Db)
    (tips : List TipHeights) :
    matchingTables filter liveness (tips.map fun tip => (db, tip)) =
      List.replicate tips.length (matchingCells filter liveness db) := by
  rw [matchingTables, List.map_map]
  change tips.map (fun _ => matchingCells filter liveness db) = _
  exact List.map_const'

lemma clientWalk_cons {raw : Option String} {db : Db} {tip : TipHeights}
    {rest : List (Db × TipHeights)} {page : CellsPage}
    (h : list J ⟨db, config, tip⟩ { params with cursor := raw } = .ok page) :
    clientWalk J config params raw ((db, tip) :: rest) =
      match page.nextCursor with
      | none => .ok ([page], true)
      | some next =>
          (fun walk => (page :: walk.1, walk.2)) <$>
            clientWalk J config params (some next) rest := by
  rw [clientWalk, h]
  simp only [bind, Except.bind]
  cases page.nextCursor with
  | none => rfl
  | some next => cases clientWalk J config params (some next) rest <;> rfl

/-- **Simulation.**  The pages of the client are the rendered pages of the keyset walk over
the matching rows. -/
theorem clientWalk_simulates (hJ : J.RoundTrips) (hfilter : parseFilter params = .ok filter)
    (hlimit : parseLimit params.limit config = .ok limit)
    {snapshots : List (Db × TipHeights)} (hvalid : ∀ s ∈ snapshots, ValidSnapshot s.1)
    {raw : Option String} {cursor : Option CellCursor}
    (hcursor : parseCursor J raw = .ok cursor) :
    ∃ pages, clientWalk J config params raw snapshots =
        .ok (pages, (Keyset.walk Cell.sortKey limit (cursor.map CellCursor.key)
          (matchingTables filter (parseLiveness params.isLive) snapshots)).2) ∧
      List.Forall₂ (fun rows page =>
          List.Forall₂ (RenderOf params.includeData config.network) rows page.data)
        (Keyset.walk Cell.sortKey limit (cursor.map CellCursor.key)
          (matchingTables filter (parseLiveness params.isLive) snapshots)).1 pages := by
  induction snapshots generalizing raw cursor with
  | nil => exact ⟨[], rfl, .nil⟩
  | cons s rest ih =>
      obtain ⟨db, tip⟩ := s
      obtain ⟨hdb, hrest⟩ := List.forall_mem_cons.1 hvalid
      obtain ⟨page, hpage, ⟨hdata, hnext⟩⟩ :=
        list_spec hJ hdb tip { params with cursor := raw } hfilter hlimit hcursor
      rw [matchingTables, List.map_cons, ← matchingTables, clientWalk_cons hpage]
      cases hkey : (Keyset.page Cell.sortKey limit (cursor.map CellCursor.key)
          (matchingCells filter (parseLiveness params.isLive) db)).2 with
      | none =>
          -- the last page of both
          rw [hkey] at hnext
          rw [Keyset.walk_of_none hkey]
          cases hraw : page.nextCursor with
          | some raw =>
              rw [hraw] at hnext
              exact nomatch hnext
          | none => exact ⟨[page], rfl, .cons hdata .nil⟩
      | some key =>
          -- both go on below the key of the last row
          rw [hkey] at hnext
          rw [Keyset.walk_of_some hkey]
          cases hraw : page.nextCursor with
          | none =>
              rw [hraw] at hnext
              exact nomatch hnext
          | some raw =>
              rw [hraw] at hnext
              obtain ⟨next, rfl, hparse⟩ : ∃ next : CellCursor, next.key = key ∧
                  parseCursor J (some raw) = .ok (some next) := by
                cases hnext with
                | some h => exact h
              obtain ⟨pages, hwalk, hpages⟩ := ih hrest hparse
              refine ⟨page :: pages, ?_, .cons hdata hpages⟩
              simp only [hwalk]
              rfl

end Simulation

/-! ### What a client sees -/

section Client

variable {includeData : Bool} {network : Network}

/-- The cells of a walk. -/
def walkCells (pages : List CellsPage) : List CellResponse := pages.flatMap CellsPage.data

lemma RenderOf.listKey {c : Cell} {r : CellResponse} (h : RenderOf includeData network c r) :
    r.listKey = c.sortKey := by
  rw [CellResponse.listKey, Cell.sortKey, h.blockNumber, h.txHash, h.outputIndex]

lemma walkCells_rel {tables : List (List Cell)} {pages : List CellsPage}
    (h : List.Forall₂ (fun rows page =>
      List.Forall₂ (RenderOf includeData network) rows page.data) tables pages) :
    List.Forall₂ (RenderOf includeData network) tables.flatten (walkCells pages) := by
  rw [walkCells, List.flatMap_def]
  exact List.rel_flatten (List.forall₂_map_right_iff.2 h)

/-- The keys of rendered rows are the keys of the rows. -/
lemma map_listKey {rows : List Cell} {cells : List CellResponse}
    (h : List.Forall₂ (RenderOf includeData network) rows cells) :
    cells.map CellResponse.listKey = rows.map Cell.sortKey := by
  induction h with
  | nil => rfl
  | cons hr _ ih => rw [List.map_cons, List.map_cons, hr.listKey, ih]

end Client

/-- A client that walks `GET /v1/cells` with a fixed filter and limit, over any valid
snapshots, gets pages of at most `limit` cells in strictly descending order of their keys,
and, if the walk ends, exactly once each key whose row matched in all the snapshots used.
On a table that does not change, with enough fetches, the walk ends after as many pages as
the matching rows fill and returns these rows in descending order. -/
theorem client_walk_cells (J : JsonLib) (hJ : J.RoundTrips) (config : AppConfig)
    (params : CellsQuery) (filter : ScriptFilter) (hfilter : parseFilter params = .ok filter)
    (limit : ℕ) (hlimit : parseLimit params.limit config = .ok limit) (hpos : 1 ≤ limit) :
    (∀ snapshots : List (Db × TipHeights), (∀ s ∈ snapshots, ValidSnapshot s.1) →
      ∃ pages ended, clientWalk J config params none snapshots = .ok (pages, ended) ∧
        (∀ page ∈ pages, page.data.length ≤ limit) ∧
        ((walkCells pages).Pairwise fun r r' => r'.listKey < r.listKey) ∧
        (ended = true → ∀ key,
          (∀ s ∈ snapshots.take pages.length,
            key ∈ (matchingRows filter (parseLiveness params.isLive) s.1).map rowKey) →
          ((walkCells pages).map CellResponse.listKey).count key = 1)) ∧
    (∀ (db : Db) (tips : List TipHeights), ValidSnapshot db →
      Keyset.pages limit (matchingRows filter (parseLiveness params.isLive) db).length ≤
        tips.length →
      ∃ pages, clientWalk J config params none (tips.map fun tip => (db, tip)) =
          .ok (pages, true) ∧
        pages.length =
          Keyset.pages limit (matchingRows filter (parseLiveness params.isLive) db).length ∧
        List.Forall₂ (RenderOf params.includeData config.network)
          (Keyset.descending Cell.sortKey
            (matchingCells filter (parseLiveness params.isLive) db)) (walkCells pages)) := by
  have hfirst : parseCursor J none = .ok none := rfl
  constructor
  · intro snapshots hvalid
    have hnodup : ∀ rows ∈ matchingTables filter (parseLiveness params.isLive) snapshots,
        (rows.map Cell.sortKey).Nodup := by
      intro rows hrows
      obtain ⟨s, hs, rfl⟩ := List.mem_map.1 hrows
      exact (hvalid s hs).matchingCells_nodup
    obtain ⟨pages, hwalk, hpages⟩ :=
      clientWalk_simulates hJ hfilter hlimit hvalid hfirst
    have hcells := walkCells_rel hpages
    have hkeys := map_listKey hcells
    have hdesc := (Keyset.walk_pairwise limit none hnodup).1
    -- the keys that are shown are the keys of the keyset walk
    have hpw : ((walkCells pages).map CellResponse.listKey).Pairwise fun k k' => k' < k := by
      rw [hkeys]
      exact List.pairwise_map.2 hdesc
    refine ⟨pages, _, hwalk, fun page hpage => ?_, List.pairwise_map.1 hpw, fun hend key hall => ?_⟩
    · obtain ⟨rows, hrows, hrel⟩ := exists_of_mem_right hpages hpage
      rw [← hrel.length_eq]
      exact Keyset.length_le_of_mem_walk hrows
    · refine List.count_eq_one_of_mem (hpw.imp fun hlt => ne_of_gt hlt) ?_
      rw [hkeys]
      refine Keyset.mem_walk_of_forall hpos hnodup hend trivial fun rows hrows => ?_
      rw [hpages.length_eq, matchingTables, ← List.map_take] at hrows
      obtain ⟨s, hs, rfl⟩ := List.mem_map.1 hrows
      rw [map_sortKey_matchingCells]
      exact hall s hs
  · intro db tips hdb hlen
    have hvalid : ∀ s ∈ tips.map fun tip => (db, tip), ValidSnapshot s.1 := by
      intro s hs
      obtain ⟨tip, -, rfl⟩ := List.mem_map.1 hs
      exact hdb
    obtain ⟨pages, hwalk, hpages⟩ :=
      clientWalk_simulates hJ hfilter hlimit hvalid hfirst
    obtain ⟨hend, hflat, hnum⟩ := Keyset.walk_replicate none hpos
      hdb.matchingCells_nodup (length_remaining_matchingCells ▸ hlen)
    rw [matchingTables_const] at hwalk hpages
    refine ⟨pages, ?_, ?_, ?_⟩
    · rw [hwalk]
      exact congrArg (fun ended => Except.ok (pages, ended)) hend
    · rw [← hpages.length_eq, ← length_remaining_matchingCells]
      exact hnum
    · rw [← Keyset.remaining_none, ← hflat]
      exact walkCells_rel hpages

namespace Sample

open Indexer.Sample

/-- The settings of a mainnet deployment with pages of at most 100 cells. -/
def config : AppConfig := ⟨20, 100, .mainnet⟩

/-- A request for the cells of the sample lock, one to a page. -/
def request : CellsQuery where
  lockHash := some ("0x" ++ Hex.encode lockHash.bytes)
  typeHash := none
  isLive := none
  cursor := none
  limit := some 1
  includeData := false

/-- No tip has been refreshed yet. -/
def tip : TipHeights := ⟨none, none⟩

/-- The tables with the left branch indexed. -/
def leftDb : Db :=
  (Machine.run (Indexer.exec lib cfg) (Indexer.initial cfg)
    (List.replicate 3 (.step (.serving left)))).db

/-- The tables after the run has moved to the right branch. -/
def rightDb : Db := final.db

lemma leftDb_valid : ValidSnapshot leftDb := by decide +kernel

lemma rightDb_valid : ValidSnapshot rightDb := by decide +kernel

lemma request_filter : parseFilter request = .ok (.lock lockHash.bytes) := by decide +kernel

end Sample

/-- A walk that starts on the left branch and goes on after the reorganisation, and a walk
over the left branch alone. -/
theorem client_walk_cells_sample :
    (∃ pages ended, clientWalk CompactJson.lib Sample.config Sample.request none
        [(Sample.leftDb, Sample.tip), (Sample.rightDb, Sample.tip),
          (Sample.rightDb, Sample.tip)] = .ok (pages, ended) ∧
      (walkCells pages).Pairwise fun r r' => r'.listKey < r.listKey) ∧
    ∃ pages, clientWalk CompactJson.lib Sample.config Sample.request none
        (List.replicate 3 (Sample.leftDb, Sample.tip)) = .ok (pages, true) ∧ pages.length = 3 := by
  obtain ⟨hchanging, hfixed⟩ := client_walk_cells CompactJson.lib CompactJson.roundTrips
    Sample.config Sample.request _ Sample.request_filter 1 (by decide) le_rfl
  constructor
  · have hvalid : ∀ s ∈ [(Sample.leftDb, Sample.tip), (Sample.rightDb, Sample.tip),
        (Sample.rightDb, Sample.tip)], ValidSnapshot s.1 := by
      simp [Sample.leftDb_valid, Sample.rightDb_valid]
    obtain ⟨pages, ended, hwalk, -, hdesc, -⟩ := hchanging _ hvalid
    exact ⟨pages, ended, hwalk, hdesc⟩
  · obtain ⟨pages, hwalk, hlen, -⟩ := hfixed Sample.leftDb (List.replicate 3 Sample.tip)
      Sample.leftDb_valid (by decide +kernel)
    refine ⟨pages, hwalk, ?_⟩
    rw [hlen]
    decide +kernel

end Api

end Cellora

/-
# Listing cells over REST

`GET /v1/cells`: parse the filter, the limit and the cursor, query one row more than the
page holds, cut the page, and render its rows.  The GraphQL surface repeats several of
these functions with its own error type and its own field names; those are written here
once, with the error and the names as parameters.
-/
import Cellora.Api.Pagination
import Cellora.Api.Registry

namespace Cellora

namespace Api

/-- The settings the cells endpoints read. -/
structure AppConfig where
  apiDefaultPageSize : ℕ
  apiMaxPageSize : ℕ
  network : Network
deriving DecidableEq

/-- The heights of the last tip refresh. -/
structure TipHeights where
  indexerTip : Option ℤ
  nodeTip : Option ℕ
deriving DecidableEq

/-- What a handler reads: one snapshot of the database, the settings and the tip. -/
structure AppState where
  db : Db
  config : AppConfig
  tip : TipHeights

/-- Which hash a request filters on. -/
inductive ScriptFilter where
  | lock (hash : Bytes)
  | type (hash : Bytes)
deriving DecidableEq

/-! ### What both surfaces do -/

section Shared

variable {ε α : Type}

/-- `parse_script_hash`. -/
def scriptHashOf (reject : String → ε) (field raw : String) : Except ε Bytes :=
  match decodePrefixed raw with
  | none => .error (reject s!"'{field}' must be 0x-prefixed hex")
  | some bytes =>
      if bytes.length ≠ 32 then
        .error (reject s!"'{field}' must be exactly 32 bytes (got {bytes.length})")
      else .ok bytes

/-- `parse_filter`. -/
def filterOf (reject : String → ε) (lockField typeField : String)
    (lockHash typeHash : Option String) : Except ε ScriptFilter :=
  match lockHash, typeHash with
  | some _, some _ =>
      .error (reject s!"specify exactly one of '{lockField}' or '{typeField}'")
  | none, none => .error (reject s!"one of '{lockField}' or '{typeField}' is required")
  | some raw, none => ScriptFilter.lock <$> scriptHashOf reject lockField raw
  | none, some raw => ScriptFilter.type <$> scriptHashOf reject typeField raw

/-- `parse_limit`. -/
def limitOf (reject : String → ε) (config : AppConfig) (raw : Option ℕ) : Except ε ℕ :=
  match raw with
  | none => .ok config.apiDefaultPageSize
  | some n =>
      if n = 0 then .error (reject "'limit' must be at least 1")
      else if n > config.apiMaxPageSize then
        .error (reject s!"'limit' must not exceed {config.apiMaxPageSize}")
      else .ok n

/-- The liveness filter of a request. -/
def parseLiveness : Option Bool → LivenessFilter
  | some true => .onlyLive
  | some false => .onlyConsumed
  | none => .any

/-- The query of a request. -/
def fetchCells (filter : ScriptFilter) (liveness : LivenessFilter) (cursor : Option CellCursor)
    (fetchLimit : ℕ) (db : Db) : List Cell :=
  match filter with
  | .lock hash => db.queryByLockHash hash liveness cursor fetchLimit
  | .type hash => db.queryByTypeHash hash liveness cursor fetchLimit

/-- `build_page`. -/
def pageOf (J : JsonLib) (render : Cell → Except ε α) (rows : List Cell) (limit : ℕ) :
    Except ε (List α × Option String) := do
  let hasMore := limit < rows.length
  let rows := if hasMore then rows.take limit else rows
  let nextCursor :=
    if hasMore then rows.getLast?.map fun last => encodeCellsCursor J last.cursor else none
  let data ← rows.mapM render
  .ok (data, nextCursor)

/-- `hash_type_label`. -/
def hashTypeLabelOf (fail : String → ε) (raw : ℤ) : Except ε String :=
  if raw = 0 then .ok "data"
  else if raw = 1 then .ok "type"
  else if raw = 2 then .ok "data1"
  else if raw = 3 then .ok "data2"
  else .error (fail s!"unknown hash_type value in database: {raw}")

end Shared

/-! ### The REST handler -/

/-- The query string of `GET /v1/cells`. -/
structure CellsQuery where
  lockHash : Option String
  typeHash : Option String
  isLive : Option Bool
  cursor : Option String
  limit : Option ℕ
  includeData : Bool
deriving DecidableEq

/-- A script on the wire. -/
structure ScriptResponse where
  codeHash : H256
  hashType : String
  args : Bytes
deriving DecidableEq

/-- The spend of a cell on the wire. -/
structure ConsumedByResponse where
  txHash : H256
  inputIndex : ℤ
  blockNumber : ℤ
deriving DecidableEq

/-- A cell on the wire. -/
structure CellResponse where
  txHash : H256
  outputIndex : ℤ
  blockNumber : ℤ
  blockHash : H256
  capacityShannons : ℤ
  lock : ScriptResponse
  lockHash : H256
  lockKind : Option String
  typeScript : Option ScriptResponse
  typeHash : Option H256
  typeKind : Option String
  data : Option Bytes
  isLive : Bool
  consumedBy : Option ConsumedByResponse
deriving DecidableEq

/-- A page of cells. -/
structure CellsPage where
  data : List CellResponse
  nextCursor : Option String
  pageMeta : TipHeights
deriving DecidableEq

/-- `parse_filter`. -/
def parseFilter (params : CellsQuery) : Except ApiError ScriptFilter :=
  filterOf .badRequest "lock_hash" "type_hash" params.lockHash params.typeHash

/-- `parse_limit`. -/
def parseLimit (raw : Option ℕ) (config : AppConfig) : Except ApiError ℕ :=
  limitOf .badRequest config raw

/-- `hash_type_label`. -/
def hashTypeLabel : ℤ → Except ApiError String := hashTypeLabelOf .internal

/-- The wire form of a script. -/
def scriptResponse (codeHash : Bytes) (hashType : ℤ) (args : Bytes) :
    Except ApiError ScriptResponse := do
  let codeHash ← hex32TryFromSlice codeHash
  let hashType ← hashTypeLabel hashType
  .ok ⟨codeHash, hashType, args⟩

/-- The label of the type script of a row. -/
def typeKindOf (network : Network) (row : Cell) : Option String :=
  match row.typeCodeHash, row.typeHashType with
  | some codeHash, some hashType => lookup network codeHash hashType .type
  | _, _ => none

/-- The type script of a row. -/
def typeScriptOf (row : Cell) : Except ApiError (Option ScriptResponse) :=
  match row.typeCodeHash, row.typeHashType, row.typeArgs, row.typeHash with
  | some codeHash, some hashType, some args, some _ =>
      some <$> scriptResponse codeHash hashType args
  | _, _, _, _ => .ok none

/-- The type hash of a row. -/
def typeHashOf (row : Cell) : Except ApiError (Option H256) :=
  match row.typeHash with
  | some hash => some <$> hex32TryFromSlice hash
  | none => .ok none

/-- The spend of a row. -/
def consumedByOf (row : Cell) : Except ApiError (Option ConsumedByResponse) :=
  match row.consumedByTxHash, row.consumedByInputIndex, row.consumedAtBlockNumber with
  | some tx, some inputIndex, some blockNumber =>
      (fun txHash => some ⟨txHash, inputIndex, blockNumber⟩) <$> hex32TryFromSlice tx
  | _, _, _ => .ok none

/-- `render_cell`. -/
def renderCell (includeData : Bool) (network : Network) (row : Cell) :
    Except ApiError CellResponse := do
  let lockKind := lookup network row.lockCodeHash row.lockHashType .lock
  let lock ← scriptResponse row.lockCodeHash row.lockHashType row.lockArgs
  let typeKind := typeKindOf network row
  let typeScript ← typeScriptOf row
  let typeHash ← typeHashOf row
  let consumedBy ← consumedByOf row
  let txHash ← hex32TryFromSlice row.txHash
  let blockHash ← hex32TryFromSlice row.blockHash
  let lockHash ← hex32TryFromSlice row.lockHash
  .ok {
    txHash := txHash
    outputIndex := row.outputIndex
    blockNumber := row.blockNumber
    blockHash := blockHash
    capacityShannons := row.capacityShannons
    lock := lock
    lockHash := lockHash
    lockKind := lockKind
    typeScript := typeScript
    typeHash := typeHash
    typeKind := typeKind
    data := if includeData then some row.data else none
    isLive := consumedBy.isNone
    consumedBy := consumedBy }

/-- `build_page`. -/
def buildPage (J : JsonLib) (rows : List Cell) (limit : ℕ) (includeData : Bool)
    (network : Network) : Except ApiError (List CellResponse × Option String) :=
  pageOf J (renderCell includeData network) rows limit

/-- The cursor of a request. -/
def parseCursor (J : JsonLib) (raw : Option String) : Except ApiError (Option CellCursor) :=
  match raw with
  | some raw => some <$> decodeCellsCursor J raw
  | none => .ok none

/-- The handler `list`. -/
def list (J : JsonLib) (state : AppState) (params : CellsQuery) : Except ApiError CellsPage := do
  let filter ← parseFilter params
  let liveness := parseLiveness params.isLive
  let limit ← parseLimit params.limit state.config
  let cursor ← parseCursor J params.cursor
  let cells := fetchCells filter liveness cursor (limit + 1) state.db
  let (page, nextCursor) ← buildPage J cells limit params.includeData state.config.network
  .ok { data := page, nextCursor := nextCursor, pageMeta := state.tip }

/-- A request that parses is answered with the page of its query. -/
lemma list_eq {J : JsonLib} {state : AppState} {params : CellsQuery} {filter : ScriptFilter}
    {limit : ℕ} {cursor : Option CellCursor} (hfilter : parseFilter params = .ok filter)
    (hlimit : parseLimit params.limit state.config = .ok limit)
    (hcursor : parseCursor J params.cursor = .ok cursor) :
    list J state params =
      (fun p => ⟨p.1, p.2, state.tip⟩) <$>
        buildPage J (fetchCells filter (parseLiveness params.isLive) cursor (limit + 1) state.db)
          limit params.includeData state.config.network := by
  rw [list, hfilter, hlimit, hcursor]
  rfl

/-! ### Rows of the widths the indexer stores -/

/-- The row has the widths the indexer stores: hashes of 32 bytes and hash types from 0 to
3, where they are not `NULL`. -/
structure StoredWidths (c : Cell) : Prop where
  txHash : c.txHash.length = 32
  blockHash : c.blockHash.length = 32
  lockCodeHash : c.lockCodeHash.length = 32
  lockHashType : 0 ≤ c.lockHashType ∧ c.lockHashType ≤ 3
  lockHash : c.lockHash.length = 32
  typeCodeHash : ∀ h ∈ c.typeCodeHash, h.length = 32
  typeHashType : ∀ t ∈ c.typeHashType, 0 ≤ t ∧ t ≤ 3
  typeHash : ∀ h ∈ c.typeHash, h.length = 32
  consumedByTxHash : ∀ h ∈ c.consumedByTxHash, h.length = 32

/-- The tables have the widths the indexer stores, in their joined rows and in the two
integer columns of the key. -/
structure StoredRows (db : Db) : Prop where
  widths : ∀ c ∈ db.cells, ∀ b ∈ db.blocks, StoredWidths (c.withBlock b.hash)
  /-- The columns of the key are a `BIGINT` and an `INTEGER`. -/
  columns : ∀ c ∈ db.cells, InI64 c.blockNumber ∧ InI32 c.outputIndex

instance (c : Cell) : Decidable (StoredWidths c) :=
  decidable_of_iff
    ((c.txHash.length = 32 ∧ c.blockHash.length = 32 ∧ c.lockCodeHash.length = 32 ∧
        (0 ≤ c.lockHashType ∧ c.lockHashType ≤ 3) ∧ c.lockHash.length = 32) ∧
      (∀ h ∈ c.typeCodeHash, h.length = 32) ∧ (∀ t ∈ c.typeHashType, 0 ≤ t ∧ t ≤ 3) ∧
      (∀ h ∈ c.typeHash, h.length = 32) ∧ ∀ h ∈ c.consumedByTxHash, h.length = 32)
    ⟨fun ⟨⟨h₁, h₂, h₃, h₄, h₅⟩, h₆, h₇, h₈, h₉⟩ => ⟨h₁, h₂, h₃, h₄, h₅, h₆, h₇, h₈, h₉⟩,
      fun ⟨h₁, h₂, h₃, h₄, h₅, h₆, h₇, h₈, h₉⟩ => ⟨⟨h₁, h₂, h₃, h₄, h₅⟩, h₆, h₇, h₈, h₉⟩⟩

instance (db : Db) : Decidable (StoredRows db) :=
  decidable_of_iff
    ((∀ c ∈ db.cells, ∀ b ∈ db.blocks, StoredWidths (c.withBlock b.hash)) ∧
      ∀ c ∈ db.cells, InI64 c.blockNumber ∧ InI32 c.outputIndex)
    ⟨fun ⟨h₁, h₂⟩ => ⟨h₁, h₂⟩, fun ⟨h₁, h₂⟩ => ⟨h₁, h₂⟩⟩

/-- The label of a stored hash type. -/
def hashTypeName (raw : ℤ) : String :=
  if raw = 0 then "data" else if raw = 1 then "type" else if raw = 2 then "data1" else "data2"

lemma hashTypeLabelOf_of_range {ε : Type} (fail : String → ε) {raw : ℤ}
    (h : 0 ≤ raw ∧ raw ≤ 3) : hashTypeLabelOf fail raw = .ok (hashTypeName raw) := by
  obtain ⟨h₀, h₃⟩ := h
  obtain rfl | rfl | rfl | rfl : raw = 0 ∨ raw = 1 ∨ raw = 2 ∨ raw = 3 := by omega
  all_goals rfl

/-- The columns of the type script, if none is `NULL`. -/
def typeColumns (c : Cell) : Option (Bytes × ℤ × Bytes × Bytes) := do
  let codeHash ← c.typeCodeHash
  let hashType ← c.typeHashType
  let args ← c.typeArgs
  let hash ← c.typeHash
  some (codeHash, hashType, args, hash)

/-- The columns of the spend, if none is `NULL`. -/
def spendColumns (c : Cell) : Option (Bytes × ℤ × ℤ) := do
  let tx ← c.consumedByTxHash
  let inputIndex ← c.consumedByInputIndex
  let blockNumber ← c.consumedAtBlockNumber
  some (tx, inputIndex, blockNumber)

/-- The script of a row, if it has the stored widths. -/
structure ScriptOf (codeHash : Bytes) (hashType : ℤ) (args : Bytes) (s : ScriptResponse) :
    Prop where
  codeHash : s.codeHash.bytes = codeHash
  hashType : s.hashType = hashTypeName hashType
  args : s.args = args

/-- What rendering a row returns. -/
structure RenderOf (includeData : Bool) (network : Network) (c : Cell) (r : CellResponse) :
    Prop where
  txHash : r.txHash.bytes = c.txHash
  outputIndex : r.outputIndex = c.outputIndex
  blockNumber : r.blockNumber = c.blockNumber
  blockHash : r.blockHash.bytes = c.blockHash
  capacityShannons : r.capacityShannons = c.capacityShannons
  lock : ScriptOf c.lockCodeHash c.lockHashType c.lockArgs r.lock
  lockHash : r.lockHash.bytes = c.lockHash
  lockKind : r.lockKind = lookup network c.lockCodeHash c.lockHashType .lock
  typeScript : Option.Rel (fun q s => ScriptOf q.1 q.2.1 q.2.2.1 s) (typeColumns c) r.typeScript
  typeHash : r.typeHash.map H256.bytes = c.typeHash
  typeKind : r.typeKind = typeKindOf network c
  data : r.data = if includeData then some c.data else none
  isLive : r.isLive = r.consumedBy.isNone
  consumedBy : (r.consumedBy.map fun s => (s.txHash.bytes, s.inputIndex, s.blockNumber)) =
    spendColumns c

section Render

variable {c : Cell}

lemma scriptResponse_of_width {codeHash : Bytes} {hashType : ℤ} (args : Bytes)
    (hcode : codeHash.length = 32) (htype : 0 ≤ hashType ∧ hashType ≤ 3) :
    ∃ s, scriptResponse codeHash hashType args = .ok s ∧ ScriptOf codeHash hashType args s := by
  refine ⟨⟨⟨codeHash, hcode⟩, hashTypeName hashType, args⟩, ?_, rfl, rfl, rfl⟩
  rw [scriptResponse, hex32TryFromSlice_of_width hcode, hashTypeLabel,
    hashTypeLabelOf_of_range _ htype]
  rfl

lemma typeScriptOf_of_widths (h : StoredWidths c) :
    ∃ t, typeScriptOf c = .ok t ∧
      Option.Rel (fun q s => ScriptOf q.1 q.2.1 q.2.2.1 s) (typeColumns c) t := by
  unfold typeScriptOf typeColumns
  rcases hcode : c.typeCodeHash with _ | codeHash
  · exact ⟨none, rfl, .none⟩
  rcases htype : c.typeHashType with _ | hashType
  · exact ⟨none, rfl, .none⟩
  rcases c.typeArgs with _ | args
  · exact ⟨none, rfl, .none⟩
  rcases c.typeHash with _ | hash
  · exact ⟨none, rfl, .none⟩
  obtain ⟨s, hs, hof⟩ := scriptResponse_of_width args
    (h.typeCodeHash codeHash hcode) (h.typeHashType hashType htype)
  refine ⟨some s, ?_, .some hof⟩
  simp only [hs]
  rfl

lemma typeHashOf_of_widths (h : StoredWidths c) :
    ∃ t, typeHashOf c = .ok t ∧ t.map H256.bytes = c.typeHash := by
  unfold typeHashOf
  cases hhash : c.typeHash with
  | none => exact ⟨none, rfl, rfl⟩
  | some hash =>
      have hwidth := h.typeHash hash hhash
      refine ⟨some ⟨hash, hwidth⟩, ?_, rfl⟩
      simp only [hex32TryFromSlice_of_width hwidth]
      rfl

lemma consumedByOf_of_widths (h : StoredWidths c) :
    ∃ s, consumedByOf c = .ok s ∧
      (s.map fun s => (s.txHash.bytes, s.inputIndex, s.blockNumber)) = spendColumns c := by
  unfold consumedByOf spendColumns
  rcases htx : c.consumedByTxHash with _ | tx
  · exact ⟨none, rfl, rfl⟩
  rcases c.consumedByInputIndex with _ | inputIndex
  · exact ⟨none, rfl, rfl⟩
  rcases c.consumedAtBlockNumber with _ | blockNumber
  · exact ⟨none, rfl, rfl⟩
  have hwidth := h.consumedByTxHash tx htx
  refine ⟨some ⟨⟨tx, hwidth⟩, inputIndex, blockNumber⟩, ?_, rfl⟩
  simp only [hex32TryFromSlice_of_width hwidth]
  rfl

/-- A row of the stored widths renders, and rendering keeps its values. -/
lemma renderCell_of_widths (includeData : Bool) (network : Network) (h : StoredWidths c) :
    ∃ r, renderCell includeData network c = .ok r ∧ RenderOf includeData network c r := by
  obtain ⟨lock, hlock, hlockOf⟩ := scriptResponse_of_width c.lockArgs
    h.lockCodeHash h.lockHashType
  obtain ⟨typeScript, htypeScript, htypeScriptOf⟩ := typeScriptOf_of_widths h
  obtain ⟨typeHash, htypeHash, htypeHashOf⟩ := typeHashOf_of_widths h
  obtain ⟨consumedBy, hconsumedBy, hconsumedByOf⟩ := consumedByOf_of_widths h
  refine ⟨{
    txHash := ⟨c.txHash, h.txHash⟩
    outputIndex := c.outputIndex
    blockNumber := c.blockNumber
    blockHash := ⟨c.blockHash, h.blockHash⟩
    capacityShannons := c.capacityShannons
    lock := lock
    lockHash := ⟨c.lockHash, h.lockHash⟩
    lockKind := lookup network c.lockCodeHash c.lockHashType .lock
    typeScript := typeScript
    typeHash := typeHash
    typeKind := typeKindOf network c
    data := if includeData then some c.data else none
    isLive := consumedBy.isNone
    consumedBy := consumedBy }, ?_, ?_⟩
  · rw [renderCell, hlock, htypeScript, htypeHash, hconsumedBy,
      hex32TryFromSlice_of_width h.txHash, hex32TryFromSlice_of_width h.blockHash,
      hex32TryFromSlice_of_width h.lockHash]
    rfl
  · exact ⟨rfl, rfl, rfl, rfl, rfl, hlockOf, rfl, rfl, htypeScriptOf, htypeHashOf, rfl, rfl, rfl,
      hconsumedByOf⟩

end Render

/-! ### One page -/

section Page

variable {J : JsonLib} {db : Db} {filter : ScriptFilter} {limit : ℕ}

/-- The row whose key becomes the next cursor. -/
def nextRow (limit : ℕ) (rows : List Cell) : Option Cell :=
  if limit < rows.length then (rows.take limit).getLast? else none

/-- Cutting and rendering a page of rows that all render. -/
lemma pageOf_spec {ε α : Type} {render : Cell → Except ε α} {R : Cell → α → Prop}
    {rows : List Cell} (h : ∀ c ∈ rows, ∃ r, render c = .ok r ∧ R c r) (limit : ℕ) :
    ∃ data, pageOf J render rows limit =
        .ok (data, (nextRow limit rows).map fun last => encodeCellsCursor J last.cursor) ∧
      List.Forall₂ R (Keyset.cut Cell.sortKey limit rows).1 data ∧
      (Keyset.cut Cell.sortKey limit rows).2 = (nextRow limit rows).map Cell.sortKey := by
  rw [pageOf, Keyset.cut, nextRow]
  by_cases hmore : limit < rows.length
  · have hkept : ∀ c ∈ rows.take limit, ∃ r, render c = .ok r ∧ R c r := fun c hc =>
      h c (List.mem_of_mem_take hc)
    obtain ⟨data, hdata, hall⟩ := Except.mapM_ok_of_forall hkept
    simp only [if_pos hmore, hdata]
    exact ⟨data, rfl, hall, trivial⟩
  · obtain ⟨data, hdata, hall⟩ := Except.mapM_ok_of_forall h
    simp only [if_neg hmore, hdata]
    exact ⟨data, rfl, hall, rfl⟩

/-- What a page shows of the rows it was cut from: the kept rows, and a cursor that decodes
to the key of the last one. -/
structure PageOf (J : JsonLib) (includeData : Bool) (network : Network)
    (cut : List Cell × Option CellKey) (page : CellsPage) : Prop where
  data : List.Forall₂ (RenderOf includeData network) cut.1 page.data
  nextCursor : Option.Rel (fun raw key => ∃ next : CellCursor, next.key = key ∧
    parseCursor J (some raw) = .ok (some next)) page.nextCursor cut.2

lemma mem_joinBlocks_of_mem_fetchCells {liveness : LivenessFilter} {cursor : Option CellCursor}
    {n : ℕ} {c : Cell} (hc : c ∈ fetchCells filter liveness cursor n db) :
    c ∈ db.joinBlocks := by
  have hquery : ∀ hashMatches : Cell → Bool,
      c ∈ db.queryCells hashMatches liveness cursor n → c ∈ db.joinBlocks := by
    intro hashMatches hc
    obtain ⟨hc, -⟩ := Keyset.mem_remaining.1 (List.mem_of_mem_take hc)
    exact List.mem_of_mem_filter hc
  cases filter with
  | lock hash => exact hquery _ hc
  | type hash => exact hquery _ hc

lemma StoredRows.widths_of_mem (h : StoredRows db) {c : Cell} (hc : c ∈ db.joinBlocks) :
    StoredWidths c ∧ InI64 c.blockNumber ∧ InI32 c.outputIndex := by
  obtain ⟨c', hc', b, hb, -, rfl⟩ := Db.mem_joinBlocks.1 hc
  exact ⟨h.widths c' hc' b hb, h.columns c' hc'⟩

/-- **One page of the handler.**  A request that parses is answered with the page of its
query. -/
lemma list_page (hJ : J.RoundTrips) (h : StoredRows db) {config : AppConfig}
    (tip : TipHeights) (params : CellsQuery) (hfilter : parseFilter params = .ok filter)
    (hlimit : parseLimit params.limit config = .ok limit) {cursor : Option CellCursor}
    (hcursor : parseCursor J params.cursor = .ok cursor) :
    ∃ page, list J ⟨db, config, tip⟩ params = .ok page ∧
      PageOf J params.includeData config.network (Keyset.cut Cell.sortKey limit
        (fetchCells filter (parseLiveness params.isLive) cursor (limit + 1) db)) page := by
  obtain ⟨rows, hrows⟩ : ∃ rows,
      rows = fetchCells filter (parseLiveness params.isLive) cursor (limit + 1) db := ⟨_, rfl⟩
  rw [← hrows]
  have hwidths : ∀ c ∈ rows, StoredWidths c ∧ InI64 c.blockNumber ∧ InI32 c.outputIndex := by
    intro c hc
    rw [hrows] at hc
    exact h.widths_of_mem (mem_joinBlocks_of_mem_fetchCells hc)
  have hrender : ∀ c ∈ rows, ∃ r, renderCell params.includeData config.network c = .ok r ∧
      RenderOf params.includeData config.network c r := fun c hc =>
    renderCell_of_widths _ _ (hwidths c hc).1
  obtain ⟨data, hpage, hdata, hnext⟩ := pageOf_spec (J := J) hrender limit
  refine ⟨⟨data, (nextRow limit rows).map fun last => encodeCellsCursor J last.cursor, tip⟩,
    ?_, hdata, ?_⟩
  · rw [list_eq hfilter hlimit hcursor, ← hrows, buildPage, hpage]
    rfl
  · rw [hnext]
    cases hlast : nextRow limit rows with
    | none => exact .none
    | some last =>
        -- the last row kept is a row of the tables, so its cursor decodes
        have hin : last ∈ rows := by
          rw [nextRow] at hlast
          split at hlast
          · exact List.mem_of_mem_take (List.mem_of_getLast? hlast)
          · exact absurd hlast (by simp)
        obtain ⟨hwidth, hbn, hoi⟩ := hwidths last hin
        refine .some ⟨last.cursor, rfl, ?_⟩
        rw [parseCursor, decodeCellsCursor_encode hJ hbn hoi hwidth.txHash]
        rfl

end Page

end Api

end Cellora

/-
# Listing cells over GraphQL

The resolver `cells` of the GraphQL root.  It reads the same tables with the same queries
as the REST handler, under camel-case names, and renders rows on its own: hashes become
text without a check of their width, and every error is a message.
-/
import Cellora.Api.Cells

namespace Cellora

namespace Api

/-- `async_graphql::Error`. -/
structure GraphqlError where
  message : String
deriving DecidableEq

/-- `n as i64` of an unsigned 64-bit integer. -/
def castI64 (n : ℕ) : ℤ := Int.bmod n (2 ^ 64)

namespace Graphql

/-- The argument of `cells`. -/
structure CellsInput where
  lockHash : Option String
  typeHash : Option String
  isLive : Option Bool
  limit : Option ℕ
  cursor : Option String
  includeData : Option Bool
deriving DecidableEq

/-- A script in GraphQL form. -/
structure Script where
  codeHash : String
  hashType : String
  args : String
deriving DecidableEq

/-- Where a cell was consumed. -/
structure ConsumedBy where
  txHash : String
  inputIndex : ℤ
  blockNumber : ℤ
deriving DecidableEq

/-- A cell in GraphQL form. -/
structure GraphCell where
  txHash : String
  outputIndex : ℤ
  blockNumber : ℤ
  blockHash : String
  capacityShannons : ℤ
  lock : Script
  lockHash : String
  lockKind : Option String
  typeScript : Option Script
  typeHash : Option String
  typeKind : Option String
  data : Option String
  isLive : Bool
  consumedBy : Option ConsumedBy
deriving DecidableEq

/-- Page metadata. -/
structure Meta where
  indexerTip : Option ℤ
  nodeTip : Option ℤ
deriving DecidableEq

/-- A page of cells. -/
structure CellsConnection where
  data : List GraphCell
  nextCursor : Option String
  pageMeta : Meta
deriving DecidableEq

/-- `parse_filter`. -/
def parseFilter (input : CellsInput) : Except GraphqlError ScriptFilter :=
  filterOf .mk "lockHash" "typeHash" input.lockHash input.typeHash

/-- `parse_limit`. -/
def parseLimit (raw : Option ℕ) (config : AppConfig) : Except GraphqlError ℕ :=
  limitOf .mk config raw

/-- `hash_type_label`. -/
def hashTypeLabel : ℤ → Except GraphqlError String := hashTypeLabelOf .mk

/-- `api_to_gql`. -/
def apiToGql (err : ApiError) : GraphqlError := ⟨err.toString⟩

/-- The cursor of a request. -/
def parseCursor (J : JsonLib) (raw : Option String) : Except GraphqlError (Option CellCursor) :=
  match raw with
  | some raw => some <$> (decodeCellsCursor J raw).mapError apiToGql
  | none => .ok none

/-- The GraphQL form of a script. -/
def script (codeHash : Bytes) (hashType : ℤ) (args : Bytes) : Except GraphqlError Script := do
  let label ← hashTypeLabel hashType
  .ok ⟨hexPrefixed codeHash, label, hexPrefixed args⟩

/-- The type script of a row. -/
def typeScriptOf (row : Cell) : Except GraphqlError (Option Script) :=
  match row.typeCodeHash, row.typeHashType, row.typeArgs, row.typeHash with
  | some codeHash, some hashType, some args, some _ => some <$> script codeHash hashType args
  | _, _, _, _ => .ok none

/-- The spend of a row. -/
def consumedByOf (row : Cell) : Option ConsumedBy :=
  match row.consumedByTxHash, row.consumedByInputIndex, row.consumedAtBlockNumber with
  | some tx, some inputIndex, some blockNumber => some ⟨hexPrefixed tx, inputIndex, blockNumber⟩
  | _, _, _ => none

/-- `render_cell`. -/
def renderCell (includeData : Bool) (network : Network) (row : Cell) :
    Except GraphqlError GraphCell := do
  let lockKind := lookup network row.lockCodeHash row.lockHashType .lock
  let lock ← script row.lockCodeHash row.lockHashType row.lockArgs
  let typeKind :=
    match row.typeCodeHash, row.typeHashType with
    | some codeHash, some hashType => lookup network codeHash hashType .type
    | _, _ => none
  let typeScript ← typeScriptOf row
  let consumedBy := consumedByOf row
  .ok {
    txHash := hexPrefixed row.txHash
    outputIndex := row.outputIndex
    blockNumber := row.blockNumber
    blockHash := hexPrefixed row.blockHash
    capacityShannons := row.capacityShannons
    lock := lock
    lockHash := hexPrefixed row.lockHash
    lockKind := lockKind
    typeScript := typeScript
    typeHash := row.typeHash.map hexPrefixed
    typeKind := typeKind
    data := if includeData then some (hexPrefixed row.data) else none
    isLive := consumedBy.isNone
    consumedBy := consumedBy }

/-- `build_page`. -/
def buildPage (J : JsonLib) (rows : List Cell) (limit : ℕ) (includeData : Bool)
    (network : Network) : Except GraphqlError (List GraphCell × Option String) :=
  pageOf J (renderCell includeData network) rows limit

/-- The resolver `cells`. -/
def cells (J : JsonLib) (state : AppState) (input : CellsInput) :
    Except GraphqlError CellsConnection := do
  let filter ← parseFilter input
  let liveness := parseLiveness input.isLive
  let limit ← parseLimit input.limit state.config
  let cursor ← parseCursor J input.cursor
  let rows := fetchCells filter liveness cursor (limit + 1) state.db
  let includeData := input.includeData.getD false
  let (data, nextCursor) ← buildPage J rows limit includeData state.config.network
  .ok {
    data := data
    nextCursor := nextCursor
    pageMeta := ⟨state.tip.indexerTip, state.tip.nodeTip.map castI64⟩ }

end Graphql

end Api

end Cellora

/-
# The two surfaces agree

A REST response reaches the client as a JSON object whose hashes and byte strings are
`0x`-prefixed text; `CellResponse.wire` is that object, with an omitted field as `none`.
Against it the answers of the GraphQL resolver are compared field by field.
-/
import Cellora.Api.Graphql
import Cellora.Api.Walk

namespace Cellora

namespace Api

/-! ### The REST response as text -/

/-- A script as it is serialised. -/
def ScriptResponse.wire (s : ScriptResponse) : Graphql.Script :=
  ⟨encodePrefixed s.codeHash.bytes, s.hashType, encodePrefixed s.args⟩

/-- A spend as it is serialised. -/
def ConsumedByResponse.wire (s : ConsumedByResponse) : Graphql.ConsumedBy :=
  ⟨encodePrefixed s.txHash.bytes, s.inputIndex, s.blockNumber⟩

/-- A cell as it is serialised. -/
def CellResponse.wire (r : CellResponse) : Graphql.GraphCell where
  txHash := encodePrefixed r.txHash.bytes
  outputIndex := r.outputIndex
  blockNumber := r.blockNumber
  blockHash := encodePrefixed r.blockHash.bytes
  capacityShannons := r.capacityShannons
  lock := r.lock.wire
  lockHash := encodePrefixed r.lockHash.bytes
  lockKind := r.lockKind
  typeScript := r.typeScript.map ScriptResponse.wire
  typeHash := r.typeHash.map fun h => encodePrefixed h.bytes
  typeKind := r.typeKind
  data := r.data.map encodePrefixed
  isLive := r.isLive
  consumedBy := r.consumedBy.map ConsumedByResponse.wire

/-- The REST request with the values of a GraphQL one. -/
def Graphql.CellsInput.query (input : Graphql.CellsInput) : CellsQuery where
  lockHash := input.lockHash
  typeHash := input.typeHash
  isLive := input.isLive
  cursor := input.cursor
  limit := input.limit
  includeData := input.includeData.getD false

/-- The pages of the two surfaces show the same. -/
structure SamePage (page : CellsPage) (connection : Graphql.CellsConnection) : Prop where
  nextCursor : page.nextCursor = connection.nextCursor
  data : page.data.map CellResponse.wire = connection.data

/-! ### Requests -/

section Requests

variable {ε ε' : Type} {reject : String → ε} {reject' : String → ε'}

lemma scriptHashOf_agree (field field' raw : String) :
    Except.Agree Eq (scriptHashOf reject field raw) (scriptHashOf reject' field' raw) := by
  unfold scriptHashOf
  cases decodePrefixed raw with
  | none => exact .rejected _ _
  | some bytes =>
      by_cases hlen : bytes.length ≠ 32
      · simp only [if_pos hlen]
        exact .rejected _ _
      · simp only [if_neg hlen]
        exact .answered rfl

/-- Parsing the filter depends on the names of the fields in its messages only. -/
lemma filterOf_agree (lockField typeField lockField' typeField' : String)
    (lockHash typeHash : Option String) :
    Except.Agree Eq (filterOf reject lockField typeField lockHash typeHash)
      (filterOf reject' lockField' typeField' lockHash typeHash) := by
  rcases lockHash with _ | lockRaw <;> rcases typeHash with _ | typeRaw
  · exact .rejected _ _
  · exact (scriptHashOf_agree _ _ typeRaw).map fun _ _ h => congrArg _ h
  · exact (scriptHashOf_agree _ _ lockRaw).map fun _ _ h => congrArg _ h
  · exact .rejected _ _

lemma limitOf_agree (config : AppConfig) (raw : Option ℕ) :
    Except.Agree Eq (limitOf reject config raw) (limitOf reject' config raw) := by
  cases raw with
  | none => exact .answered rfl
  | some n =>
      unfold limitOf
      by_cases hzero : n = 0
      · simp only [if_pos hzero]
        exact .rejected _ _
      · by_cases hmax : n > config.apiMaxPageSize
        · simp only [if_neg hzero, if_pos hmax]
          exact .rejected _ _
        · simp only [if_neg hzero, if_neg hmax]
          exact .answered rfl

lemma parseCursor_agree (J : JsonLib) (raw : Option String) :
    Except.Agree Eq (parseCursor J raw) (Graphql.parseCursor J raw) := by
  cases raw with
  | none => exact .answered rfl
  | some raw =>
      rw [parseCursor, Graphql.parseCursor]
      cases decodeCellsCursor J raw with
      | error e => exact .rejected _ _
      | ok cursor => exact .answered rfl

end Requests

/-! ### Rows -/

section Rows

variable {c : Cell} {includeData : Bool} {network : Network}

lemma ScriptOf.wire_eq {codeHash : Bytes} {hashType : ℤ} {args : Bytes} {s : ScriptResponse}
    (h : ScriptOf codeHash hashType args s) (htype : 0 ≤ hashType ∧ hashType ≤ 3) :
    Graphql.script codeHash hashType args = .ok s.wire := by
  rw [Graphql.script, Graphql.hashTypeLabel, hashTypeLabelOf_of_range _ htype,
    ScriptResponse.wire, h.codeHash, h.hashType, h.args]
  rfl

lemma Graphql.typeScriptOf_eq (c : Cell) :
    Graphql.typeScriptOf c =
      match typeColumns c with
      | some q => some <$> Graphql.script q.1 q.2.1 q.2.2.1
      | none => .ok none := by
  unfold Graphql.typeScriptOf typeColumns
  rcases c.typeCodeHash with _ | codeHash
  · rfl
  rcases c.typeHashType with _ | hashType
  · rfl
  rcases c.typeArgs with _ | args
  · rfl
  rcases c.typeHash with _ | hash <;> rfl

lemma Graphql.consumedByOf_eq (c : Cell) :
    Graphql.consumedByOf c =
      (spendColumns c).map fun q => ⟨hexPrefixed q.1, q.2.1, q.2.2⟩ := by
  unfold Graphql.consumedByOf spendColumns
  rcases c.consumedByTxHash with _ | tx
  · rfl
  rcases c.consumedByInputIndex with _ | inputIndex
  · rfl
  rcases c.consumedAtBlockNumber with _ | blockNumber <;> rfl

lemma typeHashType_of_mem_typeColumns {q : Bytes × ℤ × Bytes × Bytes} (h : typeColumns c = some q) :
    c.typeHashType = some q.2.1 := by
  rw [typeColumns] at h
  simp only [Option.bind_eq_bind, Option.bind_eq_some_iff, Option.some.injEq] at h
  obtain ⟨codeHash, -, hashType, htype, args, -, hash, -, rfl⟩ := h
  exact htype

/-- The GraphQL type script is the serialised REST one. -/
lemma RenderOf.typeScript_wire {r : CellResponse} (h : RenderOf includeData network c r)
    (hw : StoredWidths c) :
    Graphql.typeScriptOf c = .ok (r.typeScript.map ScriptResponse.wire) := by
  have hrel := h.typeScript
  have htype := fun q => typeHashType_of_mem_typeColumns (c := c) (q := q)
  rw [Graphql.typeScriptOf_eq]
  generalize typeColumns c = cols, r.typeScript = script at hrel htype
  cases hrel with
  | none => rfl
  | @some q s hof =>
      simp only [hof.wire_eq (hw.typeHashType _ (htype q rfl))]
      rfl

/-- **One row.**  A row of the stored widths renders over GraphQL to the serialised REST
cell. -/
lemma RenderOf.wire_eq {r : CellResponse} (h : RenderOf includeData network c r)
    (hw : StoredWidths c) : Graphql.renderCell includeData network c = .ok r.wire := by
  have hspend : r.consumedBy.map ConsumedByResponse.wire = Graphql.consumedByOf c := by
    rw [Graphql.consumedByOf_eq, ← h.consumedBy, Option.map_map]
    rfl
  have hlive : r.isLive = (Graphql.consumedByOf c).isNone := by
    rw [← hspend, h.isLive, Option.isNone_map]
  have hdata : r.data.map encodePrefixed =
      if includeData then some (hexPrefixed c.data) else none := by
    rw [h.data]
    cases includeData <;> rfl
  have htypeHash : (r.typeHash.map fun h => encodePrefixed h.bytes) =
      c.typeHash.map hexPrefixed := by
    rw [← h.typeHash, Option.map_map]
    rfl
  rw [Graphql.renderCell, h.lock.wire_eq hw.lockHashType, h.typeScript_wire hw]
  rw [CellResponse.wire, h.txHash, h.outputIndex, h.blockNumber, h.blockHash,
    h.capacityShannons, h.lockHash, h.lockKind, h.typeKind, hspend, hlive, hdata, htypeHash]
  rfl

end Rows

/-! ### Pages -/

section Pages

variable {J : JsonLib} {rows : List Cell} {includeData : Bool} {network : Network}

lemma renderCell_agree {c : Cell} (hw : StoredWidths c) :
    Except.Agree (fun r g => r.wire = g) (renderCell includeData network c)
      (Graphql.renderCell includeData network c) := by
  obtain ⟨r, hr, hof⟩ := renderCell_of_widths includeData network hw
  rw [hr, hof.wire_eq hw]
  exact .answered rfl

/-- Both surfaces cut the same page of the same rows. -/
lemma buildPage_agree (hw : ∀ c ∈ rows, StoredWidths c) (limit : ℕ) :
    Except.Agree (fun p q => p.2 = q.2 ∧ p.1.map CellResponse.wire = q.1)
      (buildPage J rows limit includeData network)
      (Graphql.buildPage J rows limit includeData network) := by
  have hcut : ∀ c ∈ (if limit < rows.length then rows.take limit else rows),
      StoredWidths c := by
    intro c hc
    by_cases hmore : limit < rows.length
    · rw [if_pos hmore] at hc
      exact hw c (List.mem_of_mem_take hc)
    · rw [if_neg hmore] at hc
      exact hw c hc
  refine (Except.Agree.mapM fun c hc => renderCell_agree (hcut c hc)).bind fun data data' h => ?_
  refine .answered ⟨rfl, ?_⟩
  rw [← List.forall₂_eq_eq_eq, List.forall₂_map_left_iff]
  exact h

/-- **One request.**  The two surfaces answer alike. -/
lemma list_agree_cells (J : JsonLib) {state : AppState} (h : StoredRows state.db)
    (input : Graphql.CellsInput) :
    Except.Agree SamePage (list J state input.query) (Graphql.cells J state input) := by
  rw [list, Graphql.cells]
  refine (filterOf_agree _ _ _ _ _ _).bind ?_
  rintro filter _ rfl
  refine (limitOf_agree _ _).bind ?_
  rintro limit _ rfl
  refine (parseCursor_agree J _).bind ?_
  rintro cursor _ rfl
  -- from here on both read the same rows
  have hw : ∀ c ∈ fetchCells filter (parseLiveness input.isLive) cursor (limit + 1) state.db,
      StoredWidths c := fun c hc =>
    (h.widths_of_mem (mem_joinBlocks_of_mem_fetchCells hc)).1
  refine (buildPage_agree hw limit).bind ?_
  rintro ⟨data, next⟩ ⟨data', next'⟩ ⟨hnext, hdata⟩
  exact .answered ⟨hnext, hdata⟩

/-- What a request that was answered had to parse to. -/
lemma parses_of_list {state : AppState} {params : CellsQuery} {page : CellsPage}
    (h : list J state params = .ok page) :
    ∃ filter limit cursor, parseFilter params = .ok filter ∧
      parseLimit params.limit state.config = .ok limit ∧
      parseCursor J params.cursor = .ok cursor := by
  obtain ⟨filter, hfilter, h⟩ := Except.bind_eq_ok.1 h
  obtain ⟨limit, hlimit, h⟩ := Except.bind_eq_ok.1 h
  obtain ⟨cursor, hcursor, -⟩ := Except.bind_eq_ok.1 h
  exact ⟨filter, limit, cursor, hfilter, hlimit, hcursor⟩

/-- A cursor the REST surface returns decodes. -/
lemma parseCursor_of_list (hJ : J.RoundTrips) {state : AppState} (h : StoredRows state.db)
    {params : CellsQuery} {page : CellsPage} (hpage : list J state params = .ok page)
    {raw : String} (hraw : page.nextCursor = some raw) :
    ∃ next, parseCursor J (some raw) = .ok (some next) := by
  obtain ⟨filter, limit, cursor, hfilter, hlimit, hcursor⟩ := parses_of_list hpage
  obtain ⟨page', hpage', hof⟩ := list_page hJ h state.tip params hfilter hlimit hcursor
  obtain rfl : page' = page := Except.ok.inj (hpage'.symm.trans hpage)
  have hrel := hof.nextCursor
  generalize (Keyset.cut Cell.sortKey limit _).2 = key at hrel
  rw [hraw] at hrel
  cases hrel with
  | some hnext =>
      obtain ⟨next, -, hparse⟩ := hnext
      exact ⟨next, hparse⟩

end Pages

/-- The REST handler and the GraphQL resolver, given the same values, both reject the
request or both return pages with the same cursor and the same cells.  A cursor that either
returns is accepted by both, on any later state of the tables, and continues alike. -/
theorem rest_and_graphql_agree (J : JsonLib) (state : AppState) (h : StoredRows state.db)
    (input : Graphql.CellsInput) :
    Except.Agree SamePage (list J state input.query) (Graphql.cells J state input) ∧
    (J.RoundTrips → ∀ raw : String,
      ((∃ page, list J state input.query = .ok page ∧ page.nextCursor = some raw) ∨
        ∃ connection, Graphql.cells J state input = .ok connection ∧
          connection.nextCursor = some raw) →
      ∀ (db : Db) (tip : TipHeights), StoredRows db →
        ∃ page connection,
          list J ⟨db, state.config, tip⟩ { input.query with cursor := some raw } = .ok page ∧
          Graphql.cells J ⟨db, state.config, tip⟩ { input with cursor := some raw } =
            .ok connection ∧
          SamePage page connection) := by
  refine ⟨list_agree_cells J h input, ?_⟩
  intro hJ raw hraw db tip hdb
  -- whichever surface returned the cursor, the REST surface did
  have hrest : ∃ page, list J state input.query = .ok page ∧ page.nextCursor = some raw := by
    rcases hraw with hrest | ⟨connection, hconn, hnext⟩
    · exact hrest
    · obtain ⟨page, hpage, hsame⟩ := (list_agree_cells J h input).symm.eq_ok hconn
      exact ⟨page, hpage, hsame.nextCursor.trans hnext⟩
  obtain ⟨page, hpage, hnext⟩ := hrest
  obtain ⟨filter, limit, -, hfilter, hlimit, -⟩ := parses_of_list hpage
  obtain ⟨next, hparse⟩ := parseCursor_of_list hJ h hpage hnext
  obtain ⟨page', hpage', -⟩ :=
    list_page hJ hdb tip { input.query with cursor := some raw } hfilter hlimit hparse
  have hagree : Except.Agree SamePage
      (list J ⟨db, state.config, tip⟩ { input.query with cursor := some raw })
      (Graphql.cells J ⟨db, state.config, tip⟩ { input with cursor := some raw }) :=
    list_agree_cells J hdb { input with cursor := some raw }
  obtain ⟨connection, hconn, hsame⟩ := hagree.eq_ok hpage'
  exact ⟨page', connection, hpage', hconn, hsame⟩

namespace Sample

/-- The sample request, over GraphQL. -/
def input : Graphql.CellsInput where
  lockHash := request.lockHash
  typeHash := none
  isLive := none
  limit := some 1
  cursor := none
  includeData := some true

/-- The cursor after the newest cell of the left branch. -/
def firstCursor : String := encodeCellsCursor CompactJson.lib ⟨2, (H256.rep 0xa2).bytes, 0⟩

lemma firstCursor_spec :
    (list CompactJson.lib ⟨leftDb, config, tip⟩ input.query).map CellsPage.nextCursor =
      .ok (some firstCursor) := by
  decide +kernel

end Sample

/-- The first page over the left branch, continued after the reorganisation. -/
theorem rest_and_graphql_agree_sample :
    Except.Agree SamePage
      (list CompactJson.lib ⟨Sample.leftDb, Sample.config, Sample.tip⟩ Sample.input.query)
      (Graphql.cells CompactJson.lib ⟨Sample.leftDb, Sample.config, Sample.tip⟩ Sample.input) ∧
    ∃ page connection,
      list CompactJson.lib ⟨Sample.rightDb, Sample.config, Sample.tip⟩
        { Sample.input.query with cursor := some Sample.firstCursor } = .ok page ∧
      Graphql.cells CompactJson.lib ⟨Sample.rightDb, Sample.config, Sample.tip⟩
        { Sample.input with cursor := some Sample.firstCursor } = .ok connection ∧
      SamePage page connection := by
  obtain ⟨hagree, hcursor⟩ := rest_and_graphql_agree CompactJson.lib
    ⟨Sample.leftDb, Sample.config, Sample.tip⟩ Sample.leftDb_valid.toStoredRows Sample.input
  refine ⟨hagree, hcursor CompactJson.roundTrips Sample.firstCursor (Or.inl ?_) Sample.rightDb
    Sample.tip Sample.rightDb_valid.toStoredRows⟩
  obtain ⟨page, hpage, hnext⟩ := Except.map_eq_ok.1 Sample.firstCursor_spec
  exact ⟨page, hpage, hnext⟩

end Api

end Cellora

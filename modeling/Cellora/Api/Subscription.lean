/-
# The subscription to cells

The API listens to the channels of the indexer, passes the events it can read on to a
broadcast channel, and each GraphQL subscription filters what it receives there.  The filter
of `cells` compares texts: the `lockHash` of the subscription with the one in the event.

The indexer writes hashes without the prefix `0x`, and both the query and its answers have
it, so that no text the query accepts passes the filter of the subscription.
-/
import Cellora.Api.Graphql
import Cellora.Indexer.Events

namespace Cellora

namespace Api

open Indexer

/-! ### The listener and the subscriptions -/

/-- `ApiEvent`. -/
inductive ApiEvent where
  | blockMined (event : BlockMinedEvent)
  | cellCreated (event : CellCreatedEvent)
deriving DecidableEq

/-- What `run_event_listener` sends on for a message.  An unreadable payload is logged. -/
def listen (J : EventJson) (m : Message) : Option ApiEvent :=
  match m.channel with
  | .blocks => (J.blockFromStr m.payload).map ApiEvent.blockMined
  | .cells => (J.cellFromStr m.payload).map ApiEvent.cellCreated

/-- `GraphBlockMinedEvent`. -/
structure GraphBlockMinedEvent where
  number : ℤ
  hash : String
  parentHash : String
  timestamp : ℕ
deriving DecidableEq

/-- `GraphCellCreatedEvent`. -/
structure GraphCellCreatedEvent where
  txHash : String
  outputIndex : ℤ
  blockNumber : ℤ
  lockCodeHash : String
  lockHashType : ℤ
  lockArgs : String
  lockHash : String
  typeCodeHash : Option String
  typeHashType : Option ℤ
  typeArgs : Option String
  typeHash : Option String
  capacityShannons : ℤ
deriving DecidableEq

/-- `From<BlockMinedEvent>`. -/
def GraphBlockMinedEvent.ofEvent (e : BlockMinedEvent) : GraphBlockMinedEvent :=
  ⟨e.number, e.hash, e.parentHash, e.timestamp⟩

/-- `From<CellCreatedEvent>`. -/
def GraphCellCreatedEvent.ofEvent (e : CellCreatedEvent) : GraphCellCreatedEvent where
  txHash := e.txHash
  outputIndex := e.outputIndex
  blockNumber := e.blockNumber
  lockCodeHash := e.lockCodeHash
  lockHashType := e.lockHashType
  lockArgs := e.lockArgs
  lockHash := e.lockHash
  typeCodeHash := e.typeCodeHash
  typeHashType := e.typeHashType
  typeArgs := e.typeArgs
  typeHash := e.typeHash
  capacityShannons := e.capacityShannons

namespace SubscriptionRoot

/-- `blocks_latest`, on what `rx.recv()` returns one after the other.  The stream ends with
the first error. -/
def blocksLatest : List (Option ApiEvent) → List GraphBlockMinedEvent
  | [] => []
  | none :: _ => []
  | some (.blockMined block) :: rx => .ofEvent block :: blocksLatest rx
  | some (.cellCreated _) :: rx => blocksLatest rx

/-- `cells`. -/
def cells (lockHash : String) : List (Option ApiEvent) → List GraphCellCreatedEvent
  | [] => []
  | none :: _ => []
  | some (.cellCreated cell) :: rx =>
      if cell.lockHash = lockHash then .ofEvent cell :: cells lockHash rx else cells lockHash rx
  | some (.blockMined _) :: rx => cells lockHash rx

/-- Whatever a subscription yields was received, and has the text it was opened with. -/
lemma exists_of_mem_cells {s : String} {rx : List (Option ApiEvent)} {e : GraphCellCreatedEvent}
    (he : e ∈ cells s rx) :
    ∃ cell, some (.cellCreated cell) ∈ rx ∧ cell.lockHash = s ∧ e = .ofEvent cell := by
  induction rx with
  | nil => exact absurd he List.not_mem_nil
  | cons r rx ih =>
      have hlift : e ∈ cells s rx → ∃ cell, some (.cellCreated cell) ∈ r :: rx ∧
          cell.lockHash = s ∧ e = .ofEvent cell := by
        intro he
        obtain ⟨cell, hmem, hcell⟩ := ih he
        exact ⟨cell, List.mem_cons_of_mem _ hmem, hcell⟩
      rcases r with _ | block | cell
      · exact absurd he List.not_mem_nil
      · exact hlift he
      · rw [cells] at he
        split at he
        · rename_i hs
          rcases List.mem_cons.1 he with rfl | he
          · exact ⟨cell, List.mem_cons_self, hs, rfl⟩
          · exact hlift he
        · exact hlift he

end SubscriptionRoot

/-! ### Two spellings of a hash -/

/-- No text without the prefix is one that `decode_prefixed` reads: `x` is not a digit. -/
lemma encode_ne_of_decodePrefixed {s : String} {h : Bytes} (hs : decodePrefixed s = some h)
    (bytes : Bytes) : Hex.encode bytes ≠ s := by
  rintro rfl
  have hx : 'x' ∈ Hex.encodeChars bytes := by
    rw [decodePrefixed] at hs
    split at hs
    · rename_i body hbody
      rw [Hex.encode, String.toList_ofList] at hbody
      rw [hbody]
      simp
    · exact absurd hs (by simp)
  obtain ⟨n, hn, hdigit⟩ := Hex.exists_digit_of_mem hx
  have hvalue : Hex.value 'x' = some n := by rw [hdigit, Hex.value_digit hn]
  exact absurd hvalue (by simp [Hex.value])

lemma encode_ne_hexPrefixed (bytes bytes' : Bytes) : Hex.encode bytes ≠ hexPrefixed bytes' :=
  encode_ne_of_decodePrefixed (decodePrefixed_encodePrefixed bytes') bytes

/-- A text the query takes for a lock hash is one that `decode_prefixed` reads. -/
lemma decodePrefixed_of_parseFilter {input : Graphql.CellsInput} {s : String} {h : Bytes}
    (hs : input.lockHash = some s) (hq : Graphql.parseFilter input = .ok (.lock h)) :
    decodePrefixed s = some h := by
  unfold Graphql.parseFilter filterOf at hq
  rw [hs] at hq
  rcases htype : input.typeHash with _ | t
  · simp only [htype] at hq
    obtain ⟨bytes, hbytes, heq⟩ := Except.map_eq_ok.1 hq
    obtain rfl : bytes = h := ScriptFilter.lock.inj heq
    rw [scriptHashOf] at hbytes
    split at hbytes
    · exact nomatch hbytes
    · rename_i bytes' hdecode
      split at hbytes
      · exact nomatch hbytes
      · rw [hdecode, Except.ok.inj hbytes]
  · simp only [htype] at hq
    exact nomatch hq

/-! ### What reaches a subscription -/

/-- What a subscription to `s` yields for the message of a cell. -/
def yieldedFor (J : EventJson) (s : String) (cell : CellRow) : List GraphCellCreatedEvent :=
  SubscriptionRoot.cells s (((cellMessage J cell).toList.filterMap (listen J)).map some)

/-- The query `cells` shows the row the indexer wrote for `cell` as `g`.  The row may have
been spent in the meantime. -/
def ShownAs (cell : CellRow) (g : Graphql.GraphCell) : Prop :=
  ∃ (c : CellRecord) (blockHash : Bytes) (includeData : Bool) (network : Network),
    c.restore = CellRecord.ofRow cell ∧
      Graphql.renderCell includeData network (c.withBlock blockHash) = .ok g

/-- An event the API can receive when the indexer has published the given blocks. -/
def Received (J : EventJson) (history : List (BlockRow × List CellRow)) (event : ApiEvent) :
    Prop :=
  ∃ p ∈ history, ∃ m ∈ publishBlockAndCells J p.1 p.2, listen J m = some event

section Delivery

variable {J : EventJson} (hJ : J.ReadsBack)
include hJ

/-- The text of the event of a cell is read back as that event. -/
lemma listen_of_cellMessage {cell : CellRow} {m : Message} {event : ApiEvent}
    (hm : cellMessage J cell = some m) (hl : listen J m = some event) :
    event = .cellCreated (cellEvent cell) := by
  obtain ⟨payload, hpayload, rfl⟩ := Option.map_eq_some_iff.1 hm
  obtain ⟨e, he, rfl⟩ := Option.map_eq_some_iff.1 hl
  rw [hJ hpayload he]

/-- A cell event that is received is the event of a published cell. -/
lemma exists_cell_of_received {history : List (BlockRow × List CellRow)} {e : CellCreatedEvent}
    (he : Received J history (.cellCreated e)) : ∃ cell, e = cellEvent cell := by
  obtain ⟨p, -, m, hm, hl⟩ := he
  rcases mem_publishBlockAndCells hm with ⟨payload, -, rfl⟩ | ⟨cell, -, payload, hcell, rfl⟩
  · obtain ⟨b, -, hb⟩ := Option.map_eq_some_iff.1 hl
    exact nomatch hb
  · obtain ⟨e', he', heq⟩ := Option.map_eq_some_iff.1 hl
    obtain rfl : e' = e := ApiEvent.cellCreated.inj heq
    exact ⟨cell, hJ hcell he'⟩

/-- A subscription yields the event of a cell only if it was opened with the digits of the
lock hash, without a prefix. -/
lemma encode_eq_of_mem_yieldedFor {s : String} {cell : CellRow} {e : GraphCellCreatedEvent}
    (he : e ∈ yieldedFor J s cell) : Hex.encode cell.lockHash = s := by
  obtain ⟨event, hevent, hs, -⟩ := SubscriptionRoot.exists_of_mem_cells he
  obtain ⟨api, hapi, heq⟩ := List.mem_map.1 hevent
  obtain rfl : api = .cellCreated event := Option.some.inj heq
  obtain ⟨m, hm, hl⟩ := List.mem_filterMap.1 hapi
  have hcell := listen_of_cellMessage hJ (Option.mem_toList.1 hm) hl
  rw [ApiEvent.cellCreated.inj hcell] at hs
  exact hs

/-- Nothing the indexer publishes passes the filter of a text that the query accepts. -/
lemma cells_of_received {history : List (BlockRow × List CellRow)} {rx : List (Option ApiEvent)}
    (hrx : ∀ event, some event ∈ rx → Received J history event) {s : String} {h : Bytes}
    (hs : decodePrefixed s = some h) : SubscriptionRoot.cells s rx = [] := by
  rw [List.eq_nil_iff_forall_not_mem]
  intro e he
  obtain ⟨event, hevent, hlock, -⟩ := SubscriptionRoot.exists_of_mem_cells he
  -- it would have the digits of a lock hash for its text, which has no prefix
  obtain ⟨cell, rfl⟩ := exists_cell_of_received hJ (hrx _ hevent)
  exact encode_ne_of_decodePrefixed hs _ hlock

end Delivery

/-- The hashes of the event of a cell are written differently from those in a page. -/
lemma hashes_ne_of_shownAs {cell : CellRow} {g : Graphql.GraphCell} (hg : ShownAs cell g) :
    (cellEvent cell).txHash ≠ g.txHash ∧ (cellEvent cell).lockHash ≠ g.lockHash ∧
      (cellEvent cell).lockCodeHash ≠ g.lock.codeHash ∧
      ((cellEvent cell).typeHash = g.typeHash ↔ cell.typeHash = none) := by
  obtain ⟨c, blockHash, includeData, network, hc, hrender⟩ := hg
  have htype : c.typeHash = cell.typeHash := congrArg CellRecord.typeHash hc
  obtain ⟨lock, hscript, hrest⟩ := Except.bind_eq_ok.1 hrender
  obtain ⟨label, -, hlabel⟩ := Except.bind_eq_ok.1 hscript
  obtain ⟨typeScript, -, hok⟩ := Except.bind_eq_ok.1 hrest
  obtain rfl := Except.ok.inj hok
  obtain rfl := Except.ok.inj hlabel
  refine ⟨?_, ?_, ?_, ?_⟩
  · exact encode_ne_hexPrefixed _ _
  · exact encode_ne_hexPrefixed _ _
  · exact encode_ne_hexPrefixed _ _
  · show cell.typeHash.map Hex.encode = c.typeHash.map hexPrefixed ↔ cell.typeHash = none
    rw [htype]
    cases cell.typeHash with
    | none => simp
    | some h => simpa using encode_ne_hexPrefixed h h

/-- For no hash `h`, text `s` that the query decodes to `h` and cell with the lock hash `h`
does a subscription to `s` yield the event of the cell, and the hashes of the event are all
written differently from those the query shows.  No event of another lock hash is yielded
either; whatever the indexer publishes, the stream stays empty. -/
theorem subscription_never_agrees_with_query {J : EventJson} (hJ : J.ReadsBack)
    {input : Graphql.CellsInput} {s : String} {h : Bytes} (hs : input.lockHash = some s)
    (hq : Graphql.parseFilter input = .ok (.lock h)) :
    (∀ cell, cell.lockHash = h → yieldedFor J s cell = []) ∧
      (∀ cell g, cell.lockHash = h → ShownAs cell g →
        (cellEvent cell).txHash ≠ g.txHash ∧ (cellEvent cell).lockHash ≠ g.lockHash ∧
          (cellEvent cell).lockCodeHash ≠ g.lock.codeHash ∧
          ((cellEvent cell).typeHash = g.typeHash ↔ cell.typeHash = none)) ∧
      (∀ cell, cell.lockHash ≠ h → yieldedFor J s cell = []) ∧
      ∀ history rx, (∀ event, some event ∈ rx → Received J history event) →
        SubscriptionRoot.cells s rx = [] := by
  have hdecode := decodePrefixed_of_parseFilter hs hq
  have hnil : ∀ cell, yieldedFor J s cell = [] := by
    intro cell
    rw [List.eq_nil_iff_forall_not_mem]
    intro e he
    exact encode_ne_of_decodePrefixed hdecode _ (encode_eq_of_mem_yieldedFor hJ he)
  exact ⟨fun cell _ => hnil cell, fun cell g _ hg => hashes_ne_of_shownAs hg,
    fun cell _ => hnil cell, fun history rx hrx => cells_of_received hJ hrx hdecode⟩

/-! ### A cell nobody is told about -/

namespace SubscriptionSample

/-- The lock hash 0x1111…11. -/
def lockHash : Bytes := List.replicate 32 0x11

/-- The text the query accepts for it. -/
def lockText : String := hexPrefixed lockHash

/-- A cell with that lock hash. -/
def cell : CellRow where
  txHash := List.replicate 32 0x22
  outputIndex := 0
  blockNumber := 7
  capacityShannons := 6100000000
  lockCodeHash := List.replicate 32 0x33
  lockHashType := .type
  lockArgs := [0xab]
  lockHash := lockHash
  typeCodeHash := none
  typeHashType := none
  typeArgs := none
  typeHash := none
  data := []

/-- The JSON text of its event. -/
def payload : String :=
  let e := cellEvent cell
  "\x7b\"tx_hash\":\"" ++ e.txHash ++ "\",\"output_index\":0,\"block_number\":7," ++
    "\"lock_code_hash\":\"" ++ e.lockCodeHash ++ "\",\"lock_hash_type\":1," ++
    "\"lock_args\":\"ab\",\"lock_hash\":\"" ++ e.lockHash ++ "\"," ++
    "\"type_code_hash\":null,\"type_hash_type\":null,\"type_args\":null," ++
    "\"type_hash\":null,\"capacity_shannons\":6100000000\x7d"

/-- `serde_json` on that event. -/
def json : EventJson where
  blockToString := fun _ => none
  blockFromStr := fun _ => none
  cellToString := fun e => if e = cellEvent cell then some payload else none
  cellFromStr := fun p => if p = payload then some (cellEvent cell) else none

lemma json_readsBack : json.ReadsBack := by
  intro e e' p hto hfrom
  obtain ⟨rfl, -⟩ := Option.ite_none_right_eq_some.1 hto
  obtain ⟨-, he⟩ := Option.ite_none_right_eq_some.1 hfrom
  exact (Option.some.inj he).symm

/-- The query by that lock hash. -/
def input : Graphql.CellsInput := ⟨some lockText, none, none, none, none, none⟩

lemma parseFilter_input : Graphql.parseFilter input = .ok (.lock lockHash) := by
  have hdecode : decodePrefixed lockText = some lockHash :=
    decodePrefixed_encodePrefixed lockHash
  have hlength : lockHash.length = 32 := List.length_replicate
  show ScriptFilter.lock <$> scriptHashOf GraphqlError.mk "lockHash" lockText = _
  rw [scriptHashOf, hdecode]
  simp only [hlength]
  rfl

end SubscriptionSample

section Sample

open SubscriptionSample

theorem subscription_never_agrees_with_query_sample :
    yieldedFor json lockText cell = [] :=
  (subscription_never_agrees_with_query json_readsBack rfl parseFilter_input).1 cell rfl

/-- The query accepts the text and decodes it to the lock hash of the cell, the message of
the cell is published and read, and the subscription to the text does not yield it. -/
theorem subscription_misses_queried_cell :
    Graphql.parseFilter input = .ok (.lock cell.lockHash) ∧
      (cellMessage json cell).bind (listen json) = some (.cellCreated (cellEvent cell)) ∧
      yieldedFor json lockText cell = [] ∧
      (cellEvent cell).lockHash ≠ hexPrefixed cell.lockHash := by
  have hmessage : cellMessage json cell = some ⟨.cells, payload⟩ := by
    simp [cellMessage, json]
  have hlisten : listen json ⟨.cells, payload⟩ = some (.cellCreated (cellEvent cell)) := by
    simp [listen, json]
  have hne : (cellEvent cell).lockHash ≠ lockText := encode_ne_hexPrefixed _ _
  refine ⟨parseFilter_input, ?_, ?_, hne⟩
  · rw [hmessage, Option.bind_some, hlisten]
  · simp only [yieldedFor, hmessage, Option.toList_some, List.filterMap_cons_some hlisten,
      List.filterMap_nil, List.map_cons, List.map_nil, SubscriptionRoot.cells, if_neg hne]

end Sample

end Api

end Cellora

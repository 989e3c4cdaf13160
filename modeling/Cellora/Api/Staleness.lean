/-
# How stale an authentication can be

A revoked or rotated key is answered from the cache until its entry expires, which the
handlers of the rotation and of the revocation document as a budget of one time to live.
The bound holds in every run in which no row is revoked or rotated between the read and the
insert of a request, and fails by the time between the two otherwise.
-/
import Cellora.Api.Auth
import Mathlib.Tactic.IntervalCases

namespace Cellora

namespace Api

section Validity

variable (A : Argon2Lib) (ttl : ℕ)

/-- The row authenticates the bearer: it is not revoked, it has the prefix of the bearer,
and its hash matches the secret. -/
def RowMatches (bearer : String) (row : ApiKey) : Prop :=
  row.revokedAt = none ∧
    match splitBearer bearer with
    | .error _ => False
    | .ok (keyPrefix, secret) =>
        row.keyPrefix = keyPrefix ∧ Keys.verify A secret row.secretHash = .ok ()

instance (bearer : String) (row : ApiKey) : Decidable (RowMatches A bearer row) :=
  match h : splitBearer bearer with
  | .error _ => isFalse fun hrow => by simp [RowMatches, h] at hrow
  | .ok (keyPrefix, secret) =>
      decidable_of_iff (row.revokedAt = none ∧ row.keyPrefix = keyPrefix ∧
        Keys.verify A secret row.secretHash = .ok ()) (by simp only [RowMatches, h])

/-- The bearer is valid in the database. -/
def ValidBearer (bearer : String) (rows : List ApiKey) : Prop :=
  ∃ row ∈ rows, RowMatches A bearer row

instance (bearer : String) (rows : List ApiKey) : Decidable (ValidBearer A bearer rows) :=
  inferInstanceAs (Decidable (∃ row ∈ rows, RowMatches A bearer row))

/-- The move answers a request that presents the bearer with success. -/
def Authenticates (w : World) (m : AuthMove) (bearer : String) : Prop :=
  ∃ (r : ℕ) (key : AuthenticatedKey),
    w.requests[r]? ≠ some ⟨bearer, .answered (.ok key)⟩ ∧
      (w.exec A ttl m).requests[r]? = some ⟨bearer, .answered (.ok key)⟩

/-- **The staleness budget.**  Whenever a bearer is authenticated in the run, it was valid in
the database not longer than the time to live ago. -/
def StalenessBounded (w₀ : World) (ms : List AuthMove) : Prop :=
  ∀ k m bearer, ms[k]? = some m →
    Authenticates A ttl (Machine.before (World.exec A ttl) w₀ ms k) m bearer →
    ∃ j ≤ k,
      (Machine.before (World.exec A ttl) w₀ ms k).clock ≤
        (Machine.before (World.exec A ttl) w₀ ms j).clock + ttl ∧
      ValidBearer A bearer (Machine.before (World.exec A ttl) w₀ ms j).apiKeys

/-- The move does not insert a bearer into the cache that is no longer valid. -/
def FreshInsert (w : World) : AuthMove → Prop
  | .advance r _ => ∀ bearer row, w.requests[r]? = some ⟨bearer, .verified row⟩ →
      ValidBearer A bearer w.apiKeys
  | _ => True

/-- All inserts of the run are fresh. -/
def FreshInserts (w₀ : World) (ms : List AuthMove) : Prop :=
  ∀ k m, ms[k]? = some m → FreshInsert A (Machine.before (World.exec A ttl) w₀ ms k) m

end Validity

/-! ### One move -/

section Move

variable {A : Argon2Lib} {ttl : ℕ} {w : World} {m : AuthMove} {bearer : String}

/-- A bearer is authenticated by a hit in the cache, or by the last action of a request that
was verified. -/
lemma authenticates_cases (h : Authenticates A ttl w m bearer) :
    (∃ e ∈ w.cache, e.bearer = bearer ∧ w.clock < e.insertedAt + ttl) ∨
      ∃ r fault row, m = .advance r fault ∧
        w.requests[r]? = some ⟨bearer, .verified row⟩ := by
  obtain ⟨r', key, hbefore, hafter⟩ := h
  rcases exec_cases A ttl w m with ⟨r, fault, rfl, hadv⟩ | ⟨-, hreqs | ⟨b, hreqs⟩⟩
  · generalize w.exec A ttl (.advance r fault) = w' at hadv hafter
    -- the request that is answered is the one that moved
    cases hadv with
    | idle => exact absurd hafter hbefore
    | hit hreq hget =>
        rcases getElem?_of_set hafter with h | ⟨rfl, h⟩
        · exact absurd h hbefore
        · cases h
          exact Or.inl (AuthCache.exists_of_get hget)
    | miss hreq =>
        rcases getElem?_of_set hafter with h | ⟨rfl, h⟩
        · exact absurd h hbefore
        · cases h
    | read hreq =>
        rcases getElem?_of_set hafter with h | ⟨rfl, h⟩
        · exact absurd h hbefore
        · exact absurd (congrArg Request.stage h) (readStage_ne_ok _ _ _ _)
    | verify hreq =>
        rcases getElem?_of_set hafter with h | ⟨rfl, h⟩
        · exact absurd h hbefore
        · exact absurd (congrArg Request.stage h) (verifyStage_ne_ok _ _ _)
    | insert hreq =>
        rcases getElem?_of_set hafter with h | ⟨rfl, h⟩
        · exact absurd h hbefore
        · cases h
          exact Or.inr ⟨_, fault, _, rfl, hreq⟩
  · rw [hreqs] at hafter
    exact absurd hafter hbefore
  · rw [hreqs, List.getElem?_append] at hafter
    split at hafter
    · exact absurd hafter hbefore
    · have hmem := List.mem_of_getElem? hafter
      simp at hmem

end Move

/-! ### Undisturbed requests -/

/-- The row that a request has read and not yet answered for. -/
def Stage.row? : Stage → Option ApiKey
  | .found row => some row
  | .verified row => some row
  | _ => none

/-- The move revokes or rotates no row that a request has read and not yet answered for. -/
def Undisturbed (w : World) : AuthMove → Prop
  | .revoke keyPrefix => ∀ req ∈ w.requests, ∀ row ∈ req.stage.row?, row.keyPrefix ≠ keyPrefix
  | .revokeForUser id _ => ∀ req ∈ w.requests, ∀ row ∈ req.stage.row?, row.id ≠ id
  | .rotateForUser id _ _ _ => ∀ req ∈ w.requests, ∀ row ∈ req.stage.row?, row.id ≠ id
  | _ => True

instance (w : World) (m : AuthMove) : Decidable (Undisturbed w m) :=
  match m with
  | .revoke keyPrefix =>
      inferInstanceAs (Decidable (∀ req ∈ w.requests, ∀ row ∈ req.stage.row?,
        row.keyPrefix ≠ keyPrefix))
  | .revokeForUser id _ =>
      inferInstanceAs (Decidable (∀ req ∈ w.requests, ∀ row ∈ req.stage.row?, row.id ≠ id))
  | .rotateForUser id _ _ _ =>
      inferInstanceAs (Decidable (∀ req ∈ w.requests, ∀ row ∈ req.stage.row?, row.id ≠ id))
  | .tick _ | .request _ | .advance _ _ | .evict _ | .touch _ | .insertKey _ _ _ _ _ _ =>
      isTrue trivial

/-- The key of the row is in the table, active and with the same secret. -/
def StillActive (rows : List ApiKey) (row : ApiKey) : Prop :=
  ∃ row' ∈ rows, row'.revokedAt = none ∧ row'.id = row.id ∧ row'.keyPrefix = row.keyPrefix ∧
    row'.secretHash = row.secretHash

/-- What the stage of a request has established about its bearer still holds. -/
def Request.Backed (A : Argon2Lib) (rows : List ApiKey) (req : Request) : Prop :=
  match req.stage with
  | .found row =>
      StillActive rows row ∧ ∃ secret, splitBearer req.bearer = .ok (row.keyPrefix, secret)
  | .verified row =>
      StillActive rows row ∧ ∃ secret, splitBearer req.bearer = .ok (row.keyPrefix, secret) ∧
        Keys.verify A secret row.secretHash = .ok ()
  | _ => True

section Undisturbed

variable {A : Argon2Lib} {ttl : ℕ} {w : World} {m : AuthMove} {bearer : String}

/-- An update of the rows that leaves the active row of a key as it is. -/
lemma StillActive.map {rows : List ApiKey} {row : ApiKey} {f : ApiKey → ApiKey}
    (h : StillActive rows row)
    (hf : ∀ row', row'.revokedAt = none → row'.id = row.id → row'.keyPrefix = row.keyPrefix →
      (f row').revokedAt = row'.revokedAt ∧ (f row').id = row'.id ∧
        (f row').keyPrefix = row'.keyPrefix ∧ (f row').secretHash = row'.secretHash) :
    StillActive (rows.map f) row := by
  obtain ⟨row', hmem, hactive, hid, hpre, hhash⟩ := h
  obtain ⟨hrevoked, hid', hpre', hhash'⟩ := hf row' hactive hid hpre
  exact ⟨f row', List.mem_map_of_mem hmem, hrevoked.trans hactive, hid'.trans hid,
    hpre'.trans hpre, hhash'.trans hhash⟩

/-- A conditional update does not touch the active row of a key that fails its condition. -/
lemma StillActive.map_ite {rows : List ApiKey} {row : ApiKey} {c : ApiKey → Bool}
    {g : ApiKey → ApiKey} (h : StillActive rows row)
    (hc : ∀ row', row'.id = row.id → row'.keyPrefix = row.keyPrefix → c row' = false) :
    StillActive (rows.map fun row' => if c row' then g row' else row') row := by
  refine h.map fun row' _ hid hpre => ?_
  simp [hc row' hid hpre]

/-- The table still has the key of a row that no request disturbs. -/
lemma StillActive.exec {req : Request} {row : ApiKey} (hreq : req ∈ w.requests)
    (hrow : row ∈ req.stage.row?) (hm : Undisturbed w m) (h : StillActive w.apiKeys row) :
    StillActive (w.exec A ttl m).apiKeys row := by
  cases m with
  | tick elapsed => exact h
  | request b => exact h
  | evict b => exact h
  | advance r fault =>
      have hadv := advanced A ttl w r fault
      change StillActive (w.advance A ttl r fault).apiKeys row
      generalize w.advance A ttl r fault = w' at hadv
      cases hadv <;> exact h
  | touch i =>
      rw [World.exec]
      split
      · exact h
      · refine h.map fun row' _ _ _ => ?_
        split <;> exact ⟨rfl, rfl, rfl, rfl⟩
  | insertKey id userId keyPrefix secretHash tier label =>
      rw [World.exec, ApiKeys.insert]
      split_ifs
      · exact h
      · exact h
      · obtain ⟨row', hmem, h'⟩ := h
        exact ⟨row', List.mem_append_left _ hmem, h'⟩
  | rotateForUser id userId newPrefix newSecretHash =>
      have hid : row.id ≠ id := hm req hreq row hrow
      rw [World.exec, ApiKeys.rotateForUser]
      cases hfind : w.apiKeys.find? (ApiKeys.rotates id userId) with
      | none => exact h
      | some found =>
          by_cases htaken :
              newPrefix ∈ (w.apiKeys.filter fun r => r.id ≠ id).map ApiKey.keyPrefix
          · simp only [if_pos htaken]
            exact h
          · simp only [if_neg htaken]
            refine h.map_ite fun row' hid' _ => ?_
            simp [ApiKeys.rotates, hid', hid]
  | revokeForUser id userId =>
      have hid : row.id ≠ id := hm req hreq row hrow
      refine h.map_ite fun row' hid' _ => ?_
      simp [hid', hid]
  | revoke keyPrefix =>
      have hpre : row.keyPrefix ≠ keyPrefix := hm req hreq row hrow
      refine h.map_ite fun row' _ hpre' => ?_
      simp [hpre', hpre]

/-- A request is backed as long as the row it has read is. -/
lemma Request.Backed.of_stillActive {rows rows' : List ApiKey} {req : Request}
    (h : req.Backed A rows)
    (hrows : ∀ row ∈ req.stage.row?, StillActive rows row → StillActive rows' row) :
    req.Backed A rows' := by
  obtain ⟨b, stage⟩ := req
  cases stage with
  | arrived => trivial
  | missed => trivial
  | found row => exact ⟨hrows row rfl h.1, h.2⟩
  | verified row => exact ⟨hrows row rfl h.1, h.2⟩
  | answered result => trivial

/-- A row that is read is active. -/
lemma backed_readStage (A : Argon2Lib) (fault : Option String) (bearer : String)
    (rows : List ApiKey) : Request.Backed A rows ⟨bearer, readStage fault bearer rows⟩ := by
  unfold readStage
  cases hsplit : splitBearer bearer with
  | error e => trivial
  | ok halves =>
      obtain ⟨keyPrefix, secret⟩ := halves
      cases fault with
      | some message => trivial
      | none =>
          cases hfind : ApiKeys.findActiveByPrefix keyPrefix rows with
          | none =>
              simp only [hfind]
              trivial
          | some row =>
              simp only [hfind]
              obtain ⟨hmem, hpre, hactive⟩ := ApiKeys.mem_of_findActiveByPrefix hfind
              exact ⟨⟨row, hmem, hactive, rfl, rfl, rfl⟩, secret, by rw [hsplit, hpre]⟩

/-- A row that is verified matches the secret. -/
lemma backed_verifyStage {rows : List ApiKey} {row : ApiKey}
    (h : Request.Backed A rows ⟨bearer, .found row⟩) :
    Request.Backed A rows ⟨bearer, verifyStage A bearer row⟩ := by
  obtain ⟨hactive, secret, hsplit⟩ := h
  simp only [verifyStage, hsplit]
  cases hverify : Keys.verify A secret row.secretHash with
  | error e => trivial
  | ok u => exact ⟨hactive, secret, hsplit, hverify⟩

/-- A verified request that is backed has a valid bearer. -/
lemma Request.Backed.validBearer {rows : List ApiKey} {row : ApiKey}
    (h : Request.Backed A rows ⟨bearer, .verified row⟩) : ValidBearer A bearer rows := by
  obtain ⟨⟨row', hmem, hactive, -, hpre, hhash⟩, secret, hsplit, hverify⟩ := h
  refine ⟨row', hmem, hactive, ?_⟩
  rw [hsplit]
  exact ⟨hpre, by rw [hhash]; exact hverify⟩

/-- **One undisturbed move keeps every request backed.** -/
lemma backed_exec (hm : Undisturbed w m) (h : ∀ req ∈ w.requests, req.Backed A w.apiKeys) :
    ∀ req ∈ (w.exec A ttl m).requests, req.Backed A (w.exec A ttl m).apiKeys := by
  -- a request that did not move keeps what it has, as its row is still active
  have hold : ∀ req ∈ w.requests, req.Backed A (w.exec A ttl m).apiKeys := fun req hreq =>
    (h req hreq).of_stillActive fun row hrow => StillActive.exec hreq hrow hm
  intro req hreq
  rcases exec_cases A ttl w m with ⟨r, fault, rfl, hadv⟩ | ⟨-, hreqs | ⟨b, hreqs⟩⟩
  · generalize w.exec A ttl (.advance r fault) = w' at hadv hreq hold ⊢
    cases hadv with
    | idle => exact hold req hreq
    | hit hget hkey =>
        rcases List.mem_or_eq_of_mem_set hreq with hreq | rfl
        · exact hold req hreq
        · trivial
    | miss hget =>
        rcases List.mem_or_eq_of_mem_set hreq with hreq | rfl
        · exact hold req hreq
        · trivial
    | read hget =>
        rcases List.mem_or_eq_of_mem_set hreq with hreq | rfl
        · exact hold req hreq
        · exact backed_readStage A fault _ _
    | verify hget =>
        rcases List.mem_or_eq_of_mem_set hreq with hreq | rfl
        · exact hold req hreq
        · exact backed_verifyStage (hold _ (List.mem_of_getElem? hget))
    | insert hget =>
        rcases List.mem_or_eq_of_mem_set hreq with hreq | rfl
        · exact hold req hreq
        · trivial
  · rw [hreqs] at hreq
    exact hold req hreq
  · rw [hreqs] at hreq
    rcases List.mem_append.1 hreq with hreq | hreq
    · exact hold req hreq
    · rw [List.mem_singleton.1 hreq]
      trivial

end Undisturbed

/-! ### Whole runs -/

section Runs

variable {A : Argon2Lib} {ttl : ℕ} {w₀ : World} {ms : List AuthMove}

/-- Every entry of the cache was inserted at a position up to `k` where its bearer was
valid. -/
def Supported (A : Argon2Lib) (ttl : ℕ) (w₀ : World) (ms : List AuthMove) (k : ℕ)
    (w : World) : Prop :=
  ∀ e ∈ w.cache, ∃ j ≤ k,
    (Machine.before (World.exec A ttl) w₀ ms j).clock = e.insertedAt ∧
    ValidBearer A e.bearer (Machine.before (World.exec A ttl) w₀ ms j).apiKeys

lemma Supported.later {k : ℕ} {w : World} (h : Supported A ttl w₀ ms k w) :
    Supported A ttl w₀ ms (k + 1) w := by
  intro e he
  obtain ⟨j, hj, hclock, hvalid⟩ := h e he
  exact ⟨j, by omega, hclock, hvalid⟩

/-- **Fresh inserts keep the cache supported.** -/
lemma supported (clock : ℕ) (rows : List ApiKey)
    (hfresh : FreshInserts A ttl (World.start clock rows) ms) (k : ℕ) :
    Supported A ttl (World.start clock rows) ms k
      (Machine.before (World.exec A ttl) (World.start clock rows) ms k) := by
  refine Machine.before_induction (World.exec A ttl) (Supported A ttl _ ms) ?_ ?_ ?_ k
  · intro e he
    exact absurd he List.not_mem_nil
  · intro k m hm h e he
    rcases mem_cache_exec he with he | ⟨r, fault, row, rfl, hreq, hat⟩
    · exact h.later e he
    · exact ⟨k, by omega, hat.symm, hfresh k _ hm e.bearer row hreq⟩
  · intro k w h
    exact h.later

/-- **Undisturbed runs make fresh inserts only.**  If nothing revokes or rotates a row between
the read and the insert of a request, then whatever is inserted is still valid. -/
theorem freshInserts_of_undisturbed (A : Argon2Lib) (ttl clock : ℕ) (rows : List ApiKey)
    (hms : ∀ k m, ms[k]? = some m →
      Undisturbed (Machine.before (World.exec A ttl) (World.start clock rows) ms k) m) :
    FreshInserts A ttl (World.start clock rows) ms := by
  have hbacked : ∀ k, ∀ req ∈
      (Machine.before (World.exec A ttl) (World.start clock rows) ms k).requests,
      req.Backed A (Machine.before (World.exec A ttl) (World.start clock rows) ms k).apiKeys := by
    intro k
    refine Machine.before_induction (World.exec A ttl)
      (fun _ w => ∀ req ∈ w.requests, req.Backed A w.apiKeys) ?_ ?_ ?_ k
    · intro req hreq
      exact absurd hreq List.not_mem_nil
    · intro k m hm h
      exact backed_exec (hms k m hm) h
    · intro k w h
      exact h
  intro k m hm
  cases m with
  | advance r fault =>
      intro bearer row hreq
      exact (hbacked k _ (List.mem_of_getElem? hreq)).validBearer
  | _ => trivial

/-- What is authenticated was inserted when it was valid, or is inserted now. -/
lemma FreshInserts.stalenessBounded {clock : ℕ} {rows : List ApiKey}
    (hfresh : FreshInserts A ttl (World.start clock rows) ms) :
    StalenessBounded A ttl (World.start clock rows) ms := by
  intro k m bearer hm hauth
  rcases authenticates_cases hauth with ⟨e, he, rfl, hage⟩ | ⟨r, fault, row, rfl, hreq⟩
  · obtain ⟨j, hj, hclock, hvalid⟩ := supported clock rows hfresh k e he
    exact ⟨j, hj, by omega, hvalid⟩
  · exact ⟨k, le_rfl, by omega, hfresh k _ hm bearer row hreq⟩

/-- **When the staleness budget holds.**  In every run from a start in which nothing revokes or
rotates a row between the read and the insert of a request, each authenticated bearer was valid
in the database not longer than the time to live before.  It is enough that no bearer is
inserted into the cache after it ceased to be valid. -/
theorem stalenessBounded_of_freshInserts (A : Argon2Lib) (ttl clock : ℕ) (rows : List ApiKey)
    (ms : List AuthMove) :
    ((∀ k m, ms[k]? = some m →
        Undisturbed (Machine.before (World.exec A ttl) (World.start clock rows) ms k) m) →
      StalenessBounded A ttl (World.start clock rows) ms) ∧
    (FreshInserts A ttl (World.start clock rows) ms →
      StalenessBounded A ttl (World.start clock rows) ms) := by
  constructor
  · intro hms
    exact (freshInserts_of_undisturbed A ttl clock rows hms).stalenessBounded
  · intro hfresh
    exact hfresh.stalenessBounded

/-- The four moves that let a verified request insert its bearer and then authenticate the
bearer at the last moment before the entry expires. -/
def insertThenHit (ttl r n : ℕ) (bearer : String) : List AuthMove :=
  [.advance r none, .tick (ttl - 1), .request bearer, .advance n none]

/-- The moves after the insert leave the table as it is, and end with a hit. -/
lemma insertThenHit_spec {w : World} {r : ℕ} {bearer : String} {row : ApiKey} (httl : 0 < ttl)
    (hreq : w.requests[r]? = some ⟨bearer, .verified row⟩) :
    (∀ i ≤ 3, (Machine.before (World.exec A ttl) w
      (insertThenHit ttl r w.requests.length bearer) i).apiKeys = w.apiKeys) ∧
    (Machine.before (World.exec A ttl) w
      (insertThenHit ttl r w.requests.length bearer) 3).clock = w.clock + (ttl - 1) ∧
    Authenticates A ttl (Machine.before (World.exec A ttl) w
      (insertThenHit ttl r w.requests.length bearer) 3) (.advance w.requests.length none)
      bearer := by
  have hinsert := advance_verified A ttl hreq none
  refine ⟨?_, ?_, w.requests.length, resolved row, ?_, ?_⟩
  · intro i hi
    interval_cases i <;> simp [Machine.before, insertThenHit, World.exec, hinsert]
  · simp [Machine.before, insertThenHit, World.exec, hinsert]
  · simp [Machine.before, insertThenHit, World.exec, hinsert]
  · simp only [Machine.before, insertThenHit, List.take_succ_cons, List.take_zero,
      Machine.run_cons, Machine.run_nil, World.exec, hinsert]
    have hage : w.clock + (ttl - 1) < w.clock + ttl := by omega
    have hget := AuthCache.get_insert hage bearer (resolved row) w.cache
    rw [advance_arrived_of_hit A (by simp) hget]
    simp

/-- **A stale insert can always be used to exceed the budget.**  If a run ends with a verified
request whose bearer was last valid more than one unit of time ago, then the request can
insert the bearer, and a later request authenticates it after the budget has passed. -/
theorem not_stalenessBounded_of_stale {r : ℕ} {bearer : String} {row : ApiKey} (httl : 0 < ttl)
    (hreq : (Machine.run (World.exec A ttl) w₀ ms).requests[r]? =
      some ⟨bearer, .verified row⟩)
    (hstale : ∀ j ≤ ms.length,
      ValidBearer A bearer (Machine.before (World.exec A ttl) w₀ ms j).apiKeys →
      (Machine.before (World.exec A ttl) w₀ ms j).clock + 1 <
        (Machine.run (World.exec A ttl) w₀ ms).clock) :
    ¬ StalenessBounded A ttl w₀ (ms ++ insertThenHit ttl r
      (Machine.run (World.exec A ttl) w₀ ms).requests.length bearer) := by
  intro h
  obtain ⟨hkeys, hclock, hauth⟩ := insertThenHit_spec (A := A) httl hreq
  rw [← Machine.before_append_length_add] at hclock hauth
  obtain ⟨j, hj, hage, hvalid⟩ := h (ms.length + 3) _ bearer
    (by rw [List.getElem?_append_right (by omega), Nat.add_sub_cancel_left]; rfl) hauth
  by_cases hjms : j ≤ ms.length
  · rw [Machine.before_append_of_le _ hjms] at hage hvalid
    have := hstale j hjms hvalid
    omega
  · -- after the end of the run the table does not change any more
    obtain ⟨i, rfl⟩ := Nat.exists_eq_add_of_le (Nat.le_of_not_le hjms)
    rw [Machine.before_append_length_add, hkeys i (by omega)] at hvalid
    have hend : Machine.before (World.exec A ttl) w₀ ms ms.length =
        Machine.run (World.exec A ttl) w₀ ms := by
      rw [Machine.before, List.take_length]
    have := hstale ms.length le_rfl (by rw [hend]; exact hvalid)
    rw [hend] at this
    omega

end Runs

namespace Sample

def secret : String := "00112233445566778899aabbccddeeff"

def secretHash : String :=
  "$argon2id$v=19$m=19456,t=2,p=1$AAECAwQFBgcICQoLDA0ODw$" ++
    "bCbG7IpUyfZJEE3AMeOXN4CpFoZheLQxrMc7NkvaS3c"

def argon2 : Argon2Lib where
  parses phc := phc == secretHash
  verifyPassword s phc := s == secret && phc == secretHash

def bearer : String := "cell_a1b2c3d4_00112233445566778899aabbccddeeff"

def keyRow : ApiKey := ⟨1, 2, "cell_a1b2c3d4", secretHash, .free, none, 0, none, none⟩

/-- A request fills the cache, the key is revoked, and a second request hits. -/
def quickRun : List AuthMove :=
  [.request bearer, .advance 0 none, .advance 0 none, .advance 0 none, .advance 0 none, .tick 1,
    .revoke "cell_a1b2c3d4", .tick 59998, .request bearer, .advance 1 none]

/-- The key is revoked between the read and the insert of the first request. -/
def slowRun : List AuthMove :=
  [.request bearer, .advance 0 none, .advance 0 none, .tick 1, .revoke "cell_a1b2c3d4", .tick 9,
    .advance 0 none, .advance 0 none, .tick 59999, .request bearer, .advance 1 none]

/-- The world before a move of a run. -/
def worldAt (ms : List AuthMove) (k : ℕ) : World :=
  Machine.before (World.exec argon2 60000) (World.start 0 [keyRow]) ms k

lemma quickRun_undisturbed : ∀ k m, quickRun[k]? = some m → Undisturbed (worldAt quickRun k) m := by
  have h : ∀ k (hk : k < quickRun.length), Undisturbed (worldAt quickRun k) quickRun[k] := by
    decide +kernel
  intro k m hm
  obtain ⟨hk, rfl⟩ := List.getElem?_eq_some_iff.1 hm
  exact h k hk

end Sample

/-- One millisecond before its entry expires, a revoked key is still authenticated. -/
theorem stalenessBounded_of_freshInserts_sample :
    Authenticates Sample.argon2 60000
      (Sample.worldAt Sample.quickRun 9) (.advance 1 none) Sample.bearer ∧
    ¬ ValidBearer Sample.argon2 Sample.bearer
      (Sample.worldAt Sample.quickRun 9).apiKeys ∧
    StalenessBounded Sample.argon2 60000 (World.start 0 [Sample.keyRow]) Sample.quickRun := by
  refine ⟨⟨1, resolved Sample.keyRow, ?_, ?_⟩, ?_, ?_⟩
  · decide +kernel
  · decide +kernel
  · decide +kernel
  · exact (stalenessBounded_of_freshInserts Sample.argon2 60000 0 [Sample.keyRow]
      Sample.quickRun).1 Sample.quickRun_undisturbed

/-- **A slow verification exceeds the budget.**  The key is revoked at 1, the request that had
read its row before inserts it into the cache at 10, and at 60009 it is authenticated. -/
theorem slow_verification_exceeds_ttl :
    ¬ StalenessBounded Sample.argon2 60000 (World.start 0 [Sample.keyRow]) Sample.slowRun := by
  intro h
  have hauth : Authenticates Sample.argon2 60000
      (Sample.worldAt Sample.slowRun 10) (.advance 1 none) Sample.bearer := by
    refine ⟨1, resolved Sample.keyRow, ?_, ?_⟩
    · decide +kernel
    · decide +kernel
  obtain ⟨j, hj, hclock, hvalid⟩ := h 10 _ Sample.bearer rfl hauth
  -- the key is valid only up to the revocation, at the first five positions
  have hnone : ∀ j ≤ 10,
      (Sample.worldAt Sample.slowRun 10).clock ≤
        (Sample.worldAt Sample.slowRun j).clock + 60000 →
      ¬ ValidBearer Sample.argon2 Sample.bearer
        (Sample.worldAt Sample.slowRun j).apiKeys := by
    decide +kernel
  exact hnone j hj hclock hvalid

end Api

end Cellora

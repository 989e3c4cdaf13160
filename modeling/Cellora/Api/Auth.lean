/-
# Authentication of requests

`resolve` as the sequence of its atomic actions: look the bearer up in the cache, read the
row of its prefix, verify its secret against the row, and insert into the cache.  The
actions of any number of requests interleave with each other, with the changes of
`api_keys` and with the passage of time.
-/
import Cellora.Api.Hex
import Cellora.Api.Keys
import Cellora.Db.ApiKeys
import Cellora.Lib.Machine

namespace Cellora

namespace Api

/-- What a successful authentication attaches to the request. -/
structure AuthenticatedKey where
  id : Uuid
  keyPrefix : String
  tier : ApiKeyTier
deriving DecidableEq

/-- An entry of the cache. -/
structure CacheEntry where
  bearer : String
  key : AuthenticatedKey
  insertedAt : ℕ
deriving DecidableEq

namespace AuthCache

/-- `AuthCache::get`: an entry is returned before its insertion is `ttl` old. -/
def get (ttl now : ℕ) (bearer : String) (cache : List CacheEntry) : Option AuthenticatedKey :=
  (cache.find? fun e => e.bearer == bearer && decide (now < e.insertedAt + ttl)).map
    CacheEntry.key

/-- `AuthCache::insert`. -/
def insert (now : ℕ) (bearer : String) (key : AuthenticatedKey) (cache : List CacheEntry) :
    List CacheEntry :=
  ⟨bearer, key, now⟩ :: cache.filter fun e => e.bearer ≠ bearer

end AuthCache

/-- How far a request has come in `resolve`. -/
inductive Stage where
  | arrived
  /-- The cache did not have the bearer. -/
  | missed
  /-- The row of the prefix was read. -/
  | found (row : ApiKey)
  /-- The secret matches the hash in the row. -/
  | verified (row : ApiKey)
  | answered (result : Except ApiError AuthenticatedKey)
deriving DecidableEq

/-- A request. -/
structure Request where
  bearer : String
  stage : Stage
deriving DecidableEq

/-- The process, its database and its clock.  The tasks are the spawned updates of
`last_used_at`. -/
structure World where
  clock : ℕ
  apiKeys : List ApiKey
  cache : List CacheEntry
  requests : List Request
  tasks : List String
deriving DecidableEq

/-- A process that has just started. -/
def World.start (clock : ℕ) (apiKeys : List ApiKey) : World := ⟨clock, apiKeys, [], [], []⟩

/-- A move. -/
inductive AuthMove where
  | tick (elapsed : ℕ)
  /-- A request comes in. -/
  | request (bearer : String)
  /-- The next action of a request; if it reads the database, the read may fail. -/
  | advance (r : ℕ) (fault : Option String)
  /-- The cache drops a bearer. -/
  | evict (bearer : String)
  /-- A spawned task runs. -/
  | touch (i : ℕ)
  | insertKey (id userId : Uuid) (keyPrefix secretHash : String) (tier : ApiKeyTier)
      (label : Option String)
  | rotateForUser (id userId : Uuid) (newPrefix newSecretHash : String)
  | revokeForUser (id userId : Uuid)
  | revoke (keyPrefix : String)

/-- What the row of a verified request becomes. -/
def resolved (row : ApiKey) : AuthenticatedKey := ⟨row.id, row.keyPrefix, row.tier⟩

/-- The two halves of a bearer, or the answer of `resolve` if it has none.  A slice that
stops the program ends the request too. -/
def splitBearer (bearer : String) : Except ApiError (String × String) :=
  match Keys.split bearer with
  | none => .error (.internal "panicked")
  | some (.error _) => .error (.unauthorized "bad format")
  | some (.ok halves) => .ok halves

/-- The database read of `resolve`, after the bearer was split. -/
def readStage (fault : Option String) (bearer : String) (rows : List ApiKey) : Stage :=
  match splitBearer bearer with
  | .error e => .answered (.error e)
  | .ok (keyPrefix, _) =>
      match fault with
      | some message => .answered (.error (.internal message))
      | none =>
          match ApiKeys.findActiveByPrefix keyPrefix rows with
          | none => .answered (.error (.unauthorized "unknown prefix"))
          | some row => .found row

/-- The verification of `resolve`. -/
def verifyStage (A : Argon2Lib) (bearer : String) (row : ApiKey) : Stage :=
  match splitBearer bearer with
  | .error e => .answered (.error e)
  | .ok (_, secret) =>
      match Keys.verify A secret row.secretHash with
      | .ok () => .verified row
      | .error _ => .answered (.error (.unauthorized "secret mismatch"))

section Exec

variable (A : Argon2Lib) (ttl : ℕ)

/-- The next action of the request `r`. -/
def World.advance (w : World) (r : ℕ) (fault : Option String) : World :=
  match w.requests[r]? with
  | none => w
  | some ⟨bearer, stage⟩ =>
      match stage with
      | .arrived =>
          match AuthCache.get ttl w.clock bearer w.cache with
          | some key => { w with requests := w.requests.set r ⟨bearer, .answered (.ok key)⟩ }
          | none => { w with requests := w.requests.set r ⟨bearer, .missed⟩ }
      | .missed =>
          { w with requests := w.requests.set r ⟨bearer, readStage fault bearer w.apiKeys⟩ }
      | .found row =>
          { w with requests := w.requests.set r ⟨bearer, verifyStage A bearer row⟩ }
      | .verified row =>
          { w with
            cache := AuthCache.insert w.clock bearer (resolved row) w.cache
            tasks := w.tasks ++ [row.keyPrefix]
            requests := w.requests.set r ⟨bearer, .answered (.ok (resolved row))⟩ }
      | .answered _ => w

/-- One move. -/
def World.exec (w : World) : AuthMove → World
  | .tick elapsed => { w with clock := w.clock + elapsed }
  | .request bearer => { w with requests := w.requests ++ [⟨bearer, .arrived⟩] }
  | .advance r fault => w.advance A ttl r fault
  | .evict bearer => { w with cache := w.cache.filter fun e => e.bearer ≠ bearer }
  | .touch i =>
      match w.tasks[i]? with
      | none => w
      | some keyPrefix =>
          { w with
            apiKeys := ApiKeys.touchLastUsed keyPrefix w.clock w.apiKeys
            tasks := w.tasks.eraseIdx i }
  | .insertKey id userId keyPrefix secretHash tier label =>
      match ApiKeys.insert w.clock id userId keyPrefix secretHash tier label w.apiKeys with
      | .ok (_, rows) => { w with apiKeys := rows }
      | .error _ => w
  | .rotateForUser id userId newPrefix newSecretHash =>
      match ApiKeys.rotateForUser id userId newPrefix newSecretHash w.apiKeys with
      | .ok (_, rows) => { w with apiKeys := rows }
      | .error _ => w
  | .revokeForUser id userId =>
      { w with apiKeys := (ApiKeys.revokeForUser id userId w.clock w.apiKeys).2 }
  | .revoke keyPrefix => { w with apiKeys := (ApiKeys.revoke keyPrefix w.clock w.apiKeys).2 }

end Exec

/-! ### One move -/

section Move

variable {A : Argon2Lib} {ttl : ℕ} {w : World} {m : AuthMove} {bearer : String}

/-- What an action of the request `r` can do. -/
inductive Advanced (A : Argon2Lib) (ttl : ℕ) (w : World) (r : ℕ) (fault : Option String) :
    World → Prop
  | idle : Advanced A ttl w r fault w
  | hit {bearer : String} {key : AuthenticatedKey}
      (hreq : w.requests[r]? = some ⟨bearer, .arrived⟩)
      (hget : AuthCache.get ttl w.clock bearer w.cache = some key) :
      Advanced A ttl w r fault
        { w with requests := w.requests.set r ⟨bearer, .answered (.ok key)⟩ }
  | miss {bearer : String} (hreq : w.requests[r]? = some ⟨bearer, .arrived⟩) :
      Advanced A ttl w r fault { w with requests := w.requests.set r ⟨bearer, .missed⟩ }
  | read {bearer : String} (hreq : w.requests[r]? = some ⟨bearer, .missed⟩) :
      Advanced A ttl w r fault
        { w with requests := w.requests.set r ⟨bearer, readStage fault bearer w.apiKeys⟩ }
  | verify {bearer : String} {row : ApiKey}
      (hreq : w.requests[r]? = some ⟨bearer, .found row⟩) :
      Advanced A ttl w r fault
        { w with requests := w.requests.set r ⟨bearer, verifyStage A bearer row⟩ }
  | insert {bearer : String} {row : ApiKey}
      (hreq : w.requests[r]? = some ⟨bearer, .verified row⟩) :
      Advanced A ttl w r fault
        { w with
          cache := AuthCache.insert w.clock bearer (resolved row) w.cache
          tasks := w.tasks ++ [row.keyPrefix]
          requests := w.requests.set r ⟨bearer, .answered (.ok (resolved row))⟩ }

/-- **Inversion of an action of a request.** -/
lemma advanced (A : Argon2Lib) (ttl : ℕ) (w : World) (r : ℕ) (fault : Option String) :
    Advanced A ttl w r fault (w.advance A ttl r fault) := by
  rw [World.advance]
  cases hreq : w.requests[r]? with
  | none => exact .idle
  | some req =>
      obtain ⟨bearer, stage⟩ := req
      cases stage with
      | arrived =>
          cases hget : AuthCache.get ttl w.clock bearer w.cache with
          | none =>
              simp only [hget]
              exact .miss hreq
          | some key =>
              simp only [hget]
              exact .hit hreq hget
      | missed => exact .read hreq
      | found row => exact .verify hreq
      | verified row => exact .insert hreq
      | answered result => exact .idle

lemma advance_arrived_of_hit (A : Argon2Lib) {r : ℕ} {key : AuthenticatedKey}
    (hreq : w.requests[r]? = some ⟨bearer, .arrived⟩)
    (hget : AuthCache.get ttl w.clock bearer w.cache = some key) (fault : Option String) :
    w.advance A ttl r fault =
      { w with requests := w.requests.set r ⟨bearer, .answered (.ok key)⟩ } := by
  rw [World.advance, hreq]
  simp only [hget]

lemma advance_verified (A : Argon2Lib) (ttl : ℕ) {r : ℕ} {row : ApiKey}
    (hreq : w.requests[r]? = some ⟨bearer, .verified row⟩) (fault : Option String) :
    w.advance A ttl r fault =
      { w with
        cache := AuthCache.insert w.clock bearer (resolved row) w.cache
        tasks := w.tasks ++ [row.keyPrefix]
        requests := w.requests.set r ⟨bearer, .answered (.ok (resolved row))⟩ } := by
  rw [World.advance, hreq]

/-- A hit is an entry of the cache for that bearer that is younger than the time to live. -/
lemma AuthCache.exists_of_get {now : ℕ} {cache : List CacheEntry} {key : AuthenticatedKey}
    (h : AuthCache.get ttl now bearer cache = some key) :
    ∃ e ∈ cache, e.bearer = bearer ∧ now < e.insertedAt + ttl := by
  obtain ⟨e, he, -⟩ := Option.map_eq_some_iff.1 h
  have hcond := List.find?_some he
  simp only [Bool.and_eq_true, beq_iff_eq, decide_eq_true_eq] at hcond
  exact ⟨e, List.mem_of_find?_eq_some he, hcond.1, hcond.2⟩

/-- What was inserted is returned until it is `ttl` old. -/
lemma AuthCache.get_insert {now later : ℕ} (h : later < now + ttl) (bearer : String)
    (key : AuthenticatedKey) (cache : List CacheEntry) :
    AuthCache.get ttl later bearer (AuthCache.insert now bearer key cache) = some key := by
  simp [AuthCache.get, AuthCache.insert, h]

lemma readStage_ne_ok (fault : Option String) (bearer : String) (rows : List ApiKey)
    (key : AuthenticatedKey) : readStage fault bearer rows ≠ .answered (.ok key) := by
  unfold readStage
  split
  · simp
  · split
    · simp
    · split <;> simp

lemma verifyStage_ne_ok (bearer : String) (row : ApiKey) (key : AuthenticatedKey) :
    verifyStage A bearer row ≠ .answered (.ok key) := by
  unfold verifyStage
  split
  · simp
  · split <;> simp

/-- What an update of one element can change. -/
lemma getElem?_of_set {α : Type} {l : List α} {i j : ℕ} {a b : α}
    (h : (l.set i a)[j]? = some b) : l[j]? = some b ∨ (i = j ∧ a = b) := by
  rw [List.getElem?_set] at h
  by_cases hij : i = j
  · by_cases hi : i < l.length
    · right
      rw [if_pos hij, if_pos hi] at h
      exact ⟨hij, Option.some.inj h⟩
    · rw [if_pos hij, if_neg hi] at h
      exact absurd h (by simp)
  · left
    rwa [if_neg hij] at h

/-- **Inversion of a move.**  It is an action of a request, or it leaves the requests that are
there as they are and puts nothing into the cache. -/
lemma exec_cases (A : Argon2Lib) (ttl : ℕ) (w : World) (m : AuthMove) :
    (∃ r fault, m = .advance r fault ∧ Advanced A ttl w r fault (w.exec A ttl m)) ∨
      ((w.exec A ttl m).cache ⊆ w.cache ∧
        ((w.exec A ttl m).requests = w.requests ∨
          ∃ b, (w.exec A ttl m).requests = w.requests ++ [⟨b, .arrived⟩])) := by
  cases m with
  | advance r fault => exact Or.inl ⟨r, fault, rfl, advanced A ttl w r fault⟩
  | tick elapsed => exact Or.inr ⟨List.Subset.refl _, Or.inl rfl⟩
  | request b => exact Or.inr ⟨List.Subset.refl _, Or.inr ⟨b, rfl⟩⟩
  | evict b => exact Or.inr ⟨fun _ h => List.mem_of_mem_filter h, Or.inl rfl⟩
  | touch i =>
      right
      rw [World.exec]
      split <;> exact ⟨List.Subset.refl _, Or.inl rfl⟩
  | insertKey id userId keyPrefix secretHash tier label =>
      right
      rw [World.exec]
      split <;> exact ⟨List.Subset.refl _, Or.inl rfl⟩
  | rotateForUser id userId newPrefix newSecretHash =>
      right
      rw [World.exec]
      split <;> exact ⟨List.Subset.refl _, Or.inl rfl⟩
  | revokeForUser id userId => exact Or.inr ⟨List.Subset.refl _, Or.inl rfl⟩
  | revoke keyPrefix => exact Or.inr ⟨List.Subset.refl _, Or.inl rfl⟩

/-- An entry of the cache was there before, or the move is the insert of a verified
request. -/
lemma mem_cache_exec {e : CacheEntry} (he : e ∈ (w.exec A ttl m).cache) :
    e ∈ w.cache ∨ ∃ r fault row, m = .advance r fault ∧
      w.requests[r]? = some ⟨e.bearer, .verified row⟩ ∧ e.insertedAt = w.clock := by
  rcases exec_cases A ttl w m with ⟨r, fault, rfl, hadv⟩ | ⟨hcache, -⟩
  · generalize w.exec A ttl (.advance r fault) = w' at hadv he
    cases hadv with
    | idle => exact Or.inl he
    | hit hreq hget => exact Or.inl he
    | miss hreq => exact Or.inl he
    | read hreq => exact Or.inl he
    | verify hreq => exact Or.inl he
    | insert hreq =>
        rcases List.mem_cons.1 he with rfl | he
        · exact Or.inr ⟨r, fault, _, rfl, hreq, rfl⟩
        · exact Or.inl (List.mem_of_mem_filter he)
  · exact Or.inl (hcache he)

end Move

end Api

end Cellora

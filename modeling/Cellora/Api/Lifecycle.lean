/-
# The life of an API key

Keys are inserted, rotated and revoked, and their last use is recorded, by the statements of
`api_keys` in any order.  Every prefix and hash that enters the table comes from a call of
`generate` of its own.  Beside the table the state records which full key was handed out for
which row, the newest first, so that what a bearer authenticates can be compared with it.
-/
import Cellora.Api.Auth

namespace Cellora

namespace Api

/-- The crate accepts exactly the secret that was hashed. -/
def VerifiesExactly (A : Argon2Crate) : Prop :=
  ∀ secret salt phc, A.hashPassword secret salt = .ok phc →
    ∀ s, Keys.verify A.toArgon2Lib s phc = .ok () ↔ s = secret

/-! ### The uncached path of `resolve` -/

/-- The answer of `resolve` to a bearer that is not in the cache, from one read of the table. -/
def resolveUncached (A : Argon2Lib) (bearer : String) (rows : List ApiKey) :
    Except ApiError AuthenticatedKey := do
  let (keyPrefix, secret) ← splitBearer bearer
  match ApiKeys.findActiveByPrefix keyPrefix rows with
  | none => .error (.unauthorized "unknown prefix")
  | some row =>
      match Keys.verify A secret row.secretHash with
      | .error _ => .error (.unauthorized "secret mismatch")
      | .ok () => .ok (resolved row)

section Uncached

variable {A : Argon2Lib} {ttl : ℕ} {w : World} {bearer : String} {rows : List ApiKey}

/-- The stage of a request after the given number of its own actions, without a fault and
with no other move between them. -/
def World.advances (A : Argon2Lib) (ttl : ℕ) (w : World) (r n : ℕ) : World :=
  (fun w => w.advance A ttl r none)^[n] w

lemma advance_missed (A : Argon2Lib) (ttl : ℕ) {r : ℕ}
    (hreq : w.requests[r]? = some ⟨bearer, .missed⟩) :
    (w.advance A ttl r none).requests[r]? = some ⟨bearer, readStage none bearer w.apiKeys⟩ := by
  have hr : r < w.requests.length := (List.getElem?_eq_some_iff.1 hreq).1
  rw [World.advance, hreq]
  exact List.getElem?_set_self hr

lemma advance_found (A : Argon2Lib) (ttl : ℕ) {r : ℕ} {row : ApiKey}
    (hreq : w.requests[r]? = some ⟨bearer, .found row⟩) :
    (w.advance A ttl r none).requests[r]? = some ⟨bearer, verifyStage A bearer row⟩ := by
  have hr : r < w.requests.length := (List.getElem?_eq_some_iff.1 hreq).1
  rw [World.advance, hreq]
  exact List.getElem?_set_self hr

lemma advance_answered {r : ℕ} {result : Except ApiError AuthenticatedKey}
    (hreq : w.requests[r]? = some ⟨bearer, .answered result⟩) : w.advance A ttl r none = w := by
  rw [World.advance, hreq]

lemma advance_of_verified {r : ℕ} {row : ApiKey}
    (hreq : w.requests[r]? = some ⟨bearer, .verified row⟩) :
    (w.advance A ttl r none).requests[r]? = some ⟨bearer, .answered (.ok (resolved row))⟩ := by
  have hr : r < w.requests.length := (List.getElem?_eq_some_iff.1 hreq).1
  rw [advance_verified A ttl hreq]
  exact List.getElem?_set_self hr

/-- **A request that missed the cache is answered by the uncached path.** -/
theorem advances_missed (A : Argon2Lib) (ttl : ℕ) {r : ℕ}
    (hreq : w.requests[r]? = some ⟨bearer, .missed⟩) :
    (w.advances A ttl r 3).requests[r]? =
      some ⟨bearer, .answered (resolveUncached A bearer w.apiKeys)⟩ := by
  have hread := advance_missed A ttl hreq
  change (((w.advance A ttl r none).advance A ttl r none).advance A ttl r none).requests[r]? = _
  rw [readStage] at hread
  cases hsplit : splitBearer bearer with
  | error e =>
      simp only [hsplit] at hread
      rw [advance_answered hread, advance_answered hread, hread, resolveUncached, hsplit]
      rfl
  | ok halves =>
      obtain ⟨keyPrefix, secret⟩ := halves
      simp only [hsplit] at hread
      cases hfind : ApiKeys.findActiveByPrefix keyPrefix w.apiKeys with
      | none =>
          simp only [hfind] at hread
          rw [advance_answered hread, advance_answered hread, hread, resolveUncached, hsplit]
          simp only [bind, Except.bind, hfind]
      | some row =>
          simp only [hfind] at hread
          have hverify := advance_found A ttl hread
          rw [verifyStage] at hverify
          simp only [hsplit] at hverify
          cases hok : Keys.verify A secret row.secretHash with
          | error e =>
              simp only [hok] at hverify
              rw [advance_answered hverify, hverify, resolveUncached, hsplit]
              simp only [bind, Except.bind, hfind, hok]
          | ok u =>
              simp only [hok] at hverify
              rw [advance_of_verified hverify, resolveUncached, hsplit]
              simp only [bind, Except.bind, hfind, hok]

/-- The uncached path succeeds for the active row of the prefix whose hash matches. -/
lemma resolveUncached_eq_ok {key : AuthenticatedKey}
    (h : resolveUncached A bearer rows = .ok key) :
    ∃ secret row, Keys.split bearer = some (.ok (row.keyPrefix, secret)) ∧ row ∈ rows ∧
      row.revokedAt = none ∧ Keys.verify A secret row.secretHash = .ok () ∧
      key = resolved row := by
  rw [resolveUncached] at h
  obtain ⟨⟨keyPrefix, secret⟩, hsplit, h⟩ := Except.bind_eq_ok.1 h
  cases hfind : ApiKeys.findActiveByPrefix keyPrefix rows with
  | none =>
      simp only [hfind] at h
      exact absurd h (by simp)
  | some row =>
      simp only [hfind] at h
      cases hok : Keys.verify A secret row.secretHash with
      | error e =>
          simp only [hok] at h
          exact absurd h (by simp)
      | ok u =>
          simp only [hok] at h
          obtain ⟨hmem, rfl, hactive⟩ := ApiKeys.mem_of_findActiveByPrefix hfind
          refine ⟨secret, row, ?_, hmem, hactive, hok, (Except.ok.inj h).symm⟩
          rw [splitBearer] at hsplit
          split at hsplit
          · exact absurd hsplit (by simp)
          · exact absurd hsplit (by simp)
          · rename_i halves hhalves
            rw [hhalves, Except.ok.inj hsplit]

lemma resolveUncached_of_row {row : ApiKey} {secret : String}
    (hnd : (rows.map ApiKey.keyPrefix).Nodup) (hrow : row ∈ rows)
    (hactive : row.revokedAt = none)
    (hsplit : Keys.split bearer = some (.ok (row.keyPrefix, secret)))
    (hok : Keys.verify A secret row.secretHash = .ok ()) :
    resolveUncached A bearer rows = .ok (resolved row) := by
  have hbearer : splitBearer bearer = .ok (row.keyPrefix, secret) := by
    rw [splitBearer, hsplit]
  rw [resolveUncached, hbearer]
  simp only [bind, Except.bind, ApiKeys.findActiveByPrefix_of_mem hnd hrow hactive, hok]

end Uncached

/-! ### The statements as moves -/

/-- The table, and the full keys that the successful inserts and rotations have handed out,
with the id of their row; the newest comes first. -/
structure KeyStore where
  rows : List ApiKey
  issued : List (Uuid × String)

/-- A statement on `api_keys`.  An insert and a rotation generate a key first; the other
arguments are the time of the statement and what it is called with. -/
inductive KeyMove where
  | insert (now : ℕ) (id userId : Uuid) (draw : KeyDraw) (tier : ApiKeyTier)
      (label : Option String)
  | rotateForUser (id userId : Uuid) (draw : KeyDraw)
  | revokeForUser (now : ℕ) (id userId : Uuid)
  | revoke (now : ℕ) (keyPrefix : String)
  | touchLastUsed (now : ℕ) (keyPrefix : String)

/-- What the move draws. -/
def KeyMove.draw? : KeyMove → Option KeyDraw
  | .insert _ _ _ draw _ _ => some draw
  | .rotateForUser _ _ draw => some draw
  | _ => none

/-- The secrets that the calls of `generate` in a run draw. -/
def secretsOf (ms : List KeyMove) : List (List UInt8) :=
  (ms.filterMap KeyMove.draw?).map KeyDraw.secretBytes

namespace KeyStore

/-- One statement.  A failed one leaves the table as it is. -/
def exec (A : Argon2Crate) (s : KeyStore) : KeyMove → KeyStore
  | .insert now id userId draw tier label =>
      match Keys.generate A draw with
      | .error _ => s
      | .ok key =>
          match ApiKeys.insert now id userId key.keyPrefix key.secretHash tier label s.rows with
          | .ok (row, rows) => ⟨rows, (row.id, key.full) :: s.issued⟩
          | .error _ => s
  | .rotateForUser id userId draw =>
      match Keys.generate A draw with
      | .error _ => s
      | .ok key =>
          match ApiKeys.rotateForUser id userId key.keyPrefix key.secretHash s.rows with
          | .ok (some row, rows) => ⟨rows, (row.id, key.full) :: s.issued⟩
          | .ok (none, rows) => ⟨rows, s.issued⟩
          | .error _ => s
  | .revokeForUser now id userId =>
      { s with rows := (ApiKeys.revokeForUser id userId now s.rows).2 }
  | .revoke now keyPrefix => { s with rows := (ApiKeys.revoke keyPrefix now s.rows).2 }
  | .touchLastUsed now keyPrefix =>
      { s with rows := ApiKeys.touchLastUsed keyPrefix now s.rows }

/-- The empty table. -/
def empty : KeyStore := ⟨[], []⟩

/-- The state before the move at a position of a run. -/
def stateAt (A : Argon2Crate) (ms : List KeyMove) (k : ℕ) : KeyStore :=
  Machine.before (exec A) empty ms k

/-- The full key that the latest successful insert or rotation of a row has returned. -/
def latest (s : KeyStore) (id : Uuid) : Option String :=
  (s.issued.find? fun e => e.1 == id).map Prod.snd

lemma latest_cons (rows : List ApiKey) (issued : List (Uuid × String)) (id : Uuid)
    (full : String) : latest ⟨rows, (id, full) :: issued⟩ id = some full := by
  simp [latest]

lemma latest_cons_of_ne {id id' : Uuid} (h : id' ≠ id) (rows : List ApiKey) (full : String)
    (s : KeyStore) : latest ⟨rows, (id, full) :: s.issued⟩ id' = s.latest id' := by
  simp [latest, h.symm]

lemma mem_issued_of_latest {s : KeyStore} {id : Uuid} {full : String}
    (h : s.latest id = some full) : (id, full) ∈ s.issued := by
  obtain ⟨⟨id', full'⟩, hfind, rfl⟩ := Option.map_eq_some_iff.1 h
  have hid := List.find?_some hfind
  obtain rfl := beq_iff_eq.1 hid
  exact List.mem_of_find?_eq_some hfind

/-- What a statement can do. -/
inductive Stepped (A : Argon2Crate) (s : KeyStore) : KeyMove → KeyStore → Prop
  | refused (m : KeyMove) : Stepped A s m s
  | inserted {now : ℕ} {id userId : Uuid} {draw : KeyDraw} {tier : ApiKeyTier}
      {label : Option String} {key : IssuedKey} (hkey : Keys.IssuedBy A draw key)
      (hid : id ∉ s.rows.map ApiKey.id)
      (hpre : key.keyPrefix ∉ s.rows.map ApiKey.keyPrefix) :
      Stepped A s (.insert now id userId draw tier label)
        ⟨s.rows ++ [⟨id, userId, key.keyPrefix, key.secretHash, tier, label, now, none, none⟩],
          (id, key.full) :: s.issued⟩
  | rotated {id userId : Uuid} {draw : KeyDraw} {key : IssuedKey} {row : ApiKey}
      (hkey : Keys.IssuedBy A draw key) (hrow : row ∈ s.rows)
      (hrot : ApiKeys.rotates id userId row = true)
      (hpre : ∀ r ∈ s.rows, r.id ≠ id → r.keyPrefix ≠ key.keyPrefix) :
      Stepped A s (.rotateForUser id userId draw)
        ⟨s.rows.map fun r => if ApiKeys.rotates id userId r then
            ApiKeys.rotated key.keyPrefix key.secretHash r else r,
          (id, key.full) :: s.issued⟩
  | revoked {m : KeyMove} (matching : ApiKey → Bool) (now : ℕ) :
      Stepped A s m ⟨(ApiKeys.revokeWhere matching now s.rows).2, s.issued⟩
  | touched {now : ℕ} {keyPrefix : String} :
      Stepped A s (.touchLastUsed now keyPrefix)
        ⟨ApiKeys.touchLastUsed keyPrefix now s.rows, s.issued⟩

/-- **Inversion of a statement.** -/
lemma stepped (A : Argon2Crate) (s : KeyStore) (m : KeyMove) : Stepped A s m (s.exec A m) := by
  cases m with
  | revokeForUser now id userId => exact .revoked _ now
  | revoke now keyPrefix => exact .revoked _ now
  | touchLastUsed now keyPrefix => exact .touched
  | insert now id userId draw tier label =>
      rw [exec]
      cases hgen : Keys.generate A draw with
      | error e => exact .refused _
      | ok key =>
          cases hins : ApiKeys.insert now id userId key.keyPrefix key.secretHash tier label
              s.rows with
          | error e =>
              simp only [hins]
              exact .refused _
          | ok result =>
              obtain ⟨row, rows⟩ := result
              obtain ⟨rfl, rfl, hid, hpre⟩ := ApiKeys.insert_eq_ok hins
              simp only [hins]
              exact .inserted (Keys.issuedBy_of_generate hgen) hid hpre
  | rotateForUser id userId draw =>
      rw [exec]
      cases hgen : Keys.generate A draw with
      | error e => exact .refused _
      | ok key =>
          cases hrot : ApiKeys.rotateForUser id userId key.keyPrefix key.secretHash s.rows with
          | error e =>
              simp only [hrot]
              exact .refused _
          | ok result =>
              obtain ⟨row?, rows⟩ := result
              cases row? with
              | none =>
                  obtain rfl := ApiKeys.rotateForUser_eq_none hrot
                  simp only [hrot]
                  exact .refused _
              | some row' =>
                  obtain ⟨⟨row, hrow, hrow', rfl⟩, hpre, rfl⟩ :=
                    ApiKeys.rotateForUser_eq_some hrot
                  have hid : row.id = id := (ApiKeys.rotates_iff.1 hrow').1
                  simp only [hrot, ApiKeys.rotated, hid]
                  exact .rotated (Keys.issuedBy_of_generate hgen) hrow hrow' hpre

end KeyStore

/-! ### Rows keep what they are -/

/-- What a later version of a row has in common with an earlier one. -/
structure Continues (row row' : ApiKey) : Prop where
  id : row'.id = row.id
  userId : row'.userId = row.userId
  tier : row'.tier = row.tier
  label : row'.label = row.label
  createdAt : row'.createdAt = row.createdAt
  revoked : ∀ t, row.revokedAt = some t → row'.revokedAt = some t ∧
    row'.keyPrefix = row.keyPrefix ∧ row'.secretHash = row.secretHash

lemma Continues.refl (row : ApiKey) : Continues row row :=
  ⟨rfl, rfl, rfl, rfl, rfl, fun _ h => ⟨h, rfl, rfl⟩⟩

lemma Continues.trans {a b c : ApiKey} (hab : Continues a b) (hbc : Continues b c) :
    Continues a c := by
  refine ⟨hbc.id.trans hab.id, hbc.userId.trans hab.userId, hbc.tier.trans hab.tier,
    hbc.label.trans hab.label, hbc.createdAt.trans hab.createdAt, fun t ht => ?_⟩
  obtain ⟨hrev, hpre, hhash⟩ := hab.revoked t ht
  obtain ⟨hrev', hpre', hhash'⟩ := hbc.revoked t hrev
  exact ⟨hrev', hpre'.trans hpre, hhash'.trans hhash⟩

/-- An update of an active row that leaves its other columns alone continues it. -/
lemma Continues.of_active {row row' : ApiKey} (hactive : row.revokedAt = none)
    (h : row'.id = row.id ∧ row'.userId = row.userId ∧ row'.tier = row.tier ∧
      row'.label = row.label ∧ row'.createdAt = row.createdAt) : Continues row row' :=
  ⟨h.1, h.2.1, h.2.2.1, h.2.2.2.1, h.2.2.2.2, fun t ht => absurd ht (by simp [hactive])⟩

lemma continues_rotated {id userId : Uuid} {newPrefix newSecretHash : String} (row : ApiKey) :
    Continues row (if ApiKeys.rotates id userId row then
      ApiKeys.rotated newPrefix newSecretHash row else row) := by
  split_ifs with h
  · exact .of_active (ApiKeys.rotates_iff.1 h).2.2 ⟨rfl, rfl, rfl, rfl, rfl⟩
  · exact .refl row

lemma continues_revoked (matching : ApiKey → Bool) (now : ℕ) (row : ApiKey) :
    Continues row
      (if matching row && !row.isRevoked then { row with revokedAt := some now } else row) := by
  split_ifs with h
  · simp only [ApiKey.isRevoked, Bool.and_eq_true, Bool.not_eq_true', Option.isSome_eq_false_iff,
      Option.isNone_iff_eq_none] at h
    exact .of_active h.2 ⟨rfl, rfl, rfl, rfl, rfl⟩
  · exact .refl row

lemma continues_touched (keyPrefix : String) (now : ℕ) (row : ApiKey) :
    Continues row
      (if row.keyPrefix = keyPrefix then { row with lastUsedAt := some now } else row) := by
  split_ifs with h
  · exact ⟨rfl, rfl, rfl, rfl, rfl, fun _ ht => ⟨ht, rfl, rfl⟩⟩
  · exact .refl row

namespace KeyStore

variable {A : Argon2Crate} {s s' : KeyStore} {m : KeyMove}

/-- **A statement continues every row.** -/
lemma Stepped.exists_continues (h : Stepped A s m s') {row : ApiKey} (hrow : row ∈ s.rows) :
    ∃ row' ∈ s'.rows, Continues row row' := by
  cases h with
  | refused => exact ⟨row, hrow, .refl row⟩
  | inserted hkey hid hpre => exact ⟨row, List.mem_append_left _ hrow, .refl row⟩
  | rotated hkey hmem hrot hpre => exact ⟨_, List.mem_map_of_mem hrow, continues_rotated row⟩
  | revoked matching now =>
      exact ⟨_, List.mem_map_of_mem hrow, continues_revoked matching now row⟩
  | touched => exact ⟨_, List.mem_map_of_mem hrow, continues_touched _ _ row⟩

/-- Along a run every row is continued. -/
lemma exists_continues_stateAt (A : Argon2Crate) (ms : List KeyMove) {i j : ℕ} (hij : i ≤ j)
    {row : ApiKey} (hrow : row ∈ (stateAt A ms i).rows) :
    ∃ row' ∈ (stateAt A ms j).rows, Continues row row' := by
  induction j, hij using Nat.le_induction with
  | base => exact ⟨row, hrow, .refl row⟩
  | succ j hij ih =>
      obtain ⟨row', hrow', hcont⟩ := ih
      cases hm : ms[j]? with
      | none =>
          rw [stateAt, Machine.before_succ_of_none _ hm]
          exact ⟨row', hrow', hcont⟩
      | some m =>
          rw [stateAt, Machine.before_succ _ hm]
          obtain ⟨row'', hrow'', hcont'⟩ :=
            (stepped A (stateAt A ms j) m).exists_continues hrow'
          exact ⟨row'', hrow'', hcont.trans hcont'⟩

/-! ### The table and the keys that were handed out -/

/-- The row has the prefix and the hash of the latest key that was handed out for it. -/
def Backed (A : Argon2Crate) (s : KeyStore) (row : ApiKey) : Prop :=
  ∃ draw key, Keys.IssuedBy A draw key ∧ row.keyPrefix = key.keyPrefix ∧
    row.secretHash = key.secretHash ∧ s.latest row.id = some key.full

/-- The invariant of the lifecycle; `used` are the secrets drawn so far. -/
structure Ok (A : Argon2Crate) (used : List (List UInt8)) (s : KeyStore) : Prop where
  ids : (s.rows.map ApiKey.id).Nodup
  prefixes : (s.rows.map ApiKey.keyPrefix).Nodup
  backed : ∀ row ∈ s.rows, Backed A s row
  fulls : (s.issued.map Prod.snd).Nodup
  drawn : ∀ full ∈ s.issued.map Prod.snd, ∃ keyPrefix, ∃ bytes ∈ used,
    Keys.split full = some (.ok (keyPrefix, Hex.encode bytes))

lemma ok_empty (A : Argon2Crate) (used : List (List UInt8)) : Ok A used empty :=
  ⟨List.nodup_nil, List.nodup_nil, fun _ h => absurd h List.not_mem_nil, List.nodup_nil,
    fun _ h => absurd h List.not_mem_nil⟩

lemma Ok.mono {used used' : List (List UInt8)} (h : Ok A used s) (hsub : used ⊆ used') :
    Ok A used' s := by
  refine { h with drawn := fun full hfull => ?_ }
  obtain ⟨keyPrefix, bytes, hbytes, hsplit⟩ := h.drawn full hfull
  exact ⟨keyPrefix, bytes, hsub hbytes, hsplit⟩

/-- A statement that keeps the ids, the prefixes and the hashes keeps the invariant. -/
lemma Ok.map {used : List (List UInt8)} (h : Ok A used s) {f : ApiKey → ApiKey}
    (hid : ∀ r, (f r).id = r.id) (hpre : ∀ r, (f r).keyPrefix = r.keyPrefix)
    (hhash : ∀ r, (f r).secretHash = r.secretHash) : Ok A used ⟨s.rows.map f, s.issued⟩ := by
  refine ⟨?_, ?_, ?_, h.fulls, h.drawn⟩
  · have : ApiKey.id ∘ f = ApiKey.id := funext hid
    rw [List.map_map, this]
    exact h.ids
  · have : ApiKey.keyPrefix ∘ f = ApiKey.keyPrefix := funext hpre
    rw [List.map_map, this]
    exact h.prefixes
  · intro row hrow
    obtain ⟨r, hr, rfl⟩ := List.mem_map.1 hrow
    obtain ⟨draw, key, hkey, hp, hh, hl⟩ := h.backed r hr
    exact ⟨draw, key, hkey, (hpre r).trans hp, (hhash r).trans hh, by rw [hid]; exact hl⟩

/-- A key that was just generated has not been handed out before. -/
lemma Ok.full_not_mem {used : List (List UInt8)} (h : Ok A used s) {draw : KeyDraw}
    {key : IssuedKey} (hkey : Keys.IssuedBy A draw key) (hnew : draw.secretBytes ∉ used) :
    key.full ∉ s.issued.map Prod.snd := by
  intro hmem
  obtain ⟨keyPrefix, bytes, hbytes, hsplit⟩ := h.drawn _ hmem
  rw [hkey.splits, hkey.secret] at hsplit
  have hsecret := (Prod.mk.inj (Except.ok.inj (Option.some.inj hsplit))).2
  exact hnew (Hex.encode_injective hsecret ▸ hbytes)

/-- What a new key adds to the record of the keys. -/
lemma Ok.issue {used : List (List UInt8)} (h : Ok A used s) {draw : KeyDraw} {key : IssuedKey}
    (hkey : Keys.IssuedBy A draw key) (hnew : draw.secretBytes ∉ used) (id : Uuid) :
    (((id, key.full) :: s.issued).map Prod.snd).Nodup ∧
      ∀ full ∈ ((id, key.full) :: s.issued).map Prod.snd, ∃ keyPrefix,
        ∃ bytes ∈ used ++ [draw.secretBytes],
          Keys.split full = some (.ok (keyPrefix, Hex.encode bytes)) := by
  refine ⟨List.nodup_cons.2 ⟨h.full_not_mem hkey hnew, h.fulls⟩, fun full hfull => ?_⟩
  rcases List.mem_cons.1 hfull with rfl | hfull
  · exact ⟨key.keyPrefix, draw.secretBytes, by simp, by rw [hkey.splits, hkey.secret]⟩
  · obtain ⟨keyPrefix, bytes, hbytes, hsplit⟩ := h.drawn full hfull
    exact ⟨keyPrefix, bytes, List.mem_append_left _ hbytes, hsplit⟩

/-- **A statement keeps the invariant**, if what it draws was not drawn before. -/
lemma Stepped.ok {used : List (List UInt8)} (h : Ok A used s) (hstep : Stepped A s m s')
    (hnew : ∀ draw ∈ m.draw?, draw.secretBytes ∉ used) :
    Ok A (used ++ secretsOf [m]) s' := by
  cases hstep with
  | refused => exact h.mono (List.subset_append_left _ _)
  | revoked matching now =>
      refine (h.map ?_ ?_ ?_).mono (List.subset_append_left _ _) <;>
        exact fun r => by split_ifs <;> rfl
  | touched =>
      refine (h.map ?_ ?_ ?_).mono (List.subset_append_left _ _) <;>
        exact fun r => by split_ifs <;> rfl
  | inserted hkey hid hpre =>
      rename_i now id userId draw tier label key
      obtain ⟨hfulls, hdrawn⟩ := h.issue hkey (hnew draw rfl) id
      refine ⟨Table.nodup_map_concat h.ids hid, Table.nodup_map_concat h.prefixes hpre, ?_,
        hfulls, hdrawn⟩
      intro row hrow
      rcases List.mem_append.1 hrow with hrow | hrow
      · have hne : row.id ≠ id := fun heq => hid (heq ▸ List.mem_map_of_mem hrow)
        obtain ⟨draw', key', hkey', hp, hh, hl⟩ := h.backed row hrow
        exact ⟨draw', key', hkey', hp, hh, by rw [latest_cons_of_ne hne]; exact hl⟩
      · rw [List.mem_singleton.1 hrow]
        exact ⟨draw, key, hkey, rfl, rfl, latest_cons _ _ _ _⟩
  | rotated hkey hmem hrot hpre =>
      rename_i id userId draw key row
      obtain ⟨hid, huser, hactive⟩ := ApiKeys.rotates_iff.1 hrot
      -- the rotated row is the only one with its id
      have honly : ∀ r ∈ s.rows, r.id = id → r = row := fun r hr heq =>
        List.inj_on_of_nodup_map h.ids hr hmem (heq.trans hid.symm)
      have hother : ∀ r ∈ s.rows, ApiKeys.rotates id userId r ≠ true → r.id ≠ id :=
        fun r hr hn heq => hn (honly r hr heq ▸ hrot)
      obtain ⟨hfulls, hdrawn⟩ := h.issue hkey (hnew draw rfl) id
      refine ⟨?_, ?_, ?_, hfulls, hdrawn⟩
      · rw [List.map_map]
        refine (congrArg List.Nodup ?_).mpr h.ids
        exact List.map_congr_left fun r _ => (continues_rotated r).id
      · rw [List.map_map]
        refine List.Nodup.map_on (fun a ha b hb hab => ?_) (List.Nodup.of_map _ h.ids)
        simp only [Function.comp_apply] at hab
        split_ifs at hab with hra hrb hrb
        · rw [honly a ha (ApiKeys.rotates_iff.1 hra).1, honly b hb (ApiKeys.rotates_iff.1 hrb).1]
        · exact absurd hab.symm (hpre b hb (hother b hb hrb))
        · exact absurd hab (hpre a ha (hother a ha hra))
        · exact List.inj_on_of_nodup_map h.prefixes ha hb hab
      · intro row' hrow'
        obtain ⟨r, hr, rfl⟩ := List.mem_map.1 hrow'
        by_cases hr' : ApiKeys.rotates id userId r = true
        · rw [if_pos hr']
          have hrid : r.id = id := (ApiKeys.rotates_iff.1 hr').1
          refine ⟨draw, key, hkey, rfl, rfl, ?_⟩
          simp only [ApiKeys.rotated, hrid]
          exact latest_cons _ _ _ _
        · rw [if_neg hr']
          obtain ⟨draw', key', hkey', hp, hh, hl⟩ := h.backed r hr
          refine ⟨draw', key', hkey', hp, hh, ?_⟩
          rw [latest_cons_of_ne (hother r hr hr')]
          exact hl

/-- The invariant holds before every move of a run whose secrets are all different. -/
lemma ok_stateAt (A : Argon2Crate) {ms : List KeyMove} (hms : (secretsOf ms).Nodup) (k : ℕ) :
    Ok A (secretsOf (ms.take k)) (stateAt A ms k) := by
  induction k with
  | zero => exact ok_empty A _
  | succ k ih =>
      cases hm : ms[k]? with
      | none =>
          rw [stateAt, Machine.before_succ_of_none _ hm, List.take_add_one, hm, Option.toList_none,
            List.append_nil]
          exact ih
      | some m =>
          have happend : secretsOf (ms.take k ++ [m]) = secretsOf (ms.take k) ++ secretsOf [m] := by
            rw [secretsOf, List.filterMap_append, List.map_append]
            rfl
          have hnd : (secretsOf (ms.take k) ++ secretsOf [m]).Nodup := by
            have htake : ms.take k ++ [m] = ms.take (k + 1) := by
              rw [List.take_add_one, hm, Option.toList_some]
            rw [← happend, htake]
            refine hms.sublist ?_
            exact ((List.take_sublist _ _).filterMap _).map _
          rw [stateAt, Machine.before_succ _ hm, List.take_add_one, hm, Option.toList_some, happend]
          refine (stepped A _ m).ok ih fun draw hdraw hmem => ?_
          have hin : draw.secretBytes ∈ secretsOf [m] := by
            rw [secretsOf, List.filterMap_cons, hdraw]
            simp
          exact (List.nodup_append.1 hnd).2.2 _ hmem _ hin rfl

/-- **What the uncached path accepts**: exactly the key that was handed out last for an active
row. -/
lemma Ok.resolveUncached_iff (hA : VerifiesExactly A) {used : List (List UInt8)} (h : Ok A used s)
    (bearer : String) (id : Uuid) :
    (∃ key, resolveUncached A.toArgon2Lib bearer s.rows = .ok key ∧ key.id = id) ↔
      (∃ row ∈ s.rows, row.id = id ∧ row.revokedAt = none) ∧ s.latest id = some bearer := by
  constructor
  · rintro ⟨key, hok, rfl⟩
    obtain ⟨secret, row, hsplit, hrow, hactive, hverify, rfl⟩ := resolveUncached_eq_ok hok
    obtain ⟨draw, key, hkey, hpre, hhash, hlatest⟩ := h.backed row hrow
    rw [hhash, hA _ _ _ hkey.hashed] at hverify
    have hbearer : bearer = key.full := by
      rw [Keys.split_eq_ok hsplit, hkey.full, hpre, hverify]
    exact ⟨⟨row, hrow, rfl, hactive⟩, hbearer ▸ hlatest⟩
  · rintro ⟨⟨row, hrow, rfl, hactive⟩, hbearer⟩
    obtain ⟨draw, key, hkey, hpre, hhash, hlatest⟩ := h.backed row hrow
    obtain rfl : key.full = bearer := Option.some.inj (hlatest.symm.trans hbearer)
    refine ⟨resolved row, ?_, rfl⟩
    refine resolveUncached_of_row h.prefixes hrow hactive (by rw [hpre]; exact hkey.splits) ?_
    rw [hhash]
    exact (hA _ _ _ hkey.hashed _).2 rfl

/-- A key that was handed out is accepted for its own row only, and as long as no other was
handed out for it. -/
lemma Ok.latest_of_issued {used : List (List UInt8)} (h : Ok A used s) {id id' : Uuid}
    {full : String} (hissued : (id, full) ∈ s.issued) (hlatest : s.latest id' = some full) :
    id' = id := by
  have := List.inj_on_of_nodup_map h.fulls (mem_issued_of_latest hlatest) hissued rfl
  exact congrArg Prod.fst this

end KeyStore

/-- **The lifecycle of an API key.**  In every run from the empty table: a row that was there
at `i` is there at `j`, as the only one with its id, with the same owner, tier, label and
creation time, and unchanged in its revocation, prefix and hash once it is revoked; a bearer
authenticates as `id` on the uncached path exactly if the row is active and the bearer is the
key that was handed out last for it, so that a key that was handed out is accepted for its own
row only and never once it was replaced; and recording the use of a prefix leaves every row
that does not have it as it is. -/
theorem key_lifecycle (A : Argon2Crate) (hA : VerifiesExactly A) (ms : List KeyMove)
    (hms : (secretsOf ms).Nodup) (j : ℕ) :
    (∀ i ≤ j, ∀ row ∈ (KeyStore.stateAt A ms i).rows,
      (∃ row' ∈ (KeyStore.stateAt A ms j).rows, row'.id = row.id) ∧
      ∀ row' ∈ (KeyStore.stateAt A ms j).rows, row'.id = row.id →
        row'.userId = row.userId ∧ row'.tier = row.tier ∧ row'.label = row.label ∧
        row'.createdAt = row.createdAt ∧
        ∀ t, row.revokedAt = some t → row'.revokedAt = some t ∧
          row'.keyPrefix = row.keyPrefix ∧ row'.secretHash = row.secretHash) ∧
    (∀ bearer id,
      (∃ key, resolveUncached A.toArgon2Lib bearer (KeyStore.stateAt A ms j).rows = .ok key ∧
        key.id = id) ↔
      (∃ row ∈ (KeyStore.stateAt A ms j).rows, row.id = id ∧ row.revokedAt = none) ∧
        (KeyStore.stateAt A ms j).latest id = some bearer) ∧
    (∀ id full, (id, full) ∈ (KeyStore.stateAt A ms j).issued → ∀ key,
      resolveUncached A.toArgon2Lib full (KeyStore.stateAt A ms j).rows = .ok key →
        key.id = id ∧ (KeyStore.stateAt A ms j).latest id = some full) ∧
    (∀ now keyPrefix, ∀ row ∈ (KeyStore.stateAt A ms j).rows, row.keyPrefix ≠ keyPrefix →
      row ∈ ((KeyStore.stateAt A ms j).exec A (.touchLastUsed now keyPrefix)).rows) := by
  have hok := KeyStore.ok_stateAt A hms j
  refine ⟨?_, hok.resolveUncached_iff hA, ?_, ?_⟩
  · intro i hij row hrow
    obtain ⟨row'', hrow'', hcont⟩ := KeyStore.exists_continues_stateAt A ms hij hrow
    refine ⟨⟨row'', hrow'', hcont.id⟩, fun row' hrow' hid => ?_⟩
    obtain rfl := List.inj_on_of_nodup_map hok.ids hrow' hrow'' (hid.trans hcont.id.symm)
    exact ⟨hcont.userId, hcont.tier, hcont.label, hcont.createdAt, hcont.revoked⟩
  · intro id full hissued key hkey
    obtain ⟨-, hlatest⟩ := (hok.resolveUncached_iff hA full key.id).1 ⟨key, hkey, rfl⟩
    have hid := hok.latest_of_issued hissued hlatest
    exact ⟨hid, hid ▸ hlatest⟩
  · intro now keyPrefix row hrow hne
    exact List.mem_map.2 ⟨row, hrow, if_neg hne⟩

namespace Sample

/-- The salt of the sample. -/
def salt : String := "AAECAwQFBgcICQoLDA0ODw"

/-- Two secrets and their hashes under the salt. -/
def hashes : List (String × String) :=
  [("11111111111111111111111111111111",
      "$argon2id$v=19$m=19456,t=2,p=1$AAECAwQFBgcICQoLDA0ODw$" ++
        "ecB7bSnnLs7KKXfXnTjvhOnKQ9gA/ky1oQF4zw3dWUk"),
    ("22222222222222222222222222222222",
      "$argon2id$v=19$m=19456,t=2,p=1$AAECAwQFBgcICQoLDA0ODw$" ++
        "RREXjAi1dBDRJMN/37HkzkI6UKcl5EJ3sYRjkU1QjwA")]

/-- The crate on the two secrets. -/
def knownArgon2 : Argon2Crate where
  parses phc := hashes.any fun e => e.2 == phc
  verifyPassword s phc := hashes.any fun e => e.1 == s && e.2 == phc
  hashPassword s salt' :=
    match hashes.find? fun e => e.1 == s && salt' == salt with
    | some e => .ok e.2
    | none => .error "not hashed here"

lemma knownArgon2_verifiesExactly : VerifiesExactly knownArgon2 := by
  intro secret salt' phc h s
  -- the hash is that of an entry, and no other entry has it
  obtain ⟨e, he, rfl, rfl⟩ : ∃ e ∈ hashes, e.1 = secret ∧ e.2 = phc := by
    simp only [knownArgon2] at h
    split at h
    · rename_i e hfind
      have hcond := List.find?_some hfind
      simp only [Bool.and_eq_true, beq_iff_eq] at hcond
      exact ⟨e, List.mem_of_find?_eq_some hfind, hcond.1, Except.ok.inj h⟩
    · exact nomatch h
  have hparses : knownArgon2.parses e.2 = true :=
    List.any_eq_true.2 ⟨e, he, beq_self_eq_true _⟩
  have hinj : ∀ e' ∈ hashes, e'.2 = e.2 → e' = e :=
    fun e' he' heq => List.inj_on_of_nodup_map (by decide +kernel) he' he heq
  have hverify : knownArgon2.verifyPassword s e.2 = true ↔ s = e.1 := by
    simp only [knownArgon2, List.any_eq_true, Bool.and_eq_true, beq_iff_eq]
    constructor
    · rintro ⟨e', he', rfl, heq⟩
      rw [hinj e' he' heq]
    · rintro rfl
      exact ⟨e, he, rfl, rfl⟩
  rw [Keys.verify, hparses]
  by_cases hs : s = e.1
  · subst hs
    simp [hverify.2 rfl]
  · have hfalse := Bool.eq_false_iff.2 (mt hverify.1 hs)
    simp [hfalse, hs]

/-- Draws with a prefix and a secret of equal bytes. -/
def drawOf (p b : UInt8) : KeyDraw :=
  ⟨List.replicate 4 p, List.replicate 16 b, salt, rfl, rfl⟩

/-- A key is inserted and rotated, its first prefix is touched late, and it is revoked twice. -/
def keyRun : List KeyMove :=
  [.insert 5 1 2 (drawOf 0xa1 0x11) .free none, .rotateForUser 1 2 (drawOf 0xb2 0x22),
    .touchLastUsed 9 "cell_a1a1a1a1", .revokeForUser 12 1 2, .revokeForUser 20 1 2]

end Sample

/-- After the rotation the second key is accepted and the first is not; after it was revoked
the second is not accepted either, and the row keeps the time of the first revocation. -/
theorem key_lifecycle_rotated :
    (∃ key, resolveUncached Sample.knownArgon2.toArgon2Lib
      "cell_b2b2b2b2_22222222222222222222222222222222"
      (KeyStore.stateAt Sample.knownArgon2 Sample.keyRun 3).rows = .ok key ∧ key.id = 1) ∧
    (∀ key, resolveUncached Sample.knownArgon2.toArgon2Lib
      "cell_a1a1a1a1_11111111111111111111111111111111"
      (KeyStore.stateAt Sample.knownArgon2 Sample.keyRun 3).rows ≠ .ok key) ∧
    (∀ row ∈ (KeyStore.stateAt Sample.knownArgon2 Sample.keyRun 5).rows, row.id = 1 →
      row.revokedAt = some 12 ∧ row.keyPrefix = "cell_b2b2b2b2") ∧
    ∀ key, resolveUncached Sample.knownArgon2.toArgon2Lib
      "cell_b2b2b2b2_22222222222222222222222222222222"
      (KeyStore.stateAt Sample.knownArgon2 Sample.keyRun 5).rows ≠ .ok key := by
  have hnd : (secretsOf Sample.keyRun).Nodup := by decide
  obtain ⟨-, hiff, hissued, -⟩ := key_lifecycle Sample.knownArgon2
    Sample.knownArgon2_verifiesExactly Sample.keyRun hnd 3
  obtain ⟨hkept, hiff', -⟩ := key_lifecycle Sample.knownArgon2
    Sample.knownArgon2_verifiesExactly Sample.keyRun hnd 5
  refine ⟨(hiff _ _).2 ⟨?_, ?_⟩, ?_, ?_, ?_⟩
  · decide +kernel
  · decide +kernel
  · intro key hkey
    have hlatest := (hissued 1 _ (by decide +kernel) key hkey).2
    exact absurd hlatest (by decide +kernel)
  · -- the row as the first revocation left it
    have hrevoked : ∃ row ∈ (KeyStore.stateAt Sample.knownArgon2 Sample.keyRun 4).rows,
        row.id = 1 ∧ row.revokedAt = some 12 ∧ row.keyPrefix = "cell_b2b2b2b2" := by
      decide +kernel
    obtain ⟨row, hrow, hid, hat, hprefix⟩ := hrevoked
    intro row' hrow' hid'
    obtain ⟨-, -, -, -, hstays⟩ := (hkept 4 (by decide) row hrow).2 row' hrow' (hid'.trans hid.symm)
    obtain ⟨hat', hprefix', -⟩ := hstays 12 hat
    exact ⟨hat', hprefix'.trans hprefix⟩
  · intro key hkey
    obtain ⟨⟨row, hrow, -, hactive⟩, -⟩ := (hiff' _ key.id).1 ⟨key, hkey, rfl⟩
    have hnone : ∀ row ∈ (KeyStore.stateAt Sample.knownArgon2 Sample.keyRun 5).rows,
        row.revokedAt ≠ none := by
      decide +kernel
    exact hnone row hrow hactive

end Api

end Cellora

/-
# The table `api_keys`

The statements of the crate `db` on `api_keys`, as functions on the list of its rows.  The
primary key is `id`; the prefix has a unique index, which an insert or a rotation may
violate.  The value of `now()` is a parameter of the statements that store it, and the
generated id of a row a parameter of the insert.
-/
import Cellora.Db.Tables

namespace Cellora

/-- A UUID. -/
abbrev Uuid := BitVec 128

/-- Tier of an API key. -/
inductive ApiKeyTier where
  | free
  | starter
  | pro
deriving DecidableEq, Repr

/-- A row of `api_keys`. -/
structure ApiKey where
  id : Uuid
  userId : Uuid
  keyPrefix : String
  secretHash : String
  tier : ApiKeyTier
  label : Option String
  createdAt : ℕ
  revokedAt : Option ℕ
  lastUsedAt : Option ℕ
deriving DecidableEq

/-- `is_revoked`. -/
def ApiKey.isRevoked (row : ApiKey) : Bool := row.revokedAt.isSome

/-- `as_str`. -/
def ApiKeyTier.asStr : ApiKeyTier → String
  | .free => "free"
  | .starter => "starter"
  | .pro => "pro"

/-- `ORDER BY column DESC`.  Rows with the same value keep the order they are stored in. -/
def orderByDesc {α : Type} (column : α → ℕ) (rows : List α) : List α :=
  rows.mergeSort fun r r' => column r' ≤ column r

namespace ApiKeys

/-- `api_keys::insert`. -/
def insert (now : ℕ) (id userId : Uuid) (keyPrefix secretHash : String) (tier : ApiKeyTier)
    (label : Option String) (rows : List ApiKey) : Except DbError (ApiKey × List ApiKey) :=
  let row : ApiKey := {
    id := id
    userId := userId
    keyPrefix := keyPrefix
    secretHash := secretHash
    tier := tier
    label := label
    createdAt := now
    revokedAt := none
    lastUsedAt := none }
  if id ∈ rows.map ApiKey.id then .error (.uniqueViolation "api_keys_pkey")
  else if keyPrefix ∈ rows.map ApiKey.keyPrefix then
    .error (.uniqueViolation "api_keys_prefix_uidx")
  else .ok (row, rows ++ [row])

/-- `api_keys::find_active_by_prefix`. -/
def findActiveByPrefix (keyPrefix : String) (rows : List ApiKey) : Option ApiKey :=
  rows.find? fun row => row.keyPrefix == keyPrefix && !row.isRevoked

/-- The two statements that revoke, with their condition as a parameter.  Returns whether a
row was updated. -/
def revokeWhere (matching : ApiKey → Bool) (now : ℕ) (rows : List ApiKey) :
    Bool × List ApiKey :=
  (rows.any fun row => matching row && !row.isRevoked,
    rows.map fun row =>
      if matching row && !row.isRevoked then { row with revokedAt := some now } else row)

/-- `api_keys::revoke`. -/
def revoke (keyPrefix : String) : ℕ → List ApiKey → Bool × List ApiKey :=
  revokeWhere fun row => row.keyPrefix == keyPrefix

/-- `api_keys::revoke_for_user`. -/
def revokeForUser (id userId : Uuid) : ℕ → List ApiKey → Bool × List ApiKey :=
  revokeWhere fun row => row.id == id && row.userId == userId

/-- `api_keys::list_for_user`. -/
def listForUser (userId : Uuid) (rows : List ApiKey) : List ApiKey :=
  orderByDesc ApiKey.createdAt (rows.filter fun row => row.userId == userId)

/-- `api_keys::touch_last_used`. -/
def touchLastUsed (keyPrefix : String) (now : ℕ) (rows : List ApiKey) : List ApiKey :=
  rows.map fun row => if row.keyPrefix = keyPrefix then { row with lastUsedAt := some now } else row

/-- The condition of a rotation. -/
def rotates (id userId : Uuid) (row : ApiKey) : Bool :=
  row.id == id && row.userId == userId && !row.isRevoked

/-- `api_keys::rotate_for_user`.  The new prefix must not be that of another row. -/
def rotateForUser (id userId : Uuid) (newPrefix newSecretHash : String) (rows : List ApiKey) :
    Except DbError (Option ApiKey × List ApiKey) :=
  match rows.find? (rotates id userId) with
  | none => .ok (none, rows)
  | some row =>
      if newPrefix ∈ (rows.filter fun r => r.id ≠ id).map ApiKey.keyPrefix then
        .error (.uniqueViolation "api_keys_prefix_uidx")
      else
        let row' :=
          { row with keyPrefix := newPrefix, secretHash := newSecretHash, lastUsedAt := none }
        .ok (some row', rows.map fun r => if rotates id userId r then
          { r with keyPrefix := newPrefix, secretHash := newSecretHash, lastUsedAt := none }
        else r)

/-- A lookup returns an active row with the prefix. -/
lemma mem_of_findActiveByPrefix {keyPrefix : String} {rows : List ApiKey} {row : ApiKey}
    (h : findActiveByPrefix keyPrefix rows = some row) :
    row ∈ rows ∧ row.keyPrefix = keyPrefix ∧ row.revokedAt = none := by
  have hcond := List.find?_some h
  simp only [ApiKey.isRevoked, Bool.and_eq_true, beq_iff_eq, Bool.not_eq_true',
    Option.isSome_eq_false_iff, Option.isNone_iff_eq_none] at hcond
  exact ⟨List.mem_of_find?_eq_some h, hcond.1, hcond.2⟩

/-- With unique prefixes the lookup finds every active row. -/
lemma findActiveByPrefix_of_mem {rows : List ApiKey} {row : ApiKey}
    (hnd : (rows.map ApiKey.keyPrefix).Nodup) (hrow : row ∈ rows)
    (hactive : row.revokedAt = none) : findActiveByPrefix row.keyPrefix rows = some row := by
  cases hfind : findActiveByPrefix row.keyPrefix rows with
  | none =>
      have := List.find?_eq_none.1 hfind row hrow
      simp [ApiKey.isRevoked, hactive] at this
  | some row' =>
      obtain ⟨hmem, hpre, -⟩ := mem_of_findActiveByPrefix hfind
      rw [List.inj_on_of_nodup_map hnd hmem hrow hpre]

/-- An insert that is not refused appends an active row with a new id and a new prefix. -/
lemma insert_eq_ok {now : ℕ} {id userId : Uuid} {keyPrefix secretHash : String}
    {tier : ApiKeyTier} {label : Option String} {rows rows' : List ApiKey} {row : ApiKey}
    (h : insert now id userId keyPrefix secretHash tier label rows = .ok (row, rows')) :
    row = ⟨id, userId, keyPrefix, secretHash, tier, label, now, none, none⟩ ∧
      rows' = rows ++ [row] ∧ id ∉ rows.map ApiKey.id ∧
      keyPrefix ∉ rows.map ApiKey.keyPrefix := by
  rw [insert] at h
  split_ifs at h with hid hpre
  obtain ⟨rfl, rfl⟩ := Prod.mk.inj (Except.ok.inj h)
  exact ⟨rfl, rfl, hid, hpre⟩

/-- What a rotation writes into a row. -/
def rotated (newPrefix newSecretHash : String) (row : ApiKey) : ApiKey :=
  { row with keyPrefix := newPrefix, secretHash := newSecretHash, lastUsedAt := none }

lemma rotates_iff {id userId : Uuid} {row : ApiKey} :
    rotates id userId row = true ↔ row.id = id ∧ row.userId = userId ∧ row.revokedAt = none := by
  simp [rotates, ApiKey.isRevoked, and_assoc]

/-- A rotation that returns a row has rotated an active row of the user; no other row has the
new prefix. -/
lemma rotateForUser_eq_some {id userId : Uuid} {newPrefix newSecretHash : String}
    {rows rows' : List ApiKey} {row' : ApiKey}
    (h : rotateForUser id userId newPrefix newSecretHash rows = .ok (some row', rows')) :
    (∃ row ∈ rows, rotates id userId row = true ∧ row' = rotated newPrefix newSecretHash row) ∧
      (∀ r ∈ rows, r.id ≠ id → r.keyPrefix ≠ newPrefix) ∧
      rows' = rows.map fun r =>
        if rotates id userId r then rotated newPrefix newSecretHash r else r := by
  rw [rotateForUser] at h
  cases hfind : rows.find? (rotates id userId) with
  | none =>
      simp only [hfind] at h
      exact absurd (Prod.mk.inj (Except.ok.inj h)).1 (by simp)
  | some row =>
      simp only [hfind] at h
      split_ifs at h with htaken
      obtain ⟨hrow', rfl⟩ := Prod.mk.inj (Except.ok.inj h)
      refine ⟨⟨row, List.mem_of_find?_eq_some hfind, List.find?_some hfind,
        (Option.some.inj hrow').symm⟩, ?_, rfl⟩
      intro r hr hid hpre
      refine htaken (List.mem_map.2 ⟨r, List.mem_filter.2 ⟨hr, ?_⟩, hpre⟩)
      simpa using hid

/-- A rotation that returns no row changes none. -/
lemma rotateForUser_eq_none {id userId : Uuid} {newPrefix newSecretHash : String}
    {rows rows' : List ApiKey}
    (h : rotateForUser id userId newPrefix newSecretHash rows = .ok (none, rows')) :
    rows' = rows := by
  rw [rotateForUser] at h
  cases hfind : rows.find? (rotates id userId) with
  | none =>
      simp only [hfind] at h
      exact (Prod.mk.inj (Except.ok.inj h)).2.symm
  | some row =>
      simp only [hfind] at h
      split_ifs at h
      exact absurd (Prod.mk.inj (Except.ok.inj h)).1 (by simp)

end ApiKeys

end Cellora

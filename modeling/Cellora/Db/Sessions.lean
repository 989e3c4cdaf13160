/-
# The table `sessions`

The statements of the crate `db` on `sessions`.  The primary key is the hash of the token,
and `user_id` refers to `users`.  The clock is the one of the database; the moment at which
a session expires comes from the process that inserts it.  In its own terms the table gives
each hash a user until a moment, so it is a table of leases.
-/
import Cellora.Db.Users
import Cellora.Lib.Lease

namespace Cellora

/-- A row of `sessions`. -/
structure Session where
  tokenHash : String
  userId : Uuid
  createdAt : ℕ
  expiresAt : ℤ
  lastSeenAt : ℕ
  userAgent : Option String
deriving DecidableEq

namespace Sessions

/-- `sessions::insert`. -/
def insert (now : ℕ) (tokenHash : String) (userId : Uuid) (expiresAt : ℤ)
    (userAgent : Option String) (users : List User) (rows : List Session) :
    Except DbError (Session × List Session) :=
  let row : Session := ⟨tokenHash, userId, now, expiresAt, now, userAgent⟩
  if (rows.map Session.tokenHash).contains tokenHash then
    .error (.uniqueViolation "sessions_pkey")
  else if !(users.map User.id).contains userId then
    .error (.foreignKeyViolation "sessions_user_id_fkey")
  else .ok (row, rows ++ [row])

/-- `sessions::find_active`. -/
def findActive (now : ℕ) (tokenHash : String) (rows : List Session) : Option Session :=
  rows.find? fun row => row.tokenHash = tokenHash && (now : ℤ) < row.expiresAt

/-- `sessions::touch_last_seen`. -/
def touchLastSeen (now : ℕ) (tokenHash : String) (rows : List Session) : List Session :=
  rows.map fun row => if row.tokenHash = tokenHash then { row with lastSeenAt := now } else row

/-- `sessions::delete`.  Returns whether a row was deleted. -/
def delete (tokenHash : String) (rows : List Session) : Bool × List Session :=
  (rows.any fun row => row.tokenHash = tokenHash,
    rows.filter fun row => row.tokenHash ≠ tokenHash)

/-- `sessions::delete_expired`.  Returns the number of rows deleted. -/
def deleteExpired (now : ℕ) (rows : List Session) : ℕ × List Session :=
  (rows.countP fun row => row.expiresAt ≤ (now : ℤ),
    rows.filter fun row => !decide (row.expiresAt ≤ (now : ℤ)))

/-! ### A table of leases -/

/-- What a row gives. -/
def lease (row : Session) : Lease Uuid := ⟨row.userId, row.expiresAt⟩

/-- The rows implement the leases at a moment. -/
abbrev Implements (now : ℕ) (leases : String → Option (Lease Uuid)) (rows : List Session) :
    Prop :=
  Lease.Implements Session.tokenHash lease now leases rows

section Statements

variable {now : ℕ} {leases : String → Option (Lease Uuid)} {rows rows' : List Session}
  {users : List User} {tokenHash : String} {userId : Uuid} {expiresAt : ℤ}
  {userAgent : Option String} {row : Session}

lemma insert_eq_ok_iff :
    insert now tokenHash userId expiresAt userAgent users rows = .ok (row, rows') ↔
      tokenHash ∉ rows.map Session.tokenHash ∧ userId ∈ users.map User.id ∧
        row = ⟨tokenHash, userId, now, expiresAt, now, userAgent⟩ ∧ rows' = rows ++ [row] := by
  unfold insert
  simp only [List.contains_iff_mem, Bool.not_eq_true', Bool.eq_false_iff, ne_eq]
  split
  · simp [*]
  · split
    · simp [*]
    · rename_i hkey huser
      simp only [Except.ok.injEq, Prod.mk.injEq]
      constructor
      · rintro ⟨rfl, rfl⟩
        exact ⟨hkey, not_not.1 huser, rfl, rfl⟩
      · rintro ⟨-, -, rfl, rfl⟩
        exact ⟨rfl, rfl⟩

/-- Touching a session does not extend it. -/
lemma Implements.touchLastSeen (h : Implements now leases rows) (at_ : ℕ) (tokenHash : String) :
    Implements now leases (touchLastSeen at_ tokenHash rows) := by
  refine Lease.Implements.map h (fun r => ?_) fun r => ?_ <;> split <;> rfl

/-- Reaping the expired rows is not seen. -/
lemma Implements.deleteExpired (h : Implements now leases rows) :
    Implements now leases (deleteExpired now rows).2 := by
  refine Lease.Implements.purge h fun r _ hlt => ?_
  have hlt : (now : ℤ) < r.expiresAt := hlt
  simpa using hlt

end Statements

end Sessions

end Cellora

/-
# The table `users`

The statements of the crate `db` on `users`.  The primary key is `id`, and `github_user_id` is
unique; `github_login` has an index that is not.  A query that does not order its rows may
return them in any order, which is a parameter here.
-/
import Cellora.Db.ApiKeys

namespace Cellora

/-- A row of `users`. -/
structure User where
  id : Uuid
  githubUserId : ℤ
  githubLogin : String
  email : Option String
  avatarUrl : Option String
  createdAt : ℕ
  updatedAt : ℕ
deriving DecidableEq

/-- The order in which the database visits rows. -/
structure RowOrder (α : Type) where
  order : List α → List α
  perm : ∀ rows, (order rows).Perm rows

/-- The order in which the rows were inserted. -/
def RowOrder.stored {α : Type} : RowOrder α := ⟨fun rows => rows, fun _ => .refl _⟩

namespace Users

/-- What the upsert writes into a row that exists. -/
def refreshed (now : ℕ) (githubLogin : String) (email avatarUrl : Option String) (row : User) :
    User :=
  { row with
    githubLogin := githubLogin
    email := email
    avatarUrl := avatarUrl
    updatedAt := now }

/-- `users::upsert_from_github`.  For a new row `id` is drawn; for an existing one it is not
used. -/
def upsertFromGithub (now : ℕ) (id : Uuid) (githubUserId : ℤ) (githubLogin : String)
    (email avatarUrl : Option String) (rows : List User) : Except DbError (User × List User) :=
  let refresh := refreshed now githubLogin email avatarUrl
  match rows.find? fun row => row.githubUserId == githubUserId with
  | some row =>
      .ok (refresh row, rows.map fun r => if r.githubUserId == githubUserId then refresh r else r)
  | none =>
      let row : User := ⟨id, githubUserId, githubLogin, email, avatarUrl, now, now⟩
      if (rows.map User.id).contains id then .error (.uniqueViolation "users_pkey")
      else .ok (row, rows ++ [row])

/-- `users::find_by_id`. -/
def findById (id : Uuid) (rows : List User) : Option User :=
  rows.find? fun row => row.id == id

/-- `users::find_by_github_login`: the first of the rows that match. -/
def findByGithubLogin (scan : RowOrder User) (login : String) (rows : List User) :
    Option User :=
  (scan.order (rows.filter fun row => row.githubLogin == login)).head?

/-- A row that is found is stored and has the login. -/
lemma mem_of_findByGithubLogin {scan : RowOrder User} {login : String} {rows : List User}
    {row : User} (h : findByGithubLogin scan login rows = some row) :
    row ∈ rows ∧ row.githubLogin = login := by
  have hmem := (scan.perm _).mem_iff.1 (List.mem_of_mem_head? h)
  obtain ⟨hrow, hlogin⟩ := List.mem_filter.1 hmem
  exact ⟨hrow, by simpa using hlogin⟩

/-- A row that is the only one with its login is found. -/
lemma findByGithubLogin_of_unique {rows : List User} {row : User} (hrow : row ∈ rows)
    (hunique : (rows.filter fun r => r.githubLogin == row.githubLogin).length ≤ 1)
    (scan : RowOrder User) : findByGithubLogin scan row.githubLogin rows = some row := by
  have hmem : row ∈ rows.filter fun r => r.githubLogin == row.githubLogin :=
    List.mem_filter.2 ⟨hrow, by simp⟩
  obtain ⟨r, hr⟩ := List.length_eq_one_iff.1
    (le_antisymm hunique (List.length_pos_of_mem hmem))
  rw [hr, List.mem_singleton] at hmem
  have hperm := scan.perm (rows.filter fun r => r.githubLogin == row.githubLogin)
  rw [hr, List.perm_singleton] at hperm
  rw [findByGithubLogin, hr, hperm, hmem]
  rfl

/-- What an upsert does: an existing row of the account gets the login, or a new row is
added. -/
structure Upserted (githubUserId : ℤ) (githubLogin : String) (rows rows' : List User) :
    Prop where
  accounts : rows'.map User.githubUserId = (if githubUserId ∈ rows.map User.githubUserId then
    rows.map User.githubUserId else rows.map User.githubUserId ++ [githubUserId])
  logins : ∀ r ∈ rows', (r.githubUserId = githubUserId ∧ r.githubLogin = githubLogin) ∨
    (r.githubUserId ≠ githubUserId ∧ r ∈ rows)
  ids : (rows.map User.id).Nodup → (rows'.map User.id).Nodup

section Upsert

variable {now : ℕ} {githubUserId : ℤ} {githubLogin : String} {email avatarUrl : Option String}
  {rows : List User}

/-- A column that a refresh keeps. -/
lemma map_refreshed {β : Type} (f : User → β)
    (hf : ∀ r, f (refreshed now githubLogin email avatarUrl r) = f r) :
    (rows.map fun r => if r.githubUserId == githubUserId then
      refreshed now githubLogin email avatarUrl r else r).map f = rows.map f := by
  rw [List.map_map]
  refine List.map_congr_left fun r _ => ?_
  rw [Function.comp_apply, apply_ite f, hf, ite_self]

lemma upserted_of_mem (hmem : githubUserId ∈ rows.map User.githubUserId) :
    Upserted githubUserId githubLogin rows (rows.map fun r =>
      if r.githubUserId == githubUserId then refreshed now githubLogin email avatarUrl r else r)
    where
  accounts := by
    rw [if_pos hmem]
    exact map_refreshed User.githubUserId fun _ => rfl
  logins := by
    intro r' hr'
    obtain ⟨r, hr, rfl⟩ := List.mem_map.1 hr'
    by_cases hid : r.githubUserId = githubUserId
    · left
      simp [hid, refreshed]
    · right
      simp [hid, hr]
  ids := by
    intro hnd
    rw [map_refreshed User.id fun _ => rfl]
    exact hnd

lemma upserted_of_not_mem {id : Uuid} (hmem : githubUserId ∉ rows.map User.githubUserId)
    (hid : id ∉ rows.map User.id) :
    Upserted githubUserId githubLogin rows
      (rows ++ [⟨id, githubUserId, githubLogin, email, avatarUrl, now, now⟩]) where
  accounts := by
    rw [if_neg hmem, List.map_append]
    rfl
  logins := by
    intro r hr
    rcases List.mem_append.1 hr with hr | hr
    · exact .inr ⟨fun h => hmem (List.mem_map.2 ⟨r, hr, h⟩), hr⟩
    · rw [List.mem_singleton.1 hr]
      exact .inl ⟨rfl, rfl⟩
  ids := fun hnd => Table.nodup_map_concat hnd hid

lemma upsertFromGithub_eq_ok {id : Uuid} {rows' : List User} {row : User}
    (h : upsertFromGithub now id githubUserId githubLogin email avatarUrl rows = .ok (row, rows')) :
    Upserted githubUserId githubLogin rows rows' := by
  rw [upsertFromGithub] at h
  cases hfind : rows.find? fun row => row.githubUserId == githubUserId with
  | some r₀ =>
      simp only [hfind] at h
      obtain ⟨-, rfl⟩ := Prod.mk.inj (Except.ok.inj h)
      have hid : r₀.githubUserId = githubUserId := by simpa using List.find?_some hfind
      exact upserted_of_mem (List.mem_map.2 ⟨r₀, List.mem_of_find?_eq_some hfind, hid⟩)
  | none =>
      simp only [hfind] at h
      split_ifs at h with htaken
      obtain ⟨-, rfl⟩ := Prod.mk.inj (Except.ok.inj h)
      have hnone : githubUserId ∉ rows.map User.githubUserId := by
        simpa using List.find?_eq_none.1 hfind
      exact upserted_of_not_mem hnone (by simpa using htaken)

/-- An upsert keeps the id and the account of every row, and returns the row of the
account. -/
lemma upsertFromGithub_keeps {id : Uuid} {rows' : List User} {row : User}
    (h : upsertFromGithub now id githubUserId githubLogin email avatarUrl rows = .ok (row, rows')) :
    (∀ r ∈ rows, ∃ r' ∈ rows', r'.id = r.id ∧ r'.githubUserId = r.githubUserId) ∧
      row ∈ rows' ∧ row.githubUserId = githubUserId := by
  rw [upsertFromGithub] at h
  cases hfind : rows.find? fun row => row.githubUserId == githubUserId with
  | some r₀ =>
      simp only [hfind] at h
      obtain ⟨rfl, rfl⟩ := Prod.mk.inj (Except.ok.inj h)
      have hid : r₀.githubUserId = githubUserId := by simpa using List.find?_some hfind
      refine ⟨fun r hr => ⟨_, List.mem_map_of_mem hr, ?_⟩, ?_, hid⟩
      · split <;> exact ⟨rfl, rfl⟩
      · exact List.mem_map.2 ⟨r₀, List.mem_of_find?_eq_some hfind, by simp [hid]⟩
  | none =>
      simp only [hfind] at h
      split_ifs at h with htaken
      obtain ⟨rfl, rfl⟩ := Prod.mk.inj (Except.ok.inj h)
      exact ⟨fun r hr => ⟨r, List.mem_append_left _ hr, rfl, rfl⟩,
        List.mem_append_right _ (List.mem_singleton.2 rfl), rfl⟩

end Upsert

end Users

end Cellora

/-
# Keys from the command line

`admin create-key --github-login L` issues a key for the user that has the login `L`.  An
account is identified by its GitHub id; its login is what it was at its last sign-in.  A login
that its holder has given up on GitHub may be taken by another account, and then two rows of
`users` carry it until the former holder signs in again.

The lookup finds the account that most recently signed in with the login, and no two rows
share a login, exactly if no account ever signs in with a login after the last sign-in of
another account that used it.
-/
import Cellora.Api.Keys
import Cellora.Db.Users
import Cellora.Lib.Machine

namespace Cellora

namespace Api

namespace AdminCli

/-! ### The command -/

/-- Why the command fails. -/
inductive CreateKeyError where
  | noUser (message : String)
  | generate (err : KeyError)
  | persist (err : DbError)
deriving DecidableEq

/-- The arguments of `create-key`. -/
structure CreateKey where
  githubLogin : String
  tier : ApiKeyTier
  label : Option String
  json : Bool
deriving DecidableEq

/-- What the command prints: the fields of a JSON object, or lines of text. -/
inductive Printed where
  | json (keyPrefix secret fullKey tier : String) (label : Option String)
  | lines (text : List String)
deriving DecidableEq

/-- The output for a new key. -/
def printed (args : CreateKey) (row : ApiKey) (issued : IssuedKey) : Printed :=
  if args.json then .json row.keyPrefix issued.secret issued.full row.tier.asStr row.label
  else .lines (["API key created", "", "  prefix : " ++ row.keyPrefix,
    "  tier   : " ++ row.tier.asStr] ++
    (match row.label with
      | some label => ["  label  : " ++ label]
      | none => []) ++
    ["  full   : " ++ issued.full, "",
      "Record the full key now — it will not be shown again."])

/-- `run` of `CreateKey`: the row it inserts, what it prints, and the table `api_keys` after it. -/
def runCreateKey (A : Argon2Crate) (scan : RowOrder User) (draw : KeyDraw) (now : ℕ) (id : Uuid)
    (args : CreateKey) (users : List User) (keys : List ApiKey) :
    Except CreateKeyError (ApiKey × Printed × List ApiKey) :=
  match Users.findByGithubLogin scan args.githubLogin users with
  | none => .error (.noUser ("no user with github login '" ++ args.githubLogin ++
      "' — sign in via the dashboard first"))
  | some user =>
      match Keys.generate A draw with
      | .error err => .error (.generate err)
      | .ok issued =>
          match ApiKeys.insert now id user.id issued.keyPrefix issued.secretHash args.tier
              args.label keys with
          | .error err => .error (.persist err)
          | .ok (row, keys') => .ok (row, printed args row issued, keys')

/-- The owner of a new key is the user that was found. -/
lemma userId_of_runCreateKey {A : Argon2Crate} {scan : RowOrder User} {draw : KeyDraw} {now : ℕ}
    {id : Uuid} {args : CreateKey} {users : List User} {keys keys' : List ApiKey} {row : ApiKey}
    {out : Printed}
    (h : runCreateKey A scan draw now id args users keys = .ok (row, out, keys')) :
    ∃ user, Users.findByGithubLogin scan args.githubLogin users = some user ∧
      row.userId = user.id := by
  rw [runCreateKey] at h
  split at h
  · cases h
  · rename_i user hfind
    split at h
    · cases h
    · split at h
      · cases h
      · rename_i row' keys'' hinsert
        obtain ⟨rfl, -⟩ := Prod.mk.inj (Except.ok.inj h)
        refine ⟨user, hfind, ?_⟩
        rw [(ApiKeys.insert_eq_ok hinsert).1]

/-! ### Histories of sign-ins -/

/-- One call of `upsert_from_github`, with the time and the id that a new row would get. -/
structure SignIn where
  now : ℕ
  id : Uuid
  githubUserId : ℤ
  githubLogin : String
  email : Option String
  avatarUrl : Option String
deriving DecidableEq

/-- The table `users`, and the calls that did not fail, the latest first. -/
structure SignedIn where
  users : List User
  signIns : List SignIn
deriving DecidableEq

/-- One call.  A call that fails changes nothing. -/
def exec (s : SignedIn) (c : SignIn) : SignedIn :=
  match Users.upsertFromGithub c.now c.id c.githubUserId c.githubLogin c.email c.avatarUrl
      s.users with
  | .ok (_, users) => ⟨users, c :: s.signIns⟩
  | .error _ => s

/-- The tables after a sequence of calls. -/
def after (calls : List SignIn) : SignedIn := Machine.run exec ⟨[], []⟩ calls

/-- The last sign-in of an account. -/
def lastOf (account : ℤ) (signIns : List SignIn) : Option SignIn :=
  signIns.find? fun c => c.githubUserId == account

/-- The last sign-in with a login. -/
def lastWith (login : String) (signIns : List SignIn) : Option SignIn :=
  signIns.find? fun c => c.githubLogin == login

/-- At most one row carries a login; the row that the lookup finds, in whatever order the
database visits the rows, is the account that most recently signed in with the login; and so
is the owner of a key that is issued for the login. -/
structure ResolvesLogins (s : SignedIn) : Prop where
  unique : ∀ login, (s.users.filter fun r => r.githubLogin == login).length ≤ 1
  found : ∀ (scan : RowOrder User) (login : String) (row : User),
    Users.findByGithubLogin scan login s.users = some row →
    (lastWith login s.signIns).map SignIn.githubUserId = some row.githubUserId
  owner : ∀ (A : Argon2Crate) (scan : RowOrder User) (draw : KeyDraw) (now : ℕ) (id : Uuid)
    (args : CreateKey) (keys keys' : List ApiKey) (key : ApiKey) (out : Printed),
    runCreateKey A scan draw now id args s.users keys = .ok (key, out, keys') →
    ∀ row ∈ s.users, row.id = key.userId →
      (lastWith args.githubLogin s.signIns).map SignIn.githubUserId = some row.githubUserId

/-- After the last sign-in of an account, no other account signs in with the same login. -/
def NoTakeover (signIns : List SignIn) : Prop :=
  ∀ later c earlier, signIns = later ++ c :: earlier →
    (∀ d ∈ later, d.githubUserId ≠ c.githubUserId) → ∀ d ∈ later, d.githubLogin ≠ c.githubLogin

/-! ### What the table knows of a history -/

/-- Every account that has signed in has one row, with the login of its last sign-in. -/
structure Tracks (s : SignedIn) : Prop where
  ids : (s.users.map User.id).Nodup
  accounts : (s.users.map User.githubUserId).Nodup
  login : ∀ r ∈ s.users,
    (lastOf r.githubUserId s.signIns).map SignIn.githubLogin = some r.githubLogin
  known : ∀ c ∈ s.signIns, ∃ r ∈ s.users, r.githubUserId = c.githubUserId

lemma lastOf_cons (account : ℤ) (c : SignIn) (signIns : List SignIn) :
    lastOf account (c :: signIns) =
      if c.githubUserId = account then some c else lastOf account signIns := by
  by_cases h : c.githubUserId = account
  · rw [if_pos h]
    exact List.find?_cons_of_pos (by simpa using h)
  · rw [if_neg h]
    exact List.find?_cons_of_neg (by simpa using h)

/-- A call keeps the table up to date. -/
lemma tracks_exec {s : SignedIn} (h : Tracks s) (c : SignIn) : Tracks (exec s c) := by
  rw [exec]
  split
  · rename_i row users hupsert
    obtain ⟨haccounts, hrows, hids⟩ := Users.upsertFromGithub_eq_ok hupsert
    refine ⟨hids h.ids, ?_, ?_, ?_⟩
    · rw [haccounts]
      split
      · exact h.accounts
      · rename_i hnew
        exact List.nodup_append.2 ⟨h.accounts, List.nodup_singleton _,
          fun a ha b hb hab => hnew (by rw [← List.mem_singleton.1 hb, ← hab]; exact ha)⟩
    · intro r hr
      rw [lastOf_cons]
      rcases hrows r hr with ⟨hid, hlogin⟩ | ⟨hid, hold⟩
      · rw [if_pos hid.symm, hlogin]
        rfl
      · rw [if_neg (Ne.symm hid)]
        exact h.login r hold
    · -- no account loses its row
      have hkept : ∀ account, account = c.githubUserId ∨ account ∈ s.users.map User.githubUserId →
          ∃ r ∈ users, r.githubUserId = account := by
        intro account hor
        refine List.mem_map.1 ?_
        rw [haccounts]
        split
        · rename_i hmem
          rcases hor with rfl | hor
          · exact hmem
          · exact hor
        · rcases hor with rfl | hor
          · simp
          · exact List.mem_append_left _ hor
      intro d hd
      refine hkept _ ?_
      rcases List.mem_cons.1 hd with rfl | hd
      · exact .inl rfl
      · exact .inr (List.mem_map.2 (h.known d hd))
  · exact h

lemma tracks_after (calls : List SignIn) : Tracks (after calls) := by
  have hrun : ∀ s, Tracks s → Tracks (Machine.run exec s calls) := by
    induction calls with
    | nil => exact fun s h => h
    | cons c calls ih => exact fun s h => ih _ (tracks_exec h c)
  refine hrun ⟨[], []⟩ ⟨List.nodup_nil, List.nodup_nil, ?_, ?_⟩
  · exact fun r hr => absurd hr List.not_mem_nil
  · exact fun c hc => absurd hc List.not_mem_nil

/-- A row of the table comes from a sign-in of its account that is the last one. -/
lemma Tracks.exists_last {s : SignedIn} (h : Tracks s) {r : User} (hr : r ∈ s.users) :
    ∃ later c earlier, s.signIns = later ++ c :: earlier ∧
      (∀ d ∈ later, d.githubUserId ≠ c.githubUserId) ∧ c.githubUserId = r.githubUserId ∧
      c.githubLogin = r.githubLogin := by
  obtain ⟨c, hc, hlogin⟩ := Option.map_eq_some_iff.1 (h.login r hr)
  obtain ⟨hid, later, earlier, hsplit, hlater⟩ := List.find?_eq_some_iff_append.1 hc
  have hid : c.githubUserId = r.githubUserId := by simpa using hid
  refine ⟨later, c, earlier, hsplit, fun d hd => ?_, hid, hlogin⟩
  rw [hid]
  simpa using hlater d hd

/-- The last sign-in of an account, if nobody used its login later. -/
lemma lastWith_of_split {later earlier : List SignIn} {c : SignIn}
    (h : ∀ d ∈ later, d.githubLogin ≠ c.githubLogin) :
    lastWith c.githubLogin (later ++ c :: earlier) = some c := by
  refine List.find?_eq_some_iff_append.2 ⟨by simp, later, earlier, rfl, fun d hd => ?_⟩
  simpa using h d hd

/-- Without a takeover, the row of an account tells who last signed in with its login. -/
lemma Tracks.lastWith_of_noTakeover {s : SignedIn} (h : Tracks s) (hno : NoTakeover s.signIns)
    {r : User} (hr : r ∈ s.users) :
    (lastWith r.githubLogin s.signIns).map SignIn.githubUserId = some r.githubUserId := by
  obtain ⟨later, c, earlier, hsplit, hlater, hid, hlogin⟩ := h.exists_last hr
  rw [hsplit, ← hlogin, lastWith_of_split (hno later c earlier hsplit hlater), Option.map_some, hid]

/-- The logins are resolved exactly if there is no takeover. -/
lemma Tracks.resolvesLogins_iff {s : SignedIn} (h : Tracks s) :
    ResolvesLogins s ↔ NoTakeover s.signIns := by
  constructor
  · intro hres later c earlier hsplit hlater d hd hdlogin
    -- the row of the account still has the login, and is the one that is found
    obtain ⟨r, hr, hrid⟩ := h.known c (by rw [hsplit]; simp)
    obtain ⟨c', hc', hrlogin⟩ := Option.map_eq_some_iff.1 (h.login r hr)
    have hlast : lastOf r.githubUserId s.signIns = some c := by
      rw [hsplit, hrid]
      refine List.find?_eq_some_iff_append.2 ⟨by simp, later, earlier, rfl, fun d hd => ?_⟩
      simpa using hlater d hd
    obtain rfl : c = c' := Option.some.inj (hlast.symm.trans hc')
    have hfound := hres.found .stored r.githubLogin r
      (Users.findByGithubLogin_of_unique hr (hres.unique _) _)
    -- but the last sign-in with the login is later than the last one of the account
    obtain ⟨e, he, heid⟩ := Option.map_eq_some_iff.1 hfound
    rw [lastWith, hsplit, List.find?_append] at he
    have hsome : (later.find? fun x => x.githubLogin == r.githubLogin).isSome :=
      List.find?_isSome.2 ⟨d, hd, by rw [hdlogin, hrlogin]; simp⟩
    obtain ⟨e', he'⟩ := Option.isSome_iff_exists.1 hsome
    rw [he', Option.some_or] at he
    obtain rfl := Option.some.inj he
    exact hlater e' (List.mem_of_find?_eq_some he') (heid.trans hrid)
  · intro hno
    have hrow := fun {r : User} (hr : r ∈ s.users) => h.lastWith_of_noTakeover hno hr
    refine ⟨fun login => ?_, fun scan login row hfind => ?_, ?_⟩
    · -- two rows with the login are of the account that used it last
      refine Table.length_filter_le_one h.accounts fun r hr r' hr' hlogin hlogin' => ?_
      have hid := hrow hr
      rw [beq_iff_eq.1 hlogin, ← beq_iff_eq.1 hlogin', hrow hr'] at hid
      exact (Option.some.inj hid).symm
    · obtain ⟨hmem, hlogin⟩ := Users.mem_of_findByGithubLogin hfind
      rw [← hlogin]
      exact hrow hmem
    · intro A scan draw now id args keys keys' key out hrun row hmem hid
      obtain ⟨user, hfind, huser⟩ := userId_of_runCreateKey hrun
      obtain ⟨hmem', hlogin⟩ := Users.mem_of_findByGithubLogin hfind
      rw [List.inj_on_of_nodup_map h.ids hmem hmem' (hid.trans huser), ← hlogin]
      exact hrow hmem'

/-- A call that draws a fresh id does not fail. -/
lemma exec_of_fresh {s : SignedIn} {c : SignIn} (h : c.id ∉ s.users.map User.id) :
    (exec s c).signIns = c :: s.signIns ∧
      ∀ r ∈ (exec s c).users, r.id = c.id ∨ r.id ∈ s.users.map User.id := by
  have hfree : (s.users.map User.id).contains c.id = false := by simpa using h
  rw [exec, Users.upsertFromGithub]
  cases s.users.find? fun row => row.githubUserId == c.githubUserId with
  | none =>
      simp only [hfree, Bool.false_eq_true, if_false, true_and]
      intro r hr
      rcases List.mem_append.1 hr with hr | hr
      · exact .inr (List.mem_map_of_mem hr)
      · rw [List.mem_singleton.1 hr]
        exact .inl rfl
  | some row =>
      refine ⟨rfl, fun r hr => .inr ?_⟩
      obtain ⟨r₀, hr₀, rfl⟩ := List.mem_map.1 hr
      refine List.mem_map.2 ⟨r₀, hr₀, ?_⟩
      split
      · rfl
      · rfl

/-- If the ids that are drawn are distinct, no call fails. -/
lemma signIns_after {calls : List SignIn} (hdraws : (calls.map SignIn.id).Nodup) :
    (after calls).signIns = calls.reverse := by
  have hrun : ∀ s : SignedIn, (∀ c ∈ calls, c.id ∉ s.users.map User.id) →
      (Machine.run exec s calls).signIns = calls.reverse ++ s.signIns := by
    induction calls with
    | nil => exact fun s _ => rfl
    | cons c calls ih =>
        intro s hfree
        obtain ⟨hc, hcalls⟩ := List.forall_mem_cons.1 hfree
        obtain ⟨hnew, hnd⟩ := List.nodup_cons.1 hdraws
        obtain ⟨hsign, hids⟩ := exec_of_fresh hc
        rw [Machine.run_cons, ih hnd (exec s c), hsign, List.reverse_cons, List.append_assoc]
        · rfl
        · intro d hd hmem
          obtain ⟨r, hr, hrid⟩ := List.mem_map.1 hmem
          rcases hids r hr with h | h
          · exact hnew (List.mem_map.2 ⟨d, hd, hrid.symm.trans h⟩)
          · exact hcalls d hd (hrid ▸ h)
  rw [after, hrun ⟨[], []⟩ fun _ _ => List.not_mem_nil, List.append_nil]

/-- After any sequence of sign-ins: at most one row of `users` carries a login, and the lookup
by a login and the keys that are issued for it lead to the account that most recently signed in
with it, exactly if no account signed in with a login after the last sign-in of another account
that used it.  The sign-ins that count are those that did not fail, which is all of them if the
ids that are drawn for new rows are distinct. -/
theorem login_resolves_iff (calls : List SignIn) :
    (ResolvesLogins (after calls) ↔ NoTakeover (after calls).signIns) ∧
      ((calls.map SignIn.id).Nodup → (after calls).signIns = calls.reverse) :=
  ⟨(tracks_after calls).resolvesLogins_iff, signIns_after⟩

namespace Sample

/-- The account 1 signs in as `alice` and then renames itself on GitHub; the account 2 takes the
name and signs in. -/
def takeover : List SignIn := [⟨0, 1, 1, "alice", none, none⟩, ⟨1, 2, 2, "alice", none, none⟩]

end Sample

/-- Two rows carry the login, and the lookup may find the account that does not have it any
more. -/
theorem released_login_is_ambiguous :
    ((after Sample.takeover).users.filter fun r => r.githubLogin == "alice").length = 2 ∧
      (Users.findByGithubLogin .stored "alice" (after Sample.takeover).users).map
        User.githubUserId = some 1 ∧
      (lastWith "alice" (after Sample.takeover).signIns).map SignIn.githubUserId = some 2 ∧
      ¬ ResolvesLogins (after Sample.takeover) := by
  have htwo : ((after Sample.takeover).users.filter fun r => r.githubLogin == "alice").length = 2 :=
    by decide
  refine ⟨htwo, by decide, by decide, fun h => ?_⟩
  have hone := h.unique "alice"
  rw [htwo] at hone
  exact absurd hone (by decide)

end AdminCli

end Api

end Cellora

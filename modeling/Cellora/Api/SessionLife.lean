/-
# The life of a session

A cookie gives access as a user from the insert of the session until it expires or is signed
out, and at no other time.  The table `sessions` is a table of leases (`Lease.Implements`),
and the leases are a function of the history: the last event about the hash of the token
counts.  So the updates of `last_seen_at` never extend a session, deleting the expired rows is
not seen, and a sign-out closes one browser only.

The user is the one whose account of GitHub signed in: an upsert never changes the id or the
account of a row.
-/
import Cellora.Api.RateLimitHeaders
import Cellora.Api.Session
import Cellora.Api.Tenancy

namespace Cellora

namespace Api

/-! ### Statements -/

section Statements

variable {α β : Type} {reply : StatementReply} {result : Except DbError (β × List α)}
  {rows : List α}

/-- A statement changes the table if the database accepts it and it takes effect. -/
lemma StatementReply.execute_snd :
    (reply.execute result rows).2 = match result with
      | .ok (_, rows') => if reply.takesEffect then rows' else rows
      | .error _ => rows := by
  cases result with
  | error e => cases reply <;> rfl
  | ok p => cases reply <;> rfl

lemma StatementReply.execute_eq_ok {b : β} (h : (reply.execute result rows).1 = .ok b) :
    ∃ rows', result = .ok (b, rows') ∧ (reply.execute result rows).2 = rows' := by
  cases result with
  | error e => cases reply <;> cases h
  | ok p =>
      cases reply with
      | answered =>
          obtain rfl : p.1 = b := Except.ok.inj h
          exact ⟨p.2, rfl, rfl⟩
      | lost message => cases h
      | failed message => cases h

end Statements

/-! ### The leases of a history -/

namespace SessionEvent

/-- The event, for the table of leases. -/
def lease (L : SessionLib) : SessionEvent → Lease.Event String Uuid
  | .signedIn token _ userId expiresAt => .issued (hashToken L token) ⟨userId, expiresAt⟩
  | .signedOut tokenHash => .revoked tokenHash

@[simp] lemma key_lease (L : SessionLib) (e : SessionEvent) : (e.lease L).key = e.tokenHash L := by
  cases e <;> rfl

end SessionEvent

/-- The leases after a history. -/
def leases (L : SessionLib) (history : List SessionEvent) : String → Option (Lease Uuid) :=
  Lease.after (history.map (SessionEvent.lease L))

/-- The last event about a hash. -/
def lastEvent (L : SessionLib) (tokenHash : String) (history : List SessionEvent) :
    Option SessionEvent :=
  (history.filter fun e => e.tokenHash L = tokenHash).getLast?

section Leases

variable {L : SessionLib} {history : List SessionEvent} {tokenHash : String}

lemma leases_concat (e : SessionEvent) :
    leases L (history ++ [e]) =
      Function.update (leases L history) (e.tokenHash L) (e.lease L).lease := by
  rw [leases, List.map_append, List.map_singleton, Lease.after_concat, SessionEvent.key_lease]
  rfl

/-- A hash has a lease if the last event about it is a sign-in. -/
lemma leases_eq_some_iff {l : Lease Uuid} :
    leases L history tokenHash = some l ↔ ∃ token account, hashToken L token = tokenHash ∧
      lastEvent L tokenHash history = some (.signedIn token account l.value l.expiresAt) := by
  have hfilter : ((history.map (SessionEvent.lease L)).filter fun e => e.key = tokenHash) =
      (history.filter fun e => e.tokenHash L = tokenHash).map (SessionEvent.lease L) := by
    rw [List.filter_map]
    congr 1
    exact List.filter_congr fun e _ => by simp
  rw [leases, Lease.after_eq_some_iff, hfilter, List.getLast?_map, Option.map_eq_some_iff,
    ← lastEvent]
  constructor
  · rintro ⟨e, he, heq⟩
    cases e with
    | signedIn token account userId expiresAt =>
        obtain ⟨hhash, hl⟩ := Lease.Event.issued.inj heq
        exact ⟨token, account, hhash, by rw [he, ← hl]⟩
    | signedOut h => cases heq
  · rintro ⟨token, account, rfl, he⟩
    exact ⟨_, he, rfl⟩

end Leases

/-! ### The invariant of the tables -/

/-- The user with an id has an account of GitHub. -/
def HasAccount (users : List User) (userId : Uuid) (account : ℤ) : Prop :=
  ∃ row ∈ users, row.id = userId ∧ row.githubUserId = account

namespace SessionWorld

/-- What every move keeps: the sessions implement the leases of the history, and the users
that sign-ins have found keep their accounts. -/
structure Inv (L : SessionLib) (w : SessionWorld) : Prop where
  table : Sessions.Implements w.clock (leases L w.history) w.sessions
  ids : (w.users.map User.id).Nodup
  accounts : ∀ token account userId expiresAt,
    SessionEvent.signedIn token account userId expiresAt ∈ w.history →
      HasAccount w.users userId account
  inserting : ∀ userAgent profile user,
    ⟨userAgent, .inserting profile user⟩ ∈ w.signIns → HasAccount w.users user.id profile.id

section Moves

variable {L : SessionLib} {D : DashboardLib} {config : SessionConfig} {w : SessionWorld}

lemma Inv.start (clock : ℕ) : Inv L (start clock) where
  table := Lease.Implements.empty _
  ids := List.nodup_nil
  accounts := fun _ _ _ _ h => absurd h List.not_mem_nil
  inserting := fun _ _ _ h => absurd h List.not_mem_nil

lemma Inv.callback (h : Inv L w) (g : GithubReplies) (userAgent : Option String) :
    Inv L (w.callback g userAgent) where
  table := h.table
  ids := h.ids
  accounts := h.accounts
  inserting := by
    intro ua profile user hmem
    rcases List.mem_append.1 hmem with hmem | hmem
    · exact h.inserting ua profile user hmem
    · have heq := congrArg SessionSignIn.stage (List.mem_singleton.1 hmem)
      simp only at heq
      split at heq <;> cases heq

/-- What the upsert of a sign-in leaves behind, however it ends. -/
lemma upsert_statement {now : ℕ} {id : Uuid} {account : ℤ} {login : String}
    {email avatarUrl : Option String} {users : List User} (hids : (users.map User.id).Nodup)
    (reply : StatementReply) {out : Except ApiError User × List User}
    (hout : reply.execute (Users.upsertFromGithub now id account login email avatarUrl users)
      users = out) :
    (out.2.map User.id).Nodup ∧
      (∀ userId a, HasAccount users userId a → HasAccount out.2 userId a) ∧
      ∀ user, out.1 = .ok user → HasAccount out.2 user.id account := by
  subst hout
  refine ⟨?_, ?_, fun user huser => ?_⟩
  · rw [StatementReply.execute_snd]
    split
    · rename_i hok
      split
      · exact (Users.upsertFromGithub_eq_ok hok).ids hids
      · exact hids
    · exact hids
  · rintro userId a ⟨r, hr, rfl, rfl⟩
    rw [StatementReply.execute_snd]
    split
    · rename_i hok
      split
      · obtain ⟨r', hr', heq⟩ := (Users.upsertFromGithub_keeps hok).1 r hr
        exact ⟨r', hr', heq⟩
      · exact ⟨r, hr, rfl, rfl⟩
    · exact ⟨r, hr, rfl, rfl⟩
  · obtain ⟨rows', hok, hrows⟩ := StatementReply.execute_eq_ok huser
    obtain ⟨-, hrow, hacc⟩ := Users.upsertFromGithub_keeps hok
    exact ⟨user, hrows ▸ hrow, rfl, hacc⟩

lemma Inv.upsert (h : Inv L w) (i : ℕ) (id : Uuid) (reply : StatementReply) :
    Inv L (w.upsert i id reply) := by
  unfold SessionWorld.upsert
  split
  · rename_i userAgent profile email hi
    generalize hout : reply.execute (Users.upsertFromGithub w.clock id profile.id profile.login
      email profile.avatarUrl w.users) w.users = out
    obtain ⟨user, users⟩ := out
    obtain ⟨hids, hkeep, huser⟩ := upsert_statement h.ids reply hout
    refine ⟨h.table, hids, fun token account userId expiresAt hmem =>
      hkeep _ _ (h.accounts token account userId expiresAt hmem), ?_⟩
    intro ua profile' user' hmem
    rcases List.mem_or_eq_of_mem_set hmem with hmem | heq
    · exact hkeep _ _ (h.inserting ua profile' user' hmem)
    · have heq := congrArg SessionSignIn.stage heq
      cases user with
      | error err => cases heq
      | ok row =>
          obtain ⟨rfl, rfl⟩ := SignInStage.inserting.inj heq
          exact huser user' rfl
  · exact h

/-- A stage of a sign-in that is over does not matter. -/
lemma Inv.setSignIn (h : Inv L w) (i : ℕ) (userAgent : Option String)
    (result : Except ApiError SignInResponse) :
    Inv L (w.setSignIn i userAgent (.answered result)) where
  table := h.table
  ids := h.ids
  accounts := h.accounts
  inserting := by
    intro ua profile user hmem
    rcases List.mem_or_eq_of_mem_set hmem with hmem | heq
    · exact h.inserting ua profile user hmem
    · cases congrArg SessionSignIn.stage heq

lemma Inv.insertSession (h : Inv L w) (i : ℕ) (bytes : Bytes) (utcNow later : ℤ)
    (reply : StatementReply) : Inv L (w.insertSession L config i bytes utcNow later reply) := by
  unfold SessionWorld.insertSession
  split
  · rename_i userAgent profile user hi
    have huser := h.inserting userAgent profile user (List.mem_of_getElem? hi)
    split
    · exact h.setSignIn i userAgent _
    · rename_i expiresAt hadd
      refine Inv.setSignIn ?_ i userAgent _
      refine ⟨?_, h.ids, ?_, h.inserting⟩
      · -- the row that is inserted is the lease the history records
        change Lease.Implements _ _ _ _ (reply.execute _ w.sessions).2
        rw [StatementReply.execute_snd]
        cases hins : Sessions.insert w.clock (hashToken L (generateToken bytes)) user.id expiresAt
            userAgent w.users w.sessions with
        | error e => simpa [Except.isOk, Except.toBool] using h.table
        | ok p =>
            obtain ⟨row, rows'⟩ := p
            obtain ⟨hfresh, -, rfl, rfl⟩ := Sessions.insert_eq_ok_iff.1 hins
            cases heff : reply.takesEffect with
            | false => simpa [Except.isOk, Except.toBool] using h.table
            | true =>
                simp only [Except.isOk, Except.toBool, Bool.and_self, if_true]
                rw [leases_concat]
                have hrow : Session.tokenHash ⟨hashToken L (generateToken bytes), user.id, w.clock,
                  expiresAt, w.clock, userAgent⟩ ∉ w.sessions.map Session.tokenHash := hfresh
                exact Lease.Implements.insert h.table hrow
      · intro token account userId exp hmem
        simp only at hmem
        split at hmem
        · rcases List.mem_append.1 hmem with hmem | hmem
          · exact h.accounts token account userId exp hmem
          · obtain ⟨-, rfl, rfl, -⟩ := SessionEvent.signedIn.inj (List.mem_singleton.1 hmem)
            exact huser
        · exact h.accounts token account userId exp hmem
  · exact h

lemma Inv.signOut (h : Inv L w) (auth : AuthenticatedSession) (reply : StatementReply) :
    Inv L (w.signOut config auth reply).2 := by
  refine ⟨?_, h.ids, ?_, h.inserting⟩
  · change Lease.Implements _ _ _ (leases L (if reply.takesEffect then _ else _))
      (reply.execute _ w.sessions).2
    rw [StatementReply.execute_snd]
    cases reply.takesEffect with
    | false => exact h.table
    | true =>
        simp only [if_true]
        rw [leases_concat]
        exact Lease.Implements.delete h.table auth.session.tokenHash
  · intro token account userId exp hmem
    refine h.accounts token account userId exp ?_
    change _ ∈ (if reply.takesEffect then _ else _) at hmem
    split at hmem
    · simpa using hmem
    · exact hmem

lemma Inv.handle (h : Inv L w) (r : ℕ) (reply : StatementReply) :
    Inv L (w.handle D config r reply) := by
  unfold SessionWorld.handle
  split
  · rename_i cookie action auth hr
    have hrun : Inv L (w.runHandler D config auth reply action).2 := by
      cases action with
      | me => exact h
      | signOut => exact h.signOut auth reply
      | dashboard request draw => exact ⟨h.table, h.ids, h.accounts, h.inserting⟩
    exact ⟨hrun.table, hrun.ids, hrun.accounts, hrun.inserting⟩
  · exact h

/-- The reads of a request and its answer change nothing else. -/
lemma Inv.of_requests (h : Inv L w) (requests : List AdminRequest) (tasks : List String) :
    Inv L { w with requests := requests, tasks := tasks } :=
  ⟨h.table, h.ids, h.accounts, h.inserting⟩

lemma Inv.touch (h : Inv L w) (i : ℕ) (runs : Bool) : Inv L (w.touch i runs) := by
  unfold SessionWorld.touch
  split
  · rename_i tokenHash _
    refine ⟨?_, h.ids, h.accounts, h.inserting⟩
    cases runs with
    | false => exact h.table
    | true => exact Sessions.Implements.touchLastSeen h.table w.clock tokenHash
  · exact h

lemma Inv.find (h : Inv L w) (r : ℕ) (fault : Option String) : Inv L (w.find r fault) := by
  unfold SessionWorld.find
  split
  · exact h.of_requests _ _
  · exact h

lemma Inv.own (h : Inv L w) (r : ℕ) (fault : Option String) : Inv L (w.own r fault) := by
  unfold SessionWorld.own
  split
  · exact h.of_requests _ _
  · exact h

lemma Inv.tick (h : Inv L w) (elapsed : ℕ) : Inv L { w with clock := w.clock + elapsed } := by
  refine ⟨Lease.Implements.tick h.table ?_, h.ids, h.accounts, h.inserting⟩
  exact_mod_cast Nat.le_add_right w.clock elapsed

/-- **Every move keeps the invariant.** -/
lemma Inv.exec (h : Inv L w) (m : SessionMove) : Inv L (w.exec L D config m) := by
  cases m with
  | tick elapsed => exact h.tick elapsed
  | callback g userAgent => exact h.callback g userAgent
  | upsert i id reply => exact h.upsert i id reply
  | insertSession i bytes utcNow later reply => exact h.insertSession i bytes utcNow later reply
  | request cookie action => exact h.of_requests _ _
  | find r fault => exact h.find r fault
  | own r fault => exact h.own r fault
  | handle r reply => exact h.handle r reply
  | touch i runs => exact h.touch i runs
  | reap => exact ⟨Sessions.Implements.deleteExpired h.table, h.ids, h.accounts, h.inserting⟩
  | restart =>
      exact ⟨h.table, h.ids, h.accounts, fun _ _ _ hmem => absurd hmem List.not_mem_nil⟩

lemma inv_stateAt (L : SessionLib) (D : DashboardLib) (config : SessionConfig) (clock : ℕ)
    (ms : List SessionMove) (k : ℕ) : Inv L (stateAt L D config clock ms k) :=
  Machine.before_induction _ (fun _ w => Inv L w) (Inv.start clock)
    (fun _ m _ h => h.exec m) (fun _ _ h => h) k

end Moves

/-! ### What a token gives access to -/

/-- At this moment the token gives access: the last event about its hash is a sign-in of the
account as the user, and that session has not expired. -/
structure Grants (L : SessionLib) (w : SessionWorld) (token : String) (account : ℤ)
    (userId : Uuid) (expiresAt : ℤ) : Prop where
  last : ∃ issued, hashToken L issued = hashToken L token ∧
    lastEvent L (hashToken L token) w.history = some (.signedIn issued account userId expiresAt)
  unexpired : (w.clock : ℤ) < expiresAt

section Access

variable {L : SessionLib} {w : SessionWorld} {token : String} {account : ℤ} {userId : Uuid}
  {expiresAt : ℤ} {session : Session}

/-- The event of a grant is in the history. -/
lemma Grants.mem_history (h : Grants L w token account userId expiresAt) :
    ∃ issued, SessionEvent.signedIn issued account userId expiresAt ∈ w.history := by
  obtain ⟨issued, -, hlast⟩ := h.last
  exact ⟨issued, List.mem_of_mem_filter (List.mem_of_getLast? hlast)⟩

/-- The first read of the middleware finds only what is granted. -/
lemma Inv.grants_of_findActive (h : Inv L w)
    (hfind : Sessions.findActive w.clock (hashToken L token) w.sessions = some session) :
    ∃ account, Grants L w token account session.userId session.expiresAt := by
  obtain ⟨-, -, hlease, hlt⟩ := (Lease.Implements.find?_eq_some_iff h.table).1 hfind
  obtain ⟨issued, account, hhash, hlast⟩ := leases_eq_some_iff.1 hlease
  exact ⟨account, ⟨issued, hhash, hlast⟩, hlt⟩

/-- What is granted is found. -/
lemma Inv.exists_findActive (h : Inv L w) (hg : Grants L w token account userId expiresAt) :
    ∃ session, Sessions.findActive w.clock (hashToken L token) w.sessions = some session ∧
      session.userId = userId ∧ session.expiresAt = expiresAt := by
  obtain ⟨issued, hhash, hlast⟩ := hg.last
  have hlease : leases L w.history (hashToken L token) = some ⟨userId, expiresAt⟩ :=
    leases_eq_some_iff.2 ⟨issued, account, hhash, hlast⟩
  obtain ⟨session, hfind, hl⟩ := Lease.Implements.exists_find? h.table hlease hg.unexpired
  exact ⟨session, hfind, congrArg Lease.value hl, congrArg Lease.expiresAt hl⟩

/-- The second read finds the user with the account that signed in. -/
lemma Inv.findById_eq (h : Inv L w) (hacc : HasAccount w.users userId account) :
    ∃ user, Users.findById userId w.users = some user ∧ user.id = userId ∧
      user.githubUserId = account := by
  obtain ⟨row, hrow, rfl, rfl⟩ := hacc
  cases hfind : Users.findById row.id w.users with
  | none =>
      have := List.find?_eq_none.1 hfind row hrow
      simp at this
  | some user =>
      have hid : user.id = row.id := by simpa using List.find?_some hfind
      obtain rfl := List.inj_on_of_nodup_map h.ids (List.mem_of_find?_eq_some hfind) hrow hid
      exact ⟨user, rfl, rfl, rfl⟩

/-- The history only grows. -/
lemma history_subset_exec (L : SessionLib) (D : DashboardLib) (config : SessionConfig)
    (w : SessionWorld) (m : SessionMove) : w.history ⊆ (w.exec L D config m).history := by
  cases m with
  | insertSession i bytes utcNow later reply =>
      change _ ⊆ (w.insertSession L config i bytes utcNow later reply).history
      unfold insertSession
      split
      · split
        · exact List.Subset.refl _
        · simp only [setSignIn]
          split
          · exact List.subset_append_left _ _
          · exact List.Subset.refl _
      · exact List.Subset.refl _
  | handle r reply =>
      change _ ⊆ (w.handle D config r reply).history
      unfold handle
      split
      · rename_i cookie action auth hr
        cases action with
        | me => exact List.Subset.refl _
        | signOut =>
            simp only [runHandler, signOut, setRequest]
            split
            · exact List.subset_append_left _ _
            · exact List.Subset.refl _
        | dashboard request draw => exact List.Subset.refl _
      · exact List.Subset.refl _
  | upsert i id reply =>
      change _ ⊆ (w.upsert i id reply).history
      unfold upsert
      split <;> exact List.Subset.refl _
  | find r fault =>
      change _ ⊆ (w.find r fault).history
      unfold find
      split <;> exact List.Subset.refl _
  | own r fault =>
      change _ ⊆ (w.own r fault).history
      unfold own
      split <;> exact List.Subset.refl _
  | touch i runs =>
      change _ ⊆ (w.touch i runs).history
      unfold touch
      split <;> exact List.Subset.refl _
  | _ => exact List.Subset.refl _

end Access

/-! ### Requests in flight -/

/-- What the middleware has read for a request: the session, and then the user. -/
def resolvedBy : AdminStage → Option (Session × Option User)
  | .owning session => some (session, none)
  | .handling auth => some (auth.session, some auth.user)
  | _ => none

/-- Where a request after a move comes from. -/
inductive Stepped (L : SessionLib) (w : SessionWorld) (r : ℕ) :
    SessionMove → AdminRequest → Prop
  | kept {m : SessionMove} {q : AdminRequest} (h : w.requests[r]? = some q) : Stepped L w r m q
  /-- It has just arrived, or its handler has answered. -/
  | unread {m : SessionMove} {q : AdminRequest} (hnone : resolvedBy q.stage = none)
      (hhash : ∀ h, q.stage = .finding h →
        ∃ token, extractSessionCookie q.cookie = some token ∧ h = hashToken L token) :
      Stepped L w r m q
  | found {cookie : Option String} {action : AdminAction} {tokenHash : String}
      (hreq : w.requests[r]? = some ⟨cookie, action, .finding tokenHash⟩)
      (fault : Option String) :
      Stepped L w r (.find r fault)
        ⟨cookie, action, findStage fault w.clock tokenHash w.sessions⟩
  | owned {cookie : Option String} {action : AdminAction} {session : Session}
      (hreq : w.requests[r]? = some ⟨cookie, action, .owning session⟩) (fault : Option String) :
      Stepped L w r (.own r fault) ⟨cookie, action, ownStage fault session w.users⟩

section Flight

variable {L : SessionLib} {D : DashboardLib} {config : SessionConfig} {w : SessionWorld}

/-- An element of a list with one more at its end. -/
lemma getElem?_of_concat {α : Type} {l : List α} {j : ℕ} {a b : α}
    (h : (l ++ [a])[j]? = some b) : l[j]? = some b ∨ a = b := by
  rw [List.getElem?_append] at h
  split at h
  · exact Or.inl h
  · rw [List.getElem?_singleton] at h
    split at h
    · exact Or.inr (Option.some.inj h)
    · cases h

/-- **Inversion of a move, for one request.** -/
lemma stepped {m : SessionMove} {r : ℕ} {q : AdminRequest}
    (hq : (w.exec L D config m).requests[r]? = some q) : Stepped L w r m q := by
  cases m with
  | request cookie action =>
      have hq : (w.requests ++ [_])[r]? = some q := hq
      rcases getElem?_of_concat hq with h | h
      · exact .kept h
      · subst h
        refine .unread ?_ fun h hstage => ?_
        · simp only
          split <;> rfl
        · simp only at hstage ⊢
          split at hstage
          · cases hstage
          · rename_i token htoken
            exact ⟨token, htoken, (AdminStage.finding.inj hstage).symm⟩
  | find r' fault =>
      change (w.find r' fault).requests[r]? = some q at hq
      unfold find at hq
      split at hq
      · rename_i cookie action tokenHash hreq
        rcases getElem?_of_set hq with h | ⟨rfl, rfl⟩
        · exact .kept h
        · exact .found hreq fault
      · exact .kept hq
  | own r' fault =>
      change (w.own r' fault).requests[r]? = some q at hq
      unfold own at hq
      split at hq
      · rename_i cookie action session hreq
        rcases getElem?_of_set hq with h | ⟨rfl, rfl⟩
        · exact .kept h
        · exact .owned hreq fault
      · exact .kept hq
  | handle r' reply =>
      change (w.handle D config r' reply).requests[r]? = some q at hq
      unfold handle at hq
      split at hq
      · rename_i cookie action auth hreq
        have hsame : (w.runHandler D config auth reply action).2.requests = w.requests := by
          cases action <;> rfl
        rcases getElem?_of_set hq with h | ⟨rfl, rfl⟩
        · exact .kept (hsame ▸ h)
        · exact .unread rfl fun h hstage => nomatch hstage
      · exact .kept hq
  | insertSession i bytes utcNow later reply =>
      change (w.insertSession L config i bytes utcNow later reply).requests[r]? = some q at hq
      have hsame : (w.insertSession L config i bytes utcNow later reply).requests = w.requests := by
        unfold insertSession
        split
        · split <;> rfl
        · rfl
      exact .kept (hsame ▸ hq)
  | upsert i id reply =>
      change (w.upsert i id reply).requests[r]? = some q at hq
      have hsame : (w.upsert i id reply).requests = w.requests := by
        unfold upsert
        split <;> rfl
      exact .kept (hsame ▸ hq)
  | touch i runs =>
      change (w.touch i runs).requests[r]? = some q at hq
      have hsame : (w.touch i runs).requests = w.requests := by
        unfold touch
        split <;> rfl
      exact .kept (hsame ▸ hq)
  | restart => exact absurd hq (by simp [exec])
  | _ => exact .kept hq

variable {clock : ℕ} {ms : List SessionMove}

/-- What is known of a request before the move `k`: the hash it looks up is that of its
cookie, and what the middleware has read for it was granted at the moment of the read. -/
structure Backed (L : SessionLib) (D : DashboardLib) (config : SessionConfig) (clock : ℕ)
    (ms : List SessionMove) (k : ℕ) (history : List SessionEvent) (r : ℕ) (q : AdminRequest) :
    Prop where
  hash : ∀ h, q.stage = .finding h →
    ∃ token, extractSessionCookie q.cookie = some token ∧ h = hashToken L token
  read : ∀ session user, resolvedBy q.stage = some (session, user) →
    ∃ j < k, ∃ token account, extractSessionCookie q.cookie = some token ∧
      ms[j]? = some (.find r none) ∧
      Grants L (stateAt L D config clock ms j) token account session.userId session.expiresAt ∧
      (∃ issued, SessionEvent.signedIn issued account session.userId session.expiresAt ∈ history) ∧
      ∀ u ∈ user, u.id = session.userId ∧ u.githubUserId = account

lemma Backed.mono {k : ℕ} {history history' : List SessionEvent} {r : ℕ} {q : AdminRequest}
    (h : Backed L D config clock ms k history r q) (hsub : history ⊆ history') :
    Backed L D config clock ms (k + 1) history' r q where
  hash := h.hash
  read := by
    intro session user hres
    obtain ⟨j, hj, token, account, htoken, hmove, hg, ⟨issued, hmem⟩, huser⟩ :=
      h.read session user hres
    exact ⟨j, Nat.lt_succ_of_lt hj, token, account, htoken, hmove, hg, ⟨issued, hsub hmem⟩, huser⟩

lemma findStage_resolvedBy {fault : Option String} {now : ℕ} {tokenHash : String}
    {rows : List Session} {session : Session} {user : Option User}
    (h : resolvedBy (findStage fault now tokenHash rows) = some (session, user)) :
    fault = none ∧ Sessions.findActive now tokenHash rows = some session ∧ user = none := by
  unfold findStage at h
  split at h
  · cases h
  · split at h
    · cases h
    · rename_i s hfind
      obtain ⟨rfl, rfl⟩ := Prod.mk.inj (Option.some.inj h)
      exact ⟨rfl, hfind, rfl⟩

lemma ownStage_resolvedBy {fault : Option String} {s session : Session} {rows : List User}
    {user : Option User} (h : resolvedBy (ownStage fault s rows) = some (session, user)) :
    fault = none ∧ session = s ∧ ∃ u, user = some u ∧ Users.findById s.userId rows = some u := by
  unfold ownStage at h
  split at h
  · cases h
  · split at h
    · cases h
    · rename_i u hfind
      obtain ⟨rfl, rfl⟩ := Prod.mk.inj (Option.some.inj h)
      exact ⟨rfl, rfl, u, rfl, hfind⟩

lemma findStage_ne_finding {fault : Option String} {now : ℕ} {tokenHash h : String}
    {rows : List Session} : findStage fault now tokenHash rows ≠ .finding h := by
  unfold findStage
  split
  · exact fun h => nomatch h
  · split <;> exact fun h => nomatch h

lemma ownStage_ne_finding {fault : Option String} {session : Session} {rows : List User}
    {h : String} : ownStage fault session rows ≠ .finding h := by
  unfold ownStage
  split
  · exact fun h => nomatch h
  · split <;> exact fun h => nomatch h

/-- Everything the middleware has read for a request in flight was granted when it was
read. -/
lemma backed_stateAt (L : SessionLib) (D : DashboardLib) (config : SessionConfig) (clock : ℕ)
    (ms : List SessionMove) (k : ℕ) :
    ∀ r q, (stateAt L D config clock ms k).requests[r]? = some q →
      Backed L D config clock ms k (stateAt L D config clock ms k).history r q := by
  refine Machine.before_induction _ (fun k (w : SessionWorld) => ∀ r q, w.requests[r]? = some q →
    Backed L D config clock ms k w.history r q) ?_ ?_ ?_ k
  · intro r q hq
    exact absurd hq (by simp [start])
  · intro k m hm ih r q hq
    have hinv := inv_stateAt L D config clock ms k
    have hsub := history_subset_exec L D config (stateAt L D config clock ms k) m
    cases stepped hq with
    | kept h => exact (ih r q h).mono hsub
    | unread hnone hhash =>
        refine ⟨hhash, fun session user hres => ?_⟩
        rw [hnone] at hres
        cases hres
    | @found cookie action tokenHash hreq fault =>
        refine ⟨fun h hstage => absurd hstage findStage_ne_finding, fun session user hres => ?_⟩
        obtain ⟨rfl, hfind, rfl⟩ := findStage_resolvedBy hres
        obtain ⟨token, htoken, rfl⟩ := (ih r _ hreq).hash tokenHash rfl
        obtain ⟨account, hg⟩ := hinv.grants_of_findActive hfind
        obtain ⟨issued, hmem⟩ := hg.mem_history
        exact ⟨k, Nat.lt_succ_self k, token, account, htoken, hm, hg, ⟨issued, hsub hmem⟩,
          fun u hu => nomatch hu⟩
    | @owned cookie action s hreq fault =>
        refine ⟨fun h hstage => absurd hstage ownStage_ne_finding, fun session user hres => ?_⟩
        obtain ⟨rfl, rfl, u, rfl, hfind⟩ := ownStage_resolvedBy hres
        obtain ⟨j, hj, token, account, htoken, hmove, hg, ⟨issued, hmem⟩, -⟩ :=
          (ih r _ hreq).read session none rfl
        obtain ⟨user, huser, hid, hacc⟩ :=
          hinv.findById_eq (hinv.accounts issued account _ _ hmem)
        obtain rfl : user = u := Option.some.inj (huser.symm.trans hfind)
        refine ⟨j, Nat.lt_succ_of_lt hj, token, account, htoken, hmove, hg, ⟨issued, hsub hmem⟩, ?_⟩
        intro u' hu'
        obtain rfl : user = u' := Option.some.inj hu'
        exact ⟨hid, hacc⟩
  · intro k w h r q hq
    exact (h r q hq).mono (List.Subset.refl _)

end Flight

/-! ### A request that nothing disturbs -/

section Undisturbed

variable {L : SessionLib} {D : DashboardLib} {config : SessionConfig} {w : SessionWorld}
  {cookie : Option String} {action : AdminAction}

/-- The world after a request has gone through the middleware, with no other move in
between and no fault. -/
def resolveNow (L : SessionLib) (D : DashboardLib) (config : SessionConfig) (w : SessionWorld)
    (cookie : Option String) (action : AdminAction) : SessionWorld :=
  Machine.run (exec L D config) w
    [.request cookie action, .find w.requests.length none, .own w.requests.length none]

/-- The stage it is in then. -/
def resolvedStage (L : SessionLib) (w : SessionWorld) (cookie : Option String) : AdminStage :=
  match extractSessionCookie cookie with
  | none => .answered (.error (.unauthorized "missing session"))
  | some token =>
      match Sessions.findActive w.clock (hashToken L token) w.sessions with
      | none => .answered (.error (.unauthorized "unknown or expired session"))
      | some session => ownStage none session w.users

lemma resolveNow_request :
    (resolveNow L D config w cookie action).requests[w.requests.length]? =
      some ⟨cookie, action, resolvedStage L w cookie⟩ := by
  simp only [resolveNow, Machine.run_cons, Machine.run_nil, exec]
  unfold resolvedStage
  cases hcookie : extractSessionCookie cookie with
  | none => simp [request, hcookie, find, own]
  | some token =>
      have hreq : (w.request L cookie action).requests[w.requests.length]? =
          some ⟨cookie, action, .finding (hashToken L token)⟩ := by
        simp [request, hcookie]
      simp only [find, hreq]
      cases hfind : Sessions.findActive w.clock (hashToken L token) w.sessions with
      | none => simp [findStage, request, hfind, setRequest, own]
      | some session => simp [findStage, request, hfind, setRequest, own]

end Undisturbed

/-! ### A sign-in that completes -/

section SignIn

variable {L : SessionLib} {D : DashboardLib} {config : SessionConfig} {w : SessionWorld}

/-- The cookie of a sign-in is read back as its token. -/
lemma extractSessionCookie_token {bytes : Bytes} (hbytes : bytes ≠ []) :
    extractSessionCookie (some (sessionCookie ++ "=" ++ generateToken bytes)) =
      some (generateToken bytes) := by
  refine OAuth.readCookie_pair (Base64.encodeChars_ne_nil hbytes) (by decide) ?_
  intro c hc
  rcases List.mem_append.1 hc with hc | hc
  · have hall : sessionCookie.toList.all fun c => c ≠ ';' && !Keys.isWhitespace c := by decide
    simpa using List.all_eq_true.1 hall c hc
  · rcases List.mem_cons.1 hc with rfl | hc
    · decide
    · exact OAuth.token_chars hc

/-- A sign-in that is answered with a redirect has inserted its session. -/
lemma insertSession_eq_ok {i : ℕ} {userAgent : Option String} {profile : GithubProfile}
    {user : User} {bytes : Bytes} {utcNow later : ℤ} {reply : StatementReply}
    {response : SignInResponse} (hi : w.signIns[i]? = some ⟨userAgent, .inserting profile user⟩)
    (hok : (w.insertSession L config i bytes utcNow later reply).signIns[i]? =
      some ⟨userAgent, .answered (.ok response)⟩) :
    ∃ expiresAt, L.addDays utcNow config.dashboardSessionTtlDays = some expiresAt ∧
      response = signInResponse config (generateToken bytes) expiresAt later ∧
      (w.insertSession L config i bytes utcNow later reply).history =
        w.history ++ [.signedIn (generateToken bytes) profile.id user.id expiresAt] ∧
      (w.insertSession L config i bytes utcNow later reply).clock = w.clock := by
  obtain ⟨hlt, -⟩ := List.getElem?_eq_some_iff.1 hi
  unfold insertSession at hok ⊢
  simp only [hi] at hok ⊢
  split at hok
  · simp only [setSignIn, List.getElem?_set_self hlt, Option.some.injEq] at hok
    cases congrArg SessionSignIn.stage hok
  · rename_i expiresAt hadd
    simp only [setSignIn, List.getElem?_set_self hlt, Option.some.injEq] at hok
    have hstage := SignInStage.answered.inj (congrArg SessionSignIn.stage hok)
    obtain ⟨row, hrow, hresp⟩ := Except.map_eq_ok.1 hstage
    obtain ⟨rows', hins, -⟩ := StatementReply.execute_eq_ok hrow
    have heff : reply.takesEffect = true := by
      cases reply with
      | answered => rfl
      | lost message => rfl
      | failed message => cases hrow
    refine ⟨expiresAt, hadd, hresp.symm, ?_, ?_⟩
    · simp [setSignIn, hins, heff, Except.isOk, Except.toBool]
    · rfl

/-- What has just been signed in is the last event about its hash. -/
lemma lastEvent_concat (history : List SessionEvent) (token : String) (account : ℤ)
    (userId : Uuid) (expiresAt : ℤ) :
    lastEvent L (hashToken L token) (history ++ [.signedIn token account userId expiresAt]) =
      some (.signedIn token account userId expiresAt) := by
  rw [lastEvent, List.filter_append, List.filter_cons_of_pos (by simp [SessionEvent.tokenHash]),
    List.filter_nil, List.getLast?_concat]

end SignIn

/-- **A cookie gives access as a user from its sign-in until it expires or is signed out.**
In every interleaving of sign-ins, requests, sign-outs, touches and reaping:

* a handler runs for a user only if, at the moment the middleware read the session, the last
  event about the hash of the cookie was a sign-in of this user's account and the session had
  not expired;
* conversely, at every moment, a request with such a cookie that nothing disturbs gets past
  the middleware as that user, and any other request gets one and the same answer;
* a sign-in that is answered with a redirect has issued such a session, which expires when
  the configuration says, and its cookie is read back as the token. -/
theorem session_gives_access_iff (L : SessionLib) (D : DashboardLib) (config : SessionConfig)
    (clock : ℕ) (ms : List SessionMove) (k : ℕ) :
    (∀ r cookie action auth,
      (stateAt L D config clock ms k).requests[r]? = some ⟨cookie, action, .handling auth⟩ →
      ∃ j < k, ∃ token, extractSessionCookie cookie = some token ∧
        ms[j]? = some (.find r none) ∧
        Grants L (stateAt L D config clock ms j) token auth.user.githubUserId auth.user.id
          auth.session.expiresAt) ∧
    (∀ cookie action,
      (∀ token account userId expiresAt, extractSessionCookie cookie = some token →
        Grants L (stateAt L D config clock ms k) token account userId expiresAt →
        ∃ auth, (resolveNow L D config (stateAt L D config clock ms k) cookie
            action).requests[(stateAt L D config clock ms k).requests.length]? =
              some ⟨cookie, action, .handling auth⟩ ∧
          auth.user.id = userId ∧ auth.user.githubUserId = account) ∧
      ((¬ ∃ token account userId expiresAt, extractSessionCookie cookie = some token ∧
          Grants L (stateAt L D config clock ms k) token account userId expiresAt) →
        ∃ err, (resolveNow L D config (stateAt L D config clock ms k) cookie
            action).requests[(stateAt L D config clock ms k).requests.length]? =
              some ⟨cookie, action, .answered (.error err)⟩ ∧
          err.intoResponse = (ApiError.unauthorized "").intoResponse)) ∧
    (∀ i userAgent profile user bytes utcNow later reply response, bytes ≠ [] →
      (stateAt L D config clock ms k).signIns[i]? =
        some ⟨userAgent, .inserting profile user⟩ →
      ((stateAt L D config clock ms k).exec L D config
        (.insertSession i bytes utcNow later reply)).signIns[i]? =
          some ⟨userAgent, .answered (.ok response)⟩ →
      ∃ expiresAt, L.addDays utcNow config.dashboardSessionTtlDays = some expiresAt ∧
        response = signInResponse config (generateToken bytes) expiresAt later ∧
        extractSessionCookie (some (sessionCookie ++ "=" ++ generateToken bytes)) =
          some (generateToken bytes) ∧
        (((stateAt L D config clock ms k).clock : ℤ) < expiresAt →
          Grants L ((stateAt L D config clock ms k).exec L D config
            (.insertSession i bytes utcNow later reply)) (generateToken bytes) profile.id user.id
              expiresAt)) := by
  have hinv := inv_stateAt L D config clock ms k
  refine ⟨?_, ?_, ?_⟩
  · intro r cookie action auth hreq
    obtain ⟨j, hj, token, account, htoken, hmove, hg, -, huser⟩ :=
      (backed_stateAt L D config clock ms k r _ hreq).read auth.session (some auth.user) rfl
    obtain ⟨hid, rfl⟩ := huser auth.user rfl
    exact ⟨j, hj, token, htoken, hmove, hid ▸ hg⟩
  · intro cookie action
    constructor
    · intro token account userId expiresAt htoken hg
      obtain ⟨session, hfind, rfl, rfl⟩ := hinv.exists_findActive hg
      obtain ⟨issued, hmem⟩ := hg.mem_history
      obtain ⟨user, hown, hid, hacc⟩ :=
        hinv.findById_eq (hinv.accounts issued account _ _ hmem)
      refine ⟨⟨session, user⟩, ?_, hid, hacc⟩
      rw [resolveNow_request, resolvedStage, htoken]
      simp only [hfind, ownStage, hown]
    · intro hnone
      rw [resolveNow_request, resolvedStage]
      cases htoken : extractSessionCookie cookie with
      | none => exact ⟨_, rfl, rfl⟩
      | some token =>
          simp only
          cases hfind : Sessions.findActive (stateAt L D config clock ms k).clock
              (hashToken L token) (stateAt L D config clock ms k).sessions with
          | none => exact ⟨_, rfl, rfl⟩
          | some session =>
              obtain ⟨account, hg⟩ := hinv.grants_of_findActive hfind
              exact absurd ⟨token, account, _, _, htoken, hg⟩ hnone
  · intro i userAgent profile user bytes utcNow later reply response hbytes hi hok
    obtain ⟨expiresAt, hadd, hresp, hhist, hclock⟩ := insertSession_eq_ok hi hok
    refine ⟨expiresAt, hadd, hresp, extractSessionCookie_token hbytes, fun hlt => ⟨?_, ?_⟩⟩
    · refine ⟨generateToken bytes, rfl, ?_⟩
      change lastEvent L _ (insertSession L config _ i bytes utcNow later reply).history = _
      rw [hhist, lastEvent_concat]
    · change ((insertSession L config _ i bytes utcNow later reply).clock : ℤ) < expiresAt
      rw [hclock]
      exact hlt

namespace Sample

/-- 32 zero bytes, their token, and the digest of the token. -/
def tokenBytes : Bytes := List.replicate 32 0

def token : String := "AAAAAAAAAAAAAAAAAAAAAAAAAAAAAAAAAAAAAAAAAAA"

/-- The header of a browser that has the cookie. -/
def cookie : Option String := some "cellora_session=AAAAAAAAAAAAAAAAAAAAAAAAAAAAAAAAAAAAAAAAAAA"

def tokenDigest : Bytes :=
  [0x0f, 0x00, 0x73, 0x85, 0xb6, 0xf9, 0xd4, 0xb7, 0xee, 0xb2, 0x74, 0x86, 0x05, 0xaf, 0xe1, 0xa9,
    0x84, 0xa0, 0xa3, 0xbf, 0xa3, 0xf0, 0x14, 0xd0, 0x9e, 0x2a, 0x78, 0x4c, 0xe9, 0xe5, 0xcd, 0x1a]

/-- The digest of the sample token. -/
def sessionLib : SessionLib where
  sha256 := fun bytes => if bytes = token.toUTF8.toList then tokenDigest else []
  addDays := fun t n => some (t + n * 86400000000)

def sessionConfig : SessionConfig := ⟨none, true, 30⟩

/-- The account 583231 signs in, and the table is reaped. -/
def signInMoves : List SessionMove :=
  [.callback ⟨some "gho", some ⟨583231, "octocat", none⟩, none⟩ (some "curl"),
    .upsert 0 7 .answered, .insertSession 0 tokenBytes 1000 1000 .answered, .reap]

end Sample

/-- The cookie of the sign-in is accepted as the new user, and a request without a cookie is
not. -/
theorem session_gives_access_iff_sample :
    (∃ auth, (resolveNow Sample.sessionLib Dashboard.Sample.lib Sample.sessionConfig
        (stateAt Sample.sessionLib Dashboard.Sample.lib Sample.sessionConfig 5 Sample.signInMoves 4)
        Sample.cookie .me).requests[0]? = some ⟨Sample.cookie, .me, .handling auth⟩ ∧
          auth.user.id = 7 ∧ auth.user.githubUserId = 583231) ∧
      ∃ err, (resolveNow Sample.sessionLib Dashboard.Sample.lib Sample.sessionConfig
        (stateAt Sample.sessionLib Dashboard.Sample.lib Sample.sessionConfig 5 Sample.signInMoves 4)
        none .me).requests[0]? = some ⟨none, .me, .answered (.error err)⟩ ∧
          err.intoResponse = (ApiError.unauthorized "").intoResponse := by
  obtain ⟨-, hresolve, -⟩ := session_gives_access_iff Sample.sessionLib Dashboard.Sample.lib
    Sample.sessionConfig 5 Sample.signInMoves 4
  constructor
  · refine (hresolve Sample.cookie .me).1 Sample.token 583231 7 2592000001000
      (by decide +kernel) ⟨?_, ?_⟩
    · exact ⟨Sample.token, rfl, by decide +kernel⟩
    · decide +kernel
  · refine (hresolve none .me).2 ?_
    rintro ⟨token, account, userId, expiresAt, htoken, -⟩
    cases htoken

end SessionWorld

end Api

end Cellora

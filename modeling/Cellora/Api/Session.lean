/-
# Sessions of the dashboard

The second half of `github_callback`, which signs a user in, and the middleware that resolves
the cookie of every request to the dashboard.  The callback upserts the user, draws a token
and inserts a session under the hash of the token; the middleware reads the session that has
the hash of the cookie and has not expired, then the user it belongs to, and hands both to
the handler.

Each statement is one atomic move, and the statements of any number of sign-ins and requests
interleave.  A statement can fail without an effect, or its answer can be lost after it took
effect.  The database and the process have clocks of their own: the process computes when a
session expires, and the database compares.  Timestamps are microseconds.
-/
import Cellora.Api.Dashboard
import Cellora.Api.OAuth
import Cellora.Db.Sessions
import Cellora.Lib.Machine

namespace Cellora

namespace Api

/-- What the sessions use of the crates `sha2` and `chrono`. -/
structure SessionLib where
  sha256 : Bytes → Bytes
  /-- A moment plus `Duration::days`; `none` if the addition panics. -/
  addDays : ℤ → ℤ → Option ℤ

/-- The settings of the dashboard's sessions. -/
structure SessionConfig where
  dashboardRedirectUrl : Option String
  dashboardCookieSecure : Bool
  dashboardSessionTtlDays : ℤ
deriving DecidableEq

/-! ### Tokens and cookies -/

/-- `COOKIE_NAME`. -/
def sessionCookie : String := "cellora_session"

/-- The plaintext of `generate_token`, from 32 random bytes. -/
def generateToken (bytes : Bytes) : String := Base64.encode bytes

/-- `hash_token`. -/
def hashToken (L : SessionLib) (token : String) : String :=
  Hex.encode (L.sha256 token.toUTF8.toList)

/-- `extract_session_cookie`. -/
def extractSessionCookie (header : Option String) : Option String :=
  readCookie header sessionCookie

/-- The flag at the end of a cookie. -/
def secureFlag (secure : Bool) : String := if secure then "; Secure" else ""

/-- `build_session_cookie`, at the moment `utcNow`. -/
def buildSessionCookie (token : String) (secure : Bool) (expiresAt utcNow : ℤ) : String :=
  let maxAge := expiresAt / 1000000 - utcNow / 1000000
  sessionCookie ++ "=" ++ token ++ "; Path=/; HttpOnly; SameSite=Lax; Max-Age=" ++
    toString maxAge ++ secureFlag secure

/-- `clear_session_cookie`. -/
def clearSessionCookie (secure : Bool) : String :=
  sessionCookie ++ "=; Path=/; HttpOnly; SameSite=Lax; Max-Age=0" ++ secureFlag secure

/-- `clear_oauth_state_cookie`. -/
def clearOauthStateCookie (secure : Bool) : String :=
  oauthStateCookie ++ "=; Path=/; HttpOnly; SameSite=Lax; Max-Age=0" ++ secureFlag secure

/-! ### What GitHub says -/

/-- `GithubProfile`. -/
structure GithubProfile where
  id : ℤ
  login : String
  avatarUrl : Option String
deriving DecidableEq

/-- `GithubEmail`. -/
structure GithubEmail where
  email : String
  verified : Bool
  primary : Bool
  visibility : Option String
deriving DecidableEq

/-- `select_email`. -/
def selectEmail (payload : List GithubEmail) : Option String :=
  ((payload.find? fun e => e.primary && e.verified).or
    ((payload.find? fun e => e.verified).or
      (payload.find? fun e => e.visibility == some "public"))).map GithubEmail.email

/-- The answers of GitHub to the exchange of the code, to the request for the profile and to
that for the addresses; `none` if the request fails. -/
structure GithubReplies where
  accessToken : Option String
  profile : Option GithubProfile
  emails : Option (List GithubEmail)
deriving DecidableEq

/-- The requests of `github_callback` to GitHub.  Without addresses it goes on. -/
def githubUser (g : GithubReplies) : Except ApiError (GithubProfile × Option String) :=
  match g.accessToken, g.profile with
  | none, _ => .error (.upstreamUnavailable "github oauth failed")
  | some _, none => .error (.upstreamUnavailable "github profile failed")
  | some _, some profile => .ok (profile, g.emails.bind selectEmail)

/-! ### The world -/

/-- The redirect at the end of a sign-in. -/
structure SignInResponse where
  location : String
  setCookies : List String
deriving DecidableEq

/-- How far a sign-in has come after the check of its state. -/
inductive SignInStage where
  | upserting (profile : GithubProfile) (email : Option String)
  | inserting (profile : GithubProfile) (user : User)
  | answered (result : Except ApiError SignInResponse)

/-- A sign-in. -/
structure SessionSignIn where
  userAgent : Option String
  stage : SignInStage

/-- `AuthenticatedSession`. -/
structure AuthenticatedSession where
  session : Session
  user : User
deriving DecidableEq

/-- `UserView`. -/
structure UserView where
  id : Uuid
  githubLogin : String
  email : Option String
  avatarUrl : Option String
deriving DecidableEq

/-- `From<User>`. -/
def UserView.ofUser (user : User) : UserView :=
  ⟨user.id, user.githubLogin, user.email, user.avatarUrl⟩

/-- The handlers behind the middleware. -/
inductive AdminAction where
  | me
  | signOut
  | dashboard (request : DashboardRequest) (draw : Draw)

/-- What they answer. -/
inductive AdminResponse where
  | me (user : UserView)
  /-- No content (204), and the cookie is cleared. -/
  | signedOut (setCookie : String)
  | dashboard (body : DashboardBody)

/-- How far a request has come. -/
inductive AdminStage where
  /-- It is about to read the session with this hash. -/
  | finding (tokenHash : String)
  /-- It is about to read the owner of the session. -/
  | owning (session : Session)
  /-- It is past the middleware. -/
  | handling (auth : AuthenticatedSession)
  | answered (result : Except ApiError AdminResponse)

/-- A request to the dashboard. -/
structure AdminRequest where
  cookie : Option String
  action : AdminAction
  stage : AdminStage

/-- What has happened to sessions: a sign-in of an account of GitHub inserted one, or a
sign-out deleted one. -/
inductive SessionEvent where
  | signedIn (token : String) (account : ℤ) (userId : Uuid) (expiresAt : ℤ)
  | signedOut (tokenHash : String)
deriving DecidableEq

/-- The database and its clock, the process, and the history of the sessions, which the
program does not keep.  The tasks are the spawned updates of `last_seen_at`. -/
structure SessionWorld where
  clock : ℕ
  users : List User
  sessions : List Session
  tables : Dashboard
  signIns : List SessionSignIn
  requests : List AdminRequest
  tasks : List String
  history : List SessionEvent

/-- A move. -/
inductive SessionMove where
  | tick (elapsed : ℕ)
  /-- A callback has passed the check of its state, and GitHub has answered. -/
  | callback (g : GithubReplies) (userAgent : Option String)
  /-- The upsert of a sign-in; a new row gets the id. -/
  | upsert (i : ℕ) (id : Uuid) (reply : StatementReply)
  /-- The insert of a sign-in, with the bytes of the token and what `Utc::now` returns, for
  the session and then for its cookie. -/
  | insertSession (i : ℕ) (bytes : Bytes) (utcNow later : ℤ) (reply : StatementReply)
  /-- A request arrives. -/
  | request (cookie : Option String) (action : AdminAction)
  /-- The first read of the middleware. -/
  | find (r : ℕ) (fault : Option String)
  /-- The second read. -/
  | own (r : ℕ) (fault : Option String)
  /-- The handler. -/
  | handle (r : ℕ) (reply : StatementReply)
  /-- A spawned update runs; it may fail. -/
  | touch (i : ℕ) (runs : Bool)
  /-- `delete_expired`, which no task of the services calls. -/
  | reap
  /-- The process restarts. -/
  | restart

/-- The hash an event is about. -/
def SessionEvent.tokenHash (L : SessionLib) : SessionEvent → String
  | .signedIn token _ _ _ => hashToken L token
  | .signedOut tokenHash => tokenHash

/-- The statement has its effect, if it has one. -/
def StatementReply.takesEffect : StatementReply → Bool
  | .failed _ => false
  | _ => true

namespace SessionWorld

/-- A deployment with empty tables. -/
def start (clock : ℕ) : SessionWorld := ⟨clock, [], [], ⟨[], [], []⟩, [], [], [], []⟩

section Exec

variable (L : SessionLib) (D : DashboardLib) (config : SessionConfig)

/-- The stage of a sign-in, changed. -/
def setSignIn (w : SessionWorld) (i : ℕ) (userAgent : Option String) (stage : SignInStage) :
    SessionWorld :=
  { w with signIns := w.signIns.set i ⟨userAgent, stage⟩ }

/-- The stage of a request, changed. -/
def setRequest (w : SessionWorld) (r : ℕ) (request : AdminRequest) (stage : AdminStage) :
    SessionWorld :=
  { w with requests := w.requests.set r { request with stage := stage } }

/-- A callback that has passed the check of its state. -/
def callback (w : SessionWorld) (g : GithubReplies) (userAgent : Option String) :
    SessionWorld :=
  let stage := match githubUser g with
    | .error err => .answered (.error err)
    | .ok (profile, email) => .upserting profile email
  { w with signIns := w.signIns ++ [⟨userAgent, stage⟩] }

/-- The upsert of a sign-in. -/
def upsert (w : SessionWorld) (i : ℕ) (id : Uuid) (reply : StatementReply) : SessionWorld :=
  match w.signIns[i]? with
  | some ⟨userAgent, .upserting profile email⟩ =>
      let (user, users) := reply.execute
        (Users.upsertFromGithub w.clock id profile.id profile.login email profile.avatarUrl
          w.users) w.users
      let stage := match user with
        | .error err => .answered (.error err)
        | .ok user => .inserting profile user
      { w with users := users }.setSignIn i userAgent stage
  | _ => w

/-- The redirect of a sign-in, with the new cookie and the one that clears the state. -/
def signInResponse (token : String) (expiresAt later : ℤ) : SignInResponse where
  location := config.dashboardRedirectUrl.getD "/"
  setCookies := [buildSessionCookie token config.dashboardCookieSecure expiresAt later,
    clearOauthStateCookie config.dashboardCookieSecure]

/-- The insert of a sign-in. -/
def insertSession (w : SessionWorld) (i : ℕ) (bytes : Bytes) (utcNow later : ℤ)
    (reply : StatementReply) : SessionWorld :=
  match w.signIns[i]? with
  | some ⟨userAgent, .inserting profile user⟩ =>
      let token := generateToken bytes
      match L.addDays utcNow config.dashboardSessionTtlDays with
      | none => w.setSignIn i userAgent (.answered (.error (.internal "panicked")))
      | some expiresAt =>
          let inserted := Sessions.insert w.clock (hashToken L token) user.id expiresAt userAgent
            w.users w.sessions
          let (row, sessions) := reply.execute inserted w.sessions
          let history := if inserted.isOk && reply.takesEffect then
              w.history ++ [.signedIn token profile.id user.id expiresAt]
            else w.history
          { w with sessions := sessions, history := history }.setSignIn i userAgent
            (.answered (row.map fun _ => signInResponse config token expiresAt later))
  | _ => w

/-- A request, up to the first read of the middleware. -/
def request (w : SessionWorld) (cookie : Option String) (action : AdminAction) : SessionWorld :=
  let stage := match extractSessionCookie cookie with
    | none => .answered (.error (.unauthorized "missing session"))
    | some token => .finding (hashToken L token)
  { w with requests := w.requests ++ [⟨cookie, action, stage⟩] }

/-- The first half of `resolve`. -/
def findStage (fault : Option String) (now : ℕ) (tokenHash : String) (rows : List Session) :
    AdminStage :=
  match fault with
  | some message => .answered (.error (.internal message))
  | none =>
      match Sessions.findActive now tokenHash rows with
      | none => .answered (.error (.unauthorized "unknown or expired session"))
      | some session => .owning session

/-- The second half of `resolve`. -/
def ownStage (fault : Option String) (session : Session) (rows : List User) : AdminStage :=
  match fault with
  | some message => .answered (.error (.internal message))
  | none =>
      match Users.findById session.userId rows with
      | none => .answered (.error (.unauthorized "orphaned session"))
      | some user => .handling ⟨session, user⟩

/-- The first read of a request. -/
def find (w : SessionWorld) (r : ℕ) (fault : Option String) : SessionWorld :=
  match w.requests[r]? with
  | some ⟨cookie, action, .finding tokenHash⟩ =>
      w.setRequest r ⟨cookie, action, .finding tokenHash⟩
        (findStage fault w.clock tokenHash w.sessions)
  | _ => w

/-- The second read of a request.  If it finds the owner, the update of `last_seen_at` is
spawned. -/
def own (w : SessionWorld) (r : ℕ) (fault : Option String) : SessionWorld :=
  match w.requests[r]? with
  | some ⟨cookie, action, .owning session⟩ =>
      let stage := ownStage fault session w.users
      let tasks := match stage with
        | .handling auth => w.tasks ++ [auth.session.tokenHash]
        | _ => w.tasks
      { w with tasks := tasks }.setRequest r ⟨cookie, action, .owning session⟩ stage
  | _ => w

/-- `sign_out`. -/
def signOut (w : SessionWorld) (auth : AuthenticatedSession) (reply : StatementReply) :
    Except ApiError AdminResponse × SessionWorld :=
  let (deleted, sessions) :=
    reply.execute (.ok (Sessions.delete auth.session.tokenHash w.sessions)) w.sessions
  let history := if reply.takesEffect then
      w.history ++ [.signedOut auth.session.tokenHash]
    else w.history
  (deleted.map fun _ => .signedOut (clearSessionCookie config.dashboardCookieSecure),
    { w with sessions := sessions, history := history })

/-- The handler of a request that is past the middleware. -/
def runHandler (w : SessionWorld) (auth : AuthenticatedSession) (reply : StatementReply) :
    AdminAction → Except ApiError AdminResponse × SessionWorld
  | .me => (.ok (.me (UserView.ofUser auth.user)), w)
  | .signOut => w.signOut config auth reply
  | .dashboard request draw =>
      let (body, tables) := Dashboard.handle D auth.user.id w.tables
        { draw with now := w.clock, reply := reply } request
      (body.map .dashboard, { w with tables := tables })

/-- The handler of a request. -/
def handle (w : SessionWorld) (r : ℕ) (reply : StatementReply) : SessionWorld :=
  match w.requests[r]? with
  | some ⟨cookie, action, .handling auth⟩ =>
      let (result, w') := w.runHandler D config auth reply action
      w'.setRequest r ⟨cookie, action, .handling auth⟩ (.answered result)
  | _ => w

/-- A spawned update. -/
def touch (w : SessionWorld) (i : ℕ) (runs : Bool) : SessionWorld :=
  match w.tasks[i]? with
  | some tokenHash =>
      { w with
        sessions := if runs then Sessions.touchLastSeen w.clock tokenHash w.sessions
          else w.sessions
        tasks := w.tasks.eraseIdx i }
  | none => w

/-- One move. -/
def exec (w : SessionWorld) : SessionMove → SessionWorld
  | .tick elapsed => { w with clock := w.clock + elapsed }
  | .callback g userAgent => w.callback g userAgent
  | .upsert i id reply => w.upsert i id reply
  | .insertSession i bytes utcNow later reply =>
      w.insertSession L config i bytes utcNow later reply
  | .request cookie action => w.request L cookie action
  | .find r fault => w.find r fault
  | .own r fault => w.own r fault
  | .handle r reply => w.handle D config r reply
  | .touch i runs => w.touch i runs
  | .reap => { w with sessions := (Sessions.deleteExpired w.clock w.sessions).2 }
  | .restart => { w with signIns := [], requests := [], tasks := [] }

/-- The world before the move at a position of a run from empty tables. -/
def stateAt (clock : ℕ) (ms : List SessionMove) (k : ℕ) : SessionWorld :=
  Machine.before (exec L D config) (start clock) ms k

end Exec

end SessionWorld

end Api

end Cellora

/-
# Signing in with GitHub

The OAuth flow of the dashboard.  `github_start` draws a state token, creates its key in
Redis with `SET NX` and hands it to the browser as a cookie; `github_callback` compares the
token of the request with the cookie, looks the key up with `GET`, deletes it with `DEL`, and
goes on to the exchange of the code and the new session.

Each Redis command is one atomic move, and the moves of any number of requests interleave.
A command can fail without an effect, its answer can be lost after it took effect, and a key
can expire at any time.  A browser that starts the flow and comes back with its cookie gets
past the check, if nothing happens in between.
-/
import Cellora.Api.Hex
import Cellora.Api.Keys
import Cellora.Lib.Base64
import Cellora.Lib.Machine

namespace Cellora

namespace Api

/-! ### Cookies -/

/-- `OAUTH_STATE_COOKIE`. -/
def oauthStateCookie : String := "cellora_oauth_state"

/-- The value of one pair of a `Cookie` header, if it has the given name. -/
def cookieValue (name : String) (pair : List Char) : Option String :=
  match Keys.splitOnce '=' (Keys.trim pair) with
  | (key, some value) =>
      if key = name.toList ∧ value ≠ [] then some (String.ofList value) else none
  | (_, none) => none

/-- `read_cookie`.  The header is `none` if it is absent or not visible ASCII. -/
def readCookie (header : Option String) (name : String) : Option String :=
  header.bind fun raw => (raw.toList.splitOn ';').findSome? (cookieValue name)

/-- `build_oauth_state_cookie`. -/
def buildOauthStateCookie (stateToken : String) (secure : Bool) : String :=
  oauthStateCookie ++ "=" ++ stateToken ++ "; Path=/; HttpOnly; SameSite=Lax; Max-Age=600" ++
    if secure then "; Secure" else ""

/-! ### The two handlers -/

/-- The settings the two handlers read, and whether Redis is configured. -/
structure OAuthConfig where
  clientId : Option String
  clientSecret : Option String
  redirectUrl : Option String
  cookieSecure : Bool
  redis : Bool
deriving DecidableEq

/-- `GithubCallback`, the query of the callback. -/
structure GithubCallback where
  code : Option String
  state : Option String
  error : Option String
deriving DecidableEq

/-- A request for the callback. -/
structure CallbackRequest where
  query : GithubCallback
  cookie : Option String
deriving DecidableEq

/-- How a command ends. -/
inductive CommandReply where
  | answered
  /-- It took effect, but its answer was lost. -/
  | lost
  | failed
deriving DecidableEq

/-- How far a callback has come. -/
inductive CallbackStage where
  /-- It is about to look the token up. -/
  | reading
  /-- It has found the token and is about to delete it. -/
  | deleting
  /-- It is past the check of the token. -/
  | exchanging
  | signedIn
  | exchangeFailed (err : ApiError)
  /-- It was refused before or at the check of the token. -/
  | refused (err : ApiError)
deriving DecidableEq

/-- The check of the token is passed. -/
def CallbackStage.accepted : CallbackStage → Bool
  | .exchanging => true
  | .signedIn => true
  | .exchangeFailed _ => true
  | _ => false

/-- A callback. -/
structure Callback where
  request : CallbackRequest
  stage : CallbackStage
deriving DecidableEq

/-- The token a callback carries. -/
def Callback.token (c : Callback) : String := c.request.query.state.getD ""

/-- The callback carries its token both in the query and in the cookie. -/
structure Callback.Bound (c : Callback) : Prop where
  query : c.request.query.state = some c.token
  cookie : readCookie c.request.cookie oauthStateCookie = some c.token

/-- How the part of a callback after the check ends. -/
inductive ExchangeOutcome where
  | oauthFailed
  | profileFailed
  | dbFailed (source : String)
  | sessionInserted
deriving DecidableEq

/-- The stage after the exchange. -/
def ExchangeOutcome.stage : ExchangeOutcome → CallbackStage
  | .oauthFailed => .exchangeFailed (.upstreamUnavailable "github oauth failed")
  | .profileFailed => .exchangeFailed (.upstreamUnavailable "github profile failed")
  | .dbFailed source => .exchangeFailed (.internal source)
  | .sessionInserted => .signedIn

/-- The answer to `github_start`. -/
structure StartResponse where
  location : String
  setCookie : String
deriving DecidableEq

/-- `generate_state_token`, from 32 random bytes. -/
def generateStateToken (bytes : Bytes) : String := Base64.encode bytes

/-- The Redis key of a token. -/
def stateKey (stateToken : String) : String := "cellora:oauth:github:state:" ++ stateToken

/-- The part of `github_callback` before its first command: the token to look up. -/
def checkCallback (config : OAuthConfig) (request : CallbackRequest) : Except ApiError String :=
  match request.query.error with
  | some error => .error (.badRequest ("oauth error: " ++ error))
  | none =>
      match request.query.code, request.query.state with
      | none, _ => .error (.badRequest "missing code")
      | some _, none => .error (.badRequest "missing state")
      | some _, some stateToken =>
          -- the cookie binds the callback to the browser that began the flow
          if readCookie request.cookie oauthStateCookie ≠ some stateToken then
            .error (.unauthorized "invalid oauth state")
          else if config.clientId.isNone || config.clientSecret.isNone ||
              config.redirectUrl.isNone then
            .error (.upstreamUnavailable "oauth not configured")
          else if !config.redis then .error (.upstreamUnavailable "redis unavailable")
          else .ok stateToken

/-- The state keys in Redis, the callbacks, and the tokens for which `github_start` created a
key, once for each time it did. -/
structure OAuth where
  keys : List String
  callbacks : List Callback
  issued : List String

/-- A move. -/
inductive OAuthMove where
  /-- A request to start, with the bytes it draws. -/
  | start (bytes : Bytes) (reply : CommandReply)
  /-- A request for the callback arrives. -/
  | arrive (request : CallbackRequest)
  /-- The `GET` of a callback. -/
  | get (i : ℕ) (answered : Bool)
  /-- The `DEL` of a callback. -/
  | del (i : ℕ) (reply : CommandReply)
  /-- The rest of a callback. -/
  | exchange (i : ℕ) (outcome : ExchangeOutcome)
  /-- A key expires. -/
  | expire (key : String)

namespace OAuth

/-- Nothing has happened yet. -/
def empty : OAuth := ⟨[], [], []⟩

/-- `SET key 1 EX 600 NX`: the answer, if it arrives, and the state after it. -/
def setNx (s : OAuth) (stateToken : String) : CommandReply → Option Bool × OAuth
  | .failed => (none, s)
  | reply =>
      -- `NX`: an existing key is left alone and its time to live not renewed
      let inserted := stateKey stateToken ∉ s.keys
      let s' := if inserted then
          { s with keys := stateKey stateToken :: s.keys, issued := stateToken :: s.issued }
        else s
      (if reply = .answered then some inserted else none, s')

/-- `github_start`. -/
def githubStart (config : OAuthConfig) (s : OAuth) (bytes : Bytes) (reply : CommandReply) :
    OAuth × Except ApiError StartResponse :=
  match config.clientId, config.redirectUrl with
  | some clientId, some redirectUrl =>
      if !config.redis then (s, .error (.upstreamUnavailable "redis unavailable"))
      else
        let stateToken := generateStateToken bytes
        match s.setNx stateToken reply with
        | (none, s') => (s', .error (.upstreamUnavailable "redis unavailable"))
        | (some false, s') => (s', .error (.upstreamUnavailable "state collision"))
        | (some true, s') =>
            (s', .ok {
              location :=
                "https://github.com/login/oauth/authorize?client_id=" ++ clientId ++
                  "&redirect_uri=" ++ redirectUrl ++
                  "&scope=read:user%20user:email&state=" ++ stateToken ++ "&allow_signup=true"
              setCookie := buildOauthStateCookie stateToken config.cookieSecure })
  | _, _ => (s, .error (.upstreamUnavailable "oauth not configured"))

/-- The stage of a callback, changed. -/
def setStage (s : OAuth) (i : ℕ) (c : Callback) (stage : CallbackStage) : OAuth :=
  { s with callbacks := s.callbacks.set i { c with stage := stage } }

/-- The key of a token, deleted. -/
def delKey (s : OAuth) (key : String) : OAuth :=
  { s with keys := s.keys.filter fun k => k ≠ key }

/-- A request for the callback, up to its first command. -/
def arrive (config : OAuthConfig) (s : OAuth) (request : CallbackRequest) : OAuth :=
  let stage := match checkCallback config request with
    | .ok _ => .reading
    | .error err => .refused err
  { s with callbacks := s.callbacks ++ [⟨request, stage⟩] }

/-- The `GET` of a callback. -/
def get (s : OAuth) (i : ℕ) (answered : Bool) : OAuth :=
  match s.callbacks[i]? with
  | some ⟨request, .reading⟩ =>
      let c : Callback := ⟨request, .reading⟩
      if !answered then s.setStage i c (.refused (.upstreamUnavailable "redis unavailable"))
      else if stateKey c.token ∈ s.keys then s.setStage i c .deleting
      else s.setStage i c (.refused (.unauthorized "invalid oauth state"))
  | _ => s

/-- The `DEL` of a callback. -/
def del (s : OAuth) (i : ℕ) (reply : CommandReply) : OAuth :=
  match s.callbacks[i]? with
  | some ⟨request, .deleting⟩ =>
      let c : Callback := ⟨request, .deleting⟩
      match reply with
      | .answered => (s.delKey (stateKey c.token)).setStage i c .exchanging
      | .lost => (s.delKey (stateKey c.token)).setStage i c
          (.refused (.upstreamUnavailable "redis unavailable"))
      | .failed => s.setStage i c (.refused (.upstreamUnavailable "redis unavailable"))
  | _ => s

/-- The exchange of the code, the profile and the session of a callback. -/
def exchange (s : OAuth) (i : ℕ) (outcome : ExchangeOutcome) : OAuth :=
  match s.callbacks[i]? with
  | some ⟨request, .exchanging⟩ => s.setStage i ⟨request, .exchanging⟩ outcome.stage
  | _ => s

/-- One move. -/
def exec (config : OAuthConfig) (s : OAuth) : OAuthMove → OAuth
  | .start bytes reply => (s.githubStart config bytes reply).1
  | .arrive request => s.arrive config request
  | .get i answered => s.get i answered
  | .del i reply => s.del i reply
  | .exchange i outcome => s.exchange i outcome
  | .expire key => s.delKey key

/-- The state before the move at a position of a run. -/
def stateAt (config : OAuthConfig) (ms : List OAuthMove) (k : ℕ) : OAuth :=
  Machine.before (exec config) empty ms k

/-! ### A flow that nothing disturbs -/

/-- A `Cookie` header with just one cookie. -/
lemma readCookie_pair {name : String} {value : List Char} (hvalue : value ≠ [])
    (hname : '=' ∉ name.toList)
    (hcs : ∀ c ∈ name.toList ++ '=' :: value, c ≠ ';' ∧ Keys.isWhitespace c = false) :
    readCookie (some (name ++ "=" ++ String.ofList value)) name =
      some (String.ofList value) := by
  have hlist : (name ++ "=" ++ String.ofList value).toList = name.toList ++ '=' :: value := by
    simp
  rw [readCookie, Option.bind_some, hlist,
    List.splitOn_eq_singleton fun hmem => (hcs ';' hmem).1 rfl, List.findSome?_cons, cookieValue,
    Keys.trim_of_forall fun c hc => (hcs c hc).2, Keys.splitOnce_append hname]
  simp [hvalue]

/-- The characters of a token neither end a cookie nor are cut off it. -/
lemma token_chars {bytes : Bytes} {c : Char} (hc : c ∈ Base64.encodeChars bytes) :
    c ≠ ';' ∧ Keys.isWhitespace c = false := by
  obtain ⟨n, hn, rfl⟩ := Base64.exists_digit_of_mem hc
  have hall : ∀ m : Fin 64, Base64.digit m ≠ ';' ∧ Keys.isWhitespace (Base64.digit m) = false := by
    decide
  exact hall ⟨n, hn⟩

/-- The request of a browser that comes back with the cookie of `github_start`. -/
def returning (bytes : Bytes) (code : String) : CallbackRequest where
  query := ⟨some code, some (generateStateToken bytes), none⟩
  cookie := some (oauthStateCookie ++ "=" ++ generateStateToken bytes)

/-- Everything the two handlers need is configured. -/
structure Configured (config : OAuthConfig) : Prop where
  clientId : config.clientId.isSome
  clientSecret : config.clientSecret.isSome
  redirectUrl : config.redirectUrl.isSome
  redis : config.redis = true

section Flow

variable {config : OAuthConfig} {bytes : Bytes}

lemma checkCallback_returning (hconfig : Configured config) (hbytes : bytes ≠ [])
    (code : String) :
    checkCallback config (returning bytes code) = .ok (generateStateToken bytes) := by
  have hcookie : readCookie (returning bytes code).cookie oauthStateCookie =
      some (generateStateToken bytes) := by
    refine readCookie_pair (Base64.encodeChars_ne_nil hbytes) (by decide) ?_
    intro c hc
    rcases List.mem_append.1 hc with hc | hc
    · have hall : oauthStateCookie.toList.all fun c => c ≠ ';' && !Keys.isWhitespace c := by decide
      simpa using List.all_eq_true.1 hall c hc
    · rcases List.mem_cons.1 hc with rfl | hc
      · decide
      · exact token_chars hc
  have hid := Option.isNone_eq_false_iff.2 hconfig.clientId
  have hsecret := Option.isNone_eq_false_iff.2 hconfig.clientSecret
  have hurl := Option.isNone_eq_false_iff.2 hconfig.redirectUrl
  rw [checkCallback]
  simp only [returning] at hcookie ⊢
  simp [hcookie, hid, hsecret, hurl, hconfig.redis]

lemma exec_start (hconfig : Configured config) {s : OAuth}
    (hfree : stateKey (generateStateToken bytes) ∉ s.keys) :
    exec config s (.start bytes .answered) =
      { s with
        keys := stateKey (generateStateToken bytes) :: s.keys
        issued := generateStateToken bytes :: s.issued } := by
  obtain ⟨clientId, hid⟩ := Option.isSome_iff_exists.1 hconfig.clientId
  obtain ⟨redirectUrl, hurl⟩ := Option.isSome_iff_exists.1 hconfig.redirectUrl
  simp [exec, githubStart, setNx, hid, hurl, hconfig.redis, hfree]

lemma exec_arrive {request : CallbackRequest} {t : String}
    (h : checkCallback config request = .ok t) (s : OAuth) :
    exec config s (.arrive request) =
      { s with callbacks := s.callbacks ++ [⟨request, .reading⟩] } := by
  simp [exec, arrive, h]

lemma exec_get {s : OAuth} {i : ℕ} (request : CallbackRequest)
    (hi : s.callbacks[i]? = some ⟨request, .reading⟩)
    (hkey : stateKey (Callback.token ⟨request, .reading⟩) ∈ s.keys) :
    exec config s (.get i true) = s.setStage i ⟨request, .reading⟩ .deleting := by
  simp [exec, get, hi, hkey]

lemma exec_get_of_not_mem {s : OAuth} {i : ℕ} (request : CallbackRequest)
    (hi : s.callbacks[i]? = some ⟨request, .reading⟩)
    (hkey : stateKey (Callback.token ⟨request, .reading⟩) ∉ s.keys) :
    exec config s (.get i true) =
      s.setStage i ⟨request, .reading⟩ (.refused (.unauthorized "invalid oauth state")) := by
  simp [exec, get, hi, hkey]

lemma exec_del {s : OAuth} {i : ℕ} (request : CallbackRequest)
    (hi : s.callbacks[i]? = some ⟨request, .deleting⟩) :
    exec config s (.del i .answered) =
      (s.delKey (stateKey (Callback.token ⟨request, .deleting⟩))).setStage i
        ⟨request, .deleting⟩ .exchanging := by
  simp [exec, del, hi]

/-- A browser that starts the flow and comes back with its cookie gets past the check, if
nothing happens in between. -/
theorem undisturbed_flow_accepted (hconfig : Configured config) (hbytes : bytes ≠ [])
    {s : OAuth} (hfree : stateKey (generateStateToken bytes) ∉ s.keys) (code : String) :
    (Machine.run (exec config) s
        [.start bytes .answered, .arrive (returning bytes code), .get s.callbacks.length true,
          .del s.callbacks.length .answered]).callbacks[s.callbacks.length]? =
      some ⟨returning bytes code, .exchanging⟩ := by
  have hcheck := checkCallback_returning hconfig hbytes code
  have htoken : ∀ stage, Callback.token ⟨returning bytes code, stage⟩ = generateStateToken bytes :=
    fun _ => rfl
  simp only [Machine.run_cons, Machine.run_nil]
  rw [exec_start hconfig hfree, exec_arrive hcheck, exec_get (returning bytes code)
    (by simp) (by simp [htoken]), exec_del (returning bytes code) (by simp [setStage])]
  simp [setStage, delKey]

end Flow

end OAuth

end Api

end Cellora

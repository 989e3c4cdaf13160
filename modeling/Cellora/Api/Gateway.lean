/-
# The layers around a handler

What `build_app` puts between a client and a handler.  From the outside in: the panic catcher,
the request id, the timeout, the metrics of requests, the tip headers; then, on the routes of
REST and GraphQL only, authentication and the rate limiter.  The response passes the same
layers on its way back.

Any number of exchanges are under way at once.  Each await of a layer is a move of its own, so
that the layers of different exchanges interleave with each other, with the moves of `resolve`
and of the key table, and with the publication of a new tip.  A client that goes away, the
timeout and a panic cut an exchange off wherever it is.  The layer for other origins, which is
outside of all of these, is left out.
-/
import Cellora.Api.RateLimitHeaders
import Cellora.Api.RequestLog
import Cellora.Api.Staleness
import Cellora.Api.Tip

namespace Cellora

namespace Api

/-! ### Requests -/

/-- `HeaderValue::to_str`: visible ASCII and tabs only. -/
def headerToStr (value : Bytes) : Option String :=
  if value.all fun b => (32 ≤ b && b < 127) || b == 9 then
    some (String.ofList (value.map fun b => Char.ofNat b.toNat))
  else none

/-- `extract_bearer`, on the `Authorization` header. -/
def extractBearer (authorization : Option Bytes) : Except ApiError String :=
  match authorization with
  | none => .error (.unauthorized "missing header")
  | some value =>
      match headerToStr value with
      | none => .error (.unauthorized "non-ascii header")
      | some raw =>
          match "Bearer ".toList.isPrefixOf? raw.toList with
          | none => .error (.unauthorized "not bearer")
          | some bearer =>
              if bearer.isEmpty then .error (.unauthorized "empty token")
              else .ok (String.ofList bearer)

/-- A request, as the layers see it. -/
structure HttpRequest where
  method : String
  /-- The path of the route, or that of the request if no route matches. -/
  path : String
  /-- The surface of the route.  What no route matches belongs to REST; the routes of the
  public and of the dashboard's routers have none. -/
  surface : Option Surface
  authorization : Option Bytes
  /-- The header `x-request-id`. -/
  requestId : Option String
deriving DecidableEq

/-! ### The layers -/

/-- What the layers read of the state of the application. -/
structure GatewayConfig where
  limits : RateLimitConfig
  /-- The rate limiter, given by whether it fails open. -/
  limiter : Option Bool
  /-- There is a connection to Redis for the log of requests. -/
  redis : Bool
deriving DecidableEq

/-- The response to a request that the limiter denies. -/
def denied (decision : Decision) : Response :=
  attachRateLimitHeaders
    ((ApiError.rateLimited decision.retryAfterSeconds).intoResponse.insertHeader "retry-after"
      (toString decision.retryAfterSeconds)) decision

/-- `rate_limit_for` up to the call of the handler: the response if it refuses the request, and
otherwise the decision whose headers go onto the handler's response. -/
def consult (cfg : GatewayConfig) (surface : Surface) (nowMs : ℕ) (reply : ScriptReply)
    (key : AuthenticatedKey) (redis : Redis) : Except Response (Option Decision) × Redis :=
  match cfg.limiter with
  | none => (.ok none, redis)
  | some failOpen =>
      let params := LimitParams.fromConfig cfg.limits key.tier surface
      let (decision, redis') := check key.keyPrefix surface params nowMs redis
      let unreachable : Except Response (Option Decision) :=
        if failOpen then .ok none
        else .error (ApiError.upstreamUnavailable "rate limiter unreachable").intoResponse
      match reply with
      | .answered =>
          (if decision.allowed then .ok (some decision) else .error (denied decision), redis')
      | .lost => (unreachable, redis')
      | .failed => (unreachable, redis)

/-- `rate_limit_for` after the handler. -/
def afterHandler (decision : Option Decision) (response : Response) : Response :=
  match decision with
  | none => response
  | some decision => attachRateLimitHeaders response decision

/-- The two halves make up the middleware. -/
lemma rateLimitFor_eq_consult (cfg : GatewayConfig) (surface : Surface) (nowMs : ℕ)
    (reply : ScriptReply) (key : AuthenticatedKey) (next : Response) (redis : Redis) :
    rateLimitFor cfg.limits cfg.limiter surface nowMs reply (some key) next redis =
      (match (consult cfg surface nowMs reply key redis).1 with
        | .error response => response
        | .ok decision => afterHandler decision next,
        (consult cfg surface nowMs reply key redis).2) := by
  cases hlimiter : cfg.limiter with
  | none => simp only [rateLimitFor, consult, hlimiter, afterHandler]
  | some failOpen =>
      simp only [rateLimitFor, consult, hlimiter]
      cases reply with
      | answered =>
          simp only [decided]
          cases (check key.keyPrefix surface (LimitParams.fromConfig cfg.limits key.tier surface)
            nowMs redis).1.allowed <;> rfl
      | lost => cases failOpen <;> rfl
      | failed => cases failOpen <;> rfl

/-- `StatusCode::is_success`. -/
def Response.isSuccess (response : Response) : Bool :=
  200 ≤ response.status && response.status < 300

/-- `tip_headers`, on the way back. -/
def tipHeaders (snap : TipSnapshot) (now : ℕ) (response : Response) : Response :=
  if response.isSuccess then
    let response := match snap.indexerTip with
      | some tip => response.insertHeader "x-indexer-tip" (toString tip)
      | none => response
    if snap.isStale now then response.insertHeader "x-indexer-tip-stale" "true" else response
  else response

/-- `PropagateRequestIdLayer`: a response that has an id keeps it. -/
def propagateRequestId (id : String) (response : Response) : Response :=
  match response.header "x-request-id" with
  | some _ => response
  | none => response.insertHeader "x-request-id" id

/-- The response of `TimeoutLayer`. -/
def timeoutResponse : Response := ⟨408, [], .handler ""⟩

/-- `handle_panic`. -/
def handlePanic : Response :=
  ⟨500, [("content-type", "application/json")], .envelope "internal" "internal error"⟩

/-! ### The machine -/

/-- How far an exchange has come. -/
inductive ExchangeStage where
  /-- `auth::middleware` waits for `resolve`, the request `r` of the world. -/
  | resolving (r : ℕ)
  /-- The rate limiter is about to be asked; the key is in the extensions of the request. -/
  | limiting (key : AuthenticatedKey)
  /-- The handler runs. -/
  | handling (key : Option AuthenticatedKey) (decision : Option Decision)
  /-- The response is back from the routers, with the key in its extensions. -/
  | returning (key : Option AuthenticatedKey) (response : Response)
  /-- The client has the response. -/
  | done (key : Option AuthenticatedKey) (latencyMs : UInt32) (response : Response)
  /-- The exchange was cut off, with what the client got. -/
  | cut (response : Option Response)
deriving DecidableEq

/-- An exchange: the request, its id and the stage. -/
structure Exchange where
  request : HttpRequest
  id : String
  stage : ExchangeStage
deriving DecidableEq

/-- What `observe_request` counts. -/
structure Observation where
  method : String
  path : String
  status : ℕ
deriving DecidableEq

/-- The application: authentication, the buckets, the tip, the exchanges so far, the payloads
handed to the request log and the requests counted by the metrics. -/
structure Gateway where
  auth : World
  buckets : Redis
  tip : TipSnapshot
  exchanges : List Exchange
  log : List ApiRequestLogPayload
  observed : List Observation

/-- A move. -/
inductive GatewayMove where
  /-- Time passes, the key table changes, or `resolve` goes on. -/
  | auth (m : AuthMove)
  /-- A request arrives; the id is used if it has none. -/
  | arrive (request : HttpRequest) (uuid : String)
  /-- `resolve` has returned. -/
  | resume (i : ℕ)
  /-- The rate limiter is asked.  Redis may have dropped the bucket before. -/
  | limit (i : ℕ) (call : Call) (reply : ScriptReply)
  /-- The handler answers. -/
  | handle (i : ℕ) (response : Response)
  /-- The response leaves through the outer layers. -/
  | finish (i : ℕ) (now : ℕ) (latencyMs : UInt32)
  | timeout (i : ℕ)
  | panic (i : ℕ)
  /-- The client goes away. -/
  | drop (i : ℕ)
  | publishTip (snap : TipSnapshot)

/-- The exchange is under way. -/
def ExchangeStage.isOpen : ExchangeStage → Bool
  | .done .. | .cut _ => false
  | _ => true

/-- The payload that `record_request_metrics` hands to the log. -/
def requestLog (request : HttpRequest) (response : Response) (latencyMs : UInt32)
    (key : AuthenticatedKey) : ApiRequestLogPayload :=
  ⟨key.id, request.method, request.path, UInt16.ofNat response.status, latencyMs⟩

namespace Gateway

/-- A process that has just started. -/
def start (clock : ℕ) (rows : List ApiKey) (tip : TipSnapshot) : Gateway :=
  ⟨.start clock rows, fun _ => none, tip, [], [], []⟩

/-- A move of the world that can take place: requests come in through the layers, and
`resolve` goes on only for an exchange that waits for it. -/
def takes (s : Gateway) : AuthMove → Bool
  | .request _ => false
  | .advance r _ => s.exchanges.any fun e => e.stage == .resolving r
  | _ => true

/-- A request enters the inner layers. -/
def arrive (A : Argon2Lib) (ttl : ℕ) (s : Gateway) (request : HttpRequest) (uuid : String) :
    Gateway :=
  let id := request.requestId.getD uuid
  match request.surface with
  | none => { s with exchanges := s.exchanges ++ [⟨request, id, .handling none none⟩] }
  | some _ =>
      match extractBearer request.authorization with
      | .error err =>
          { s with exchanges := s.exchanges ++ [⟨request, id, .returning none err.intoResponse⟩] }
      | .ok bearer =>
          { s with
            auth := s.auth.exec A ttl (.request bearer)
            exchanges := s.exchanges ++ [⟨request, id, .resolving s.auth.requests.length⟩] }

/-- The stage of an exchange changes. -/
def setStage (s : Gateway) (i : ℕ) (e : Exchange) (stage : ExchangeStage) : Gateway :=
  { s with exchanges := s.exchanges.set i { e with stage := stage } }

/-- `auth::middleware` after `resolve`. -/
def resume (s : Gateway) (i : ℕ) : Gateway :=
  match s.exchanges[i]? with
  | none => s
  | some e =>
      match e.stage with
      | .resolving r =>
          match s.auth.requests[r]? with
          | some ⟨_, .answered (.ok key)⟩ => s.setStage i e (.limiting key)
          | some ⟨_, .answered (.error err)⟩ => s.setStage i e (.returning none err.intoResponse)
          | _ => s
      | _ => s

/-- `rate_limit_rest` and `rate_limit_graphql`. -/
def limit (cfg : GatewayConfig) (s : Gateway) (i : ℕ) (call : Call) (reply : ScriptReply) :
    Gateway :=
  match s.exchanges[i]? with
  | none => s
  | some e =>
      match e.stage, e.request.surface with
      | .limiting key, some surface =>
          let found := call.arrive (bucketKey surface key.keyPrefix) s.buckets
          match consult cfg surface call.nowMs reply key found with
          | (.error response, buckets) =>
              { s.setStage i e (.returning (some key) response) with buckets := buckets }
          | (.ok decision, buckets) =>
              { s.setStage i e (.handling (some key) decision) with buckets := buckets }
      | _, _ => s

/-- The handler's response passes the rate limiter and `auth::middleware`. -/
def handle (s : Gateway) (i : ℕ) (response : Response) : Gateway :=
  match s.exchanges[i]? with
  | none => s
  | some e =>
      match e.stage with
      | .handling key decision =>
          s.setStage i e (.returning key (afterHandler decision response))
      | _ => s

/-- `tip_headers`, `record_request_metrics` and the layer of the request id. -/
def finish (cfg : GatewayConfig) (s : Gateway) (i now : ℕ) (latencyMs : UInt32) : Gateway :=
  match s.exchanges[i]? with
  | none => s
  | some e =>
      match e.stage with
      | .returning key response =>
          let response := propagateRequestId e.id (tipHeaders s.tip now response)
          { s.setStage i e (.done key latencyMs response) with
            log := s.log ++ if cfg.redis then
              (key.map (requestLog e.request response latencyMs)).toList else []
            observed := s.observed ++ [⟨e.request.method, e.request.path, response.status⟩] }
      | _ => s

/-- An exchange that is under way is cut off. -/
def cutOff (s : Gateway) (i : ℕ) (response : Exchange → Option Response) : Gateway :=
  match s.exchanges[i]? with
  | none => s
  | some e => if e.stage.isOpen then s.setStage i e (.cut (response e)) else s

/-- One move. -/
def exec (cfg : GatewayConfig) (A : Argon2Lib) (ttl : ℕ) (s : Gateway) : GatewayMove → Gateway
  | .auth m => if s.takes m then { s with auth := s.auth.exec A ttl m } else s
  | .arrive request uuid => s.arrive A ttl request uuid
  | .resume i => s.resume i
  | .limit i call reply => s.limit cfg i call reply
  | .handle i response => s.handle i response
  | .finish i now latencyMs => s.finish cfg i now latencyMs
  | .timeout i => s.cutOff i fun e => some (propagateRequestId e.id timeoutResponse)
  -- the panic catcher is outside the layer of the request id
  | .panic i => s.cutOff i fun _ => some handlePanic
  | .drop i => s.cutOff i fun _ => none
  | .publishTip snap => { s with tip := snap }

/-- The state before the move at a position of a run. -/
def stateAt (cfg : GatewayConfig) (A : Argon2Lib) (ttl : ℕ) (s₀ : Gateway)
    (ms : List GatewayMove) (k : ℕ) : Gateway :=
  Machine.before (exec cfg A ttl) s₀ ms k

/-! ### What a move can do -/

/-- The effects of a move. -/
inductive Moved (cfg : GatewayConfig) (A : Argon2Lib) (ttl : ℕ) (s : Gateway) :
    GatewayMove → Gateway → Prop
  | idle (m : GatewayMove) : Moved cfg A ttl s m s
  | auth {m : AuthMove} (hm : s.takes m = true) :
      Moved cfg A ttl s (.auth m) { s with auth := s.auth.exec A ttl m }
  | published (snap : TipSnapshot) : Moved cfg A ttl s (.publishTip snap) { s with tip := snap }
  /-- The routes without authentication. -/
  | opened {request : HttpRequest} {uuid : String} (hsurface : request.surface = none) :
      Moved cfg A ttl s (.arrive request uuid)
        { s with exchanges := s.exchanges ++
          [⟨request, request.requestId.getD uuid, .handling none none⟩] }
  | unreadable {request : HttpRequest} {uuid : String} {surface : Surface} {err : ApiError}
      (hsurface : request.surface = some surface)
      (hbearer : extractBearer request.authorization = .error err) :
      Moved cfg A ttl s (.arrive request uuid)
        { s with exchanges := s.exchanges ++
          [⟨request, request.requestId.getD uuid, .returning none err.intoResponse⟩] }
  | arrived {request : HttpRequest} {uuid : String} {surface : Surface} {bearer : String}
      (hsurface : request.surface = some surface)
      (hbearer : extractBearer request.authorization = .ok bearer) :
      Moved cfg A ttl s (.arrive request uuid)
        { s with
          auth := s.auth.exec A ttl (.request bearer)
          exchanges := s.exchanges ++
            [⟨request, request.requestId.getD uuid, .resolving s.auth.requests.length⟩] }
  | resolved {i r : ℕ} {e : Exchange} {bearer : String} {key : AuthenticatedKey}
      (he : s.exchanges[i]? = some e) (hstage : e.stage = .resolving r)
      (hreq : s.auth.requests[r]? = some ⟨bearer, .answered (.ok key)⟩) :
      Moved cfg A ttl s (.resume i) (s.setStage i e (.limiting key))
  | refused {i r : ℕ} {e : Exchange} {bearer : String} {err : ApiError}
      (he : s.exchanges[i]? = some e) (hstage : e.stage = .resolving r)
      (hreq : s.auth.requests[r]? = some ⟨bearer, .answered (.error err)⟩) :
      Moved cfg A ttl s (.resume i) (s.setStage i e (.returning none err.intoResponse))
  | limited {i : ℕ} {call : Call} {reply : ScriptReply} {e : Exchange} {key : AuthenticatedKey}
      {surface : Surface} {response : Response} {buckets : Redis}
      (he : s.exchanges[i]? = some e) (hstage : e.stage = .limiting key)
      (hsurface : e.request.surface = some surface)
      (hconsult : consult cfg surface call.nowMs reply key
        (call.arrive (bucketKey surface key.keyPrefix) s.buckets) = (.error response, buckets)) :
      Moved cfg A ttl s (.limit i call reply)
        { s.setStage i e (.returning (some key) response) with buckets := buckets }
  | admitted {i : ℕ} {call : Call} {reply : ScriptReply} {e : Exchange} {key : AuthenticatedKey}
      {surface : Surface} {decision : Option Decision} {buckets : Redis}
      (he : s.exchanges[i]? = some e) (hstage : e.stage = .limiting key)
      (hsurface : e.request.surface = some surface)
      (hconsult : consult cfg surface call.nowMs reply key
        (call.arrive (bucketKey surface key.keyPrefix) s.buckets) = (.ok decision, buckets)) :
      Moved cfg A ttl s (.limit i call reply)
        { s.setStage i e (.handling (some key) decision) with buckets := buckets }
  | handled {i : ℕ} {response : Response} {e : Exchange} {key : Option AuthenticatedKey}
      {decision : Option Decision}
      (he : s.exchanges[i]? = some e) (hstage : e.stage = .handling key decision) :
      Moved cfg A ttl s (.handle i response)
        (s.setStage i e (.returning key (afterHandler decision response)))
  | finished {i now : ℕ} {latencyMs : UInt32} {e : Exchange} {key : Option AuthenticatedKey}
      {response final : Response}
      (he : s.exchanges[i]? = some e) (hstage : e.stage = .returning key response)
      (hfinal : final = propagateRequestId e.id (tipHeaders s.tip now response)) :
      Moved cfg A ttl s (.finish i now latencyMs)
        { s.setStage i e (.done key latencyMs final) with
          log := s.log ++ if cfg.redis then
            (key.map (requestLog e.request final latencyMs)).toList else []
          observed := s.observed ++ [⟨e.request.method, e.request.path, final.status⟩] }
  | cut {m : GatewayMove} {i : ℕ} {e : Exchange} {response : Option Response}
      (he : s.exchanges[i]? = some e) (hopen : e.stage.isOpen = true) :
      Moved cfg A ttl s m (s.setStage i e (.cut response))

section Moves

variable {cfg : GatewayConfig} {A : Argon2Lib} {ttl : ℕ} {s : Gateway}

lemma moved_arrive (request : HttpRequest) (uuid : String) :
    Moved cfg A ttl s (.arrive request uuid) (s.arrive A ttl request uuid) := by
  unfold Gateway.arrive
  split
  · rename_i hsurface
    exact .opened hsurface
  · rename_i surface hsurface
    split
    · rename_i err hbearer
      exact .unreadable hsurface hbearer
    · rename_i bearer hbearer
      exact .arrived hsurface hbearer

lemma moved_resume (i : ℕ) : Moved cfg A ttl s (.resume i) (s.resume i) := by
  unfold Gateway.resume
  split
  · exact .idle _
  · rename_i e he
    split
    · rename_i r hstage
      split
      · rename_i bearer key hreq
        exact .resolved he hstage hreq
      · rename_i bearer err hreq
        exact .refused he hstage hreq
      · exact .idle _
    · exact .idle _

lemma moved_limit (i : ℕ) (call : Call) (reply : ScriptReply) :
    Moved cfg A ttl s (.limit i call reply) (s.limit cfg i call reply) := by
  unfold Gateway.limit
  split
  · exact .idle _
  · rename_i e he
    split
    · rename_i key surface hstage hsurface
      dsimp only
      split
      · rename_i response buckets hconsult
        exact .limited he hstage hsurface hconsult
      · rename_i decision buckets hconsult
        exact .admitted he hstage hsurface hconsult
    · exact .idle _

lemma moved_handle (i : ℕ) (response : Response) :
    Moved cfg A ttl s (.handle i response) (s.handle i response) := by
  unfold Gateway.handle
  split
  · exact .idle _
  · rename_i e he
    split
    · rename_i key decision hstage
      exact .handled he hstage
    · exact .idle _

lemma moved_finish (i now : ℕ) (latencyMs : UInt32) :
    Moved cfg A ttl s (.finish i now latencyMs) (s.finish cfg i now latencyMs) := by
  unfold Gateway.finish
  split
  · exact .idle _
  · rename_i e he
    split
    · rename_i key response hstage
      exact .finished he hstage rfl
    · exact .idle _

lemma moved_cutOff (m : GatewayMove) (i : ℕ) (response : Exchange → Option Response) :
    Moved cfg A ttl s m (s.cutOff i response) := by
  unfold Gateway.cutOff
  split
  · exact .idle _
  · rename_i e he
    split
    · rename_i hopen
      exact .cut he hopen
    · exact .idle _

/-- **Inversion of a move.** -/
lemma moved (cfg : GatewayConfig) (A : Argon2Lib) (ttl : ℕ) (s : Gateway) (m : GatewayMove) :
    Moved cfg A ttl s m (s.exec cfg A ttl m) := by
  cases m with
  | auth m =>
      rw [exec]
      split
      · rename_i hm
        exact .auth hm
      · exact .idle _
  | arrive request uuid => exact moved_arrive request uuid
  | resume i => exact moved_resume i
  | limit i call reply => exact moved_limit i call reply
  | handle i response => exact moved_handle i response
  | finish i now latencyMs => exact moved_finish i now latencyMs
  | timeout i => exact moved_cutOff _ i _
  | panic i => exact moved_cutOff _ i _
  | drop i => exact moved_cutOff _ i _
  | publishTip snap => exact .published snap

end Moves

end Gateway

end Api

end Cellora

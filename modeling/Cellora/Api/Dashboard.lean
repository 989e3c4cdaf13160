/-
# The dashboard

The handlers behind a session: the keys of the signed-in user, the webhooks, and the metrics
over the request logs of the user's keys.  Each runs one statement for the id of the user.

Timestamps are microseconds.  What a request takes from outside its body is its `Draw`: the
clock of the database, the bytes of a new key, the id the database generates for a new row,
what the resolver answers, and how the statement ends.
-/
import Cellora.Api.Keys
import Cellora.Api.RequestLog
import Cellora.Api.Webhooks

namespace Cellora

namespace Api

/-- The tables the dashboard reads and writes. -/
structure Dashboard where
  apiKeys : List ApiKey
  webhooks : List Webhook
  apiRequestLogs : List ApiRequestLog

/-- The crates the handlers use. -/
structure DashboardLib where
  argon2 : Argon2Crate
  uuid : UuidLib
  /-- `Url::parse`. -/
  parseUrl : String → Option ParsedUrl

/-- What a request takes from outside. -/
structure Draw where
  now : ℕ
  key : KeyDraw
  /-- `gen_random_uuid()`. -/
  id : Uuid
  lookupHost : String → ℕ → Option (List IpAddr)
  reply : StatementReply

/-! ### Keys -/

/-- The `Display` form of a `KeyError`. -/
def KeyError.toString : KeyError → String
  | .hashing message => "argon2 hashing failed: " ++ message
  | .badFormat => "key format is invalid"
  | .mismatch => "key verification failed"

/-- `KeyView`. -/
structure KeyView where
  id : Uuid
  label : Option String
  tier : String
  keyPrefix : String
  status : String
  createdAt : ℕ
  revokedAt : Option ℕ
  lastUsedAt : Option ℕ
deriving DecidableEq

/-- `From<ApiKey>`. -/
def KeyView.ofRow (row : ApiKey) : KeyView where
  id := row.id
  label := row.label
  tier := row.tier.asStr
  keyPrefix := row.keyPrefix
  status := if row.revokedAt.isSome then "revoked" else "active"
  createdAt := row.createdAt
  revokedAt := row.revokedAt
  lastUsedAt := row.lastUsedAt

/-- `CreateKeyRequest`. -/
structure CreateKeyRequest where
  label : Option String
  tier : Option ApiKeyTier
deriving DecidableEq

/-- `CreateKeyResponse`. -/
structure CreateKeyResponse where
  key : KeyView
  secret : String
deriving DecidableEq

/-- `keys::generate`, with its error as the handlers report it. -/
def generateKey (L : DashboardLib) (draw : Draw) : Except ApiError IssuedKey :=
  (Keys.generate L.argon2 draw.key).mapError fun err => .internal err.toString

/-- The label of a new key: trimmed, and left out if nothing remains. -/
def keyLabel (label : Option String) : Option String :=
  (label.map fun s => String.ofList (Keys.trim s.toList)).filter fun s => !s.isEmpty

/-- `list_keys`. -/
def listKeys (user : Uuid) (draw : Draw) (rows : List ApiKey) :
    Except ApiError (List KeyView) := do
  let rows ← draw.reply.query (ApiKeys.listForUser user rows)
  .ok (rows.map KeyView.ofRow)

/-- `create_key`. -/
def createKey (L : DashboardLib) (user : Uuid) (draw : Draw) (body : CreateKeyRequest)
    (rows : List ApiKey) : Except ApiError CreateKeyResponse × List ApiKey :=
  match generateKey L draw with
  | .error err => (.error err, rows)
  | .ok issued =>
      let (row, rows') := draw.reply.execute
        (ApiKeys.insert draw.now draw.id user issued.keyPrefix issued.secretHash
          (body.tier.getD .free) (keyLabel body.label) rows) rows
      (row.map fun row => ⟨KeyView.ofRow row, issued.full⟩, rows')

/-- `parse_uuid`. -/
def parseUuid (L : DashboardLib) (raw : String) : Except ApiError Uuid :=
  match L.uuid.parseStr raw with
  | none => .error (.notFound "api key not found")
  | some id => .ok id

/-- `rotate_key`. -/
def rotateKey (L : DashboardLib) (user : Uuid) (draw : Draw) (raw : String)
    (rows : List ApiKey) : Except ApiError CreateKeyResponse × List ApiKey :=
  -- a malformed id is answered like an unknown one, before a key is generated
  match parseUuid L raw, generateKey L draw with
  | .error err, _ => (.error err, rows)
  | .ok _, .error err => (.error err, rows)
  | .ok id, .ok issued =>
      let (row, rows') := draw.reply.execute
        (ApiKeys.rotateForUser id user issued.keyPrefix issued.secretHash rows) rows
      (row >>= fun
        | none => .error (.notFound "api key not found")
        | some row => .ok ⟨KeyView.ofRow row, issued.full⟩, rows')

/-- `revoke_key`. -/
def revokeKey (L : DashboardLib) (user : Uuid) (draw : Draw) (raw : String)
    (rows : List ApiKey) : Except ApiError Unit × List ApiKey :=
  match parseUuid L raw with
  | .error err => (.error err, rows)
  | .ok id =>
      let (revoked, rows') :=
        draw.reply.execute (.ok (ApiKeys.revokeForUser id user draw.now rows)) rows
      (revoked >>= fun revoked =>
        if revoked then .ok () else .error (.notFound "api key not found"), rows')

/-! ### Metrics -/

/-- One hour. -/
def hour : ℕ := 3600000000

/-- `timestamp >= now() - interval`, for an interval in hours. -/
def withinHours (now hours : ℕ) (l : ApiRequestLog) : Bool := now ≤ l.timestamp + hours * hour

/-- `path LIKE '/graphql%'`. -/
def isGraphqlPath (l : ApiRequestLog) : Bool := "/graphql".toList.isPrefixOf l.path.toList

/-- `api_key_id IN (SELECT id FROM api_keys WHERE user_id = $1)`. -/
def logsOfUser (user : Uuid) (db : Dashboard) : List ApiRequestLog :=
  db.apiRequestLogs.filter fun l =>
    ((db.apiKeys.filter fun k => k.userId == user).map ApiKey.id).contains l.apiKeyId

/-- `api_request_logs l JOIN api_keys k ON l.api_key_id = k.id WHERE k.user_id = $1`. -/
def logsWithKey (user : Uuid) (db : Dashboard) : List (ApiRequestLog × ApiKey) :=
  db.apiRequestLogs.flatMap fun l =>
    (db.apiKeys.filter fun k => l.apiKeyId == k.id && k.userId == user).map fun k => (l, k)

/-- `PERCENTILE_CONT(p) WITHIN GROUP (ORDER BY value)`: between the two rows around the
position it interpolates. -/
def percentileCont (p : Float) (values : List ℤ) : Option Float :=
  let sorted := values.mergeSort (· ≤ ·)
  let position := p * Float.ofNat (values.length - 1)
  let first := position.floor.toUInt64.toNat
  let second := position.ceil.toUInt64.toNat
  match sorted[first]?, sorted[second]? with
  | some lo, some hi =>
      if first = second then some (Float.ofInt lo)
      else
        let proportion := position - Float.ofNat first
        some (Float.ofInt lo + proportion * (Float.ofInt hi - Float.ofInt lo))
  | _, _ => none

/-- `COALESCE(PERCENTILE_CONT(0.95) ..., 0.0)` of the latencies. -/
def p95 (logs : List ApiRequestLog) : Float :=
  (percentileCont 0.95 (logs.map ApiRequestLog.latencyMs)).getD 0.0

/-- `UsageDataPoint`. -/
structure UsageDataPoint where
  timestamp : ℕ
  rest : ℕ
  graphql : ℕ
deriving DecidableEq

/-- The query of `usage`, on the logs of the user. -/
def usagePoints (now : ℕ) (logs : List ApiRequestLog) : List UsageDataPoint :=
  let recent := logs.filter (withinHours now 24)
  let hourOf := fun l : ApiRequestLog => l.timestamp - l.timestamp % hour
  ((recent.map hourOf).eraseDups.mergeSort (· ≤ ·)).map fun ts =>
    let group := recent.filter fun l => hourOf l == ts
    ⟨ts, group.countP fun l => !isGraphqlPath l, group.countP isGraphqlPath⟩

/-- `ActivityRow`. -/
structure ActivityRow where
  method : String
  path : String
  key : String
  status : ℤ
  ms : ℤ
  timestamp : ℕ
deriving DecidableEq

/-- The query of `activity`, on the logs of the user with their keys. -/
def activityRows (logs : List (ApiRequestLog × ApiKey)) : List ActivityRow :=
  ((orderByDesc (fun p => p.1.timestamp) logs).take 10).map fun p =>
    ⟨p.1.method, p.1.path, p.2.keyPrefix, p.1.statusCode, p.1.latencyMs, p.1.timestamp⟩

/-- `MetricsSummary`. -/
structure MetricsSummary where
  restP95Ms : Float
  graphqlP95Ms : Float
  errorRate : Float
  rateLimitCount : ℕ
  rateLimitRate : Float
  vsYesterdayPercent : Float

/-- `(part as f64 / whole as f64) * 100.0`, or zero. -/
def percentOf (part whole : ℕ) : Float :=
  if 0 < whole then Float.ofNat part / Float.ofNat whole * 100.0 else 0.0

/-- The query of `summary`, on the logs of the user, and what is computed from it. -/
def metricsSummary (now : ℕ) (logs : List ApiRequestLog) : MetricsSummary :=
  let logs := logs.filter (withinHours now 48)
  let recentLogs := logs.filter (withinHours now 24)
  let recent := recentLogs.length
  let old := logs.countP fun l => !withinHours now 24 l
  let errors := recentLogs.countP fun l => 400 ≤ l.statusCode && l.statusCode != 429
  let rl := recentLogs.countP fun l => l.statusCode == 429
  { restP95Ms := p95 (recentLogs.filter fun l => !isGraphqlPath l)
    graphqlP95Ms := p95 (recentLogs.filter isGraphqlPath)
    errorRate := percentOf errors recent
    rateLimitCount := rl
    rateLimitRate := percentOf rl recent
    vsYesterdayPercent :=
      if 0 < old then
        (Float.ofNat recent - Float.ofNat old) / Float.ofNat old * 100.0
      else if 0 < recent then 100.0 else 0.0 }

/-- `EndpointRow`. -/
structure EndpointRow where
  endpoint : String
  requests : ℕ
  p95Ms : ℤ
deriving DecidableEq

/-- The query of `endpoints`, on the logs of the user. -/
def endpointRows (now : ℕ) (logs : List ApiRequestLog) : List EndpointRow :=
  let recent := logs.filter (withinHours now 24)
  let rows := (recent.map ApiRequestLog.path).eraseDups.map fun path =>
    let group := recent.filter fun l => l.path == path
    (⟨path, group.length, (p95 group).toInt32.toInt⟩ : EndpointRow)
  (orderByDesc EndpointRow.requests rows).take 10

/-- `RateLimitRow`. -/
structure RateLimitRow where
  endpoint : String
  key : String
  surface : String
  ts : ℕ
  retryAfter : ℤ
deriving DecidableEq

/-- The query of `rate_limits`, on the logs of the user with their keys. -/
def rateLimitRows (logs : List (ApiRequestLog × ApiKey)) : List RateLimitRow :=
  let limited := logs.filter fun p => p.1.statusCode == 429
  ((orderByDesc (fun p => p.1.timestamp) limited).take 10).map fun p =>
    ⟨p.1.path, p.2.keyPrefix, if isGraphqlPath p.1 then "GraphQL" else "REST", p.1.timestamp, 60⟩

/-! ### Requests -/

/-- A request of the dashboard. -/
inductive DashboardRequest where
  | listKeys
  | createKey (body : CreateKeyRequest)
  | rotateKey (rawId : String)
  | revokeKey (rawId : String)
  | listWebhooks
  | createWebhook (req : CreateWebhookRequest)
  | deleteWebhook (rawId : String)
  | usage
  | activity
  | summary
  | endpoints
  | rateLimits

/-- The body of a response. -/
inductive DashboardBody where
  | keys (keys : List KeyView)
  /-- Created (201) by `create_key`. -/
  | keyCreated (response : CreateKeyResponse)
  | keyRotated (response : CreateKeyResponse)
  | noContent
  | webhooks (responses : List WebhookResponse)
  | webhook (response : WebhookResponse)
  | null
  | usage (points : List UsageDataPoint)
  | activity (rows : List ActivityRow)
  | summary (summary : MetricsSummary)
  | endpoints (rows : List EndpointRow)
  | rateLimits (rows : List RateLimitRow)

namespace Dashboard

/-- The response to a request of a user, and the tables after it. -/
def handle (L : DashboardLib) (user : Uuid) (db : Dashboard) (draw : Draw) :
    DashboardRequest → Except ApiError DashboardBody × Dashboard
  | .listKeys => ((listKeys user draw db.apiKeys).map .keys, db)
  | .createKey body =>
      let (response, rows) := createKey L user draw body db.apiKeys
      (response.map .keyCreated, { db with apiKeys := rows })
  | .rotateKey raw =>
      let (response, rows) := rotateKey L user draw raw db.apiKeys
      (response.map .keyRotated, { db with apiKeys := rows })
  | .revokeKey raw =>
      let (response, rows) := revokeKey L user draw raw db.apiKeys
      (response.map fun _ => .noContent, { db with apiKeys := rows })
  | .listWebhooks => ((listWebhooks L.uuid user draw.reply db.webhooks).map .webhooks, db)
  | .createWebhook req =>
      let (response, rows) := createWebhook L.uuid L.parseUrl draw.lookupHost user draw.now
        draw.id draw.reply req db.webhooks
      (response.map .webhook, { db with webhooks := rows })
  | .deleteWebhook raw =>
      let (response, rows) := deleteWebhook L.uuid user draw.reply raw db.webhooks
      (response.map fun _ => .null, { db with webhooks := rows })
  | .usage => ((draw.reply.query (usagePoints draw.now (logsOfUser user db))).map .usage, db)
  | .activity => ((draw.reply.query (activityRows (logsWithKey user db))).map .activity, db)
  | .summary =>
      ((draw.reply.query (metricsSummary draw.now (logsOfUser user db))).map .summary, db)
  | .endpoints =>
      ((draw.reply.query (endpointRows draw.now (logsOfUser user db))).map .endpoints, db)
  | .rateLimits =>
      ((draw.reply.query (rateLimitRows (logsWithKey user db))).map .rateLimits, db)

/-- One request of a user, as a step. -/
def serve (L : DashboardLib) (user : Uuid) (db : Dashboard) (m : Draw × DashboardRequest) :
    Except ApiError DashboardBody × Dashboard :=
  handle L user db m.1 m.2

end Dashboard

end Api

end Cellora

/-
# Webhooks of the dashboard

The table `webhooks`, the check of a webhook's address, and the three handlers on them.  The
crates `url` and `uuid` are parameters, and so is what the resolver answers.  A handler runs
one statement; the statement can fail without an effect, or its answer can be lost after it
took effect.
-/
import Cellora.Api.Hex
import Cellora.Db.ApiKeys

namespace Cellora

namespace Api

/-! ### Addresses a webhook must not target -/

/-- An IP address, as its octets or its segments. -/
inductive IpAddr where
  | v4 (a b c d : UInt8)
  | v6 (s₀ s₁ s₂ s₃ s₄ s₅ s₆ s₇ : UInt16)
deriving DecidableEq

namespace Ipv4Addr

/-- `is_loopback`. -/
def isLoopback (a : UInt8) : Bool := a == 127

/-- `is_private`. -/
def isPrivate (a b : UInt8) : Bool :=
  a == 10 || (a == 172 && 16 ≤ b && b ≤ 31) || (a == 192 && b == 168)

/-- `is_link_local`. -/
def isLinkLocal (a b : UInt8) : Bool := a == 169 && b == 254

/-- `is_unspecified`. -/
def isUnspecified (a b c d : UInt8) : Bool := a == 0 && b == 0 && c == 0 && d == 0

/-- `is_broadcast`. -/
def isBroadcast (a b c d : UInt8) : Bool := a == 255 && b == 255 && c == 255 && d == 255

/-- `is_documentation`. -/
def isDocumentation (a b c : UInt8) : Bool :=
  (a == 192 && b == 0 && c == 2) || (a == 198 && b == 51 && c == 100) ||
    (a == 203 && b == 0 && c == 113)

end Ipv4Addr

/-- The branch of `is_blocked_ip` for IPv4. -/
def isBlockedIpv4 (a b c d : UInt8) : Bool :=
  Ipv4Addr.isLoopback a || Ipv4Addr.isPrivate a b || Ipv4Addr.isLinkLocal a b ||
    Ipv4Addr.isUnspecified a b c d || Ipv4Addr.isBroadcast a b c d ||
    Ipv4Addr.isDocumentation a b c || a == 0 || 240 ≤ a || (a == 100 && b &&& 0xc0 == 0x40)

/-- `is_blocked_ip`. -/
def isBlockedIp : IpAddr → Bool
  | .v4 a b c d => isBlockedIpv4 a b c d
  -- an IPv4-mapped address is judged by the IPv4 address in it
  | .v6 0 0 0 0 0 0xffff s₆ s₇ =>
      isBlockedIpv4 (s₆ >>> 8).toUInt8 s₆.toUInt8 (s₇ >>> 8).toUInt8 s₇.toUInt8
  | .v6 s₀ s₁ s₂ s₃ s₄ s₅ s₆ s₇ =>
      let high := s₀ == 0 && s₁ == 0 && s₂ == 0 && s₃ == 0 && s₄ == 0 && s₅ == 0 && s₆ == 0
      -- loopback, unspecified, multicast, unique local, link local
      (high && s₇ == 1) || (high && s₇ == 0) || s₀ &&& 0xff00 == 0xff00 ||
        s₀ &&& 0xfe00 == 0xfc00 || s₀ &&& 0xffc0 == 0xfe80

/-- What the crate `url` finds in a text. -/
structure ParsedUrl where
  scheme : String
  host : Option String
  /-- `port_or_known_default`. -/
  port : Option ℕ
deriving DecidableEq

/-- `validate_webhook_url`, with `Url::parse` and the resolver as parameters. -/
def validateWebhookUrl (parse : String → Option ParsedUrl)
    (lookupHost : String → ℕ → Option (List IpAddr)) (raw : String) : Except String Unit :=
  match parse raw with
  | none => .error "invalid url"
  | some url =>
      if url.scheme ≠ "http" ∧ url.scheme ≠ "https" then .error "scheme must be http or https"
      else
        match url.host with
        | none => .error "url has no host"
        | some host =>
            match lookupHost host (url.port.getD 443) with
            | none => .error "could not resolve host"
            | some addrs =>
                if addrs.any isBlockedIp then .error "url resolves to a non-public address"
                else if addrs.isEmpty then .error "url did not resolve to any address"
                else .ok ()

/-! ### The table and its statements -/

/-- A row of `webhooks`. -/
structure Webhook where
  id : Uuid
  userId : Uuid
  url : String
  events : List String
  secret : Option String
  createdAt : ℕ
deriving DecidableEq

namespace Webhooks

/-- `SELECT ... WHERE user_id = $1 ORDER BY created_at DESC`. -/
def selectForUser (userId : Uuid) (rows : List Webhook) : List Webhook :=
  orderByDesc Webhook.createdAt (rows.filter fun r => r.userId == userId)

/-- `INSERT INTO webhooks`. -/
def insert (now : ℕ) (id userId : Uuid) (url : String) (events : List String)
    (secret : Option String) (rows : List Webhook) : Except DbError (Webhook × List Webhook) :=
  let row : Webhook := ⟨id, userId, url, events, secret, now⟩
  if (rows.map Webhook.id).contains id then .error (.uniqueViolation "webhooks_pkey")
  else .ok (row, rows ++ [row])

/-- `DELETE FROM webhooks WHERE id = $1 AND user_id = $2`, with the number of rows. -/
def deleteForUser (id userId : Uuid) (rows : List Webhook) : ℕ × List Webhook :=
  (rows.countP fun r => r.id == id && r.userId == userId,
    rows.filter fun r => !(r.id == id && r.userId == userId))

end Webhooks

/-! ### What the handlers draw and answer -/

/-- How a statement ends. -/
inductive StatementReply where
  | answered
  /-- It took effect, but its answer was lost. -/
  | lost (message : String)
  | failed (message : String)
deriving DecidableEq

/-- `From<DbError>`, for a statement that the database refuses. -/
def ApiError.ofDbError : DbError → ApiError
  | .uniqueViolation constraint => .internal ("unique violation: " ++ constraint)
  | .foreignKeyViolation constraint => .internal ("foreign key violation: " ++ constraint)
  | .io message => .internal message

/-- A query. -/
def StatementReply.query {β : Type} (reply : StatementReply) (result : β) : Except ApiError β :=
  match reply with
  | .answered => .ok result
  | .lost message => .error (.internal message)
  | .failed message => .error (.internal message)

/-- A statement that changes a table from `rows` to what `result` says. -/
def StatementReply.execute {α β : Type} (reply : StatementReply)
    (result : Except DbError (β × List α)) (rows : List α) : Except ApiError β × List α :=
  match result, reply with
  | _, .failed message => (.error (.internal message), rows)
  | .error _, .lost message => (.error (.internal message), rows)
  | .error err, .answered => (.error (.ofDbError err), rows)
  | .ok (_, rows'), .lost message => (.error (.internal message), rows')
  | .ok (result, rows'), .answered => (.ok result, rows')

/-- The functions of the crate `uuid`. -/
structure UuidLib where
  parseStr : String → Option Uuid
  toString : Uuid → String

/-! ### The handlers -/

/-- `WebhookResponse`. -/
structure WebhookResponse where
  id : String
  url : String
  events : List String
  createdAt : ℕ
deriving DecidableEq

/-- The response for a row. -/
def WebhookResponse.ofRow (L : UuidLib) (r : Webhook) : WebhookResponse :=
  ⟨L.toString r.id, r.url, r.events, r.createdAt⟩

/-- `CreateWebhookRequest`. -/
structure CreateWebhookRequest where
  url : String
  events : List String
  secret : Option String
deriving DecidableEq

/-- `list_webhooks`. -/
def listWebhooks (L : UuidLib) (user : Uuid) (reply : StatementReply) (rows : List Webhook) :
    Except ApiError (List WebhookResponse) := do
  let records ← reply.query (Webhooks.selectForUser user rows)
  .ok (records.map (WebhookResponse.ofRow L))

/-- `create_webhook`. -/
def createWebhook (L : UuidLib) (parse : String → Option ParsedUrl)
    (lookupHost : String → ℕ → Option (List IpAddr)) (user : Uuid) (now : ℕ) (id : Uuid)
    (reply : StatementReply) (req : CreateWebhookRequest) (rows : List Webhook) :
    Except ApiError WebhookResponse × List Webhook :=
  if req.url.isEmpty ∨ req.events = [] then
    (.error (.badRequest "url and events are required"), rows)
  else
    match validateWebhookUrl parse lookupHost req.url with
    | .error reason => (.error (.badRequest ("invalid webhook url: " ++ reason)), rows)
    | .ok () =>
        let (record, rows') :=
          reply.execute (Webhooks.insert now id user req.url req.events req.secret rows) rows
        (record.map (WebhookResponse.ofRow L), rows')

/-- `delete_webhook`. -/
def deleteWebhook (L : UuidLib) (user : Uuid) (reply : StatementReply) (raw : String)
    (rows : List Webhook) : Except ApiError Unit × List Webhook :=
  match L.parseStr raw with
  | none => (.error (.badRequest "invalid webhook id"), rows)
  | some id =>
      let (affected, rows') := reply.execute (.ok (Webhooks.deleteForUser id user rows)) rows
      (affected >>= fun affected =>
        if affected = 0 then .error (.notFound "webhook not found") else .ok (), rows')

end Api

end Cellora

/-
# The rate limit on a response

The middleware that asks the limiter before a handler runs, and the headers it writes.  It
refuses a request without an authenticated key, passes every request on if there is no
limiter, and does one or the other if Redis cannot be reached, as configured.

`X-RateLimit-Reset` is documented as the seconds until the bucket is full again.  The value
that is written is the wait for one token, and so zero on a request that was allowed.  It is
the documented time exactly if the request was denied and the bucket has room for one token
only, or one second is worth all that is missing.
-/
import Cellora.Api.Auth
import Cellora.Api.Promises

namespace Cellora

namespace Api

/-! ### Responses -/

/-- `ApiError::code`. -/
def ApiError.code : ApiError → String
  | .notFound _ => "not_found"
  | .badRequest _ => "bad_request"
  | .invalidCursor _ => "invalid_cursor"
  | .unauthorized _ => "unauthorized"
  | .rateLimited _ => "rate_limited"
  | .upstreamUnavailable _ => "upstream_unavailable"
  | .internal _ => "internal"

/-- `ApiError::status`. -/
def ApiError.status : ApiError → ℕ
  | .notFound _ => 404
  | .badRequest _ | .invalidCursor _ => 400
  | .unauthorized _ => 401
  | .rateLimited _ => 429
  | .upstreamUnavailable _ => 503
  | .internal _ => 500

/-- `ApiError::public_message`. -/
def ApiError.publicMessage : ApiError → String
  | .notFound message | .invalidCursor message | .upstreamUnavailable message
  | .badRequest message => message
  | .internal _ => "internal error"
  | .unauthorized _ => "unauthorized"
  | .rateLimited _ => "rate limited"

/-- A body: the error envelope, whose `details` are always null, or what a handler wrote. -/
inductive Body where
  | envelope (code message : String)
  | handler (text : String)
deriving DecidableEq

/-- A response. -/
structure Response where
  status : ℕ
  headers : List (String × String)
  body : Body
deriving DecidableEq

/-- `HeaderMap::insert`. -/
def Response.insertHeader (response : Response) (name value : String) : Response :=
  { response with headers := (name, value) :: response.headers.filter fun h => h.1 ≠ name }

/-- `HeaderMap::get`. -/
def Response.header (response : Response) (name : String) : Option String :=
  (response.headers.find? fun h => h.1 == name).map Prod.snd

/-- `ApiError::into_response`. -/
def ApiError.intoResponse (err : ApiError) : Response where
  status := err.status
  headers := [("content-type", "application/json")]
  body := .envelope err.code err.publicMessage

/-! ### The middleware -/

/-- The limits of the configuration. -/
structure RateLimitConfig where
  freeRest : LimitParams
  starterRest : LimitParams
  proRest : LimitParams
  freeGraphql : LimitParams
  starterGraphql : LimitParams
  proGraphql : LimitParams
deriving DecidableEq

/-- `LimitParams::from_config`. -/
def LimitParams.fromConfig (config : RateLimitConfig) (tier : ApiKeyTier) (surface : Surface) :
    LimitParams :=
  match surface, tier with
  | .rest, .free => config.freeRest
  | .rest, .starter => config.starterRest
  | .rest, .pro => config.proRest
  | .graphql, .free => config.freeGraphql
  | .graphql, .starter => config.starterGraphql
  | .graphql, .pro => config.proGraphql

/-- How the run of the script ends. -/
inductive ScriptReply where
  | answered
  /-- It took effect, but its answer was lost. -/
  | lost
  | failed
deriving DecidableEq

/-- `attach_rate_limit_headers`. -/
def attachRateLimitHeaders (response : Response) (decision : Decision) : Response :=
  ((response.insertHeader "x-ratelimit-limit" (toString decision.limit)).insertHeader
    "x-ratelimit-remaining" (toString decision.remaining)).insertHeader
      "x-ratelimit-reset" (toString decision.retryAfterSeconds)

/-- The response to a request that the limiter decided, if the handler answers `next`. -/
def decided (decision : Decision) (next : Response) : Response :=
  if !decision.allowed then
    attachRateLimitHeaders
      ((ApiError.rateLimited decision.retryAfterSeconds).intoResponse.insertHeader
        "retry-after" (toString decision.retryAfterSeconds)) decision
  else attachRateLimitHeaders next decision

/-- `rate_limit_for`.  The limiter is given by whether it fails open, and `next` is what the
handler answers if it runs. -/
def rateLimitFor (config : RateLimitConfig) (limiter : Option Bool) (surface : Surface)
    (nowMs : ℕ) (reply : ScriptReply) (key : Option AuthenticatedKey) (next : Response)
    (redis : Redis) : Response × Redis :=
  match key, limiter with
  -- the layers are in the wrong order
  | none, _ => ((ApiError.internal "missing authenticated key").intoResponse, redis)
  | some _, none => (next, redis)
  | some key, some failOpen =>
      let params := LimitParams.fromConfig config key.tier surface
      let (decision, redis') := check key.keyPrefix surface params nowMs redis
      let unreachable : Response :=
        if failOpen then next
        else (ApiError.upstreamUnavailable "rate limiter unreachable").intoResponse
      match reply with
      | .answered => (decided decision next, redis')
      | .lost => (unreachable, redis')
      | .failed => (unreachable, redis)

lemma header_insertHeader (response : Response) (name value : String) :
    (response.insertHeader name value).header name = some value := by
  simp [Response.header, Response.insertHeader]

lemma header_decided (decision : Decision) (next : Response) :
    (decided decision next).header "x-ratelimit-reset" =
      some (toString decision.retryAfterSeconds) := by
  rw [decided]
  split
  · exact header_insertHeader _ _ _
  · exact header_insertHeader _ _ _

lemma toString_nat_injective {m n : ℕ} (h : toString m = toString n) : m = n := by
  have hdigits : Nat.toDigits 10 m = Nat.toDigits 10 n := String.ofList_injective h
  calc m = Nat.ofDigitChars 10 (Nat.toDigits 10 m) 0 := Nat.ofDigitChars_ten_toDigits.symm
    _ = Nat.ofDigitChars 10 (Nat.toDigits 10 n) 0 := by rw [hdigits]
    _ = n := Nat.ofDigitChars_ten_toDigits

/-! ### The time until the bucket is full -/

/-- After a response at the time `t` that left the keys `left`: if it carries a reset of `s`
seconds, then the bucket is full `s` seconds later, and a burst is allowed at that moment.  Redis
may drop the key meanwhile, if its time to live has passed. -/
def ResetIsTimeToFull (keyPrefix : String) (surface : Surface) (params : LimitParams) (t : ℕ)
    (response : Response) (left : Redis) : Prop :=
  ∀ s : ℕ, response.header "x-ratelimit-reset" = some (toString s) →
    refilled params.burst params.refillPerSec (t + 1000 * s) (left (bucketKey surface keyPrefix)) =
      params.burst ∧
    ∀ later : List Call, later.length = params.burst → (∀ c ∈ later, c.nowMs = t + 1000 * s) →
      ExpiresInTime keyPrefix surface params left later →
      ∀ q ∈ decisions keyPrefix surface params left later, q.2.allowed = true

section Reset

variable {keyPrefix : String} {surface : Surface} {params : LimitParams} {left : Redis}

/-- The tokens `s` seconds after a request. -/
lemma burst_le_level_iff (tokens : ℚ) (t s : ℕ) :
    (params.burst : ℚ) ≤ TokenBucket.level (params.burst : ℚ) params.rate (some ⟨tokens, t⟩)
        ((t + 1000 * s : ℕ) : ℚ) ↔
      (params.burst : ℚ) ≤ tokens + params.refillPerSec * s := by
  have helapsed : max 0 (((t + 1000 * s : ℕ) : ℚ) - t) = 1000 * s := by
    push_cast
    rw [add_sub_cancel_left]
    exact max_eq_right (by positivity)
  rw [TokenBucket.level, le_min_iff, helapsed, LimitParams.rate, ← mul_assoc,
    div_mul_cancel₀ _ (by norm_num)]
  exact and_iff_right le_rfl

/-- The bucket is full, and allows a burst, once the time is worth what is missing. -/
lemma full_iff (hr : 0 < params.refillPerSec) {tokens : ℚ} {t s : ℕ}
    (hleft : StoredOk params (left (bucketKey surface keyPrefix)))
    (hbucket : (left (bucketKey surface keyPrefix)).map BucketHash.bucket = some ⟨tokens, t⟩) :
    (refilled params.burst params.refillPerSec (t + 1000 * s)
        (left (bucketKey surface keyPrefix)) = params.burst ∧
      ∀ later : List Call, later.length = params.burst → (∀ c ∈ later, c.nowMs = t + 1000 * s) →
        ExpiresInTime keyPrefix surface params left later →
        ∀ q ∈ decisions keyPrefix surface params left later, q.2.allowed = true) ↔
      (params.burst : ℚ) ≤ tokens + params.refillPerSec * s := by
  have hwithin := hleft.within
  rw [hbucket] at hwithin
  have hall := TokenBucket.serve_replicate_all_iff (Nat.cast_nonneg params.burst) (rate_pos hr).le
    hwithin ((t + 1000 * s : ℕ) : ℚ) params.burst
  rw [refilled_eq, hbucket, ← burst_le_level_iff tokens t s]
  constructor
  · rintro ⟨hfull, -⟩
    exact hfull.ge
  · intro hle
    refine ⟨le_antisymm (TokenBucket.level_le_cap _ _ _ _) hle, fun later hlen htimes hexp => ?_⟩
    -- the requests are those of the token bucket at one time
    have hserve := decisions_at_once hr hleft hexp htimes
    rw [hbucket, hlen] at hserve
    intro q hq
    have hmem := List.mem_map_of_mem (f := fun q : ℕ × Decision => ((q.1 : ℚ), q.2.allowed)) hq
    rw [hserve] at hmem
    exact hall.2 hle _ hmem

/-- Rounding up to milliseconds before rounding up to seconds makes no difference. -/
lemma ceil_waitMs (params : LimitParams) (tokens : ℚ) :
    ⌈(waitMs params tokens : ℚ) / 1000⌉ = ⌈(1 - tokens) / params.refillPerSec⌉ := by
  refine eq_of_forall_ge_iff fun k => ?_
  have hscale : (1 - tokens) * 1000 / params.refillPerSec =
      (1 - tokens) / params.refillPerSec * 1000 := by ring
  rw [Int.ceil_le, Int.ceil_le, div_le_iff₀ (by norm_num)]
  have hcast : (waitMs params tokens : ℚ) ≤ k * 1000 ↔ waitMs params tokens ≤ k * 1000 := by
    exact_mod_cast Iff.rfl
  rw [hcast, waitMs, Int.ceil_le, hscale]
  push_cast
  exact mul_le_mul_iff_left₀ (by norm_num)

/-- An allowed request announces no time at all, and leaves a bucket that is not full. -/
lemma of_allowed {nowMs : ℕ} {data : Option BucketHash}
    (h : 1 ≤ refilled params.burst params.refillPerSec nowMs data) :
    (decisionOf params
        (tokenBucketLua params.burst params.refillPerSec nowMs 1 data).1).retryAfterSeconds = 0 ∧
      tokensLeft params nowMs data =
        refilled params.burst params.refillPerSec nowMs data - 1 := by
  constructor
  · rw [tokenBucketLua]
    simp [h, decisionOf, unsignedOrZero]
  · have hadm : TokenBucket.admits (params.burst : ℚ) params.rate (data.map BucketHash.bucket)
        nowMs = true := by
      rw [refilled_eq] at h
      exact decide_eq_true h
    rw [tokensLeft, TokenBucket.next, hadm, refilled_eq]
    rfl

/-- A denied request announces the wait for a token, and takes none. -/
lemma of_denied (hr : 0 < params.refillPerSec) {nowMs : ℕ} {data : Option BucketHash}
    (hdata : StoredOk params data)
    (h : refilled params.burst params.refillPerSec nowMs data < 1) :
    (tokenBucketLua params.burst params.refillPerSec nowMs 1 data).1 =
        [0, 0, waitMs params (refilled params.burst params.refillPerSec nowMs data)] ∧
      tokensLeft params nowMs data = refilled params.burst params.refillPerSec nowMs data := by
  have hdenied : TokenBucket.admits (params.burst : ℚ) params.rate (data.map BucketHash.bucket)
      nowMs = false := by
    rw [refilled_eq] at h
    exact decide_eq_false (not_le.2 h)
  have htokens : tokensLeft params nowMs data =
      refilled params.burst params.refillPerSec nowMs data := by
    rw [tokensLeft, TokenBucket.next, hdenied, refilled_eq]
    rfl
  exact ⟨htokens ▸ (reply_of_denied hr hdata hdenied).2, htokens⟩

/-- The wait for one token, rounded up to seconds, fills the bucket if it holds one token only,
or if one second does.  A wait of two seconds or more is for a refill of less than one token a
second, which is not worth a second token. -/
lemma burst_le_wait_iff (hr : 0 < params.refillPerSec) (hb : 1 ≤ params.burst) {tokens : ℚ}
    (h₀ : 0 ≤ tokens) (hlt : tokens < 1) :
    (params.burst : ℚ) ≤
        tokens + params.refillPerSec * ⌈(1 - tokens) / params.refillPerSec⌉ ↔
      params.burst = 1 ∨ (params.burst : ℚ) ≤ tokens + params.refillPerSec := by
  set s := ⌈(1 - tokens) / params.refillPerSec⌉ with hs
  have hpos : 1 ≤ s := Int.ceil_pos.2 (div_pos (by linarith) hr)
  have henough : 1 - tokens ≤ params.refillPerSec * s := by
    have := Int.le_ceil ((1 - tokens) / params.refillPerSec)
    rwa [div_le_iff₀' hr] at this
  have hlast : params.refillPerSec * (s - 1 : ℚ) < 1 - tokens := by
    have := Int.ceil_lt_add_one ((1 - tokens) / params.refillPerSec)
    rw [← hs, ← sub_lt_iff_lt_add, lt_div_iff₀' hr] at this
    exact this
  constructor
  · intro h
    rcases eq_or_lt_of_le hpos with hone | htwo
    · right
      rw [← hone, Int.cast_one, mul_one] at h
      exact h
    · left
      have hcast : (2 : ℚ) ≤ s := by exact_mod_cast htwo
      have hslow : params.refillPerSec ≤ params.refillPerSec * (s - 1 : ℚ) :=
        le_mul_of_one_le_right hr.le (by linarith)
      have hlt' : (params.burst : ℚ) < 2 := by linarith
      have : params.burst < 2 := by exact_mod_cast hlt'
      omega
  · rintro (hone | hle)
    · rw [hone, Nat.cast_one]
      linarith
    · have hcast : (1 : ℚ) ≤ s := by exact_mod_cast hpos
      have := le_mul_of_one_le_right hr.le hcast
      linarith

/-- The seconds that are announced are worth what a check leaves missing exactly if it was
denied and its wait is worth it. -/
lemma burst_le_tokensLeft_iff (hb : 1 ≤ params.burst) (hr : 0 < params.refillPerSec) {nowMs : ℕ}
    {data : Option BucketHash} (hdata : StoredOk params data)
    (hreply : ∀ z ∈ (tokenBucketLua params.burst params.refillPerSec nowMs 1 data).1,
      z ≤ i64Max) :
    (params.burst : ℚ) ≤ tokensLeft params nowMs data + params.refillPerSec *
        (decisionOf params
          (tokenBucketLua params.burst params.refillPerSec nowMs 1 data).1).retryAfterSeconds ↔
      refilled params.burst params.refillPerSec nowMs data < 1 ∧
        (params.burst = 1 ∨ (params.burst : ℚ) ≤
          refilled params.burst params.refillPerSec nowMs data + params.refillPerSec) := by
  have hlevel : refilled params.burst params.refillPerSec nowMs data ≤ params.burst := by
    rw [refilled_eq]
    exact TokenBucket.level_le_cap _ _ _ _
  rcases le_or_gt 1 (refilled params.burst params.refillPerSec nowMs data) with hone | hone
  · -- allowed: the bucket is a token short, and zero seconds are announced
    obtain ⟨hzero, htokens⟩ := of_allowed hone
    rw [hzero, htokens, Nat.cast_zero, mul_zero, add_zero]
    constructor
    · intro h
      linarith
    · rintro ⟨hlt, -⟩
      exact absurd hone (not_le.2 hlt)
  · -- denied: the wait is a number of the reply, so it is announced as it is
    obtain ⟨hwait, htokens⟩ := of_denied hr hdata hone
    have hpos := waitMs_pos hr hone
    rw [hwait] at hreply
    have hfits : waitMs params (refilled params.burst params.refillPerSec nowMs data) ≤ u64Max :=
      (hreply _ (by simp)).trans (by decide)
    have hseconds := decisionOf_retryAfterSeconds params 0 hpos.le hfits
    rw [ceil_waitMs] at hseconds
    rw [htokens, hwait, ← burst_le_wait_iff hr hb (htokens ▸ (tokensLeft_bounds hr hdata _).1)
      hone, ← hseconds, Int.cast_natCast]
    exact ⟨fun h => ⟨hone, h⟩, fun h => h.2⟩

end Reset

/-- **When the reset is the time to a full bucket.**  After any calls on a bucket that was not
there before, the reset on the response to a request at the time of `c` is the time until the
bucket is full exactly if the request finds less than one token, and the bucket holds no more
than one or one second refills all that is missing.  The numbers of the reply are of the type
`i64`. -/
theorem reset_is_time_to_full_iff (config : RateLimitConfig) (failOpen : Bool)
    (surface : Surface) (key : AuthenticatedKey) (next : Response)
    (hb : 1 ≤ (LimitParams.fromConfig config key.tier surface).burst)
    (hr : 0 < (LimitParams.fromConfig config key.tier surface).refillPerSec) (redis : Redis)
    (hstart : redis (bucketKey surface key.keyPrefix) = none) (calls : List Call) (c : Call) :
    let params := LimitParams.fromConfig config key.tier surface
    let found := c.arrive (bucketKey surface key.keyPrefix)
      (afterCalls key.keyPrefix surface params redis calls)
    let answer :=
      rateLimitFor config (some failOpen) surface c.nowMs .answered (some key) next found
    let tokens := TokenBucket.level (params.burst : ℚ) params.rate
      ((found (bucketKey surface key.keyPrefix)).map BucketHash.bucket) c.nowMs
    (∀ z ∈ (tokenBucketLua params.burst params.refillPerSec c.nowMs 1
        (found (bucketKey surface key.keyPrefix))).1, z ≤ i64Max) →
    (ResetIsTimeToFull key.keyPrefix surface params c.nowMs answer.1 answer.2 ↔
      tokens < 1 ∧ (params.burst = 1 ∨ (params.burst : ℚ) ≤ tokens + params.refillPerSec)) := by
  intro params found answer tokens hreply
  have hcalls : StoredOk params
      (afterCalls key.keyPrefix surface params redis calls (bucketKey surface key.keyPrefix)) :=
    storedOk_afterCalls hr (hstart ▸ StoredOk.none) calls
  have hfound : StoredOk params (found (bucketKey surface key.keyPrefix)) :=
    storedOk_arrive hcalls c
  have hleft : StoredOk params (answer.2 (bucketKey surface key.keyPrefix)) :=
    storedOk_afterCall hr hcalls c
  have hbucket := afterCall_bucket key.keyPrefix surface params
    (afterCalls key.keyPrefix surface params redis calls) c
  -- the one value the header has
  have hheader := header_decided (check key.keyPrefix surface params c.nowMs found).1 next
  have htokens : tokens = refilled params.burst params.refillPerSec c.nowMs
      (found (bucketKey surface key.keyPrefix)) := (refilled_eq _ _ _).symm
  rw [htokens, ← burst_le_tokensLeft_iff hb hr hfound hreply, ← full_iff hr hleft hbucket]
  constructor
  · intro h
    exact h _ hheader
  · intro h s hs
    rw [← toString_nat_injective (Option.some.inj (hheader.symm.trans hs))]
    exact h

namespace ResetSample

/-- The same limit for every tier and surface. -/
def config (limit : LimitParams) : RateLimitConfig := ⟨limit, limit, limit, limit, limit, limit⟩

def key : AuthenticatedKey := ⟨1, "cell_00000000", .free⟩

/-- What the handler answers. -/
def ok : Response := ⟨200, [], .handler ""⟩

end ResetSample

/-- Two requests at once and ten a second: the third request at once is denied, and a second
later the bucket is full. -/
theorem reset_is_time_to_full_iff_sample :
    let limit : LimitParams := ⟨2, 10⟩
    let found := afterCalls "cell_00000000" .rest limit Sample.noKeys [⟨0, false⟩, ⟨0, false⟩]
    let answer := rateLimitFor (ResetSample.config limit) (some true) .rest 0 .answered
      (some ResetSample.key) ResetSample.ok found
    ResetIsTimeToFull "cell_00000000" .rest limit 0 answer.1 answer.2 := by
  intro limit found answer
  have hreply : ∀ z ∈ (tokenBucketLua limit.burst limit.refillPerSec 0 1
      (found (bucketKey .rest "cell_00000000"))).1, z ≤ i64Max := by
    decide +kernel
  have hempty : TokenBucket.level (limit.burst : ℚ) limit.rate
      ((found (bucketKey .rest "cell_00000000")).map BucketHash.bucket) (0 : ℕ) < 1 ∧
      (limit.burst = 1 ∨ (limit.burst : ℚ) ≤ TokenBucket.level (limit.burst : ℚ) limit.rate
        ((found (bucketKey .rest "cell_00000000")).map BucketHash.bucket) (0 : ℕ) +
          limit.refillPerSec) := by
    decide +kernel
  exact (reset_is_time_to_full_iff (ResetSample.config limit) true .rest ResetSample.key
    ResetSample.ok (by decide) (by decide) Sample.noKeys rfl [⟨0, false⟩, ⟨0, false⟩]
    ⟨0, false⟩ hreply).2 hempty

/-- Two requests at once and one a second: the first request is allowed with a reset of zero
seconds, but of two requests at the same moment only one is allowed. -/
theorem reset_of_allowed_request_is_zero :
    let answer := rateLimitFor (ResetSample.config Sample.limit) (some true) .rest 0 .answered
      (some ResetSample.key) ResetSample.ok Sample.noKeys
    answer.1.header "x-ratelimit-reset" = some (toString 0) ∧
      ((decisions "cell_00000000" .rest Sample.limit answer.2 [⟨0, false⟩, ⟨0, false⟩]).map
        fun q => q.2.allowed) = [true, false] ∧
      ¬ ResetIsTimeToFull "cell_00000000" .rest Sample.limit 0 answer.1 answer.2 := by
  intro answer
  have hheader : answer.1.header "x-ratelimit-reset" = some (toString 0) := by
    decide +kernel
  have hdecisions : ((decisions "cell_00000000" .rest Sample.limit answer.2
      [⟨0, false⟩, ⟨0, false⟩]).map fun q => q.2.allowed) = [true, false] := by
    decide +kernel
  refine ⟨hheader, hdecisions, fun h => ?_⟩
  have hall := (h 0 hheader).2 [⟨0, false⟩, ⟨0, false⟩] rfl (by decide) (by decide +kernel)
  have hfalse : false ∈ [true, false] := by decide
  rw [← hdecisions] at hfalse
  obtain ⟨q, hq, hnot⟩ := List.mem_map.1 hfalse
  rw [hall q hq] at hnot
  cases hnot

end Api

end Cellora

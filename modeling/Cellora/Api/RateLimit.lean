/-
# The rate limiter

The token-bucket script that Redis runs for each request, and the check around it.  The
numbers of the script are rationals here.  Redis is the map from bucket keys to the hashes
the script stores, each with the time from which Redis may drop it.  The script refines the
abstract token bucket, in which the time is counted in milliseconds.
-/
import Cellora.Ckb.Types
import Cellora.Lib.TokenBucket
import Mathlib.Algebra.Order.Floor.Ring
import Mathlib.Data.Rat.Floor
import Mathlib.Tactic.FieldSimp

namespace Cellora

namespace Api

/-- Which surface is limited. -/
inductive Surface where
  | rest
  | graphql
deriving DecidableEq, Repr

/-- The name of a surface in a bucket key. -/
def Surface.slug : Surface → String
  | .rest => "rest"
  | .graphql => "graphql"

/-- The limit of a tier on a surface. -/
structure LimitParams where
  burst : ℕ
  refillPerSec : ℚ
deriving DecidableEq

/-- Outcome of one bucket check. -/
structure Decision where
  allowed : Bool
  remaining : ℕ
  retryAfterSeconds : ℕ
  limit : ℕ
deriving DecidableEq

/-- The hash at a bucket key. -/
structure BucketHash where
  tokens : ℚ
  last : ℕ
  /-- From this time on Redis may drop the key. -/
  expireAt : ℤ
deriving DecidableEq

/-- The bucket keys that exist. -/
abbrev Redis := String → Option BucketHash

/-- The tokens after the refill, in the script. -/
def refilled (capacity refillPerSec : ℚ) (nowMs : ℕ) (data : Option BucketHash) : ℚ :=
  let tokens := match data with
    | some hash => hash.tokens
    | none => capacity
  let last := match data with
    | some hash => hash.last
    | none => nowMs
  let elapsedMs : ℚ := max 0 ((nowMs : ℚ) - last)
  let refill := elapsedMs * refillPerSec / 1000
  min capacity (tokens + refill)

/-- The time to live of a bucket key, in the script. -/
def ttlMs (capacity refillPerSec : ℚ) : ℤ :=
  if 0 < refillPerSec then ⌈capacity * 1000 / refillPerSec * 2⌉ else 60000

/-- `TOKEN_BUCKET_LUA`: the reply and the hash it leaves at the key. -/
def tokenBucketLua (capacity refillPerSec : ℚ) (nowMs : ℕ) (cost : ℚ)
    (data : Option BucketHash) : List ℤ × BucketHash :=
  let tokens := refilled capacity refillPerSec nowMs data
  let (tokens, allowed, retryAfterMs) : ℚ × ℤ × ℤ :=
    if cost ≤ tokens then (tokens - cost, 1, 0)
    else if 0 < refillPerSec then (tokens, 0, ⌈(cost - tokens) * 1000 / refillPerSec⌉)
    else (tokens, 0, 1000)
  ([allowed, ⌊tokens⌋, retryAfterMs],
    ⟨tokens, nowMs, (nowMs : ℤ) + ttlMs capacity refillPerSec⟩)

/-- `T::try_from(z.max(0)).unwrap_or(0)` for an unsigned type with the given maximum. -/
def unsignedOrZero (maximum : ℕ) (z : ℤ) : ℕ :=
  if (max z 0).toNat ≤ maximum then (max z 0).toNat else 0

/-- The decision that a reply stands for.  The reply is a list of numbers of the type `i64`; the
script's own numbers have no such bound, and what is said of the wait holds as far as it is
one. -/
def decisionOf (params : LimitParams) (raw : List ℤ) : Decision where
  allowed := (raw[0]?).getD 0 == 1
  remaining := unsignedOrZero u32Max ((raw[1]?).getD 0)
  retryAfterSeconds := (unsignedOrZero u64Max ((raw[2]?).getD 0) + 999) / 1000
  limit := params.burst

/-- The key of a bucket. -/
def bucketKey (surface : Surface) (keyPrefix : String) : String :=
  s!"rl:{surface.slug}:{keyPrefix}"

/-- `RateLimiter::check` at the time `nowMs`. -/
def check (keyPrefix : String) (surface : Surface) (params : LimitParams) (nowMs : ℕ)
    (redis : Redis) : Decision × Redis :=
  let key := bucketKey surface keyPrefix
  let cost : ℚ := 1
  let (raw, hash) := tokenBucketLua params.burst params.refillPerSec nowMs cost (redis key)
  (decisionOf params raw, Function.update redis key (some hash))

/-! ### One check -/

/-- The bucket that a hash stands for. -/
def BucketHash.bucket (hash : BucketHash) : TokenBucket.Bucket ℚ := ⟨hash.tokens, hash.last⟩

/-- The rate of a limit, in tokens per millisecond. -/
def LimitParams.rate (params : LimitParams) : ℚ := params.refillPerSec / 1000

section Check

variable (params : LimitParams) (nowMs : ℕ)

lemma refilled_eq (data : Option BucketHash) :
    refilled params.burst params.refillPerSec nowMs data =
      TokenBucket.level (params.burst : ℚ) params.rate (data.map BucketHash.bucket) nowMs := by
  cases data with
  | none => simp [refilled, TokenBucket.level]
  | some hash =>
      simp only [refilled, Option.map_some, TokenBucket.level, BucketHash.bucket,
        LimitParams.rate]
      rw [mul_div_assoc, mul_comm]

/-- What the script answers and stores, in terms of the token bucket. -/
lemma tokenBucketLua_eq (data : Option BucketHash) :
    (tokenBucketLua params.burst params.refillPerSec nowMs 1 data).2 =
      ⟨(TokenBucket.next (params.burst : ℚ) params.rate (data.map BucketHash.bucket) nowMs).tokens,
        nowMs, nowMs + ttlMs params.burst params.refillPerSec⟩ ∧
    (decisionOf params
        (tokenBucketLua params.burst params.refillPerSec nowMs 1 data).1).allowed =
      TokenBucket.admits (params.burst : ℚ) params.rate (data.map BucketHash.bucket) nowMs := by
  rw [tokenBucketLua, refilled_eq, TokenBucket.next, TokenBucket.admits]
  by_cases h : 1 ≤ TokenBucket.level (params.burst : ℚ) params.rate
      (data.map BucketHash.bucket) nowMs
  · simp [h, decisionOf]
  · by_cases hrate : 0 < params.refillPerSec
    · simp [h, hrate, decisionOf]
    · simp [h, hrate, decisionOf]

variable (keyPrefix : String) (surface : Surface) (redis : Redis)

lemma check_allowed :
    (check keyPrefix surface params nowMs redis).1.allowed =
      TokenBucket.admits (params.burst : ℚ) params.rate
        ((redis (bucketKey surface keyPrefix)).map BucketHash.bucket) nowMs :=
  (tokenBucketLua_eq params nowMs _).2

lemma check_stored :
    (check keyPrefix surface params nowMs redis).2 (bucketKey surface keyPrefix) =
      some ⟨(TokenBucket.next (params.burst : ℚ) params.rate
          ((redis (bucketKey surface keyPrefix)).map BucketHash.bucket) nowMs).tokens,
        nowMs, nowMs + ttlMs params.burst params.refillPerSec⟩ := by
  rw [← (tokenBucketLua_eq params nowMs _).1]
  exact Function.update_self _ _ _

lemma check_bucket :
    ((check keyPrefix surface params nowMs redis).2 (bucketKey surface keyPrefix)).map
        BucketHash.bucket =
      some (TokenBucket.next (params.burst : ℚ) params.rate
        ((redis (bucketKey surface keyPrefix)).map BucketHash.bucket) nowMs) := by
  rw [check_stored]
  rfl

end Check

end Api

end Cellora

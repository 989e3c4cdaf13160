/-
# What the limiter tells its clients

A check answers with the number of requests that are still allowed at the same moment, and a
denied one with the time to wait.  Both are exact: the floor of the stored tokens is the
number of requests they pay for, and the ceiling of what is missing is the first millisecond
that pays for one more.  Whether Redis drops the key meanwhile makes no difference.
-/
import Cellora.Api.Admission

namespace Cellora

namespace Api

variable {params : LimitParams}

/-! ### The reply of the script -/

/-- The tokens that a check leaves behind. -/
def tokensLeft (params : LimitParams) (nowMs : ℕ) (data : Option BucketHash) : ℚ :=
  (TokenBucket.next (params.burst : ℚ) params.rate (data.map BucketHash.bucket) nowMs).tokens

/-- The time to wait that the script computes from the tokens it leaves behind. -/
def waitMs (params : LimitParams) (tokens : ℚ) : ℤ :=
  ⌈(1 - tokens) * 1000 / params.refillPerSec⌉

section Reply

variable {nowMs : ℕ} {data : Option BucketHash}

lemma tokensLeft_bounds (hr : 0 < params.refillPerSec) (h : StoredOk params data) (nowMs : ℕ) :
    0 ≤ tokensLeft params nowMs data ∧ tokensLeft params nowMs data ≤ params.burst :=
  TokenBucket.within_next (Nat.cast_nonneg _) (rate_pos hr).le h.within (nowMs : ℚ) _ rfl

/-- The second number of the reply is the floor of what is left. -/
lemma reply_remaining :
    (tokenBucketLua params.burst params.refillPerSec nowMs 1 data).1[1]? =
      some ⌊tokensLeft params nowMs data⌋ := by
  have hstored := (tokenBucketLua_eq params nowMs data).1
  have htokens : tokensLeft params nowMs data =
      (tokenBucketLua params.burst params.refillPerSec nowMs 1 data).2.tokens := by
    rw [hstored]
    rfl
  rw [htokens]
  rfl

/-- The reply of a denied check. -/
lemma reply_of_denied (hr : 0 < params.refillPerSec) (h : StoredOk params data)
    (hdenied : TokenBucket.admits (params.burst : ℚ) params.rate (data.map BucketHash.bucket)
      nowMs = false) :
    tokensLeft params nowMs data < 1 ∧
      (tokenBucketLua params.burst params.refillPerSec nowMs 1 data).1 =
        [0, 0, waitMs params (tokensLeft params nowMs data)] := by
  have hlevel : tokensLeft params nowMs data =
      TokenBucket.level (params.burst : ℚ) params.rate (data.map BucketHash.bucket) nowMs := by
    rw [tokensLeft, TokenBucket.next, hdenied]
    rfl
  have hlt : tokensLeft params nowMs data < 1 := by
    rw [hlevel]
    exact not_le.1 (of_decide_eq_false hdenied)
  have hfloor : ⌊tokensLeft params nowMs data⌋ = 0 :=
    Int.floor_eq_zero_iff.2 ⟨(tokensLeft_bounds hr h nowMs).1, hlt⟩
  refine ⟨hlt, ?_⟩
  rw [tokenBucketLua, refilled_eq, ← hlevel]
  simp only [if_neg (not_le.2 hlt), if_pos hr, hfloor, waitMs]

end Reply

/-! ### The decision -/

section Decision

variable {keyPrefix : String} {surface : Surface} {redis : Redis}

/-- The remaining count is the floor of what is left, which fits its type. -/
lemma decisionOf_remaining (hmax : params.burst ≤ u32Max) (hr : 0 < params.refillPerSec)
    {nowMs : ℕ} {data : Option BucketHash} (h : StoredOk params data) :
    ((decisionOf params (tokenBucketLua params.burst params.refillPerSec nowMs 1 data).1).remaining
      : ℤ) = ⌊tokensLeft params nowMs data⌋ := by
  obtain ⟨h₀, hle⟩ := tokensLeft_bounds hr h nowMs
  have hfloor₀ : 0 ≤ ⌊tokensLeft params nowMs data⌋ := Int.floor_nonneg.2 h₀
  have hfloor : ⌊tokensLeft params nowMs data⌋ ≤ params.burst :=
    Int.floor_le_iff.2 (by push_cast; linarith)
  simp only [decisionOf, reply_remaining, Option.getD_some, unsignedOrZero]
  rw [max_eq_left hfloor₀, if_pos (by omega)]
  exact Int.toNat_of_nonneg hfloor₀

/-- Rounding up to seconds. -/
lemma decisionOf_retryAfterSeconds (params : LimitParams) (remaining : ℤ) {m : ℤ} (hm : 0 ≤ m)
    (hmax : m ≤ u64Max) :
    ((decisionOf params [0, remaining, m]).retryAfterSeconds : ℤ) = ⌈(m : ℚ) / 1000⌉ := by
  have hfits : m.toNat ≤ u64Max := by omega
  have hnum : (decisionOf params [0, remaining, m]).retryAfterSeconds = (m.toNat + 999) / 1000 := by
    change (unsignedOrZero u64Max m + 999) / 1000 = _
    rw [unsignedOrZero, max_eq_left hm, if_pos hfits]
  have hceil := Rat.ceil_intCast_div_natCast m 1000
  rw [Nat.cast_ofNat] at hceil
  rw [hnum, hceil]
  omega

lemma waitMs_pos (hr : 0 < params.refillPerSec) {tokens : ℚ} (h : tokens < 1) :
    0 < waitMs params tokens := by
  refine Int.ceil_pos.2 (div_pos (mul_pos ?_ (by norm_num)) hr)
  linarith

lemma waitMs_eq (hr : 0 < params.refillPerSec) (tokens : ℚ) :
    waitMs params tokens = ⌈(1 - tokens) / params.rate⌉ := by
  rw [waitMs, LimitParams.rate]
  congr 1
  field_simp

/-- The bucket that a check leaves behind. -/
lemma afterCall_bucket (keyPrefix : String) (surface : Surface) (params : LimitParams)
    (redis : Redis) (c : Call) :
    (afterCall keyPrefix surface params redis c (bucketKey surface keyPrefix)).map
        BucketHash.bucket =
      some ⟨tokensLeft params c.nowMs
        (c.arrive (bucketKey surface keyPrefix) redis (bucketKey surface keyPrefix)), c.nowMs⟩ := by
  rw [afterCall, check_bucket]
  rfl

/-- A check that finds no whole token is allowed from the announced millisecond on. -/
lemma check_allowed_iff (hb : 1 ≤ params.burst) (hr : 0 < params.refillPerSec) {tokens : ℚ}
    {last nowMs : ℕ} (hlt : tokens < 1)
    (hbucket : (redis (bucketKey surface keyPrefix)).map BucketHash.bucket =
      some ⟨tokens, last⟩) :
    (check keyPrefix surface params nowMs redis).1.allowed = true ↔
      last + waitMs params tokens ≤ nowMs := by
  have hcap : (1 : ℚ) ≤ params.burst := by exact_mod_cast hb
  have hwait := TokenBucket.admits_iff_ceil_le hcap (rate_pos hr) hlt last nowMs
  rw [Int.cast_natCast, Int.cast_natCast] at hwait
  rw [check_allowed, hbucket, waitMs_eq hr]
  exact hwait

/-- Of the checks at the time of the last one, as many are allowed as there are whole tokens. -/
lemma decisions_of_remaining (hr : 0 < params.refillPerSec)
    (hleft : StoredOk params (redis (bucketKey surface keyPrefix))) {tokens : ℚ} {last : ℕ}
    (hbucket : (redis (bucketKey surface keyPrefix)).map BucketHash.bucket = some ⟨tokens, last⟩)
    (hcap : tokens ≤ params.burst) {n : ℕ} (hn : (n : ℤ) = ⌊tokens⌋) {later : List Call}
    (hlen : later.length = n + 1) (htimes : ∀ c ∈ later, c.nowMs = last)
    (hexp : ExpiresInTime keyPrefix surface params redis later) :
    (decisions keyPrefix surface params redis later).map (fun q => q.2.allowed) =
      List.replicate n true ++ [false] := by
  have hserve := decisions_at_once hr hleft hexp htimes
  rw [hbucket, hlen] at hserve
  have hfloor : (n : ℚ) = ⌊tokens⌋ := by
    rw [← hn, Int.cast_natCast]
  have hall := TokenBucket.serve_replicate_last params.rate (b := ⟨tokens, last⟩) hcap (n := n)
    (by rw [hfloor]; exact Int.floor_le _) (by rw [hfloor]; exact Int.lt_floor_add_one _)
  rw [← hall, ← hserve, List.map_map]
  rfl

end Decision

/-- **The limiter's promises hold.**  After any calls on a bucket that was not there before, a
check at the time of `c` leaves a state in which (a) of the checks at the same time exactly as
many are allowed as it reported to remain, and the next one is denied; and (b) if it was denied
with a wait of `m` milliseconds, a single later check is allowed exactly from `m` milliseconds
on, and so after the announced seconds, which are `m` rounded up.  The later checks may find
the key dropped, if its time to live has passed. -/
theorem limiter_promises (keyPrefix : String) (surface : Surface) (params : LimitParams)
    (hb : 1 ≤ params.burst) (hmax : params.burst ≤ u32Max) (hr : 0 < params.refillPerSec)
    (redis : Redis) (hstart : redis (bucketKey surface keyPrefix) = none) (calls : List Call)
    (c : Call) :
    let key := bucketKey surface keyPrefix
    let found := c.arrive key (afterCalls keyPrefix surface params redis calls)
    let decision := (check keyPrefix surface params c.nowMs found).1
    let left := (check keyPrefix surface params c.nowMs found).2
    (∀ later : List Call, later.length = decision.remaining + 1 →
      (∀ c' ∈ later, c'.nowMs = c.nowMs) → ExpiresInTime keyPrefix surface params left later →
      (decisions keyPrefix surface params left later).map (fun q => q.2.allowed) =
        List.replicate decision.remaining true ++ [false]) ∧
    (decision.allowed = false → ∃ m : ℤ, 0 < m ∧
      (tokenBucketLua params.burst params.refillPerSec c.nowMs 1 (found key)).1 = [0, 0, m] ∧
      (∀ c' : Call, ExpiresInTime keyPrefix surface params left [c'] →
        ((check keyPrefix surface params c'.nowMs (c'.arrive key left)).1.allowed = true ↔
          c.nowMs + m ≤ c'.nowMs)) ∧
      (m ≤ i64Max → (decision.retryAfterSeconds : ℤ) = ⌈(m : ℚ) / 1000⌉ ∧
        ∀ c' : Call, ExpiresInTime keyPrefix surface params left [c'] →
          c.nowMs + 1000 * decision.retryAfterSeconds ≤ c'.nowMs →
          (check keyPrefix surface params c'.nowMs (c'.arrive key left)).1.allowed = true)) := by
  intro key found decision left
  have hcalls : StoredOk params (afterCalls keyPrefix surface params redis calls key) :=
    storedOk_afterCalls hr (hstart ▸ StoredOk.none) calls
  have hfound : StoredOk params (found key) := storedOk_arrive hcalls c
  have hleft : StoredOk params (left key) := storedOk_afterCall hr hcalls c
  have hbucket : (left key).map BucketHash.bucket =
      some ⟨tokensLeft params c.nowMs (found key), c.nowMs⟩ :=
    afterCall_bucket keyPrefix surface params _ c
  refine ⟨fun later hlen htimes hexp => ?_, fun hdenied => ?_⟩
  · have hremaining : (decision.remaining : ℤ) = ⌊tokensLeft params c.nowMs (found key)⌋ :=
      decisionOf_remaining hmax hr hfound
    exact decisions_of_remaining hr hleft hbucket (tokensLeft_bounds hr hfound c.nowMs).2
      hremaining hlen htimes hexp
  · have hadmits := (tokenBucketLua_eq params c.nowMs (found key)).2
    obtain ⟨hlt, hreply⟩ := reply_of_denied hr hfound (hadmits.symm.trans hdenied)
    have hpos := waitMs_pos hr hlt
    have hiff : ∀ c' : Call, ExpiresInTime keyPrefix surface params left [c'] →
        ((check keyPrefix surface params c'.nowMs (c'.arrive key left)).1.allowed = true ↔
          c.nowMs + waitMs params (tokensLeft params c.nowMs (found key)) ≤ c'.nowMs) := by
      intro c' hexp
      rw [check_arrive hr hleft hexp.1]
      exact check_allowed_iff hb hr hlt hbucket
    refine ⟨_, hpos, hreply, hiff, fun hm => ?_⟩
    have hu64 : waitMs params (tokensLeft params c.nowMs (found key)) ≤ u64Max :=
      hm.trans (by decide)
    have hseconds : (decision.retryAfterSeconds : ℤ) =
        ⌈(waitMs params (tokensLeft params c.nowMs (found key)) : ℚ) / 1000⌉ := by
      rw [← decisionOf_retryAfterSeconds params 0 hpos.le hu64, ← hreply]
      rfl
    refine ⟨hseconds, fun c' hexp hle => (hiff c' hexp).2 ?_⟩
    have hceil := Int.le_ceil
      ((waitMs params (tokensLeft params c.nowMs (found key)) : ℚ) / 1000)
    rw [← hseconds, div_le_iff₀ (by norm_num)] at hceil
    have hwait : waitMs params (tokensLeft params c.nowMs (found key)) ≤
        decision.retryAfterSeconds * 1000 := by
      exact_mod_cast hceil
    omega

/-- The third request at once is denied for a second. -/
theorem limiter_promises_sample :
    let left := afterCalls "cell_00000000" .rest Sample.limit Sample.noKeys
      [⟨0, false⟩, ⟨0, false⟩, ⟨0, false⟩]
    (check "cell_00000000" .rest Sample.limit 999 left).1.allowed = false ∧
    (check "cell_00000000" .rest Sample.limit 1000 left).1.allowed = true := by
  intro left
  obtain ⟨-, hdenied⟩ := limiter_promises "cell_00000000" .rest Sample.limit (by decide)
    (by decide) (by decide) Sample.noKeys rfl [⟨0, false⟩, ⟨0, false⟩] ⟨0, false⟩
  obtain ⟨m, -, hreply, hiff, -⟩ := hdenied (by decide +kernel)
  obtain rfl : m = 1000 := by
    have hthird := congrArg (fun raw : List ℤ => raw[2]?) hreply
    have hreply' : (tokenBucketLua Sample.limit.burst Sample.limit.refillPerSec 0 1
        (afterCalls "cell_00000000" .rest Sample.limit Sample.noKeys
          [⟨0, false⟩, ⟨0, false⟩] (bucketKey .rest "cell_00000000"))).1[2]? = some 1000 := by
      decide +kernel
    exact (Option.some.inj (hreply'.symm.trans hthird)).symm
  have hearly := hiff ⟨999, false⟩ ⟨fun h => absurd h (by decide), trivial⟩
  have hlate := hiff ⟨1000, false⟩ ⟨fun h => absurd h (by decide), trivial⟩
  refine ⟨?_, hlate.2 (by decide)⟩
  rw [← Bool.not_eq_true]
  intro hallowed
  exact absurd (hearly.1 hallowed) (by decide)

end Api

end Cellora

/-
# What the limiter admits

Runs of the limiter on one bucket key.  Between two checks Redis may drop the key once its
time to live has passed; the time to live is twice what a refill from zero takes, so a
bucket that is dropped was full.  With times that never run backwards, every window admits
at most the burst plus what the window refills.
-/
import Cellora.Api.RateLimit
import Mathlib.Tactic.Positivity

namespace Cellora

namespace Api

/-- One check: its time, and whether Redis has dropped the key before it. -/
structure Call where
  nowMs : ℕ
  expired : Bool
deriving DecidableEq

/-- The keys that a check finds. -/
def Call.arrive (c : Call) (key : String) (redis : Redis) : Redis :=
  if c.expired then Function.update redis key none else redis

/-- The same check, if the key is kept. -/
def Call.kept (c : Call) : Call := { c with expired := false }

section Runs

variable (keyPrefix : String) (surface : Surface) (params : LimitParams)

/-- The keys after one check. -/
def afterCall (redis : Redis) (c : Call) : Redis :=
  (check keyPrefix surface params c.nowMs (c.arrive (bucketKey surface keyPrefix) redis)).2

/-- The keys after a sequence of checks. -/
def afterCalls (redis : Redis) (calls : List Call) : Redis :=
  calls.foldl (afterCall keyPrefix surface params) redis

/-- The decisions of a sequence of checks, with their times. -/
def decisions : Redis → List Call → List (ℕ × Decision)
  | _, [] => []
  | redis, c :: rest =>
      (c.nowMs, (check keyPrefix surface params c.nowMs
        (c.arrive (bucketKey surface keyPrefix) redis)).1) ::
        decisions (afterCall keyPrefix surface params redis c) rest

/-- Redis drops the key only once its time to live has passed. -/
def ExpiresInTime : Redis → List Call → Prop
  | _, [] => True
  | redis, c :: rest =>
      (c.expired = true → ∀ hash ∈ redis (bucketKey surface keyPrefix),
        hash.expireAt ≤ c.nowMs) ∧
      ExpiresInTime (afterCall keyPrefix surface params redis c) rest

instance : ∀ (redis : Redis) (calls : List Call),
    Decidable (ExpiresInTime keyPrefix surface params redis calls)
  | _, [] => inferInstanceAs (Decidable True)
  | redis, c :: rest =>
      have := instDecidableExpiresInTime (afterCall keyPrefix surface params redis c) rest
      inferInstanceAs (Decidable (_ ∧ _))

/-- The hash at the key, if there is one, holds between zero and `burst` tokens and may be
dropped once its time to live has passed. -/
def StoredOk (data : Option BucketHash) : Prop :=
  ∀ hash ∈ data, 0 ≤ hash.tokens ∧ hash.tokens ≤ params.burst ∧
    hash.expireAt = hash.last + ttlMs params.burst params.refillPerSec

/-- The number of checks in the window from `s` to `t` that were allowed. -/
def allowedIn (s t : ℚ) (log : List (ℕ × Decision)) : ℕ :=
  log.countP fun q => q.2.allowed && decide (s ≤ (q.1 : ℚ) ∧ (q.1 : ℚ) ≤ t)

end Runs

variable {keyPrefix : String} {surface : Surface} {params : LimitParams}

/-! ### The stored bucket -/

section Stored

variable {data : Option BucketHash}

lemma StoredOk.within (h : StoredOk params data) :
    TokenBucket.Within (params.burst : ℚ) (data.map BucketHash.bucket) := by
  intro b hb
  obtain ⟨hash, hhash, rfl⟩ := Option.map_eq_some_iff.1 hb
  obtain ⟨h₀, hle, -⟩ := h hash hhash
  exact ⟨h₀, hle⟩

lemma StoredOk.none : StoredOk params none := fun _ h => nomatch h

lemma rate_pos (hr : 0 < params.refillPerSec) : 0 < params.rate :=
  div_pos hr (by norm_num)

/-- The time to live is worth a full bucket. -/
lemma burst_le_ttl (hr : 0 < params.refillPerSec) :
    (params.burst : ℚ) ≤ params.rate * ttlMs params.burst params.refillPerSec := by
  have hceil : (params.burst : ℚ) * 1000 / params.refillPerSec * 2 ≤
      ttlMs params.burst params.refillPerSec := by
    rw [ttlMs, if_pos hr]
    exact Int.le_ceil _
  have hb : (0 : ℚ) ≤ params.burst := Nat.cast_nonneg _
  calc (params.burst : ℚ) ≤ params.burst * 2 := by linarith
    _ = params.rate * ((params.burst : ℚ) * 1000 / params.refillPerSec * 2) := by
        rw [LimitParams.rate]
        field_simp
    _ ≤ params.rate * ttlMs params.burst params.refillPerSec :=
        mul_le_mul_of_nonneg_left hceil (rate_pos hr).le

/-- **A dropped bucket was full.**  Once the time to live has passed, the script finds the
same tokens as if the key were absent. -/
lemma refilled_of_expired (hr : 0 < params.refillPerSec) {hash : BucketHash}
    (h : StoredOk params (some hash)) {nowMs : ℕ} (hnow : hash.expireAt ≤ nowMs) :
    refilled params.burst params.refillPerSec nowMs (some hash) =
      refilled params.burst params.refillPerSec nowMs none := by
  obtain ⟨h₀, -, hexpire⟩ := h hash rfl
  have hpassed : (ttlMs params.burst params.refillPerSec : ℚ) ≤ (nowMs : ℚ) - hash.last := by
    have : hash.last + ttlMs params.burst params.refillPerSec ≤ (nowMs : ℤ) := hexpire ▸ hnow
    have : ((hash.last : ℤ) : ℚ) + ttlMs params.burst params.refillPerSec ≤ (nowMs : ℤ) := by
      exact_mod_cast this
    push_cast at this
    linarith
  rw [refilled_eq, refilled_eq, Option.map_some]
  refine TokenBucket.level_eq_cap h₀ (rate_pos hr).le ?_
  refine (burst_le_ttl hr).trans ?_
  exact mul_le_mul_of_nonneg_left hpassed (rate_pos hr).le

end Stored

/-! ### One check of a run -/

section Call

variable {redis : Redis} {c : Call}

/-- A dropped key is as good as a kept one. -/
lemma storedOk_arrive (h : StoredOk params (redis (bucketKey surface keyPrefix))) (c : Call) :
    StoredOk params
      (c.arrive (bucketKey surface keyPrefix) redis (bucketKey surface keyPrefix)) := by
  by_cases hexp : c.expired = true
  · rw [Call.arrive, if_pos hexp, Function.update_self]
    exact StoredOk.none
  · rw [Call.arrive, if_neg hexp]
    exact h

/-- Every check leaves such a hash behind, whether the key was dropped before it or not. -/
lemma storedOk_afterCall (hr : 0 < params.refillPerSec)
    (h : StoredOk params (redis (bucketKey surface keyPrefix))) (c : Call) :
    StoredOk params
      (afterCall keyPrefix surface params redis c (bucketKey surface keyPrefix)) := by
  have hnext := TokenBucket.within_next (Nat.cast_nonneg _) (rate_pos hr).le
    (storedOk_arrive h c).within (c.nowMs : ℚ)
  rw [afterCall, check_stored]
  rintro hash ⟨⟩
  exact ⟨(hnext _ rfl).1, (hnext _ rfl).2, rfl⟩

/-- **Expiry is unobservable.**  A check after the key was dropped in time answers and
stores what it would have if the key were there. -/
lemma check_arrive (hr : 0 < params.refillPerSec)
    (h : StoredOk params (redis (bucketKey surface keyPrefix)))
    (hc : c.expired = true → ∀ hash ∈ redis (bucketKey surface keyPrefix),
      hash.expireAt ≤ c.nowMs) :
    check keyPrefix surface params c.nowMs (c.arrive (bucketKey surface keyPrefix) redis) =
      check keyPrefix surface params c.nowMs redis := by
  by_cases hexp : c.expired = true
  · rw [Call.arrive, if_pos hexp]
    cases hdata : redis (bucketKey surface keyPrefix) with
    | none => rw [← hdata, Function.update_eq_self]
    | some hash =>
        rw [hdata] at h
        have hfull := refilled_of_expired hr h (hc hexp hash hdata)
        have hlua : tokenBucketLua params.burst params.refillPerSec c.nowMs 1 none =
            tokenBucketLua params.burst params.refillPerSec c.nowMs 1 (some hash) := by
          rw [tokenBucketLua, tokenBucketLua, hfull]
        simp only [check, Function.update_self, hdata, hlua, Function.update_idem]
  · rw [Call.arrive, if_neg hexp]

end Call

/-! ### Runs -/

section Runs

variable {redis : Redis} {calls : List Call}

lemma storedOk_afterCalls (hr : 0 < params.refillPerSec)
    (h : StoredOk params (redis (bucketKey surface keyPrefix))) (calls : List Call) :
    StoredOk params
      (afterCalls keyPrefix surface params redis calls (bucketKey surface keyPrefix)) := by
  induction calls generalizing redis with
  | nil => exact h
  | cons c rest ih => exact ih (storedOk_afterCall hr h c)

lemma decisions_kept (hr : 0 < params.refillPerSec)
    (h : StoredOk params (redis (bucketKey surface keyPrefix)))
    (hexp : ExpiresInTime keyPrefix surface params redis calls) :
    decisions keyPrefix surface params redis calls =
      decisions keyPrefix surface params redis (calls.map Call.kept) := by
  induction calls generalizing redis with
  | nil => rfl
  | cons c rest ih =>
      obtain ⟨hc, hrest⟩ := hexp
      have hafter : afterCall keyPrefix surface params redis c =
          afterCall keyPrefix surface params redis c.kept :=
        congrArg Prod.snd (check_arrive hr h hc)
      rw [List.map_cons, decisions, decisions, check_arrive hr h hc, ← hafter,
        ih (storedOk_afterCall hr h c) hrest]
      rfl

/-- **Refinement.**  The limiter answers as the token bucket does. -/
lemma decisions_refines (hr : 0 < params.refillPerSec)
    (h : StoredOk params (redis (bucketKey surface keyPrefix)))
    (hexp : ExpiresInTime keyPrefix surface params redis calls) :
    ((decisions keyPrefix surface params redis calls).map fun q => ((q.1 : ℚ), q.2.allowed)) =
      TokenBucket.serve (params.burst : ℚ) params.rate
        ((redis (bucketKey surface keyPrefix)).map BucketHash.bucket)
        (calls.map fun c => (c.nowMs : ℚ)) := by
  induction calls generalizing redis with
  | nil => rfl
  | cons c rest ih =>
      obtain ⟨hc, hrest⟩ := hexp
      have hih := ih (storedOk_afterCall hr h c) hrest
      rw [afterCall, check_arrive hr h hc, check_bucket] at hih
      rw [decisions, List.map_cons, List.map_cons, TokenBucket.serve, check_arrive hr h hc,
        check_allowed, afterCall, check_arrive hr h hc, hih]

/-- Calls that all come at one time. -/
lemma decisions_at_once (hr : 0 < params.refillPerSec)
    (h : StoredOk params (redis (bucketKey surface keyPrefix)))
    (hexp : ExpiresInTime keyPrefix surface params redis calls) {t : ℕ}
    (htimes : ∀ c ∈ calls, c.nowMs = t) :
    ((decisions keyPrefix surface params redis calls).map fun q => ((q.1 : ℚ), q.2.allowed)) =
      TokenBucket.serve (params.burst : ℚ) params.rate
        ((redis (bucketKey surface keyPrefix)).map BucketHash.bucket)
        (List.replicate calls.length (t : ℚ)) := by
  have htimes' : calls.map (fun c => (c.nowMs : ℚ)) = List.replicate calls.length (t : ℚ) := by
    refine List.eq_replicate_iff.2 ⟨List.length_map _, fun u hu => ?_⟩
    obtain ⟨c, hc, rfl⟩ := List.mem_map.1 hu
    rw [htimes c hc]
  rw [decisions_refines hr h hexp, htimes']

end Runs

/-- With times that never run backwards, and keys that Redis drops only once their time to
live has passed: the stored tokens stay between zero and the burst, every window admits at
most the burst plus what it refills, and the decisions are those of a key that never
expires. -/
theorem admission_bound (keyPrefix : String) (surface : Surface) (params : LimitParams)
    (hr : 0 < params.refillPerSec) (redis : Redis)
    (hstart : StoredOk params (redis (bucketKey surface keyPrefix))) (calls : List Call)
    (hmono : (calls.map Call.nowMs).Pairwise (· ≤ ·))
    (hexp : ExpiresInTime keyPrefix surface params redis calls) :
    (∀ n, ∀ hash ∈ afterCalls keyPrefix surface params redis (calls.take n)
        (bucketKey surface keyPrefix), 0 ≤ hash.tokens ∧ hash.tokens ≤ params.burst) ∧
    (∀ s t : ℚ, s ≤ t →
      (allowedIn s t (decisions keyPrefix surface params redis calls) : ℚ) ≤
        params.burst + params.refillPerSec * (t - s) / 1000) ∧
    decisions keyPrefix surface params redis calls =
      decisions keyPrefix surface params redis (calls.map Call.kept) := by
  refine ⟨?_, ?_, decisions_kept hr hstart hexp⟩
  · intro n hash hhash
    obtain ⟨h₀, hle, -⟩ := storedOk_afterCalls hr hstart (calls.take n) hash hhash
    exact ⟨h₀, hle⟩
  · intro s t hst
    have hcount : allowedIn s t (decisions keyPrefix surface params redis calls) =
        TokenBucket.admittedIn s t (TokenBucket.serve (params.burst : ℚ) params.rate
          ((redis (bucketKey surface keyPrefix)).map BucketHash.bucket)
          (calls.map fun c => (c.nowMs : ℚ))) := by
      rw [← decisions_refines hr hstart hexp, TokenBucket.admittedIn, List.countP_map]
      rfl
    have hsorted : (calls.map fun c => (c.nowMs : ℚ)).Pairwise (· ≤ ·) := by
      rw [List.pairwise_map] at hmono ⊢
      exact hmono.imp fun hle => Nat.cast_le.2 hle
    have hbound := TokenBucket.admittedIn_le (Nat.cast_nonneg params.burst) (rate_pos hr).le
      hstart.within hst hsorted
    rw [hcount]
    calc _ ≤ (params.burst : ℚ) + params.rate * (t - s) := hbound
      _ = params.burst + params.refillPerSec * (t - s) / 1000 := by
          rw [LimitParams.rate, div_mul_eq_mul_div]

namespace Sample

/-- Two requests at once, and one more each second. -/
def limit : LimitParams := ⟨2, 1⟩

/-- A burst, a request a second later, and one after Redis has dropped the key. -/
def calls : List Call :=
  [⟨0, false⟩, ⟨0, false⟩, ⟨0, false⟩, ⟨1000, false⟩, ⟨5000, true⟩]

/-- No bucket key exists. -/
def noKeys : Redis := fun _ => none

lemma calls_expire : ExpiresInTime "cell_00000000" .rest limit noKeys calls := by
  decide +kernel

end Sample

/-- Within one second the sample admits three requests. -/
theorem admission_bound_sample :
    allowedIn 0 1000 (decisions "cell_00000000" .rest Sample.limit Sample.noKeys Sample.calls) = 3 ∧
    ((3 : ℕ) : ℚ) ≤ Sample.limit.burst + Sample.limit.refillPerSec * (1000 - 0) / 1000 ∧
    decisions "cell_00000000" .rest Sample.limit Sample.noKeys Sample.calls =
      decisions "cell_00000000" .rest Sample.limit Sample.noKeys
        (Sample.calls.map Call.kept) := by
  obtain ⟨-, hwindow, hkept⟩ := admission_bound "cell_00000000" .rest Sample.limit (by decide)
    Sample.noKeys StoredOk.none Sample.calls (by decide) Sample.calls_expire
  have hcount : allowedIn 0 1000
      (decisions "cell_00000000" .rest Sample.limit Sample.noKeys Sample.calls) = 3 := by
    decide +kernel
  refine ⟨hcount, ?_, hkept⟩
  rw [← hcount]
  exact hwindow 0 1000 (by norm_num)

end Api

end Cellora

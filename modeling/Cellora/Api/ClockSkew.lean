/-
# Clocks that disagree

Several API nodes stamp the requests on one bucket with their own clocks.  The script
records the stamp of every request as the last one, older stamps included, so that a newer
stamp later refills the same time again.  What a sequence of stamps can be worth is the sum
of its forward moves.  Redis drops a key by a clock of its own, so that a request may find its
bucket gone whatever the stamps say, and a dropped bucket is a full one.

The effect of the skew is bounded by the span of the stamps exactly if the key is kept and the
forward moves add up to no more than the span.  A key that is dropped only once the stamps have
passed its time to live is as good as kept.
-/
import Cellora.Api.Admission

namespace Cellora

namespace Api

/-- The checks with the given stamps, on a key that is kept. -/
def stamped (nows : List ℕ) : List Call := nows.map fun n => ⟨n, false⟩

/-- The number of allowed checks. -/
def allowedTotal (log : List (ℕ × Decision)) : ℕ := log.countP fun q => q.2.allowed

/-- The sum of the forward moves from each stamp to the next. -/
def forwardMs : List ℕ → ℕ
  | n :: m :: rest => (m - n) + forwardMs (m :: rest)
  | _ => 0

/-- The newest stamp less the oldest one. -/
def spanMs (nows : List ℕ) : ℕ := nows.max?.getD 0 - nows.min?.getD 0

/-- The stamps of a sequence of checks. -/
def stamps (calls : List Call) : List ℕ := calls.map Call.nowMs

/-- The bound on the effect of the skew, for one limit and one stored bucket: the checks admit
at most the burst and what the span of their stamps refills. -/
def SkewBoundedAt (keyPrefix : String) (surface : Surface) (params : LimitParams) (redis : Redis)
    (calls : List Call) : Prop :=
  (allowedTotal (decisions keyPrefix surface params redis calls) : ℚ) ≤
    params.burst + params.refillPerSec * spanMs (stamps calls) / 1000

/-- The bound on the effect of the skew, for every limit and every stored bucket. -/
def SkewBounded (calls : List Call) : Prop :=
  ∀ (keyPrefix : String) (surface : Surface) (params : LimitParams) (redis : Redis),
    1 ≤ params.burst → 0 < params.refillPerSec →
    StoredOk params (redis (bucketKey surface keyPrefix)) →
    SkewBoundedAt keyPrefix surface params redis calls

/-- No check but the first finds that Redis has dropped the key. -/
def KeptSinceFirst (calls : List Call) : Prop := ∀ c ∈ calls.tail, c.expired = false

section Stamps

lemma forward_eq_forwardMs (n : ℕ) (rest : List ℕ) :
    TokenBucket.forward (n : ℚ) (rest.map (Nat.cast : ℕ → ℚ)) = forwardMs (n :: rest) := by
  induction rest generalizing n with
  | nil => simp [TokenBucket.forward, forwardMs]
  | cons m rest ih =>
      rw [List.map_cons, TokenBucket.forward, ih, forwardMs, Nat.cast_add]
      congr 1
      rcases Nat.le_total n m with h | h
      · rw [Nat.cast_sub h, max_eq_right (sub_nonneg.2 (Nat.cast_le.2 h))]
      · rw [Nat.sub_eq_zero_of_le h, max_eq_left (sub_nonpos.2 (Nat.cast_le.2 h)), Nat.cast_zero]

variable {keyPrefix : String} {surface : Surface} {params : LimitParams} {redis : Redis}

lemma expiresInTime_stamped (nows : List ℕ) (redis : Redis) :
    ExpiresInTime keyPrefix surface params redis (stamped nows) := by
  induction nows generalizing redis with
  | nil => trivial
  | cons n rest ih => exact ⟨fun h => absurd h Bool.false_ne_true, ih _⟩

/-- The allowed checks are the admitted requests of the token bucket. -/
lemma allowedTotal_eq (hr : 0 < params.refillPerSec)
    (h : StoredOk params (redis (bucketKey surface keyPrefix))) (nows : List ℕ) :
    allowedTotal (decisions keyPrefix surface params redis (stamped nows)) =
      TokenBucket.admitted (TokenBucket.serve (params.burst : ℚ) params.rate
        ((redis (bucketKey surface keyPrefix)).map BucketHash.bucket)
        (nows.map (Nat.cast : ℕ → ℚ))) := by
  have href := decisions_refines hr h (expiresInTime_stamped nows redis)
  have hnows : ((stamped nows).map fun c => (c.nowMs : ℚ)) = nows.map (Nat.cast : ℕ → ℚ) := by
    rw [stamped, List.map_map]
    rfl
  rw [← hnows, ← href, TokenBucket.admitted, List.countP_map]
  rfl

/-- The forward moves pay for what exceeds the burst. -/
lemma allowedTotal_le (hr : 0 < params.refillPerSec)
    (h : StoredOk params (redis (bucketKey surface keyPrefix))) (nows : List ℕ) :
    (allowedTotal (decisions keyPrefix surface params redis (stamped nows)) : ℚ) ≤
      params.burst + params.refillPerSec * forwardMs nows / 1000 := by
  rw [allowedTotal_eq hr h]
  cases nows with
  | nil =>
      simp [TokenBucket.serve, TokenBucket.admitted, forwardMs]
  | cons n rest =>
      have hbound := TokenBucket.admitted_le (Nat.cast_nonneg params.burst) (rate_pos hr).le
        h.within (n : ℚ) (rest.map (Nat.cast : ℕ → ℚ))
      rw [forward_eq_forwardMs, LimitParams.rate, div_mul_eq_mul_div] at hbound
      exact hbound

/-- A limit for which all checks are allowed: the burst is one short, and the forward moves
are worth the missing token. -/
def tightLimit (nows : List ℕ) : LimitParams := ⟨nows.length - 1, 1000 / forwardMs nows⟩

lemma allowedTotal_tightLimit {nows : List ℕ} (hpos : 0 < forwardMs nows) :
    allowedTotal (decisions keyPrefix surface (tightLimit nows) (fun _ => none)
      (stamped nows)) = nows.length := by
  have hF : (0 : ℚ) < forwardMs nows := Nat.cast_pos.2 hpos
  have hr : 0 < (tightLimit nows).refillPerSec := div_pos (by norm_num) hF
  rw [allowedTotal_eq hr StoredOk.none]
  rcases nows with _ | ⟨n, _ | ⟨m, rest⟩⟩
  · exact absurd hpos (by decide)
  · exact absurd hpos (by simp [forwardMs])
  have hworth : (tightLimit (n :: m :: rest)).rate *
      TokenBucket.forward (n : ℚ) ((m :: rest).map (Nat.cast : ℕ → ℚ)) = 1 := by
    rw [forward_eq_forwardMs, LimitParams.rate, tightLimit]
    field_simp
  have hall := TokenBucket.admitted_of_worth_one (by simp) (rate_pos hr).le hworth
  rw [List.length_map] at hall
  exact hall

/-- What is dropped before the first check only changes what that check finds. -/
lemma decisions_of_keptSinceFirst {c : Call} {rest : List Call}
    (hkept : KeptSinceFirst (c :: rest)) :
    decisions keyPrefix surface params redis (c :: rest) =
      decisions keyPrefix surface params (c.arrive (bucketKey surface keyPrefix) redis)
        (stamped (stamps (c :: rest))) := by
  have hrest : stamped (stamps rest) = rest := by
    rw [stamped, stamps, List.map_map]
    refine (List.map_congr_left fun d hd => ?_).trans (List.map_id _)
    obtain ⟨nowMs, expired⟩ := d
    obtain rfl : expired = false := hkept _ hd
    rfl
  rw [stamps, List.map_cons, stamped, List.map_cons, decisions, decisions]
  exact congrArg _ (congrArg _ hrest.symm)

/-- A check that finds no key is allowed. -/
lemma check_allowed_of_none (hb : 1 ≤ params.burst) {nowMs : ℕ}
    (hnone : redis (bucketKey surface keyPrefix) = none) :
    (check keyPrefix surface params nowMs redis).1.allowed = true := by
  rw [check_allowed, hnone]
  simpa [TokenBucket.admits, TokenBucket.level] using hb

/-- A dropped key is worth a request. -/
lemma one_le_allowedTotal (hb : 1 ≤ params.burst) {calls : List Call}
    (h : ∃ c ∈ calls, c.expired = true) :
    1 ≤ allowedTotal (decisions keyPrefix surface params redis calls) := by
  induction calls generalizing redis with
  | nil => simp at h
  | cons c rest ih =>
      rw [decisions, allowedTotal, List.countP_cons]
      obtain ⟨d, hd, hexp⟩ := h
      rcases List.mem_cons.1 hd with rfl | hd
      · rw [check_allowed_of_none hb (by simp [Call.arrive, hexp])]
        simp
      · exact (ih ⟨d, hd, hexp⟩).trans (Nat.le_add_right _ _)

/-- With a burst of one, a first request and one that finds the key dropped are both allowed,
and the span is worth less than the second of them. -/
lemma not_skewBounded_of_dropped {calls : List Call} (h : ¬ KeptSinceFirst calls) :
    ¬ SkewBounded calls := by
  intro hbounded
  cases calls with
  | nil => exact h fun d hd => absurd hd List.not_mem_nil
  | cons c rest =>
      have hdropped : ∃ d ∈ rest, d.expired = true := by
        simpa [KeptSinceFirst] using h
      set span := spanMs (stamps (c :: rest)) with hspan
      have hbound := hbounded "" .rest ⟨1, 1 / (span + 1)⟩ (fun _ => none) le_rfl
        (by positivity) StoredOk.none
      have hfirst : (check "" .rest ⟨1, 1 / (span + 1)⟩ c.nowMs
          (c.arrive (bucketKey .rest "") fun _ => none)).1.allowed = true := by
        refine check_allowed_of_none le_rfl ?_
        rw [Call.arrive]
        split <;> simp
      have htwo : 2 ≤ allowedTotal
          (decisions "" .rest ⟨1, 1 / (span + 1)⟩ (fun _ => none) (c :: rest)) := by
        rw [decisions, allowedTotal, List.countP_cons, if_pos hfirst]
        exact Nat.succ_le_succ (one_le_allowedTotal le_rfl hdropped)
      have htwo' : (2 : ℚ) ≤ allowedTotal
          (decisions "" .rest ⟨1, 1 / (span + 1)⟩ (fun _ => none) (c :: rest)) := by
        exact_mod_cast htwo
      have hworth : (1 : ℚ) / (span + 1) * span / 1000 < 1 := by
        rw [div_mul_eq_mul_div, one_mul, div_div, div_lt_one (by positivity)]
        have : (0 : ℚ) ≤ span := Nat.cast_nonneg _
        linarith
      simp only [SkewBoundedAt, ← hspan, Nat.cast_one] at hbound
      linarith

/-- Where the stamps go forward more often than their span pays for, some limit shows it. -/
lemma not_skewBounded_of_span_lt {calls : List Call} (hkept : KeptSinceFirst calls)
    (hlt : spanMs (stamps calls) < forwardMs (stamps calls)) : ¬ SkewBounded calls := by
  intro h
  set nows := stamps calls with hnows
  have hpos : 0 < forwardMs nows := Nat.zero_lt_of_lt hlt
  have hF : (0 : ℚ) < forwardMs nows := Nat.cast_pos.2 hpos
  -- two stamps at least, so the limit has a burst
  have hlen : 2 ≤ nows.length := by
    rcases nows with _ | ⟨n, _ | ⟨m, rest⟩⟩
    · exact absurd hpos (by decide)
    · exact absurd hpos (by simp [forwardMs])
    · simp
  have hbound := h "" .rest (tightLimit nows) (fun _ => none)
    (show 1 ≤ nows.length - 1 by omega) (div_pos (by norm_num) hF) StoredOk.none
  have hdecisions : decisions "" .rest (tightLimit nows) (fun _ => none) calls =
      decisions "" .rest (tightLimit nows) (fun _ => none) (stamped nows) := by
    cases calls with
    | nil => rfl
    | cons c rest =>
        have hnone : c.arrive (bucketKey .rest "") (fun _ => none) = fun _ => none := by
          rw [Call.arrive]
          split
          · exact Function.update_eq_self _ _
          · rfl
        rw [decisions_of_keptSinceFirst hkept, hnone]
  rw [SkewBoundedAt, hdecisions, allowedTotal_tightLimit hpos, tightLimit,
    Nat.cast_sub (by omega), Nat.cast_one, ← hnows] at hbound
  have hworth : 1000 / (forwardMs nows : ℚ) * spanMs nows / 1000 < 1 := by
    rw [div_mul_eq_mul_div, div_div, div_lt_one (by positivity)]
    have : (spanMs nows : ℚ) < forwardMs nows := Nat.cast_lt.2 hlt
    linarith
  simp only at hbound
  linarith

/-- The span pays for forward moves that add up to no more than it. -/
lemma allowedTotal_le_span (hr : 0 < params.refillPerSec)
    (h : StoredOk params (redis (bucketKey surface keyPrefix))) {nows : List ℕ}
    (hspan : forwardMs nows ≤ spanMs nows) :
    (allowedTotal (decisions keyPrefix surface params redis (stamped nows)) : ℚ) ≤
      params.burst + params.refillPerSec * spanMs nows / 1000 := by
  refine (allowedTotal_le hr h nows).trans ?_
  have hcast : (forwardMs nows : ℚ) ≤ spanMs nows := Nat.cast_le.2 hspan
  have := mul_le_mul_of_nonneg_left hcast hr.le
  linarith

end Stamps

/-- **When the effect of the skew is bounded.**  For every sequence of checks, with any stamps
and any drops of the key, the bound holds for every limit and every stored bucket exactly if no
check but the first finds the key dropped and the forward moves of the stamps add up to no more
than their span.  For one limit and one bucket, drops of keys whose time to live has passed by
the stamps do no harm. -/
theorem skewBounded_iff_forward_le_span (calls : List Call) :
    (SkewBounded calls ↔
      KeptSinceFirst calls ∧ forwardMs (stamps calls) ≤ spanMs (stamps calls)) ∧
    (forwardMs (stamps calls) ≤ spanMs (stamps calls) →
      ∀ (keyPrefix : String) (surface : Surface) (params : LimitParams) (redis : Redis),
        1 ≤ params.burst → 0 < params.refillPerSec →
        StoredOk params (redis (bucketKey surface keyPrefix)) →
        ExpiresInTime keyPrefix surface params redis calls →
        SkewBoundedAt keyPrefix surface params redis calls) := by
  refine ⟨⟨fun h => ?_, ?_⟩, ?_⟩
  · have hkept : KeptSinceFirst calls := by
      by_contra hdropped
      exact not_skewBounded_of_dropped hdropped h
    refine ⟨hkept, ?_⟩
    by_contra hlt
    exact not_skewBounded_of_span_lt hkept (not_le.1 hlt) h
  · rintro ⟨hkept, hspan⟩ keyPrefix surface params redis _ hr hstart
    cases calls with
    | nil =>
        simp [SkewBoundedAt, decisions, allowedTotal, stamps, spanMs]
    | cons c rest =>
        rw [SkewBoundedAt, decisions_of_keptSinceFirst hkept]
        exact allowedTotal_le_span hr (storedOk_arrive hstart c) hspan
  · intro hspan keyPrefix surface params redis _ hr hstart hexp
    have hkept : calls.map Call.kept = stamped (stamps calls) := by
      rw [stamped, stamps, List.map_map]
      rfl
    rw [SkewBoundedAt, decisions_kept hr hstart hexp, hkept]
    exact allowedTotal_le_span hr hstart hspan

/-- Two nodes whose clocks differ by one second take turns.  With a burst of one and one
request a second, three of five requests are allowed, while the bound is two. -/
theorem alternating_nodes_exceed_span :
    ¬ (allowedTotal (decisions "cell_00000000" .rest ⟨1, 1⟩ Sample.noKeys (stamped
        [1700000001000, 1700000000000, 1700000001000, 1700000000000, 1700000001000])) : ℚ) ≤
      1 + 1 * spanMs [1700000001000, 1700000000000, 1700000001000, 1700000000000,
        1700000001000] / 1000 := by
  have hcount : allowedTotal (decisions "cell_00000000" .rest ⟨1, 1⟩ Sample.noKeys (stamped
      [1700000001000, 1700000000000, 1700000001000, 1700000000000, 1700000001000])) = 3 := by
    decide +kernel
  have hspan : spanMs [1700000001000, 1700000000000, 1700000001000, 1700000000000,
      1700000001000] = 1000 := by
    decide
  rw [hcount, hspan]
  norm_num

end Api

end Cellora

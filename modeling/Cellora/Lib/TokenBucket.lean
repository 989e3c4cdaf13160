/-
# Token buckets

A bucket holds at most `cap` tokens and gains `rate` tokens in a unit of time.  It is
refilled lazily: a request at time `now` first adds what the time since the last request is
worth, up to `cap`, and then takes one token if there is one.  A request that finds no
bucket finds a full one.  Times that run backwards add nothing, but the time of the request
is recorded all the same.

Over any run the number of admitted requests is at most `cap` plus what the forward moves of
the times are worth (`admitted_le`).  If the times never run backwards, this bounds the
admitted requests of every window (`admittedIn_le`).  The bound by the forward moves
cannot be improved (`admitted_of_worth_one`).
-/
import Mathlib.Algebra.Order.Field.Basic
import Mathlib.Algebra.Order.Floor.Ring
import Mathlib.Tactic.Linarith
import Mathlib.Tactic.Ring

namespace Cellora

namespace TokenBucket

/-- What is stored between two requests. -/
structure Bucket (K : Type) where
  tokens : K
  last : K

variable {K : Type} [Field K] [LinearOrder K]

section Defs

variable (cap rate : K)

/-- The tokens a request finds. -/
def level : Option (Bucket K) → K → K
  | none, _ => cap
  | some b, now => min cap (b.tokens + rate * max 0 (now - b.last))

/-- Whether a request is admitted. -/
def admits (bucket : Option (Bucket K)) (now : K) : Bool := 1 ≤ level cap rate bucket now

/-- The bucket after a request. -/
def next (bucket : Option (Bucket K)) (now : K) : Bucket K where
  tokens :=
    if admits cap rate bucket now then level cap rate bucket now - 1
    else level cap rate bucket now
  last := now

/-- The requests at the given times, each with the answer it gets. -/
def serve : Option (Bucket K) → List K → List (K × Bool)
  | _, [] => []
  | bucket, now :: rest =>
      (now, admits cap rate bucket now) :: serve (some (next cap rate bucket now)) rest

/-- The number of admitted requests. -/
def admitted (log : List (K × Bool)) : ℕ := log.countP fun q => q.2

/-- The number of admitted requests with a time in the window from `s` to `t`. -/
def admittedIn (s t : K) (log : List (K × Bool)) : ℕ :=
  log.countP fun q => q.2 && decide (s ≤ q.1 ∧ q.1 ≤ t)

/-- The sum of the forward moves of the times, from the time `last` on. -/
def forward : K → List K → K
  | _, [] => 0
  | last, now :: rest => max 0 (now - last) + forward now rest

/-- A stored number of tokens lies between zero and the capacity. -/
def Within (bucket : Option (Bucket K)) : Prop := ∀ b ∈ bucket, 0 ≤ b.tokens ∧ b.tokens ≤ cap

end Defs

/-! ### One request -/

section Request

variable (cap rate : K)

lemma level_le_cap (bucket : Option (Bucket K)) (now : K) : level cap rate bucket now ≤ cap := by
  cases bucket with
  | none => exact le_rfl
  | some b => exact min_le_left _ _

lemma level_some_le (b : Bucket K) (now : K) :
    level cap rate (some b) now ≤ b.tokens + rate * max 0 (now - b.last) :=
  min_le_right _ _

variable {cap} in
/-- No time, no refill. -/
lemma level_last {b : Bucket K} (hb : b.tokens ≤ cap) :
    level cap rate (some b) b.last = b.tokens := by
  rw [level, sub_self, max_self, mul_zero, add_zero]
  exact min_eq_right hb

@[simp] lemma last_next (bucket : Option (Bucket K)) (now : K) :
    (next cap rate bucket now).last = now := rfl

/-- A request takes the token it is admitted for, and no other. -/
lemma tokens_next (bucket : Option (Bucket K)) (now : K) :
    (next cap rate bucket now).tokens + (if admits cap rate bucket now then 1 else 0) =
      level cap rate bucket now := by
  by_cases h : admits cap rate bucket now = true
  · simp [next, h]
  · simp [next, h]

lemma admitted_serve_cons (bucket : Option (Bucket K)) (now : K) (rest : List K) :
    (admitted (serve cap rate bucket (now :: rest)) : K) =
      admitted (serve cap rate (some (next cap rate bucket now)) rest) +
        if admits cap rate bucket now then 1 else 0 := by
  rw [serve, admitted, admitted, List.countP_cons]
  push_cast
  rfl

lemma admittedIn_serve_cons (s t : K) (bucket : Option (Bucket K)) (now : K) (rest : List K) :
    (admittedIn s t (serve cap rate bucket (now :: rest)) : K) =
      admittedIn s t (serve cap rate (some (next cap rate bucket now)) rest) +
        if admits cap rate bucket now && decide (s ≤ now ∧ now ≤ t) then 1 else 0 := by
  rw [serve, admittedIn, admittedIn, List.countP_cons]
  push_cast
  rfl

/-- Requests after the window do not count. -/
lemma admittedIn_eq_zero {s t : K} {nows : List K} (h : ∀ n ∈ nows, t < n)
    (bucket : Option (Bucket K)) : admittedIn s t (serve cap rate bucket nows) = 0 := by
  induction nows generalizing bucket with
  | nil => rfl
  | cons now rest ih =>
      obtain ⟨hnow, hrest⟩ := List.forall_mem_cons.1 h
      rw [serve, admittedIn, List.countP_cons, ← admittedIn, ih hrest]
      simp [not_le.2 hnow]

end Request

variable [IsStrictOrderedRing K] {cap rate : K} {bucket : Option (Bucket K)}

lemma level_nonneg (hcap : 0 ≤ cap) (hrate : 0 ≤ rate) (h : Within cap bucket) (now : K) :
    0 ≤ level cap rate bucket now := by
  cases bucket with
  | none => exact hcap
  | some b =>
      refine le_min hcap (add_nonneg (h b rfl).1 ?_)
      exact mul_nonneg hrate (le_max_left _ _)

/-- The stored tokens stay between zero and the capacity. -/
lemma within_next (hcap : 0 ≤ cap) (hrate : 0 ≤ rate) (h : Within cap bucket) (now : K) :
    Within cap (some (next cap rate bucket now)) := by
  have hle := level_le_cap cap rate bucket now
  have hnn := level_nonneg hcap hrate h now
  rintro b ⟨⟩
  by_cases hadm : admits cap rate bucket now = true
  · have hone : 1 ≤ level cap rate bucket now := of_decide_eq_true hadm
    simp only [next, if_pos hadm]
    constructor <;> linarith
  · simp only [next, if_neg hadm]
    exact ⟨hnn, hle⟩

/-- If the time since the last request is worth a full bucket, the bucket is full. -/
lemma level_eq_cap {b : Bucket K} (hb : 0 ≤ b.tokens) {now : K} (hrate : 0 ≤ rate)
    (h : cap ≤ rate * (now - b.last)) : level cap rate (some b) now = cap := by
  refine min_eq_left ?_
  have hmax : rate * (now - b.last) ≤ rate * max 0 (now - b.last) :=
    mul_le_mul_of_nonneg_left (le_max_right _ _) hrate
  linarith

/-! ### All requests of a run -/

lemma forward_nonneg (last : K) (nows : List K) : 0 ≤ forward last nows := by
  induction nows generalizing last with
  | nil => exact le_rfl
  | cons now rest ih => exact add_nonneg (le_max_left _ _) (ih now)

/-- **The accounting of a run.**  Every admitted request is paid by a stored token or by a
forward move of the times. -/
theorem admitted_some_le (hcap : 0 ≤ cap) (hrate : 0 ≤ rate) {b : Bucket K}
    (hb : Within cap (some b)) (nows : List K) :
    (admitted (serve cap rate (some b) nows) : K) ≤ b.tokens + rate * forward b.last nows := by
  induction nows generalizing b with
  | nil =>
      have := (hb b rfl).1
      simpa [admitted, serve, forward] using this
  | cons now rest ih =>
      have hnext := ih (within_next hcap hrate hb now)
      have hpaid := tokens_next cap rate (some b) now
      have hlevel := level_some_le cap rate b now
      rw [last_next] at hnext
      rw [admitted_serve_cons, forward, mul_add]
      linarith

/-- A run admits at most `cap` requests more than its forward moves are worth. -/
theorem admitted_le (hcap : 0 ≤ cap) (hrate : 0 ≤ rate) (h : Within cap bucket) (now : K)
    (rest : List K) :
    (admitted (serve cap rate bucket (now :: rest)) : K) ≤ cap + rate * forward now rest := by
  have hrest := admitted_some_le hcap hrate (within_next hcap hrate h now) rest
  have hpaid := tokens_next cap rate bucket now
  have hlevel := level_le_cap cap rate bucket now
  rw [last_next] at hrest
  rw [admitted_serve_cons]
  linarith

/-! ### The requests of a window -/

/-- A request of the window costs what it costs the run. -/
lemma admittedIn_cons_le (cap rate s t : K) (bucket : Option (Bucket K)) (now : K) (rest : List K) :
    (admittedIn s t (serve cap rate bucket (now :: rest)) : K) +
        (next cap rate bucket now).tokens ≤
      admittedIn s t (serve cap rate (some (next cap rate bucket now)) rest) +
        level cap rate bucket now := by
  have hpaid := tokens_next cap rate bucket now
  have hcost : (if admits cap rate bucket now && decide (s ≤ now ∧ now ≤ t) then (1 : K) else 0) ≤
      if admits cap rate bucket now then 1 else 0 := by
    cases admits cap rate bucket now with
    | false => simp
    | true => by_cases h : s ≤ now ∧ now ≤ t <;> simp [h]
  rw [admittedIn_serve_cons]
  linarith

/-- Once the window is entered, it is paid by the stored tokens and the time that is left. -/
lemma admittedIn_some_le (hcap : 0 ≤ cap) (hrate : 0 ≤ rate) (s : K) {t : K} {b : Bucket K}
    (hb : Within cap (some b)) (hlast : b.last ≤ t) {nows : List K}
    (hmono : (b.last :: nows).Pairwise (· ≤ ·)) :
    (admittedIn s t (serve cap rate (some b) nows) : K) ≤ b.tokens + rate * (t - b.last) := by
  have hnonneg : 0 ≤ b.tokens + rate * (t - b.last) :=
    add_nonneg (hb b rfl).1 (mul_nonneg hrate (sub_nonneg.2 hlast))
  induction nows generalizing b with
  | nil => simpa [admittedIn, serve] using hnonneg
  | cons now rest ih =>
      obtain ⟨hle, hrest⟩ := List.pairwise_cons.1 hmono
      by_cases hnow : now ≤ t
      · have hwithin := within_next hcap hrate hb now
        have hih := ih hwithin hnow hrest
          (add_nonneg (hwithin _ rfl).1 (mul_nonneg hrate (sub_nonneg.2 hnow)))
        have hstep := admittedIn_cons_le cap rate s t (some b) now rest
        have hlevel := level_some_le cap rate b now
        rw [max_eq_right (sub_nonneg.2 (hle now List.mem_cons_self))] at hlevel
        rw [last_next] at hih
        rw [mul_sub] at hih hlevel ⊢
        linarith
      · -- the window is over
        have hafter : ∀ n ∈ now :: rest, t < n := by
          intro n hn
          rcases List.mem_cons.1 hn with rfl | hn
          · exact not_le.1 hnow
          · exact (not_le.1 hnow).trans_le ((List.pairwise_cons.1 hrest).1 n hn)
        rw [admittedIn_eq_zero cap rate hafter]
        simpa using hnonneg

/-- **The bound of a window.**  If the times never run backwards, a window admits at most
`cap` requests more than its length is worth. -/
theorem admittedIn_le (hcap : 0 ≤ cap) (hrate : 0 ≤ rate) (h : Within cap bucket) {s t : K}
    (hst : s ≤ t) {nows : List K} (hmono : nows.Pairwise (· ≤ ·)) :
    (admittedIn s t (serve cap rate bucket nows) : K) ≤ cap + rate * (t - s) := by
  have hnonneg : 0 ≤ cap + rate * (t - s) :=
    add_nonneg hcap (mul_nonneg hrate (sub_nonneg.2 hst))
  induction nows generalizing bucket with
  | nil => simpa [admittedIn, serve] using hnonneg
  | cons now rest ih =>
      have hwithin := within_next hcap hrate h now
      by_cases hs : now < s
      · -- before the window
        have hih := ih hwithin hmono.of_cons
        rw [admittedIn_serve_cons, if_neg (by simp [not_le.2 hs]), add_zero]
        exact hih
      · by_cases ht : now ≤ t
        · have hrest := admittedIn_some_le hcap hrate s hwithin ht hmono
          have hstep := admittedIn_cons_le cap rate s t bucket now rest
          have hlevel := level_le_cap cap rate bucket now
          have hlen : rate * (t - now) ≤ rate * (t - s) :=
            mul_le_mul_of_nonneg_left (by linarith [not_lt.1 hs]) hrate
          rw [last_next] at hrest
          linarith
        · have hafter : ∀ n ∈ now :: rest, t < n := by
            intro n hn
            rcases List.mem_cons.1 hn with rfl | hn
            · exact not_le.1 ht
            · exact (not_le.1 ht).trans_le ((List.pairwise_cons.1 hmono).1 n hn)
          rw [admittedIn_eq_zero cap rate hafter]
          simpa using hnonneg

/-! ### The bound is sharp -/

/-- If the stored tokens and the forward moves pay for all requests but do not overflow the
bucket, all requests are admitted. -/
theorem admits_of_forward (hrate : 0 ≤ rate) {b : Bucket K} {nows : List K}
    (hstored : (nows.length : K) ≤ b.tokens + 1)
    (hpaid : (nows.length : K) ≤ b.tokens + rate * forward b.last nows)
    (hcap : b.tokens + rate * forward b.last nows ≤ cap) :
    admitted (serve cap rate (some b) nows) = nows.length := by
  induction nows generalizing b with
  | nil => rfl
  | cons now rest ih =>
      have hgain : 0 ≤ rate * max 0 (now - b.last) := mul_nonneg hrate (le_max_left _ _)
      have hlater : 0 ≤ rate * forward now rest := mul_nonneg hrate (forward_nonneg _ _)
      rw [forward, mul_add] at hpaid hcap
      rw [List.length_cons, Nat.cast_add, Nat.cast_one] at hpaid hstored
      -- nothing is lost to the cap
      have hlevel : level cap rate (some b) now = b.tokens + rate * max 0 (now - b.last) := by
        refine min_eq_right ?_
        linarith
      have hone : 1 ≤ level cap rate (some b) now := by
        rw [hlevel]
        rcases rest with _ | ⟨n, rest⟩
        · simpa [forward] using hpaid
        · rw [List.length_cons, Nat.cast_add, Nat.cast_one] at hstored
          have : (0 : K) ≤ rest.length := Nat.cast_nonneg _
          linarith
      have hadm : admits cap rate (some b) now = true := decide_eq_true hone
      have htokens := tokens_next cap rate (some b) now
      rw [if_pos hadm, hlevel] at htokens
      have hih : admitted (serve cap rate (some (next cap rate (some b) now)) rest) =
          rest.length := by
        refine ih ?_ ?_ ?_
        · linarith
        · rw [last_next]
          linarith
        · rw [last_next]
          linarith
      rw [serve, admitted, List.countP_cons, hadm, if_pos rfl, List.length_cons, ← hih]
      rfl

/-- A full bucket that is one token short of the requests admits them all, if the forward
moves are worth that token. -/
theorem admitted_of_worth_one {now : K} {rest : List K} (hrest : rest ≠ []) (hrate : 0 ≤ rate)
    (hworth : rate * forward now rest = 1) :
    admitted (serve (rest.length : K) rate none (now :: rest)) = rest.length + 1 := by
  have hone : (1 : K) ≤ rest.length := by
    exact_mod_cast List.length_pos_iff.2 hrest
  have hadm : admits (rest.length : K) rate none now = true := decide_eq_true hone
  have htokens := tokens_next (rest.length : K) rate none now
  rw [if_pos hadm, level] at htokens
  have hall : admitted (serve (rest.length : K) rate
      (some (next (rest.length : K) rate none now)) rest) = rest.length := by
    refine admits_of_forward hrate ?_ ?_ ?_
    · linarith
    · rw [last_next, hworth]
      linarith
    · rw [last_next, hworth]
      linarith
  rw [serve, admitted, List.countP_cons, hadm, if_pos rfl, ← admitted, hall]

/-! ### What a client may rely on -/

/-- Requests at one time are admitted for the whole tokens that are stored, and no more. -/
theorem serve_replicate_last (rate : K) {b : Bucket K} (hb : b.tokens ≤ cap) {n : ℕ}
    (hn : (n : K) ≤ b.tokens) (hlt : b.tokens < n + 1) :
    (serve cap rate (some b) (List.replicate (n + 1) b.last)).map Prod.snd =
      List.replicate n true ++ [false] := by
  induction n generalizing b with
  | zero =>
      have hnot : admits cap rate (some b) b.last = false := by
        refine decide_eq_false (not_le.2 ?_)
        rw [level_last rate hb]
        simpa using hlt
      rw [List.replicate_succ, serve, List.map_cons, hnot]
      rfl
  | succ n ih =>
      rw [Nat.cast_add, Nat.cast_one] at hn hlt
      have hnn : (0 : K) ≤ n := Nat.cast_nonneg n
      have hadm : admits cap rate (some b) b.last = true := by
        refine decide_eq_true ?_
        rw [level_last rate hb]
        linarith
      have htokens := tokens_next cap rate (some b) b.last
      rw [if_pos hadm, level_last rate hb] at htokens
      have hrest := ih (b := next cap rate (some b) b.last) (by linarith) (by linarith)
        (by linarith)
      rw [last_next] at hrest
      rw [List.replicate_succ, serve, List.map_cons, hadm, hrest, List.replicate_succ,
        List.cons_append]

/-- As many requests at one time are all admitted as there are whole tokens. -/
theorem serve_replicate_all_iff (hcap : 0 ≤ cap) (hrate : 0 ≤ rate) (h : Within cap bucket)
    (now : K) (n : ℕ) :
    (∀ q ∈ serve cap rate bucket (List.replicate n now), q.2 = true) ↔
      (n : K) ≤ level cap rate bucket now := by
  induction n generalizing bucket with
  | zero =>
      have := level_nonneg hcap hrate h now
      simpa [serve] using this
  | succ n ih =>
      have hnext := within_next hcap hrate h now
      have htokens := tokens_next cap rate bucket now
      have hlast := level_last rate (hnext _ rfl).2
      rw [last_next] at hlast
      rw [List.replicate_succ, serve, List.forall_mem_cons, ih hnext, hlast, Nat.cast_add,
        Nat.cast_one]
      by_cases hadm : admits cap rate bucket now = true
      · rw [if_pos hadm] at htokens
        constructor
        · rintro ⟨-, hle⟩
          linarith
        · intro hle
          exact ⟨hadm, by linarith⟩
      · -- without a whole token the first one is refused
        have hlt : level cap rate bucket now < 1 :=
          not_le.1 (of_decide_eq_false (Bool.eq_false_iff.2 hadm))
        have hn : (0 : K) ≤ n := Nat.cast_nonneg n
        constructor
        · rintro ⟨hq, -⟩
          exact absurd hq hadm
        · intro hle
          exact absurd hle (not_le.2 (by linarith))

/-- A bucket admits the next request once the time is worth what is missing for a token. -/
lemma admits_iff_worth (hcap : 1 ≤ cap) (b : Bucket K) (now : K) :
    admits cap rate (some b) now = true ↔ 1 - b.tokens ≤ rate * max 0 (now - b.last) := by
  rw [admits, decide_eq_true_iff, level, le_min_iff]
  constructor
  · rintro ⟨-, h⟩
    linarith
  · intro h
    exact ⟨hcap, by linarith⟩

/-- The same, for times that are multiples of the unit. -/
theorem admits_iff_ceil_le [FloorRing K] (hcap : 1 ≤ cap) (hrate : 0 < rate) {tokens : K}
    (htokens : tokens < 1) (last now : ℤ) :
    admits cap rate (some ⟨tokens, last⟩) now = true ↔
      last + ⌈(1 - tokens) / rate⌉ ≤ now := by
  have hmissing : 0 < (1 - tokens) / rate := div_pos (by linarith) hrate
  rw [admits_iff_worth hcap, ← div_le_iff₀' hrate, le_max_iff]
  constructor
  · rintro (h | h)
    · exact absurd hmissing (not_lt.2 h)
    · have : ⌈(1 - tokens) / rate⌉ ≤ now - last := Int.ceil_le.2 (by push_cast; exact h)
      omega
  · intro h
    right
    have hle : ⌈(1 - tokens) / rate⌉ ≤ now - last := by omega
    have := Int.ceil_le.1 hle
    push_cast at this
    exact this

end TokenBucket

end Cellora

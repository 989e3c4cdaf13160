/-
# What a request is charged

A request is accounted for in three places: the bucket of its key, the log of requests that
the dashboard shows, and the metrics.  Every exchange that was finished is counted by the
metrics once, and logged once if it was authenticated, whatever its status; what was cut off
is in neither.  A bucket is changed only by exchanges that present a bearer of its key, so that
what the limiter decides for one key on one surface does not depend on any other traffic.
-/
import Cellora.Api.Mediation

namespace Cellora

namespace Api

/-! ### The log of requests -/

/-- The payload an exchange has put into the log. -/
def Exchange.logged (cfg : GatewayConfig) (e : Exchange) : Option ApiRequestLogPayload :=
  match e.stage with
  | .done (some key) latencyMs response =>
      if cfg.redis then some (requestLog e.request response latencyMs key) else none
  | _ => none

/-- What the metrics have counted of an exchange. -/
def Exchange.observation (e : Exchange) : Option Observation :=
  match e.stage with
  | .done _ _ response => some ⟨e.request.method, e.request.path, response.status⟩
  | _ => none

namespace Gateway

/-- The log and the metrics hold what the exchanges have put there. -/
structure Metered (cfg : GatewayConfig) (s : Gateway) : Prop where
  log : s.log.Perm (s.exchanges.filterMap (Exchange.logged cfg))
  observed : s.observed.Perm (s.exchanges.filterMap Exchange.observation)

section Metered

variable {cfg : GatewayConfig} {A : Argon2Lib} {ttl : ℕ} {s : Gateway}

/-- An exchange that is not finished has put nothing there. -/
lemma not_metered_of_isOpen (cfg : GatewayConfig) {e : Exchange} (h : e.stage.isOpen = true) :
    e.logged cfg = none ∧ e.observation = none := by
  unfold Exchange.logged Exchange.observation
  split
  · rename_i hstage
    rw [hstage] at h
    cases h
  · split
    · rename_i hstage
      rw [hstage] at h
      cases h
    · exact ⟨rfl, rfl⟩

lemma Metered.append (h : s.Metered cfg) {w : World} {e : Exchange}
    (hopen : e.stage.isOpen = true) :
    Metered cfg { s with auth := w, exchanges := s.exchanges ++ [e] } := by
  obtain ⟨hlogged, hobserved⟩ := not_metered_of_isOpen cfg hopen
  refine ⟨?_, ?_⟩
  · rw [List.filterMap_append, List.filterMap_cons_none hlogged, List.filterMap_nil,
      List.append_nil]
    exact h.log
  · rw [List.filterMap_append, List.filterMap_cons_none hobserved, List.filterMap_nil,
      List.append_nil]
    exact h.observed

/-- An exchange goes on, and puts there what its new stage says. -/
lemma Metered.set (h : s.Metered cfg) (e' : Exchange) (buckets : Redis) {i : ℕ} {e : Exchange}
    (he : s.exchanges[i]? = some e) (hopen : e.stage.isOpen = true) :
    Metered cfg { s with
      buckets := buckets
      exchanges := s.exchanges.set i e'
      log := s.log ++ (e'.logged cfg).toList
      observed := s.observed ++ e'.observation.toList } := by
  obtain ⟨hlogged, hobserved⟩ := not_metered_of_isOpen cfg hopen
  have hlog := Machine.perm_filterMap_set (f := Exchange.logged cfg) he e'
  have hobs := Machine.perm_filterMap_set (f := Exchange.observation) he e'
  rw [hlogged, Option.toList_none, List.append_nil] at hlog
  rw [hobserved, Option.toList_none, List.append_nil] at hobs
  exact ⟨(h.log.append_right _).trans hlog.symm, (h.observed.append_right _).trans hobs.symm⟩

/-- An exchange goes on and is still not finished, or was cut off. -/
lemma Metered.setStage (h : s.Metered cfg) {i : ℕ} {e : Exchange} {stage : ExchangeStage}
    {buckets : Redis} (he : s.exchanges[i]? = some e) (hopen : e.stage.isOpen = true)
    (hnone : Exchange.logged cfg { e with stage := stage } = none ∧
      Exchange.observation { e with stage := stage } = none) :
    Metered cfg { s.setStage i e stage with buckets := buckets } := by
  have hset := h.set { e with stage := stage } buckets he hopen
  rw [hnone.1, hnone.2, Option.toList_none, Option.toList_none, List.append_nil,
    List.append_nil] at hset
  exact hset

/-- **Every move keeps the log and the metrics exact.** -/
lemma Metered.exec (h : s.Metered cfg) (A : Argon2Lib) (ttl : ℕ) (m : GatewayMove) :
    (s.exec cfg A ttl m).Metered cfg := by
  have hm := moved cfg A ttl s m
  generalize s.exec cfg A ttl m = s' at hm
  cases hm with
  | idle => exact h
  | auth hm => exact ⟨h.log, h.observed⟩
  | published snap => exact ⟨h.log, h.observed⟩
  | opened hsurface => exact h.append rfl
  | unreadable hsurface hbearer => exact h.append rfl
  | arrived hsurface hbearer => exact h.append rfl
  | resolved he hstage hreq => exact h.setStage he (by rw [hstage]; rfl) ⟨rfl, rfl⟩
  | refused he hstage hreq => exact h.setStage he (by rw [hstage]; rfl) ⟨rfl, rfl⟩
  | limited he hstage hsurface hconsult => exact h.setStage he (by rw [hstage]; rfl) ⟨rfl, rfl⟩
  | admitted he hstage hsurface hconsult => exact h.setStage he (by rw [hstage]; rfl) ⟨rfl, rfl⟩
  | handled he hstage => exact h.setStage he (by rw [hstage]; rfl) ⟨rfl, rfl⟩
  | @finished i now latencyMs e key response final he hstage hfinal =>
      have hset := h.set { e with stage := .done key latencyMs final } s.buckets he
        (by rw [hstage]; rfl)
      have hlogged : (Exchange.logged cfg { e with stage := .done key latencyMs final }).toList =
          if cfg.redis then (key.map (requestLog e.request final latencyMs)).toList else [] := by
        cases key with
        | none => simp [Exchange.logged]
        | some key => cases hredis : cfg.redis <;> simp [Exchange.logged, hredis]
      rw [hlogged] at hset
      exact hset
  | cut he hopen => exact h.setStage he hopen ⟨rfl, rfl⟩

end Metered

end Gateway

/-! ### The buckets -/

lemma bucketKey_eq (surface : Surface) (p : String) :
    bucketKey surface p = "rl:" ++ surface.slug ++ ":" ++ p := rfl

/-- The keys of two buckets differ. -/
lemma bucketKey_injective {surface surface' : Surface} {p p' : String}
    (h : bucketKey surface p = bucketKey surface' p') : surface = surface' ∧ p = p' := by
  rw [bucketKey_eq, bucketKey_eq, ← String.toList_inj] at h
  cases surface with
  | rest =>
      cases surface' with
      | rest => exact ⟨rfl, String.toList_inj.1 (by simpa [Surface.slug] using h)⟩
      | graphql => simp [Surface.slug] at h
  | graphql =>
      cases surface' with
      | rest => simp [Surface.slug] at h
      | graphql => exact ⟨rfl, String.toList_inj.1 (by simpa [Surface.slug] using h)⟩

/-- What asking the limiter does to the buckets: of which bucket, with which limits, when, and
whether the script takes effect. -/
structure Charge where
  surface : Surface
  keyPrefix : String
  params : LimitParams
  call : Call
  checks : Bool
deriving DecidableEq

/-- The charge is one of a key on a surface. -/
def Charge.isOf (surface : Surface) (keyPrefix : String) (c : Charge) : Bool :=
  c.surface = surface && c.keyPrefix = keyPrefix

/-- The buckets after a charge. -/
def Charge.apply (c : Charge) (redis : Redis) : Redis :=
  let found := c.call.arrive (bucketKey c.surface c.keyPrefix) redis
  if c.checks then (check c.keyPrefix c.surface c.params c.call.nowMs found).2 else found

/-- The buckets if these were the only charges. -/
def alone (charges : List Charge) : Redis :=
  charges.foldl (fun redis c => c.apply redis) fun _ => none

section Charges

variable {redis redis' : Redis}

lemma arrive_of_ne (call : Call) {b key : String} (h : b ≠ key) :
    call.arrive key redis b = redis b := by
  unfold Call.arrive
  split
  · exact Function.update_of_ne h _ _
  · rfl

lemma arrive_congr (call : Call) {key : String} (h : redis key = redis' key) :
    call.arrive key redis key = call.arrive key redis' key := by
  unfold Call.arrive
  split
  · rw [Function.update_self, Function.update_self]
  · exact h

/-- A check reads and writes its own bucket only. -/
lemma check_congr {keyPrefix : String} {surface : Surface} (params : LimitParams) (nowMs : ℕ)
    (h : redis (bucketKey surface keyPrefix) = redis' (bucketKey surface keyPrefix)) :
    (check keyPrefix surface params nowMs redis).1 =
        (check keyPrefix surface params nowMs redis').1 ∧
      (check keyPrefix surface params nowMs redis).2 (bucketKey surface keyPrefix) =
        (check keyPrefix surface params nowMs redis').2 (bucketKey surface keyPrefix) := by
  simp only [check, h, Function.update_self, and_self]

lemma Charge.isOf_iff {surface : Surface} {keyPrefix : String} {c : Charge} :
    c.isOf surface keyPrefix = true ↔ c.surface = surface ∧ c.keyPrefix = keyPrefix := by
  rw [Charge.isOf, Bool.and_eq_true, decide_eq_true_eq, decide_eq_true_eq]

lemma Charge.apply_of_ne (c : Charge) {b : String} (h : b ≠ bucketKey c.surface c.keyPrefix) :
    c.apply redis b = redis b := by
  unfold Charge.apply
  split
  · exact (Function.update_of_ne h _ _).trans (arrive_of_ne c.call h)
  · exact arrive_of_ne c.call h

lemma Charge.apply_congr (c : Charge)
    (h : redis (bucketKey c.surface c.keyPrefix) = redis' (bucketKey c.surface c.keyPrefix)) :
    c.apply redis (bucketKey c.surface c.keyPrefix) =
      c.apply redis' (bucketKey c.surface c.keyPrefix) := by
  have harrive := arrive_congr c.call h
  unfold Charge.apply
  split
  · exact (check_congr c.params c.call.nowMs harrive).2
  · exact harrive

end Charges

namespace Gateway

/-- The charge a move makes. -/
def chargeOf (cfg : GatewayConfig) (s : Gateway) : GatewayMove → Option Charge
  | .limit i call reply =>
      match s.exchanges[i]? with
      | none => none
      | some e =>
          match e.stage, e.request.surface with
          | .limiting key, some surface =>
              some ⟨surface, key.keyPrefix, LimitParams.fromConfig cfg.limits key.tier surface,
                call, cfg.limiter.isSome && reply ≠ .failed⟩
          | _, _ => none
  | _ => none

/-- The charge of the move at a position. -/
def chargeAt (cfg : GatewayConfig) (A : Argon2Lib) (ttl : ℕ) (s₀ : Gateway)
    (ms : List GatewayMove) (j : ℕ) : Option Charge :=
  ms[j]?.bind (chargeOf cfg (stateAt cfg A ttl s₀ ms j))

/-- The charges of a key on a surface before the move at a position. -/
def chargesOf (cfg : GatewayConfig) (A : Argon2Lib) (ttl : ℕ) (s₀ : Gateway)
    (ms : List GatewayMove) (surface : Surface) (keyPrefix : String) (k : ℕ) : List Charge :=
  ((List.range k).filterMap (chargeAt cfg A ttl s₀ ms)).filter (Charge.isOf surface keyPrefix)

section Isolation

variable {cfg : GatewayConfig} {A : Argon2Lib} {ttl : ℕ} {s s₀ : Gateway} {ms : List GatewayMove}

/-- The buckets that `consult` leaves. -/
lemma consult_snd (cfg : GatewayConfig) (surface : Surface) (reply : ScriptReply)
    (key : AuthenticatedKey) (call : Call) (redis : Redis) :
    (consult cfg surface call.nowMs reply key
        (call.arrive (bucketKey surface key.keyPrefix) redis)).2 =
      Charge.apply ⟨surface, key.keyPrefix, LimitParams.fromConfig cfg.limits key.tier surface,
        call, cfg.limiter.isSome && reply ≠ .failed⟩ redis := by
  unfold consult Charge.apply
  cases cfg.limiter with
  | none => rfl
  | some failOpen => cases reply <;> rfl

lemma buckets_cutOff (s : Gateway) (i : ℕ) (response : Exchange → Option Response) :
    (s.cutOff i response).buckets = s.buckets := by
  unfold Gateway.cutOff
  split
  · rfl
  · split <;> rfl

/-- **A move changes the buckets by its charge.** -/
lemma buckets_exec (cfg : GatewayConfig) (A : Argon2Lib) (ttl : ℕ) (s : Gateway)
    (m : GatewayMove) :
    (s.exec cfg A ttl m).buckets =
      match chargeOf cfg s m with
      | none => s.buckets
      | some c => c.apply s.buckets := by
  cases m with
  | limit i call reply =>
      simp only [Gateway.exec, Gateway.limit, chargeOf]
      cases he : s.exchanges[i]? with
      | none => rfl
      | some e =>
          obtain ⟨⟨method, path, surface, authorization, requestId⟩, id, stage⟩ := e
          cases stage with
          | limiting key =>
              cases surface with
              | none => rfl
              | some surface =>
                  dsimp only
                  rw [← consult_snd]
                  split
                  · rename_i response buckets hconsult
                    rw [hconsult]
                  · rename_i decision buckets hconsult
                    rw [hconsult]
          | _ => rfl
  | auth m =>
      simp only [Gateway.exec, chargeOf]
      split <;> rfl
  | arrive request uuid =>
      simp only [Gateway.exec, Gateway.arrive, chargeOf]
      split
      · rfl
      · split <;> rfl
  | resume i =>
      simp only [Gateway.exec, Gateway.resume, chargeOf]
      split
      · rfl
      · split
        · split <;> rfl
        · rfl
  | handle i response =>
      simp only [Gateway.exec, Gateway.handle, chargeOf]
      split
      · rfl
      · split <;> rfl
  | finish i now latencyMs =>
      simp only [Gateway.exec, Gateway.finish, chargeOf]
      split
      · rfl
      · split <;> rfl
  | timeout i => exact buckets_cutOff s i _
  | panic i => exact buckets_cutOff s i _
  | drop i => exact buckets_cutOff s i _
  | publishTip snap => rfl

lemma chargesOf_succ (surface : Surface) (keyPrefix : String) (k : ℕ) :
    chargesOf cfg A ttl s₀ ms surface keyPrefix (k + 1) =
      chargesOf cfg A ttl s₀ ms surface keyPrefix k ++
        (chargeAt cfg A ttl s₀ ms k).toList.filter (Charge.isOf surface keyPrefix) := by
  rw [chargesOf, List.range_succ, List.filterMap_append, List.filter_append, chargesOf]
  cases h : chargeAt cfg A ttl s₀ ms k with
  | none => rw [List.filterMap_cons_none h]; rfl
  | some c => rw [List.filterMap_cons_some h]; rfl

/-- **A bucket is what its own charges leave.** -/
lemma buckets_stateAt (cfg : GatewayConfig) (A : Argon2Lib) (ttl clock : ℕ) (rows : List ApiKey)
    (tip : TipSnapshot) (ms : List GatewayMove) (surface : Surface) (keyPrefix : String) (k : ℕ) :
    (stateAt cfg A ttl (start clock rows tip) ms k).buckets (bucketKey surface keyPrefix) =
      alone (chargesOf cfg A ttl (start clock rows tip) ms surface keyPrefix k)
        (bucketKey surface keyPrefix) := by
  induction k with
  | zero => rfl
  | succ k ih =>
      rw [chargesOf_succ]
      cases hm : ms[k]? with
      | none =>
          have hnone : chargeAt cfg A ttl (start clock rows tip) ms k = none := by
            rw [chargeAt, hm, Option.bind_none]
          rw [hnone, Option.toList_none, List.filter_nil, List.append_nil, ← ih, stateAt,
            Machine.before_succ_of_none _ hm]
          rfl
      | some m =>
          have hcharge : chargeAt cfg A ttl (start clock rows tip) ms k =
              chargeOf cfg (stateAt cfg A ttl (start clock rows tip) ms k) m := by
            rw [chargeAt, hm, Option.bind_some]
          rw [stateAt_succ hm, buckets_exec, ← hcharge]
          cases chargeAt cfg A ttl (start clock rows tip) ms k with
          | none =>
              rw [Option.toList_none, List.filter_nil, List.append_nil]
              exact ih
          | some c =>
              rw [Option.toList_some]
              by_cases hown : c.isOf surface keyPrefix = true
              · -- a charge of this bucket
                rw [List.filter_cons_of_pos hown, List.filter_nil, alone, List.foldl_append]
                obtain ⟨rfl, rfl⟩ := Charge.isOf_iff.1 hown
                exact c.apply_congr ih
              · -- a charge of another one
                rw [List.filter_cons_of_neg hown, List.filter_nil, List.append_nil, ← ih]
                refine c.apply_of_ne fun hkey => hown (Charge.isOf_iff.2 ?_)
                obtain ⟨rfl, rfl⟩ := bucketKey_injective hkey
                exact ⟨rfl, rfl⟩

/-- **The limiter keeps keys apart.**  In every run, whatever the limiter is asked next about a
key on a surface, it decides as if the charges of that key on that surface were the only ones
there had ever been.  And each of these was made for an exchange on that surface whose own
header held a bearer that matched a row with that prefix. -/
theorem limiter_isolates_keys (cfg : GatewayConfig) (A : Argon2Lib) (ttl clock : ℕ)
    (rows : List ApiKey) (tip : TipSnapshot) (ms : List GatewayMove) (k : ℕ) (surface : Surface)
    (keyPrefix : String) :
    (∀ (params : LimitParams) (call : Call),
      (check keyPrefix surface params call.nowMs (call.arrive (bucketKey surface keyPrefix)
          (stateAt cfg A ttl (start clock rows tip) ms k).buckets)).1 =
        (check keyPrefix surface params call.nowMs (call.arrive (bucketKey surface keyPrefix)
          (alone (chargesOf cfg A ttl (start clock rows tip) ms surface keyPrefix k)))).1) ∧
    ∀ c ∈ chargesOf cfg A ttl (start clock rows tip) ms surface keyPrefix k,
      ∃ j < k, chargeAt cfg A ttl (start clock rows tip) ms j = some c ∧
        ∃ (i : ℕ) (e : Exchange) (bearer : String) (row : ApiKey),
          (stateAt cfg A ttl (start clock rows tip) ms j).exchanges[i]? = some e ∧
          e.request.surface = some surface ∧
          extractBearer e.request.authorization = .ok bearer ∧
          SeenBy cfg A ttl (start clock rows tip) ms j row ∧ RowMatches A bearer row ∧
          row.keyPrefix = keyPrefix := by
  refine ⟨fun params call => ?_, fun c hc => ?_⟩
  · exact (check_congr params call.nowMs (arrive_congr call
      (buckets_stateAt cfg A ttl clock rows tip ms surface keyPrefix k))).1
  · obtain ⟨hmem, hown⟩ := List.mem_filter.1 hc
    obtain ⟨j, hj, hcharge⟩ := List.mem_filterMap.1 hmem
    refine ⟨j, List.mem_range.1 hj, hcharge, ?_⟩
    obtain ⟨rfl, rfl⟩ := Charge.isOf_iff.1 hown
    obtain ⟨m, hm, hof⟩ := Option.bind_eq_some_iff.1 hcharge
    unfold chargeOf at hof
    split at hof
    · rename_i i call reply
      split at hof
      · cases hof
      · rename_i e he
        split at hof
        · rename_i key surface hstage hsurface
          obtain rfl := Option.some.inj hof
          have hok := (mediated_stateAt cfg A ttl clock rows tip ms j).exchanges he
          rw [Exchange.Ok, hstage] at hok
          obtain ⟨-, bearer, -, hbearer, row, hrow, hmatch, rfl⟩ := hok
          exact ⟨i, e, bearer, row, he, hsurface, hbearer, hrow, hmatch, rfl⟩
        · cases hof
    · cases hof

end Isolation

end Gateway

end Api

end Cellora
